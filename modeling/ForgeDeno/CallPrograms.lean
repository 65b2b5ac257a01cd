import Mathlib.Data.List.Basic

/-- A program that makes calls to a component it knows nothing about and reacts to every answer.
`replaced` tells which failures of a call the handlers around it replace. -/
inductive CallProgram (C : Type) (R : C → Type) (F : Type) (α : Type) where
  | done (outcome : Except F α)
  | call (c : C) (replaced : F → Bool) (next : Except F (R c) → CallProgram C R F α)

namespace CallProgram

open List

variable {C : Type} {R : C → Type} {F α β : Type}

def fail (e : F) : CallProgram C R F α := .done (.error e)

def ask (c : C) : CallProgram C R F (R c) := .call c (fun _ => false) .done

def bind : CallProgram C R F α → (α → CallProgram C R F β) → CallProgram C R F β
  | .done (.ok a), f => f a
  | .done (.error e), _ => .done (.error e)
  | .call c replaced next, f => .call c replaced fun r => (next r).bind f

instance : Monad (CallProgram C R F) where
  pure a := .done (.ok a)
  bind := bind

protected theorem bind_assoc {γ : Type} (p : CallProgram C R F α) (f : α → CallProgram C R F β)
    (g : β → CallProgram C R F γ) : (p.bind f).bind g = p.bind fun a => (f a).bind g := by
  induction p with
  | done outcome => cases outcome <;> rfl
  | call c replaced next ih =>
    show CallProgram.call c replaced _ = CallProgram.call c replaced _
    exact congrArg _ (funext ih)

protected theorem bind_done (p : CallProgram C R F α) : (p.bind fun a => .done (.ok a)) = p := by
  induction p with
  | done outcome => cases outcome <;> rfl
  | call c replaced next ih =>
    show CallProgram.call c replaced _ = CallProgram.call c replaced _
    exact congrArg _ (funext ih)

instance : LawfulMonad (CallProgram C R F) :=
  LawfulMonad.mk' (CallProgram C R F) CallProgram.bind_done (fun _ _ => rfl) CallProgram.bind_assoc

/-- `try { p } catch`: the failures that the handler takes are replaced by what it does. -/
def handle (p : CallProgram C R F α) (handler : F → Option (CallProgram C R F α)) : CallProgram C R F α :=
  match p with
  | .done (.ok a) => .done (.ok a)
  | .done (.error e) => (handler e).getD (.done (.error e))
  | .call c replaced next =>
    .call c (fun e => replaced e || (handler e).isSome) fun r => (next r).handle handler

def andFinally (p : CallProgram C R F α) (cleanup : CallProgram C R F Unit) : CallProgram C R F α :=
  match p with
  | .done outcome => cleanup.bind fun _ => .done outcome
  | .call c replaced next => .call c replaced fun r => (next r).andFinally cleanup

def quietly (p : CallProgram C R F Unit) : CallProgram C R F Unit :=
  p.handle fun _ => some (.done (.ok ()))

structure Exchange (C : Type) (R : C → Type) (F : Type) where
  call : C
  reply : Except F (R call)

inductive Runs : CallProgram C R F α → List (Exchange C R F) → CallProgram C R F α → Prop where
  | nil (p : CallProgram C R F α) : Runs p [] p
  | cons {c : C} {replaced : F → Bool} {next : Except F (R c) → CallProgram C R F α}
      {trace : List (Exchange C R F)} {q : CallProgram C R F α} (r : Except F (R c))
      (rest : Runs (next r) trace q) : Runs (.call c replaced next) (⟨c, r⟩ :: trace) q

/-- Whatever is answered, every call meets `P` given the exchanges before it, and the outcome meets
`Q` given all of them. -/
def Meets (P : List (Exchange C R F) → C → Prop) (Q : List (Exchange C R F) → Except F α → Prop) :
    List (Exchange C R F) → CallProgram C R F α → Prop
  | past, .done outcome => Q past outcome
  | past, .call c _ next =>
    P past c ∧ ∀ r, Meets P Q (past ++ [⟨c, r⟩]) (next r)

section meets

variable {P : List (Exchange C R F) → C → Prop}
  {Q Q' : List (Exchange C R F) → Except F α → Prop} {past : List (Exchange C R F)}

variable {p : CallProgram C R F α}

theorem Meets.weaken (h : Meets P Q past p)
    (imp : ∀ later outcome, past <+: later → Q later outcome → Q' later outcome) : Meets P Q' past p := by
  induction p generalizing past with
  | done outcome => exact imp past outcome prefix_rfl h
  | call c replaced next ih =>
    obtain ⟨now, rest⟩ := h
    refine ⟨now, fun r => ih r (rest r) fun later outcome longer => ?_⟩
    exact imp later outcome ((prefix_append past _).trans longer)

theorem Meets.ask {c : C} {Q : List (Exchange C R F) → Except F (R c) → Prop} (now : P past c)
    (after : ∀ r, Q (past ++ [⟨c, r⟩]) r) : Meets P Q past (.ask c) :=
  ⟨now, after⟩

variable {f : α → CallProgram C R F β}

theorem Meets.bind
    {Q : List (Exchange C R F) → Except F β → Prop}
    (h : Meets P (fun later outcome =>
      match outcome with
      | .ok a => Meets P Q later (f a)
      | .error e => Q later (.error e)) past p) : Meets P Q past (p.bind f) := by
  induction p generalizing past with
  | done outcome =>
    cases outcome with
    | ok a => exact h
    | error e => exact h
  | call c replaced next ih =>
    obtain ⟨now, rest⟩ := h
    exact ⟨now, fun r => ih r (rest r)⟩

theorem Meets.andThen
    {Q : List (Exchange C R F) → Except F β → Prop} {S : List (Exchange C R F) → α → Prop}
    (first : Meets P (fun later outcome => ∀ a, outcome = .ok a → S later a) past p)
    (failed : ∀ later e, Q later (.error e))
    (rest : ∀ later a, past <+: later → S later a → Meets P Q later (f a)) : Meets P Q past (p >>= f) := by
  apply Meets.bind
  apply first.weaken
  intro later outcome longer known
  cases outcome with
  | ok a => exact rest later a longer (known a rfl)
  | error e => exact failed later e

theorem Meets.given {x : Except F α}
    {Q : List (Exchange C R F) → Except F β → Prop} (failed : ∀ e, Q past (.error e))
    (rest : ∀ a, x = .ok a → Meets P Q past (f a)) : Meets P Q past ((.done x : CallProgram C R F α) >>= f) := by
  cases x with
  | ok a => exact rest a rfl
  | error e => exact failed e

theorem Meets.handle {handler : F → Option (CallProgram C R F α)}
    (h : Meets P (fun later outcome =>
      match outcome with
      | .ok a => Q later (.ok a)
      | .error e => Meets P Q later ((handler e).getD (.done (.error e)))) past p) :
    Meets P Q past (p.handle handler) := by
  induction p generalizing past with
  | done outcome =>
    cases outcome with
    | ok a => exact h
    | error e => exact h
  | call c replaced next ih =>
    obtain ⟨now, rest⟩ := h
    exact ⟨now, fun r => ih r (rest r)⟩

theorem Meets.andFinally {cleanup : CallProgram C R F Unit}
    (h : Meets P (fun later outcome => Meets P Q later (cleanup.bind fun _ => .done outcome)) past p) :
    Meets P Q past (p.andFinally cleanup) := by
  induction p generalizing past with
  | done outcome => exact h
  | call c replaced next ih =>
    obtain ⟨now, rest⟩ := h
    exact ⟨now, fun r => ih r (rest r)⟩

theorem Runs.meets {q : CallProgram C R F α} {trace : List (Exchange C R F)} (run : Runs p trace q)
    (h : Meets P Q past p) {earlier later : List (Exchange C R F)} {exchange : Exchange C R F}
    (parts : trace = earlier ++ exchange :: later) : P (past ++ earlier) exchange.call := by
  induction run generalizing past earlier with
  | nil p =>
    cases earlier <;> cases parts
  | cons r rest ih =>
    obtain ⟨now, next⟩ := h
    cases earlier with
    | nil =>
      cases parts
      rw [append_nil]
      exact now
    | cons first earlier =>
      cases parts
      have after := ih (next r) rfl
      rwa [append_assoc] at after

end meets

/-- Every call meets `P`, whatever was exchanged before. -/
def Keeps (P : List (Exchange C R F) → C → Prop) (p : CallProgram C R F α) : Prop :=
  ∀ past, Meets P (fun _ _ => True) past p

section keeps

variable {P : List (Exchange C R F) → C → Prop}

theorem Keeps.done (outcome : Except F α) : Keeps P (.done outcome : CallProgram C R F α) :=
  fun _ => trivial

theorem Keeps.pure (a : α) : Keeps P (Pure.pure a : CallProgram C R F α) := fun _ => trivial

theorem Keeps.ask {c : C} (now : ∀ past, P past c) : Keeps P (.ask c : CallProgram C R F (R c)) :=
  fun past => Meets.ask (now past) fun _ => trivial

theorem Keeps.imp {P' : List (Exchange C R F) → C → Prop} {p : CallProgram C R F α}
    (h : Keeps P p) (imp : ∀ past c, P past c → P' past c) : Keeps P' p := by
  have all : ∀ past, Meets P (fun _ _ => True) past p → Meets P' (fun _ _ => True) past p := by
    clear h
    induction p with
    | done outcome => exact fun _ _ => trivial
    | call c replaced next ih =>
      intro past h
      exact ⟨imp past c h.1, fun r => ih r _ (h.2 r)⟩
  exact fun past => all past (h past)

theorem Keeps.bind {p : CallProgram C R F α} {f : α → CallProgram C R F β} (first : Keeps P p)
    (rest : ∀ a, Keeps P (f a)) : Keeps P (p >>= f) := by
  intro past
  apply Meets.bind
  apply (first past).weaken
  intro later outcome _ _
  cases outcome with
  | ok a => exact rest a later
  | error e => exact trivial

theorem Keeps.given {x : Except F α} {f : α → CallProgram C R F β} (rest : ∀ a, x = .ok a → Keeps P (f a)) :
    Keeps P ((.done x : CallProgram C R F α) >>= f) :=
  fun past => Meets.given (fun _ => trivial) fun a same => rest a same past

theorem Keeps.handle {p : CallProgram C R F α} {handler : F → Option (CallProgram C R F α)}
    (first : Keeps P p) (rest : ∀ e q, handler e = some q → Keeps P q) : Keeps P (p.handle handler) := by
  intro past
  apply Meets.handle
  apply (first past).weaken
  intro later outcome _ _
  cases outcome with
  | ok a => exact trivial
  | error e =>
    cases taken : handler e with
    | none =>
      dsimp only
      rw [taken]
      exact trivial
    | some q =>
      dsimp only
      rw [taken]
      exact rest e q taken later

theorem Keeps.andFinally {p : CallProgram C R F α} {cleanup : CallProgram C R F Unit}
    (first : Keeps P p) (last : Keeps P cleanup) : Keeps P (p.andFinally cleanup) := by
  intro past
  apply Meets.andFinally
  apply (first past).weaken
  intro later outcome _ _
  exact Keeps.bind last (fun _ => Keeps.done outcome) later

theorem Keeps.quietly {p : CallProgram C R F Unit} (first : Keeps P p) : Keeps P p.quietly := by
  apply Keeps.handle first
  intro e q taken
  cases taken
  exact Keeps.done _

end keeps

/-- A failure of a call that no handler replaces ends the program at once. -/
def Surfaces : CallProgram C R F α → Prop
  | .done _ => True
  | .call _ replaced next =>
    (∀ e, replaced e = false → next (.error e) = .done (.error e)) ∧ ∀ r, (next r).Surfaces

/-- The program fails with the failure that is on its way out, `pending` or one of a later call, unless a
handler replaces it or the failure of a further call does. -/
def Carries : Option F → CallProgram C R F α → Prop
  | pending, .done outcome => ∀ e ∈ pending, outcome = .error e
  | pending, .call _ replaced next => (∀ a, (next (.ok a)).Carries pending) ∧
    ∀ e, (next (.error e)).Carries (if replaced e then pending else some e)

section surfaces

variable {p : CallProgram C R F α}

theorem Surfaces.pure (a : α) : (Pure.pure a : CallProgram C R F α).Surfaces := trivial

theorem Surfaces.ask (c : C) : (.ask c : CallProgram C R F (R c)).Surfaces :=
  ⟨fun _ _ => rfl, fun _ => trivial⟩

theorem Surfaces.bind {p : CallProgram C R F α} (first : p.Surfaces) {f : α → CallProgram C R F β}
    (rest : ∀ a, (f a).Surfaces) : (p >>= f).Surfaces := by
  show (p.bind f).Surfaces
  induction p with
  | done outcome =>
    cases outcome with
    | ok a => exact rest a
    | error e => exact trivial
  | call c replaced next ih =>
    obtain ⟨through, further⟩ := first
    refine ⟨fun e alone => ?_, fun r => ih r (further r)⟩
    dsimp only
    rw [through e alone]
    rfl

theorem Surfaces.handle (first : p.Surfaces)
    {handler : F → Option (CallProgram C R F α)} (rest : ∀ e q, handler e = some q → q.Surfaces) :
    (p.handle handler).Surfaces := by
  induction p with
  | done outcome =>
    cases outcome with
    | ok a => exact trivial
    | error e =>
      show ((handler e).getD (.done (.error e))).Surfaces
      cases taken : handler e with
      | none => exact trivial
      | some q => exact rest e q taken
  | call c replaced next ih =>
    obtain ⟨through, further⟩ := first
    refine ⟨fun e alone => ?_, fun r => ih r (further r)⟩
    obtain ⟨inner, left⟩ := Bool.or_eq_false_iff.mp alone
    have passed : handler e = none := Option.isNone_iff_eq_none.mp (Option.isSome_eq_false_iff.mp left)
    dsimp only
    rw [through e inner, CallProgram.handle, passed]
    rfl

theorem Surfaces.carries (h : p.Surfaces) : p.Carries none := by
  induction p with
  | done outcome => exact nofun
  | call c replaced next ih =>
    obtain ⟨through, further⟩ := h
    refine ⟨fun a => ih _ (further _), fun e => ?_⟩
    split
    · exact ih _ (further _)
    next alone =>
      rw [through e (eq_false_of_ne_true alone)]
      rintro _ ⟨⟩
      rfl

theorem Carries.bind {pending : Option F} {p : CallProgram C R F α} (first : p.Carries pending)
    {f : α → CallProgram C R F β} (rest : ∀ a, (f a).Carries none) : (p >>= f).Carries pending := by
  show (p.bind f).Carries pending
  induction p generalizing pending with
  | done outcome =>
    cases outcome with
    | ok a =>
      cases pending with
      | none => exact rest a
      | some e => cases first e rfl
    | error e =>
      intro other mem
      cases first other mem
      rfl
  | call c replaced next ih =>
    obtain ⟨goes, throws⟩ := first
    exact ⟨fun a => ih _ (goes a), fun e => ih _ (throws e)⟩

/-- A handler that takes every failure leaves none of its program on its way out. -/
theorem Carries.handle {handler : F → Option (CallProgram C R F α)}
    (rest : ∀ e, ∃ q, handler e = some q ∧ q.Carries none) : (p.handle handler).Carries none := by
  induction p with
  | done outcome =>
    cases outcome with
    | ok a => exact nofun
    | error e =>
      obtain ⟨q, taken, carries⟩ := rest e
      rw [CallProgram.handle, taken]
      exact carries
  | call c replaced next ih =>
    refine ⟨fun a => ih _, fun e => ?_⟩
    obtain ⟨q, taken, _⟩ := rest e
    have all : (replaced e || (handler e).isSome) = true := by rw [taken]; exact Bool.or_true _
    rw [if_pos all]
    exact ih _

theorem handle_none (p : CallProgram C R F α) : p.handle (fun _ => none) = p := by
  induction p with
  | done outcome => cases outcome <;> rfl
  | call c replaced next ih =>
    rw [CallProgram.handle, funext ih]
    congr 1
    funext e
    exact Bool.or_false _

end surfaces

abbrev Answers (C : Type) (R : C → Type) (F : Type) :=
  List (Exchange C R F) → (c : C) → Except F (R c)

def history (answer : Answers C R F) : List (Exchange C R F) → CallProgram C R F α → List (Exchange C R F)
  | past, .done _ => past
  | past, .call c _ next => history answer (past ++ [⟨c, answer past c⟩]) (next (answer past c))

def outcome (answer : Answers C R F) : List (Exchange C R F) → CallProgram C R F α → Except F α
  | _, .done outcome => outcome
  | past, .call c _ next => outcome answer (past ++ [⟨c, answer past c⟩]) (next (answer past c))

section running

variable {answer : Answers C R F} {past : List (Exchange C R F)}

@[simp] theorem history_done (x : Except F α) : history answer past (.done x : CallProgram C R F α) = past := rfl

@[simp] theorem outcome_done (x : Except F α) : outcome answer past (.done x : CallProgram C R F α) = x := rfl

@[simp] theorem history_pure (a : α) : history answer past (Pure.pure a : CallProgram C R F α) = past := rfl

@[simp] theorem outcome_pure (a : α) : outcome answer past (Pure.pure a : CallProgram C R F α) = .ok a := rfl

@[simp] theorem history_ask (c : C) :
    history answer past (.ask c : CallProgram C R F (R c)) = past ++ [⟨c, answer past c⟩] := rfl

@[simp] theorem outcome_ask (c : C) :
    outcome answer past (.ask c : CallProgram C R F (R c)) = answer past c := rfl

theorem outcome_bind (p : CallProgram C R F α) (f : α → CallProgram C R F β) :
    outcome answer past (p >>= f) =
      match outcome answer past p with
      | .ok a => outcome answer (history answer past p) (f a)
      | .error e => .error e := by
  show outcome answer past (p.bind f) = _
  induction p generalizing past with
  | done x => cases x <;> rfl
  | call c replaced next ih => exact ih (answer past c)

variable {p : CallProgram C R F α}

theorem outcome_bind_ok {f : α → CallProgram C R F β} {b : β} :
    outcome answer past (p >>= f) = .ok b ↔
      ∃ a, outcome answer past p = .ok a ∧ outcome answer (history answer past p) (f a) = .ok b := by
  rw [outcome_bind]
  cases outcome answer past p with
  | ok a =>
    constructor
    · exact fun h => ⟨a, rfl, h⟩
    · rintro ⟨_, same, h⟩
      cases same
      exact h
  | error e => exact ⟨nofun, fun ⟨_, h, _⟩ => (by cases h)⟩

theorem history_bind (p : CallProgram C R F α) (f : α → CallProgram C R F β) :
    history answer past (p >>= f) =
      match outcome answer past p with
      | .ok a => history answer (history answer past p) (f a)
      | .error _ => history answer past p := by
  show history answer past (p.bind f) = _
  induction p generalizing past with
  | done x => cases x <;> rfl
  | call c replaced next ih => exact ih (answer past c)

theorem history_handle (p : CallProgram C R F α) (handler : F → Option (CallProgram C R F α)) :
    history answer past (p.handle handler) =
      match outcome answer past p with
      | .ok _ => history answer past p
      | .error e => history answer (history answer past p) ((handler e).getD (.done (.error e))) := by
  induction p generalizing past with
  | done x => cases x <;> rfl
  | call c replaced next ih => exact ih (answer past c)

theorem history_extends (p : CallProgram C R F α) : past <+: history answer past p := by
  induction p generalizing past with
  | done x => exact prefix_rfl
  | call c replaced next ih => exact (prefix_append past _).trans (ih (answer past c))

theorem Meets.against {P : List (Exchange C R F) → C → Prop}
    {Q : List (Exchange C R F) → Except F α → Prop}
    (h : Meets P Q past p) : Q (history answer past p) (outcome answer past p) := by
  induction p generalizing past with
  | done x => exact h
  | call c replaced next ih => exact ih (answer past c) (h.2 _)

theorem Keeps.exchanges {S : C → Prop} (h : Keeps (fun _ c => S c) p)
    {exchange : Exchange C R F} (mem : exchange ∈ history answer past p) : exchange ∈ past ∨ S exchange.call := by
  have all : ∀ past, Meets (fun _ c => S c) (fun _ _ => True) past p →
      exchange ∈ history answer past p → exchange ∈ past ∨ S exchange.call := by
    clear h mem
    induction p with
    | done x => exact fun past _ mem => .inl mem
    | call c replaced next ih =>
      intro past h mem
      rcases ih (answer past c) _ (h.2 _) mem with old | new
      · rcases mem_append.mp old with before | last
        · exact .inl before
        · rw [mem_singleton.mp last]
          exact .inr h.1
      · exact .inr new
  exact all past (h past) mem

end running

def Starts (needs : Prop) (p : CallProgram C R F α) : Prop :=
  (needs → ∃ c replaced next, p = .call c replaced next) ∧ (¬needs → ∃ e, p = .done (.error e))

section starts

variable {needs other : Prop} {p : CallProgram C R F α} {f : α → CallProgram C R F β}

theorem Starts.call (c : C) (replaced : F → Bool) (next : Except F (R c) → CallProgram C R F α) :
    Starts True (.call c replaced next) :=
  ⟨fun _ => ⟨c, replaced, next, rfl⟩, fun never => absurd trivial never⟩

theorem Starts.fail (e : F) : Starts False (.done (.error e) : CallProgram C R F α) :=
  ⟨False.elim, fun _ => ⟨e, rfl⟩⟩

theorem Starts.congr (h : Starts needs p) (same : needs ↔ other) : Starts other p := by
  rwa [← propext same]

theorem Starts.bind (h : Starts needs p) : Starts needs (p >>= f) := by
  constructor
  · intro met
    obtain ⟨c, replaced, next, same⟩ := h.1 met
    subst same
    exact ⟨c, replaced, _, rfl⟩
  · intro unmet
    obtain ⟨e, same⟩ := h.2 unmet
    subst same
    exact ⟨e, rfl⟩

theorem Starts.handle {handler : F → Option (CallProgram C R F α)} (h : Starts True p) :
    Starts True (p.handle handler) := by
  obtain ⟨c, replaced, next, same⟩ := h.1 trivial
  subst same
  exact Starts.call _ _ _

theorem Starts.given {x : Except F α} {needs : α → Prop} (h : ∀ a, Starts (needs a) (f a)) :
    Starts (∃ a, x = .ok a ∧ needs a) ((.done x : CallProgram C R F α) >>= f) := by
  cases x with
  | ok a => exact (h a).congr ⟨fun met => ⟨a, rfl, met⟩, fun ⟨_, same, met⟩ => by cases same; exact met⟩
  | error e => exact (Starts.fail e).congr ⟨False.elim, fun ⟨_, same, _⟩ => by cases same⟩

end starts

inductive Reached (answer : Answers C R F) (p : CallProgram C R F α) (past : List (Exchange C R F)) :
    CallProgram C R F α → List (Exchange C R F) → Prop where
  | start : Reached answer p past p past
  | next {c : C} {replaced : F → Bool} {next : Except F (R c) → CallProgram C R F α}
      {now : List (Exchange C R F)} (before : Reached answer p past (.call c replaced next) now) :
      Reached answer p past (next (answer now c)) (now ++ [⟨c, answer now c⟩])

section reached

variable {answer : Answers C R F} {p q : CallProgram C R F α} {past now : List (Exchange C R F)}

theorem Reached.history_eq (h : Reached answer p past q now) : history answer now q = history answer past p := by
  induction h with
  | start => rfl
  | next before ih => exact ih

theorem Reached.earlier {c : C} {replaced : F → Bool} {next : Except F (R c) → CallProgram C R F α}
    (h : Reached answer (next (answer past c)) (past ++ [⟨c, answer past c⟩]) q now) :
    Reached answer (.call c replaced next) past q now := by
  induction h with
  | start => exact .next .start
  | next before ih => exact ih.next

theorem history_from_call (answer : Answers C R F) (past : List (Exchange C R F)) (c : C)
    (replaced : F → Bool) (next : Except F (R c) → CallProgram C R F α) : ∃ later,
    history answer past (.call c replaced next) = past ++ ⟨c, answer past c⟩ :: later := by
  obtain ⟨later, whole⟩ : past ++ [⟨c, answer past c⟩] <+: history answer past (.call c replaced next) :=
    history_extends (next (answer past c))
  refine ⟨later, ?_⟩
  rw [← whole, append_assoc]
  rfl

theorem history_call {c : C} {replaced : F → Bool} {next : Except F (R c) → CallProgram C R F α}
    {exchange : Exchange C R F} {later : List (Exchange C R F)}
    (parts : history answer past (.call c replaced next) = past ++ exchange :: later) :
    exchange = ⟨c, answer past c⟩ := by
  obtain ⟨rest, whole⟩ := history_from_call answer past c replaced next
  rw [whole] at parts
  exact (List.cons.inj (append_cancel_left parts)).1.symm

theorem reached_at {earlier later : List (Exchange C R F)} {exchange : Exchange C R F}
    (parts : history answer past p = past ++ (earlier ++ exchange :: later)) :
    ∃ replaced next, Reached answer p past (.call exchange.call replaced next) (past ++ earlier) ∧
      exchange.reply = answer (past ++ earlier) exchange.call := by
  induction p generalizing past earlier with
  | done outcome =>
    have same : past.length = (past ++ (earlier ++ exchange :: later)).length := congrArg length parts
    simp at same
  | call c replaced next ih =>
    cases earlier with
    | nil =>
      have own := history_call parts
      subst own
      rw [append_nil]
      exact ⟨replaced, next, .start, rfl⟩
    | cons first earlier =>
      have own := history_call parts
      subst own
      have rest : history answer (past ++ [⟨c, answer past c⟩]) (next (answer past c)) =
          past ++ [⟨c, answer past c⟩] ++ (earlier ++ exchange :: later) := by
        rw [append_assoc]
        exact parts
      obtain ⟨replaced', next', before, answered⟩ := ih (answer past c) rest
      rw [append_assoc] at before answered
      exact ⟨replaced', next', before.earlier, answered⟩

theorem Reached.keeps {Holds : CallProgram C R F α → List (Exchange C R F) → Prop}
    (h : Reached answer p past q now) (start : Holds p past)
    (step : ∀ {c replaced next now}, Holds (.call c replaced next) now →
      Holds (next (answer now c)) (now ++ [⟨c, answer now c⟩])) : Holds q now := by
  induction h with
  | start => exact start
  | next before ih => exact step ih

end reached

end CallProgram
