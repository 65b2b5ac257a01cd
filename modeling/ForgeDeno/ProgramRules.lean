import Mathlib.Logic.Basic

/-- A computation over a state that may fail and keeps the state it has failed in. -/
structure Program (σ ε α : Type) where
  run : σ → Except ε α × σ

namespace Program

variable {σ ε α β : Type}

instance : Monad (Program σ ε) where
  pure a := ⟨fun s => (.ok a, s)⟩
  bind x f := ⟨fun s =>
    match x.run s with
    | (.ok a, t) => (f a).run t
    | (.error e, t) => (.error e, t)⟩

protected theorem bind_pure' (x : Program σ ε α) : (x >>= fun a => pure a) = x := by
  show Program.mk _ = x
  congr 1
  funext s
  show (match x.run s with
    | (.ok a, t) => (Except.ok a, t)
    | (.error e, t) => (.error e, t)) = x.run s
  rcases x.run s with ⟨_ | _, t⟩ <;> rfl

protected theorem bind_assoc' {γ : Type} (x : Program σ ε α) (f : α → Program σ ε β)
    (g : β → Program σ ε γ) : (x >>= f >>= g) = (x >>= fun a => f a >>= g) := by
  show Program.mk _ = Program.mk _
  congr 1
  funext s
  show (match (match x.run s with
      | (.ok a, t) => (f a).run t
      | (.error e, t) => (.error e, t)) with
    | (.ok b, t) => (g b).run t
    | (.error e, t) => (.error e, t)) =
      match x.run s with
      | (.ok a, t) => (f a >>= g).run t
      | (.error e, t) => (.error e, t)
  rcases x.run s with ⟨_ | _, t⟩ <;> rfl

instance : LawfulMonad (Program σ ε) :=
  LawfulMonad.mk' (Program σ ε) Program.bind_pure' (fun _ _ => rfl) Program.bind_assoc'

def lift (x : Except ε α) : Program σ ε α := ⟨fun s => (x, s)⟩

def act (f : σ → Except ε α × σ) : Program σ ε α := ⟨f⟩

def handle (x : Program σ ε α) (handler : ε → Program σ ε α) : Program σ ε α := ⟨fun s =>
  match x.run s with
  | (.ok a, t) => (.ok a, t)
  | (.error e, t) => (handler e).run t⟩

def attempt (x : Program σ ε α) : Program σ ε (Except ε α) := ⟨fun s =>
  (.ok (x.run s).1, (x.run s).2)⟩

def andFinally (x : Program σ ε α) (cleanup : Program σ ε Unit) : Program σ ε α := ⟨fun s =>
  match cleanup.run (x.run s).2 with
  | (.ok _, t) => ((x.run s).1, t)
  | (.error e, t) => (.error e, t)⟩

def gets (f : σ → α) : Program σ ε α := ⟨fun s => (.ok (f s), s)⟩

def modify (f : σ → σ) : Program σ ε Unit := ⟨fun s => (.ok (), f s)⟩

section runs

variable {x : Program σ ε α} {f : α → Program σ ε β} {s t : σ} {a : α} {e : ε}

theorem run_bind_ok (h : x.run s = (.ok a, t)) : (x >>= f).run s = (f a).run t := by
  show (match x.run s with
    | (.ok a, t) => (f a).run t
    | (.error e, t) => (.error e, t)) = _
  rw [h]

theorem run_bind_error (h : x.run s = (.error e, t)) : (x >>= f).run s = (.error e, t) := by
  show (match x.run s with
    | (.ok a, t) => (f a).run t
    | (.error e, t) => (.error e, t)) = _
  rw [h]

theorem run_handle_ok {handler : ε → Program σ ε α} (h : x.run s = (.ok a, t)) :
    (x.handle handler).run s = (.ok a, t) := by
  show (match x.run s with
    | (.ok a, t) => (Except.ok a, t)
    | (.error e, t) => (handler e).run t) = _
  rw [h]

theorem run_handle_error {handler : ε → Program σ ε α} (h : x.run s = (.error e, t)) :
    (x.handle handler).run s = (handler e).run t := by
  show (match x.run s with
    | (.ok a, t) => (Except.ok a, t)
    | (.error e, t) => (handler e).run t) = _
  rw [h]

end runs

/-- From every state in `P` the computation ends with a result and a state in `Q`, or with an error
in a state in `E`. -/
def Meets (P : σ → Prop) (x : Program σ ε α) (Q : α → σ → Prop) (E : σ → Prop) : Prop :=
  ∀ s, P s → (∀ a t, x.run s = (.ok a, t) → Q a t) ∧ ∀ e t, x.run s = (.error e, t) → E t

variable {P : σ → Prop} {Q Q' : α → σ → Prop} {E : σ → Prop} {x : Program σ ε α}

theorem Meets.pure {a : α} (h : ∀ s, P s → Q a s) : Meets P (pure a : Program σ ε α) Q E := by
  intro s hs
  refine ⟨fun b t eq => ?_, fun e t eq => ?_⟩
  · cases eq
    exact h s hs
  · cases eq

theorem Meets.lift {y : Except ε α} (value : ∀ a s, P s → y = .ok a → Q a s)
    (error : ∀ s, P s → E s) : Meets P (Program.lift y) Q E := by
  intro s hs
  refine ⟨fun a t eq => ?_, fun e t eq => ?_⟩
  · obtain ⟨ok, rfl⟩ := Prod.mk.inj eq
    exact value a s hs ok
  · obtain ⟨_, rfl⟩ := Prod.mk.inj eq
    exact error s hs

theorem Meets.bind {R : β → σ → Prop} {f : α → Program σ ε β} (first : Meets P x Q E)
    (rest : ∀ a, Meets (Q a) (f a) R E) : Meets P (x >>= f) R E := by
  intro s hs
  obtain ⟨value, error⟩ := first s hs
  have unfolds : (x >>= f).run s = match x.run s with
      | (.ok a, t) => (f a).run t
      | (.error e, t) => (.error e, t) := rfl
  rw [unfolds]
  rcases ran : x.run s with ⟨_ | a, t⟩
  · refine ⟨nofun, fun e u eq => ?_⟩
    cases eq
    exact error _ _ ran
  · exact rest a t (value a t ran)

theorem Meets.weaken {F : σ → Prop} (h : Meets P x Q E) (after : ∀ a s, Q a s → Q' a s)
    (failed : ∀ s, E s → F s) : Meets P x Q' F := by
  intro s hs
  obtain ⟨value, error⟩ := h s hs
  exact ⟨fun a t eq => after a t (value a t eq), fun e t eq => failed t (error e t eq)⟩

theorem Meets.known {p : Prop} (h : p → Meets P x Q E) : Meets (fun s => P s ∧ p) x Q E :=
  fun s hs => h hs.2 s hs.1

theorem Meets.act {f : σ → Except ε α × σ} (h : ∀ s, P s →
    (∀ a t, f s = (.ok a, t) → Q a t) ∧ ∀ e t, f s = (.error e, t) → E t) : Meets P (Program.act f) Q E := h

theorem Meets.gets {f : σ → α} : Meets P (Program.gets f : Program σ ε α) (fun a s => a = f s ∧ P s) E := by
  intro s hs
  refine ⟨fun a t eq => ?_, nofun⟩
  cases eq
  exact ⟨rfl, hs⟩

theorem Meets.modify {f : σ → σ} {R : σ → Prop} (h : ∀ s, P s → R (f s)) :
    Meets P (Program.modify f : Program σ ε Unit) (fun _ => R) E := by
  intro s hs
  refine ⟨fun a t eq => ?_, nofun⟩
  cases eq
  exact h s hs

theorem Meets.attempt {F : σ → Prop} (h : Meets P x Q E) :
    Meets P x.attempt (fun r s => (∀ a, r = .ok a → Q a s) ∧ ∀ e, r = .error e → E s) F := by
  intro s hs
  obtain ⟨value, error⟩ := h s hs
  refine ⟨fun r t eq => ?_, nofun⟩
  obtain ⟨ended, rfl⟩ := Prod.mk.inj eq
  cases ended
  exact ⟨fun a ok => value a _ (Prod.ext ok rfl), fun e failed => error e _ (Prod.ext failed rfl)⟩

theorem Meets.ends {I : σ → Prop} (h : Meets P x (fun _ => I) I) {s : σ} (hs : P s) : I (x.run s).2 := by
  obtain ⟨value, error⟩ := h s hs
  rcases ran : x.run s with ⟨e | a, t⟩
  · exact error e t ran
  · exact value a t ran

theorem Meets.andFinally {cleanup : Program σ ε Unit} {F : σ → Prop} (h : Meets P x Q E)
    (returned : ∀ a, Meets (Q a) cleanup (fun _ => Q' a) F)
    (thrown : Meets E cleanup (fun _ => F) F) : Meets P (x.andFinally cleanup) Q' F := by
  intro s hs
  obtain ⟨value, error⟩ := h s hs
  have unfolds : (x.andFinally cleanup).run s =
      match cleanup.run (x.run s).2 with
      | (.ok _, t) => ((x.run s).1, t)
      | (.error e, t) => (.error e, t) := rfl
  rw [unfolds]
  rcases ran : x.run s with ⟨e | a, t⟩
  · obtain ⟨cleaned, failed⟩ := thrown t (error e t ran)
    rcases left : cleanup.run t with ⟨e' | u, t'⟩
    · refine ⟨nofun, fun e w eq => ?_⟩
      cases eq
      exact failed _ _ left
    · refine ⟨nofun, fun e w eq => ?_⟩
      cases eq
      exact cleaned _ _ left
  · obtain ⟨cleaned, failed⟩ := returned a t (value a t ran)
    rcases left : cleanup.run t with ⟨e' | u, t'⟩
    · refine ⟨nofun, fun e w eq => ?_⟩
      cases eq
      exact failed _ _ left
    · refine ⟨fun a w eq => ?_, nofun⟩
      cases eq
      exact cleaned _ _ left

theorem Meets.returns (h : Meets P x Q fun _ => False) {s : σ} (hs : P s) :
    ∃ a t, x.run s = (.ok a, t) ∧ Q a t := by
  obtain ⟨value, error⟩ := h s hs
  rcases ran : x.run s with ⟨e | a, t⟩
  · exact (error e t ran).elim
  · exact ⟨a, t, rfl, value a t ran⟩

theorem Meets.before {P' : σ → Prop} (h : Meets P x Q E) (imp : ∀ s, P' s → P s) : Meets P' x Q E :=
  fun s hs => h s (imp s hs)

theorem Meets.ite {p : Prop} [Decidable p] {y : Program σ ε α} (yes : p → Meets P x Q E)
    (no : ¬p → Meets P y Q E) : Meets P (if p then x else y) Q E := by
  by_cases h : p
  · rw [if_pos h]
    exact yes h
  · rw [if_neg h]
    exact no h

end Program
