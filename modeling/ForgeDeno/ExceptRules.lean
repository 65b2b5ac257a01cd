import Mathlib.Logic.Basic

universe u v w

namespace ExceptRules

variable {ε : Type u} {α β : Type v}

variable {x : Except ε α} {f : α → Except ε β}

theorem bind_ok {b : β} :
    (x >>= f) = .ok b ↔ ∃ a, x = .ok a ∧ f a = .ok b := by
  constructor
  · intro h
    cases x with
    | error e => cases h
    | ok a => exact ⟨a, rfl, h⟩
  · rintro ⟨a, rfl, hf⟩
    exact hf

theorem pure_ok {a b : α} : (pure a : Except ε α) = .ok b ↔ a = b :=
  ⟨Except.ok.inj, congrArg Except.ok⟩

theorem map_ok {f : α → β} {b : β} (h : x.map f = .ok b) : ∃ a, x = .ok a ∧ f a = b := by
  cases x with
  | error e => cases h
  | ok a => exact ⟨a, rfl, Except.ok.inj h⟩

theorem map_bind {γ : Type v} {g : β → γ} :
    (x >>= f).map g = x >>= fun a => (f a).map g := by
  cases x <;> rfl

theorem check_ok {p : Prop} [Decidable p] {e : ε} {a : α} :
    (if p then throw e else x) = .ok a ↔ ¬p ∧ x = .ok a := by
  by_cases h : p
  · rw [if_pos h]
    exact iff_of_false nofun (fun g => g.1 h)
  · rw [if_neg h]
    exact (and_iff_right h).symm

theorem check_bind_ok {p : Prop} [Decidable p] {e : ε} {x : Except ε β}
    {b : β} : (if p then (throw e : Except ε α) >>= f else x) = .ok b ↔ ¬p ∧ x = .ok b :=
  check_ok

theorem mapM_ok {x : Option α} {y : Option β} (h : x.mapM f = .ok y) :
    (x = none ∧ y = none) ∨ ∃ a b, x = some a ∧ y = some b ∧ f a = .ok b := by
  cases x with
  | none => exact .inl ⟨rfl, (pure_ok.mp h).symm⟩
  | some a =>
    obtain ⟨b, hb, eq⟩ := bind_ok.mp h
    exact .inr ⟨a, b, rfl, (pure_ok.mp eq).symm, hb⟩

theorem mapM_list_ok {xs : List α} {ys : List β} (h : xs.mapM f = .ok ys) {i : Nat}
    {y : β} (there : ys[i]? = some y) : ∃ x, xs[i]? = some x ∧ f x = .ok y := by
  induction xs generalizing ys i with
  | nil =>
    rw [List.mapM_nil] at h
    cases pure_ok.mp h
    cases there
  | cons x xs ih =>
    rw [List.mapM_cons] at h
    obtain ⟨b, head, h⟩ := bind_ok.mp h
    obtain ⟨bs, tail, h⟩ := bind_ok.mp h
    cases pure_ok.mp h
    cases i with
    | zero =>
      cases there
      exact ⟨x, rfl, head⟩
    | succ i => exact ih tail there

/-- Whatever the computation throws satisfies `P`. -/
def FailsWith (P : ε → Prop) (x : Except ε α) : Prop := ∀ e, x = .error e → P e

variable {P : ε → Prop}

theorem FailsWith.ok (a : α) : FailsWith P (.ok a : Except ε α) := by
  intro e h
  cases h

theorem FailsWith.error {e : ε} (h : P e) : FailsWith P (.error e : Except ε α) := by
  intro e' eq
  cases eq
  exact h

theorem FailsWith.bind (first : FailsWith P x)
    (rest : ∀ a, x = .ok a → FailsWith P (f a)) : FailsWith P (x >>= f) := by
  cases x with
  | error e => exact .error (first e rfl)
  | ok a => exact rest a rfl

theorem FailsWith.map (f : α → β) (h : FailsWith P x) : FailsWith P (x.map f) := by
  cases x with
  | error e => exact .error (h e rfl)
  | ok a => exact .ok (f a)

theorem FailsWith.check {p : Prop} [Decidable p] {e : ε} (first : P e)
    (rest : ¬p → FailsWith P x) : FailsWith P (if p then throw e else x) := by
  by_cases h : p
  · rw [if_pos h]
    exact .error first
  · rw [if_neg h]
    exact rest h

theorem FailsWith.mapM (h : ∀ a, FailsWith P (f a)) (x : Option α) :
    FailsWith P (x.mapM f) := by
  cases x with
  | none => exact .ok none
  | some a => exact (h a).bind fun b _ => .ok (some b)

theorem FailsWith.mapM_list {xs : List α} (h : ∀ x ∈ xs, FailsWith P (f x)) :
    FailsWith P (xs.mapM f) := by
  induction xs with
  | nil =>
    rw [List.mapM_nil]
    exact .ok []
  | cons x xs ih =>
    obtain ⟨head, tail⟩ := List.forall_mem_cons.mp h
    rw [List.mapM_cons]
    apply FailsWith.bind head
    intro b _
    apply FailsWith.bind (ih tail)
    intro bs _
    exact .ok (b :: bs)

inductive Agree {α : Type u} {β : Type w} (R : α → β → Prop) : Except ε α → Except ε β → Prop
  | error (e : ε) : Agree R (.error e) (.error e)
  | ok {a : α} {b : β} : R a b → Agree R (.ok a) (.ok b)

theorem Agree.bind {α γ : Type u} {β δ : Type w} {R : α → β → Prop} {S : γ → δ → Prop}
    {x : Except ε α} {y : Except ε β} {f : α → Except ε γ} {g : β → Except ε δ}
    (first : Agree R x y) (rest : ∀ a b, R a b → Agree S (f a) (g b)) : Agree S (x >>= f) (y >>= g) := by
  cases first with
  | error e => exact .error e
  | ok related => exact rest _ _ related

theorem Agree.after {α : Type u} {β δ : Type w} {R : α → β → Prop} {S : α → δ → Prop}
    {x : Except ε α} {y : Except ε β} {g : β → δ} (first : Agree R x y)
    (rest : ∀ a b, R a b → S a (g b)) : Agree S x (y >>= fun b => .ok (g b)) := by
  cases first with
  | error e => exact .error e
  | ok related => exact .ok (rest _ _ related)

theorem Agree.of_ok {α : Type u} {β : Type w} {R : α → β → Prop} {a : α} {y : Except ε β}
    (h : Agree R (.ok a) y) : ∃ b, y = .ok b ∧ R a b := by
  cases h with
  | ok related => exact ⟨_, rfl, related⟩

theorem Agree.to_ok {α : Type u} {β : Type w} {R : α → β → Prop} {x : Except ε α} {b : β}
    (h : Agree R x (.ok b)) : ∃ a, x = .ok a ∧ R a b := by
  cases h with
  | ok related => exact ⟨_, rfl, related⟩

end ExceptRules
