import Mathlib.Data.List.Basic

universe u v w

/-- A machine with a partial step function: `step s e = none` says that the event `e` cannot
occur in the state `s`. -/
structure LabelledMachine (σ : Type u) (ε : Type v) where
  start : σ → Prop
  step : σ → ε → Option σ

namespace LabelledMachine

variable {σ : Type u} {ε : Type v} {ρ : Type w} (m : LabelledMachine σ ε)

def run : σ → List ε → Option σ
  | s, [] => some s
  | s, e :: es => (m.step s e).bind fun t => run t es

def Reachable (s : σ) : Prop := ∃ s₀ es, m.start s₀ ∧ m.run s₀ es = some s

/-- Every step of the run from `s` satisfies `P`, read at the state before it, its event and
the state after it. -/
def Along (P : σ → ε → σ → Prop) : σ → List ε → Prop
  | _, [] => True
  | s, e :: es => ∀ t, m.step s e = some t → P s e t ∧ Along P t es

instance decidableAlong (P : σ → ε → σ → Prop) [∀ s e t, Decidable (P s e t)] (s : σ)
    (es : List ε) : Decidable (m.Along P s es) :=
  match es with
  | [] => .isTrue trivial
  | e :: es =>
    match h : m.step s e with
    | none => .isTrue fun t ht => by rw [h] at ht; cases ht
    | some r =>
      have := decidableAlong P r es
      decidable_of_iff (P s e r ∧ m.Along P r es)
        ⟨fun hr t ht => by rw [h] at ht; cases ht; exact hr, fun hr => hr r h⟩

variable {m}

@[simp] theorem run_nil (s : σ) : m.run s [] = some s := rfl

@[simp] theorem run_cons (s : σ) (e : ε) (es : List ε) :
    m.run s (e :: es) = (m.step s e).bind fun t => m.run t es := rfl

theorem run_cons_some {s t : σ} {e : ε} {es : List ε} (h : m.run s (e :: es) = some t) :
    ∃ r, m.step s e = some r ∧ m.run r es = some t :=
  Option.bind_eq_some_iff.mp h

theorem run_append (s : σ) (es fs : List ε) : m.run s (es ++ fs) = (m.run s es).bind fun t => m.run t fs := by
  induction es generalizing s with
  | nil => rfl
  | cons e es ih =>
    simp only [List.cons_append, run_cons]
    cases hs : m.step s e with
    | none => rfl
    | some t => exact ih t

theorem run_concat {s t r : σ} {es : List ε} {e : ε} (h : m.run s es = some t)
    (hs : m.step t e = some r) : m.run s (es ++ [e]) = some r := by
  simp [run_append, h, hs]

theorem Reachable.start {s : σ} (h : m.start s) : m.Reachable s := ⟨s, [], h, rfl⟩

theorem Reachable.next {s t : σ} {e : ε} (h : m.Reachable s) (hs : m.step s e = some t) : m.Reachable t := by
  obtain ⟨s₀, es, h₀, hr⟩ := h
  exact ⟨s₀, es ++ [e], h₀, run_concat hr hs⟩

theorem Reachable.run {s t : σ} {es : List ε} (h : m.Reachable s) (hr : m.run s es = some t) : m.Reachable t := by
  induction es generalizing s with
  | nil => cases hr; exact h
  | cons e es ih =>
    obtain ⟨r, hs, hr⟩ := run_cons_some hr
    exact ih (h.next hs) hr

theorem run_invariant {I : σ → Prop} (step : ∀ s e t, I s → m.step s e = some t → I t)
    {s t : σ} {es : List ε} (hi : I s) (hr : m.run s es = some t) : I t := by
  induction es generalizing s with
  | nil => cases hr; exact hi
  | cons e es ih =>
    obtain ⟨r, hs, hr⟩ := run_cons_some hr
    exact ih (step s e r hi hs) hr

theorem Reachable.invariant {I : σ → Prop} (start : ∀ s, m.start s → I s)
    (step : ∀ s e t, I s → m.step s e = some t → I t) {s : σ} (h : m.Reachable s) : I s := by
  obtain ⟨s₀, es, h₀, hr⟩ := h
  exact run_invariant step (start s₀ h₀) hr

@[simp] theorem along_nil (P : σ → ε → σ → Prop) (s : σ) : m.Along P s [] := trivial

theorem along_cons {P : σ → ε → σ → Prop} {s t : σ} {e : ε} {es : List ε}
    (h : m.Along P s (e :: es)) (hs : m.step s e = some t) : P s e t ∧ m.Along P t es :=
  h t hs

theorem along_append {P : σ → ε → σ → Prop} {s t : σ} {es fs : List ε}
    (h : m.Along P s (es ++ fs)) (hr : m.run s es = some t) : m.Along P s es ∧ m.Along P t fs := by
  induction es generalizing s with
  | nil => cases hr; exact ⟨trivial, h⟩
  | cons e es ih =>
    obtain ⟨r, hs, hr⟩ := run_cons_some hr
    obtain ⟨hp, ha⟩ := along_cons h hs
    refine ⟨fun r' hs' => ?_, (ih ha hr).2⟩
    cases hs.symm.trans hs'
    exact ⟨hp, (ih ha hr).1⟩

theorem along_and {P Q : σ → ε → σ → Prop} {s : σ} {es : List ε} (hp : m.Along P s es)
    (hq : m.Along Q s es) : m.Along (fun s e t => P s e t ∧ Q s e t) s es := by
  induction es generalizing s with
  | nil => trivial
  | cons e es ih =>
    intro t hs
    obtain ⟨p, ps⟩ := along_cons hp hs
    obtain ⟨q, qs⟩ := along_cons hq hs
    exact ⟨⟨p, q⟩, ih ps qs⟩

theorem along_of_events {P : σ → ε → σ → Prop} {es : List ε}
    (h : ∀ e ∈ es, ∀ s t, P s e t) (s : σ) : m.Along P s es := by
  induction es generalizing s with
  | nil => trivial
  | cons e es ih =>
    intro t hs
    exact ⟨h e List.mem_cons_self s t, ih (fun f mem => h f (List.mem_cons_of_mem e mem)) t⟩

/-- An invariant that steps preserve only under a condition survives a run whose steps all
meet the condition. -/
theorem run_invariant_along {I : σ → Prop} {C : σ → ε → σ → Prop}
    (step : ∀ s e t, I s → C s e t → m.step s e = some t → I t)
    {s t : σ} {es : List ε} (hi : I s) (hc : m.Along C s es) (hr : m.run s es = some t) : I t := by
  induction es generalizing s with
  | nil => cases hr; exact hi
  | cons e es ih =>
    obtain ⟨r, hs, hr⟩ := run_cons_some hr
    obtain ⟨hp, hc⟩ := along_cons hc hs
    exact ih (step s e r hi hp hs) hc hr

theorem throughout_iff_along {I B : σ → Prop} {C : σ → ε → σ → Prop}
    (keep : ∀ s e t, I s → m.step s e = some t → I t)
    (agree : ∀ s e t, I s → B s → m.step s e = some t → (B t ↔ C s e t))
    {s : σ} (hi : I s) (hb : B s) (es : List ε) :
    (∀ pre t, pre <+: es → m.run s pre = some t → B t) ↔ m.Along C s es := by
  induction es generalizing s with
  | nil =>
    refine ⟨fun _ => trivial, fun _ pre t hp hr => ?_⟩
    cases List.prefix_nil.mp hp
    cases hr
    exact hb
  | cons e es ih =>
    constructor
    · intro h t hs
      have ht : B t := h [e] t ⟨es, rfl⟩ (by simp [hs])
      refine ⟨(agree s e t hi hb hs).mp ht, (ih (keep s e t hi hs) ht).mp ?_⟩
      intro pre r hp hr
      exact h (e :: pre) r (List.cons_prefix_cons.mpr ⟨rfl, hp⟩) (by simp [hs, hr])
    · intro h pre r hp hr
      cases pre with
      | nil => cases hr; exact hb
      | cons f pre =>
        obtain ⟨rfl, tail⟩ := List.cons_prefix_cons.mp hp
        obtain ⟨t, hs, hr⟩ := run_cons_some hr
        obtain ⟨hc, ha⟩ := along_cons h hs
        have ht : B t := (agree s f t hi hb hs).mpr hc
        exact (ih (keep s f t hi hs) ht).mpr ha pre r tail hr

theorem run_origin {I : σ → Prop} {R : σ → ρ → Prop} {W : σ → ε → ρ → Prop}
    (keep : ∀ s e t, I s → m.step s e = some t → I t)
    (step : ∀ s e t x, I s → m.step s e = some t → R t x → R s x ∨ W s e x)
    {s t : σ} {es : List ε} {x : ρ} (hi : I s) (h₀ : ¬R s x) (hr : m.run s es = some t) (hx : R t x) :
    ∃ pre e post r, es = pre ++ e :: post ∧ m.run s pre = some r ∧ ¬R r x ∧ W r e x := by
  induction es generalizing s with
  | nil =>
    cases hr
    exact absurd hx h₀
  | cons e es ih =>
    obtain ⟨r, hs, hr⟩ := run_cons_some hr
    by_cases hn : R r x
    · have hw := (step s e r x hi hs hn).resolve_left h₀
      exact ⟨[], e, es, s, rfl, rfl, h₀, hw⟩
    · obtain ⟨pre, f, post, q, rfl, hq, first, hw⟩ := ih (keep s e r hi hs) hn hr
      exact ⟨e :: pre, f, post, q, rfl, by simp [hs, hq], first, hw⟩

/-- A record that only a step from a witnessing state can introduce was introduced at some
point of the run where the witness held. -/
theorem run_history {R W : σ → ρ → Prop} (step : ∀ s e t x, m.step s e = some t → R t x → R s x ∨ W s x)
    {s t : σ} {es : List ε} {x : ρ} (h₀ : ¬R s x) (hr : m.run s es = some t) (hx : R t x) :
    ∃ pre post r, es = pre ++ post ∧ m.run s pre = some r ∧ W r x := by
  obtain ⟨pre, e, post, r, split, reached, _, hw⟩ :=
    run_origin (I := fun _ => True) (W := fun s _ x => W s x) (fun _ _ _ _ _ => trivial)
      (fun s e t x _ => step s e t x) trivial h₀ hr hx
  exact ⟨pre, e :: post, r, split, reached, hw⟩

end LabelledMachine
