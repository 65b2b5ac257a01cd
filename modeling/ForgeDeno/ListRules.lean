import Mathlib.Algebra.GroupWithZero.Nat
import Mathlib.Data.List.Basic

universe u

namespace ListRules

open List

variable {α : Type u} {P : α → Bool} {l : List α} {i j : Nat} {a b x : α}

theorem getElem?_set_iff (here : l[i]? = some a) :
    (l.set i b)[j]? = some x ↔ (j = i ∧ x = b) ∨ (j ≠ i ∧ l[j]? = some x) := by
  obtain ⟨bound, _⟩ := List.getElem?_eq_some_iff.mp here
  by_cases same : j = i
  · subst same
    rw [getElem?_set_self bound]
    simp [eq_comm]
  · rw [getElem?_set_ne (Ne.symm same)]
    simp [same]

theorem getElem?_concat_iff : (l ++ [b])[j]? = some x ↔ l[j]? = some x ∨ (j = l.length ∧ x = b) := by
  rcases Nat.lt_trichotomy j l.length with less | same | more
  · rw [getElem?_append_left less]
    simp [Nat.ne_of_lt less]
  · subst same
    simp [eq_comm]
  · have none_here : l[j]? = none := getElem?_eq_none (Nat.le_of_lt more)
    have none_there : (l ++ [b])[j]? = none := getElem?_eq_none (by simp; omega)
    simp [none_here, none_there, Nat.ne_of_gt more]

theorem countP_set_same (here : l[i]? = some a) (same : P b = P a) : (l.set i b).countP P = l.countP P := by
  obtain ⟨bound, rfl⟩ := List.getElem?_eq_some_iff.mp here
  rw [countP_set bound, same]
  split_ifs with holds
  · have positive : 0 < l.countP P := countP_pos_iff.mpr ⟨_, getElem_mem bound, holds⟩
    omega
  · omega

theorem countP_set_drop (here : l[i]? = some a) (was : P a = true) (gone : P b = false) :
    (l.set i b).countP P + 1 = l.countP P := by
  obtain ⟨bound, rfl⟩ := List.getElem?_eq_some_iff.mp here
  rw [countP_set bound, if_pos was, gone]
  have positive : 0 < l.countP P := countP_pos_iff.mpr ⟨_, getElem_mem bound, was⟩
  simp only [Bool.false_eq_true, ↓reduceIte]
  omega

theorem countP_set_add (here : l[i]? = some a) :
    (l.set i b).countP P + (P a).toNat = l.countP P + (P b).toNat := by
  obtain ⟨bound, rfl⟩ := List.getElem?_eq_some_iff.mp here
  have positive : P l[i] = true → 0 < l.countP P := fun holds =>
    countP_pos_iff.mpr ⟨_, getElem_mem bound, holds⟩
  rw [countP_set bound]
  generalize l.countP P = total at positive ⊢
  cases before : P l[i]
  · cases P b <;> simp
  · have := positive before
    cases P b <;> simp <;> omega

theorem modify_eq_set (here : l[i]? = some a) (f : α → α) : l.modify i f = l.set i (f a) := by
  obtain ⟨bound, rfl⟩ := List.getElem?_eq_some_iff.mp here
  rw [modify_eq_set_getElem?]
  simp [bound]

theorem sum_set_add {f : α → Nat} (here : l[i]? = some a) :
    ((l.set i b).map f).sum + f a = (l.map f).sum + f b := by
  induction l generalizing i with
  | nil => cases here
  | cons x rest ih =>
    cases i with
    | zero =>
      cases here
      simp only [set_cons_zero, map_cons, sum_cons]
      omega
    | succ i =>
      have tail := ih (i := i) here
      simp only [set_cons_succ, map_cons, sum_cons]
      omega

theorem eq_of_countP_le_one (once : l.countP P ≤ 1) (ha : a ∈ l) (hb : b ∈ l) (pa : P a = true)
    (pb : P b = true) : a = b := by
  rw [countP_eq_length_filter] at once
  have left : a ∈ l.filter P := mem_filter.mpr ⟨ha, pa⟩
  have right : b ∈ l.filter P := mem_filter.mpr ⟨hb, pb⟩
  match found : l.filter P with
  | [] => rw [found] at left; cases left
  | [x] =>
    rw [found] at left right
    exact (mem_singleton.mp left).trans (mem_singleton.mp right).symm
  | x :: y :: rest =>
    rw [found] at once
    simp only [length_cons] at once
    omega

theorem position_of_countP_le_one (once : l.countP P ≤ 1) {i j : Nat} (ha : l[i]? = some a)
    (hb : l[j]? = some b) (pa : P a = true) (pb : P b = true) : i = j := by
  induction l generalizing i j with
  | nil => cases ha
  | cons x rest ih =>
    have later : ∀ {k : Nat} {y : α}, rest[k]? = some y → P y = true → P x = true → False := by
      intro k y there py px
      have some_rest := countP_pos_iff.mpr ⟨y, mem_of_getElem? there, py⟩
      rw [countP_cons_of_pos px] at once
      omega
    cases i with
    | zero =>
      cases j with
      | zero => rfl
      | succ j =>
        cases ha
        exact (later hb pb pa).elim
    | succ i =>
      cases j with
      | zero =>
        cases hb
        exact (later ha pa pb).elim
      | succ j =>
        have fewer : rest.countP P ≤ 1 := by
          rw [countP_cons] at once
          omega
        exact congrArg (· + 1) (ih fewer ha hb)

theorem countP_le_one_of_positions
    (same : ∀ (i j : Nat) (a b : α), l[i]? = some a → l[j]? = some b → P a = true → P b = true → i = j) :
    l.countP P ≤ 1 := by
  induction l with
  | nil => simp
  | cons x rest ih =>
    by_cases holds : P x = true
    · have none_left : rest.countP P = 0 := by
        rw [countP_eq_zero]
        intro y mem holds'
        obtain ⟨j, here⟩ := mem_iff_getElem?.mp mem
        have := same 0 (j + 1) x y rfl here holds holds'
        omega
      have one : (x :: rest).countP P = rest.countP P + 1 := countP_cons_of_pos holds
      omega
    · rw [countP_cons_of_neg holds]
      refine ih fun i j a b ha hb pa pb => ?_
      have := same (i + 1) (j + 1) a b ha hb pa pb
      omega

end ListRules
