import Mathlib.Algebra.GroupWithZero.Nat
import Mathlib.Algebra.Order.BigOperators.Group.List
import Mathlib.Data.List.Chain
import Mathlib.Data.List.DropRight

namespace Spaced

open List

variable {α : Type} (space : α → Bool) (blank : α)

def trim (l : List α) : List α := (l.dropWhile space).rdropWhile space

/-- One blank for every run of spaces; `inside` tells whether a run is going on. -/
def collapse : Bool → List α → List α
  | _, [] => []
  | inside, a :: l =>
    if space a then
      if inside then collapse true l else blank :: collapse true l
    else a :: collapse false l

def Trimmed (l : List α) : Prop :=
  (∀ a, l.head? = some a → space a = false) ∧ ∀ a, l.getLast? = some a → space a = false

def Collapsed (l : List α) : Prop :=
  (∀ a ∈ l, space a = true → a = blank) ∧ l.IsChain fun a b => ¬(space a = true ∧ space b = true)

section trim

variable {space}

theorem trim_of_trimmed {l : List α} (h : Trimmed space l) : trim space l = l := by
  have front : l.dropWhile space = l := by
    rw [dropWhile_eq_self_iff]
    intro positive
    rw [h.1 l[0] (head?_eq_getElem? ▸ getElem?_eq_getElem positive)]
    exact Bool.false_ne_true
  rw [trim, front, rdropWhile_eq_self_iff]
  intro ne
  rw [h.2 (l.getLast ne) (getLast?_eq_some_getLast ne)]
  exact Bool.false_ne_true

theorem trimmed_trim (l : List α) : Trimmed space (trim space l) := by
  constructor
  · intro a first
    obtain ⟨rest, eq⟩ := rdropWhile_prefix space (l.dropWhile space)
    have head : (l.dropWhile space).head? = some a := by
      rw [← eq]
      cases trimmed : trim space l with
      | nil =>
        rw [trimmed] at first
        cases first
      | cons b tail =>
        rw [trimmed] at first
        have whole : (l.dropWhile space).rdropWhile space = b :: tail := trimmed
        rw [whole]
        exact first
    by_contra spaced
    have dropped := head?_dropWhile_not space l
    rw [head] at dropped
    exact spaced (by simpa using dropped)
  · intro a last
    by_contra spaced
    have ne : trim space l ≠ [] := by
      intro empty
      rw [empty] at last
      cases last
    have kept := rdropWhile_last_not space (l.dropWhile space) ne
    have same : (trim space l).getLast ne = a :=
      Option.some.inj ((getLast?_eq_some_getLast ne).symm.trans last)
    have unspaced : ¬space ((trim space l).getLast ne) = true := kept
    rw [same] at unspaced
    exact spaced (Bool.eq_false_of_not_eq_true unspaced)

theorem trim_sublist (l : List α) : (trim space l).Sublist l :=
  (List.rdropWhile_prefix space _).sublist.trans (dropWhile_suffix space).sublist

theorem filter_dropWhile (l : List α) :
    (l.dropWhile space).filter (fun a => !space a) = l.filter fun a => !space a := by
  induction l with
  | nil => rfl
  | cons a l ih =>
    by_cases h : space a = true
    · simp [h, ih]
    · simp [h]

theorem filter_trim (l : List α) : (trim space l).filter (fun a => !space a) = l.filter fun a => !space a := by
  rw [trim, rdropWhile, filter_reverse, filter_dropWhile, filter_reverse,
    reverse_reverse, filter_dropWhile]

end trim

section collapse

variable {space} {blank}

theorem collapse_of_collapsed {l : List α} (h : Collapsed space blank l) {inside : Bool}
    (first : inside = true → ∀ a, l.head? = some a → space a = false) : collapse space blank inside l = l := by
  induction l generalizing inside with
  | nil => cases inside <;> rfl
  | cons a l ih =>
    have tail : Collapsed space blank l := ⟨fun b mem => h.1 b (mem_cons_of_mem a mem), h.2.of_cons⟩
    rw [collapse]
    by_cases spaced : space a = true
    · have outside : ¬inside = true := by
        intro run
        have unspaced := first run a rfl
        cases spaced.symm.trans unspaced
      have next : ∀ b, l.head? = some b → space b = false := by
        intro b head
        have apart := (isChain_cons.mp h.2).1 b head
        by_contra other
        exact apart ⟨spaced, Bool.eq_true_of_not_eq_false other⟩
      rw [if_pos spaced, if_neg outside, ih tail (fun _ => next), h.1 a mem_cons_self spaced]
    · rw [if_neg spaced, ih tail (fun run => by cases run)]

theorem collapsed_collapse (blank_space : space blank = true) (inside : Bool) (l : List α) :
    Collapsed space blank (collapse space blank inside l) ∧
      (inside = true → ∀ a, (collapse space blank inside l).head? = some a → space a = false) := by
  induction l generalizing inside with
  | nil => exact ⟨⟨forall_mem_nil _, .nil⟩, nofun⟩
  | cons a l ih =>
    rw [collapse]
    by_cases spaced : space a = true
    · rw [if_pos spaced]
      obtain ⟨run, next⟩ := ih true
      cases inside with
      | true => exact ⟨run, next⟩
      | false =>
        refine ⟨⟨?_, ?_⟩, nofun⟩
        · intro b mem other
          rcases mem_cons.mp mem with rfl | mem
          · rfl
          · exact run.1 b mem other
        · refine isChain_cons.mpr ⟨?_, run.2⟩
          intro b head both
          have unspaced := next rfl b head
          rw [both.2] at unspaced
          cases unspaced
    · rw [if_neg spaced]
      obtain ⟨rest, -⟩ := ih false
      refine ⟨⟨?_, ?_⟩, ?_⟩
      · intro b mem other
        rcases mem_cons.mp mem with rfl | mem
        · exact absurd other spaced
        · exact rest.1 b mem other
      · exact isChain_cons.mpr ⟨fun b _ both => spaced both.1, rest.2⟩
      · intro _ b head
        cases head
        exact Bool.eq_false_of_not_eq_true spaced

theorem filter_collapse (blank_space : space blank = true) (inside : Bool) (l : List α) :
    (collapse space blank inside l).filter (fun a => !space a) = l.filter fun a => !space a := by
  induction l generalizing inside with
  | nil => rfl
  | cons a l ih =>
    rw [collapse]
    by_cases spaced : space a = true
    · cases inside with
      | true => simp [spaced, ih]
      | false => simp [spaced, ih, blank_space]
    · simp [spaced, ih]

theorem collapse_append {a : α} (unspaced : space a = false) (inside : Bool) (l : List α) :
    collapse space blank inside (l ++ [a]) = collapse space blank inside l ++ [a] := by
  induction l generalizing inside with
  | nil => simp [collapse, unspaced]
  | cons b l ih =>
    rw [cons_append, collapse, collapse]
    by_cases spaced : space b = true
    · cases inside with
      | true => simp [spaced, ih]
      | false => simp [spaced, ih]
    · simp [spaced, ih]

theorem trimmed_collapse {l : List α} (h : Trimmed space l) : Trimmed space (collapse space blank false l) := by
  constructor
  · intro a head
    cases l with
    | nil => cases head
    | cons b l =>
      have unspaced := h.1 b rfl
      rw [collapse, if_neg (by rw [unspaced]; exact Bool.false_ne_true)] at head
      cases head
      exact unspaced
  · intro a last
    rcases eq_nil_or_concat l with rfl | ⟨front, b, rfl⟩
    · cases last
    · rw [concat_eq_append] at h last
      have unspaced := h.2 b (by simp)
      rw [collapse_append unspaced] at last
      have same : b = a := by simpa using last
      rw [← same]
      exact unspaced

theorem collapse_weight {weight : α → Nat} (light : ∀ a, space a = true → weight blank ≤ weight a)
    (inside : Bool) (l : List α) : ((collapse space blank inside l).map weight).sum ≤ (l.map weight).sum := by
  induction l generalizing inside with
  | nil => exact Nat.le_refl _
  | cons a l ih =>
    rw [collapse]
    by_cases spaced : space a = true
    · have lighter := light a spaced
      have rest := ih true
      cases inside with
      | true =>
        simp only [spaced, if_true, map_cons, sum_cons]
        omega
      | false =>
        simp only [spaced, if_true, Bool.false_eq_true, if_false, map_cons, sum_cons]
        omega
    · have rest := ih false
      simp only [spaced, Bool.false_eq_true, if_false, map_cons, sum_cons]
      omega

end collapse

section map

variable {space} {blank} {f : α → α} (keeps : ∀ a, space (f a) = space a)
include keeps

theorem trimmed_map {l : List α} (h : Trimmed space l) : Trimmed space (l.map f) := by
  constructor
  · intro a head
    rw [head?_map] at head
    obtain ⟨b, first, rfl⟩ := Option.map_eq_some_iff.mp head
    rw [keeps]
    exact h.1 b first
  · intro a last
    rw [getLast?_map] at last
    obtain ⟨b, final, rfl⟩ := Option.map_eq_some_iff.mp last
    rw [keeps]
    exact h.2 b final

theorem collapsed_map (fixed : f blank = blank) {l : List α} (h : Collapsed space blank l) :
    Collapsed space blank (l.map f) := by
  constructor
  · intro a mem spaced
    obtain ⟨b, inside, rfl⟩ := mem_map.mp mem
    rw [keeps] at spaced
    rw [h.1 b inside spaced, fixed]
  · rw [isChain_map]
    refine h.2.imp ?_
    intro a b apart both
    rw [keeps, keeps] at both
    exact apart both

theorem filter_map (l : List α) : (l.map f).filter (fun a => !space a) = (l.filter fun a => !space a).map f := by
  rw [List.filter_map]
  congr 1
  refine filter_congr ?_
  intro a _
  simp [keeps]

end map

end Spaced
