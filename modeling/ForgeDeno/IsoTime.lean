import ForgeDeno.JsString
import Mathlib.Data.List.Lex
import Mathlib.Order.Lattice
import Mathlib.Tactic.IntervalCases

/-! Times in milliseconds since 1970 and the texts `Date.prototype.toISOString` makes of them. -/

namespace JsString

open List

def units (s : JsString) : List Nat := s.map UInt16.toNat

theorem units_injective : Function.Injective units :=
  map_injective_iff.mpr fun _ _ h => UInt16.toNat_inj.mp h

theorem units_append (s t : JsString) : units (s ++ t) = units s ++ units t := map_append

def pad : Nat → Nat → JsString
  | 0, _ => []
  | w + 1, n => pad w (n / 10) ++ [(0x30 + n % 10).toUInt16]

theorem digit_toNat (n : Nat) : ((0x30 + n % 10).toUInt16).toNat = 0x30 + n % 10 :=
  UInt16.toNat_ofNat_of_lt' (by show _ < 2 ^ 16; omega)

@[simp] theorem pad_length (w n : Nat) : (pad w n).length = w := by
  induction w generalizing n with
  | zero => rfl
  | succ w ih => simp [pad, ih]

theorem pad_digit {w n : Nat} {u : UInt16} (h : u ∈ pad w n) : 0x30 ≤ u.toNat ∧ u.toNat ≤ 0x39 := by
  induction w generalizing n with
  | zero => cases h
  | succ w ih =>
    rcases mem_append.mp h with before | last
    · exact ih before
    · cases mem_singleton.mp last
      rw [digit_toNat]
      omega

theorem append_lt_append {a b u v : List Nat} (len : a.length = b.length)
    (h : a < b ∨ a = b ∧ u < v) : a ++ u < b ++ v := by
  rcases h with less | ⟨rfl, less⟩
  · induction a generalizing b with
    | nil =>
      cases length_eq_zero_iff.mp len.symm
      exact absurd less (List.lt_irrefl [])
    | cons x a ih =>
      obtain ⟨y, b, rfl⟩ := exists_cons_of_length_eq_add_one len.symm
      rw [cons_append, cons_append, cons_lt_cons_iff]
      rcases cons_lt_cons_iff.mp less with head | ⟨same, tail⟩
      · exact .inl head
      · exact .inr ⟨same, ih (Nat.succ.inj len) tail⟩
  · exact append_left_lt less

theorem pad_lt {w m n : Nat} (less : m < n) (bound : n < 10 ^ w) : units (pad w m) < units (pad w n) := by
  induction w generalizing m n with
  | zero => omega
  | succ w ih =>
    have smaller : n / 10 < 10 ^ w := Nat.div_lt_of_lt_mul (by rw [← Nat.pow_succ']; exact bound)
    show units (pad w (m / 10) ++ [(0x30 + m % 10).toUInt16]) <
      units (pad w (n / 10) ++ [(0x30 + n % 10).toUInt16])
    rw [units_append, units_append]
    apply append_lt_append (by simp [units])
    by_cases heads : m / 10 < n / 10
    · exact .inl (ih heads smaller)
    · have same : m / 10 = n / 10 := by omega
      refine .inr ⟨by rw [same], ?_⟩
      show [((0x30 + m % 10).toUInt16).toNat] < [((0x30 + n % 10).toUInt16).toNat]
      rw [digit_toNat, digit_toNat, cons_lt_cons_iff]
      omega

def render : List (JsString × Nat) → List Nat → JsString
  | (separator, w) :: shape, x :: xs => separator ++ (pad w x ++ render shape xs)
  | _, _ => []

def Fits (shape : List (JsString × Nat)) (xs : List Nat) : Prop :=
  List.Forall₂ (fun part x => x < 10 ^ part.2) shape xs

theorem render_length {shape : List (JsString × Nat)} {xs ys : List Nat} (left : Fits shape xs)
    (right : Fits shape ys) : (render shape xs).length = (render shape ys).length := by
  induction left generalizing ys with
  | nil => cases right; rfl
  | cons _ _ ih =>
    cases right with
    | cons _ rest => simp [render, ih rest]

theorem render_lt {shape : List (JsString × Nat)} {xs ys : List Nat} (left : Fits shape xs)
    (right : Fits shape ys) (less : xs < ys) : units (render shape xs) < units (render shape ys) := by
  induction left generalizing ys with
  | nil =>
    cases right
    exact absurd less (List.lt_irrefl [])
  | @cons part x shape xs _ _ ih =>
    cases right with
    | @cons _ y _ ys bound rest =>
      simp only [render, units_append]
      apply append_lt_append rfl
      refine .inr ⟨rfl, append_lt_append (by simp [units]) ?_⟩
      rcases cons_lt_cons_iff.mp less with head | ⟨same, tail⟩
      · exact .inl (pad_lt head bound)
      · exact .inr ⟨by rw [same], ih rest tail⟩

end JsString

namespace IsoTime

open JsString

def dayFromYear (year : Nat) : Nat :=
  365 * year + (year + 1) / 4 - (year + 69) / 100 + (year + 369) / 400

theorem dayFromYear_step (year : Nat) : dayFromYear year + 365 ≤ dayFromYear (year + 1) ∧
    dayFromYear (year + 1) ≤ dayFromYear year + 366 := by
  unfold dayFromYear
  omega

theorem dayFromYear_mono : Monotone dayFromYear :=
  monotone_nat_of_le_succ fun year => by have := dayFromYear_step year; omega

def climb (day : Nat) : Nat → Nat → Nat
  | 0, year => year
  | fuel + 1, year => if dayFromYear (year + 1) ≤ day then climb day fuel (year + 1) else year

def yearOf (day : Nat) : Nat := climb day (day + 1) (day / 366)

theorem climb_spec {day fuel year : Nat} (low : dayFromYear year ≤ day) (enough : day < year + fuel) :
    dayFromYear (climb day fuel year) ≤ day ∧ day < dayFromYear (climb day fuel year + 1) := by
  induction fuel generalizing year with
  | zero =>
    have above : year ≤ dayFromYear year := by
      unfold dayFromYear
      omega
    omega
  | succ fuel ih =>
    unfold climb
    split_ifs with more
    · exact ih more (by omega)
    · exact ⟨low, by omega⟩

theorem yearOf_spec (day : Nat) : dayFromYear (yearOf day) ≤ day ∧ day < dayFromYear (yearOf day + 1) := by
  apply climb_spec
  · unfold dayFromYear
    omega
  · omega

theorem yearOf_mono : Monotone yearOf := by
  intro a b le
  by_contra more
  have above := (yearOf_spec b).2
  have below := (yearOf_spec a).1
  have := dayFromYear_mono (show yearOf b + 1 ≤ yearOf a by omega)
  omega

def monthStarts (year : Nat) : List Nat :=
  let leap := dayFromYear (year + 1) - dayFromYear year - 365
  [0, 31, 59 + leap, 90 + leap, 120 + leap, 151 + leap, 181 + leap, 212 + leap, 243 + leap,
    273 + leap, 304 + leap, 334 + leap]

def monthOf (year day : Nat) : Nat := (monthStarts year).countP fun start => start ≤ day

def monthStart (year month : Nat) : Nat := (monthStarts year).getD (month - 1) 0

def fields (t : Nat) : List Nat :=
  let day := t / 86400000 - dayFromYear (yearOf (t / 86400000))
  let month := monthOf (yearOf (t / 86400000)) day
  [month, day - monthStart (yearOf (t / 86400000)) month + 1, t / 3600000 % 24, t / 60000 % 60,
    t / 1000 % 60, t % 1000]

def yearText (year : Nat) : JsString :=
  if year ≤ 9999 then pad 4 year else js "+" ++ pad 6 year

def isoShape : List (JsString × Nat) :=
  [(js "-", 2), (js "-", 2), (js "T", 2), (js ":", 2), (js ":", 2), (js ".", 3)]

def text (shape : List (JsString × Nat)) (t : Nat) : JsString :=
  yearText (1970 + yearOf (t / 86400000)) ++ render shape (fields t)

/-- The last time that a `Date` can have. -/
def maxTime : Nat := 8640000000000000

/-- `new Date(t).toISOString()`, which throws for a time that no `Date` has. -/
def toISOString (t : Nat) : Option JsString :=
  if t ≤ maxTime then some (text isoShape t ++ js "Z") else none

theorem sorted_getElem?_le {l : List Nat} (sorted : l.Pairwise (· < ·)) {bound i x : Nat}
    (here : l[i]? = some x) : x ≤ bound ↔ i < l.countP fun y => y ≤ bound := by
  induction l generalizing i with
  | nil => cases here
  | cons y l ih =>
    obtain ⟨above, rest⟩ := List.pairwise_cons.mp sorted
    by_cases low : y ≤ bound
    · rw [List.countP_cons_of_pos (by simpa using low)]
      cases i with
      | zero =>
        cases here
        exact iff_of_true low (Nat.succ_pos _)
      | succ i =>
        rw [ih rest here]
        omega
    · have high : ∀ z ∈ y :: l, ¬z ≤ bound := by
        intro z mem
        rcases List.mem_cons.mp mem with rfl | mem
        · exact low
        · have := above z mem
          omega
      have none_low : (y :: l).countP (fun z => z ≤ bound) = 0 :=
        List.countP_eq_zero.mpr fun z mem => by simpa using high z mem
      rw [none_low]
      exact iff_of_false (high x (List.mem_of_getElem? here)) (Nat.not_lt_zero i)

theorem leap_le (year : Nat) : dayFromYear (year + 1) - dayFromYear year - 365 ≤ 1 := by
  have := dayFromYear_step year
  omega

theorem monthStarts_sorted (year : Nat) : (monthStarts year).Pairwise (· < ·) := by
  unfold monthStarts
  simp only [List.pairwise_cons, List.mem_cons, List.not_mem_nil, or_false, forall_eq_or_imp,
    forall_eq, List.Pairwise.nil, and_true, false_implies, implies_true]
  omega

theorem monthOf_bounds (year day : Nat) : 1 ≤ monthOf year day ∧ monthOf year day ≤ 12 := by
  constructor
  · exact (sorted_getElem?_le (monthStarts_sorted year) (i := 0) rfl).mp (Nat.zero_le day)
  · exact List.countP_le_length

theorem monthOf_mono (year : Nat) {a b : Nat} (le : a ≤ b) : monthOf year a ≤ monthOf year b := by
  apply List.countP_mono_left
  intro start _ low
  have := of_decide_eq_true low
  exact decide_eq_true (by omega)

theorem monthStart_le (year day : Nat) : monthStart year (monthOf year day) ≤ day := by
  obtain ⟨low, high⟩ := monthOf_bounds year day
  obtain ⟨start, found⟩ : ∃ start, (monthStarts year)[monthOf year day - 1]? = some start :=
    ⟨_, List.getElem?_eq_getElem (show _ < 12 by omega)⟩
  have begun : start ≤ day := (sorted_getElem?_le (monthStarts_sorted year) found).mpr
    (by show _ < monthOf year day; omega)
  unfold monthStart
  rw [List.getD_eq_getElem?_getD, found]
  exact begun

theorem monthStart_day (year day : Nat) (bound : day < 366) : day < monthStart year (monthOf year day) + 32 := by
  obtain ⟨low, high⟩ := monthOf_bounds year day
  have leap := leap_le year
  have next : ∀ start, (monthStarts year)[monthOf year day]? = some start → day < start := by
    intro start found
    by_contra reached
    have below : start ≤ day := by omega
    exact Nat.lt_irrefl _ ((sorted_getElem?_le (monthStarts_sorted year) found).mp below)
  unfold monthStart
  generalize monthOf year day = month at low high next
  unfold monthStarts at next ⊢
  interval_cases month <;> simp at next ⊢ <;> omega

def dayInYear (day : Nat) : Nat := day - dayFromYear (yearOf day)

theorem dayInYear_lt (day : Nat) : dayInYear day < 366 := by
  have spec := yearOf_spec day
  have step := dayFromYear_step (yearOf day)
  unfold dayInYear
  omega

theorem fields_fit (t : Nat) : Fits isoShape (fields t) := by
  have months := monthOf_bounds (yearOf (t / 86400000)) (dayInYear (t / 86400000))
  have day := monthStart_day (yearOf (t / 86400000)) _ (dayInYear_lt (t / 86400000))
  unfold dayInYear at months day
  unfold Fits fields isoShape
  refine .cons ?_ (.cons ?_ (.cons ?_ (.cons ?_ (.cons ?_ (.cons ?_ .nil)))))
  · show monthOf _ _ < 100
    omega
  · show _ - _ + 1 < 100
    omega
  · show t / 3600000 % 24 < 100
    omega
  · show t / 60000 % 60 < 100
    omega
  · show t / 1000 % 60 < 100
    omega
  · show t % 1000 < 1000
    omega

theorem level_lt {n k s t : Nat} (less : s < t) (outer : s / (n * k) = t / (n * k)) :
    s / n % k < t / n % k ∨ s / n % k = t / n % k ∧ s / n = t / n := by
  have le : s / n ≤ t / n := Nat.div_le_div_right (Nat.le_of_lt less)
  rw [← Nat.div_div_eq_div_mul, ← Nat.div_div_eq_div_mul] at outer
  have split := Nat.div_add_mod (s / n) k
  have split' := Nat.div_add_mod (t / n) k
  rw [outer] at split
  omega

theorem timeOfDay_lt {s t : Nat} (less : s < t) (day : s / 86400000 = t / 86400000) :
    [s / 3600000 % 24, s / 60000 % 60, s / 1000 % 60, s % 1000] <
      [t / 3600000 % 24, t / 60000 % 60, t / 1000 % 60, t % 1000] := by
  simp only [List.cons_lt_cons_iff]
  rcases level_lt (n := 3600000) (k := 24) less day with hours | ⟨hours, same⟩
  · exact .inl hours
  refine .inr ⟨hours, ?_⟩
  rcases level_lt (n := 60000) (k := 60) less same with minutes | ⟨minutes, same⟩
  · exact .inl minutes
  refine .inr ⟨minutes, ?_⟩
  rcases level_lt (n := 1000) (k := 60) less same with seconds | ⟨seconds, same⟩
  · exact .inl seconds
  refine .inr ⟨seconds, .inl ?_⟩
  omega

theorem fields_lt {s t : Nat} (less : s < t) (year : yearOf (s / 86400000) = yearOf (t / 86400000)) :
    fields s < fields t := by
  have below := (yearOf_spec (s / 86400000)).1
  by_cases days : s / 86400000 = t / 86400000
  · have time := timeOfDay_lt less days
    unfold fields
    rw [days]
    exact List.cons_lt_cons_self.mpr (List.cons_lt_cons_self.mpr time)
  · have later : dayInYear (s / 86400000) < dayInYear (t / 86400000) := by
      have := Nat.div_le_div_right (c := 86400000) (Nat.le_of_lt less)
      unfold dayInYear
      rw [← year]
      omega
    have months := monthOf_mono (yearOf (s / 86400000)) (Nat.le_of_lt later)
    have begun := monthStart_le (yearOf (s / 86400000)) (dayInYear (s / 86400000))
    unfold dayInYear at later months begun
    unfold fields
    rw [← year] at *
    rw [List.cons_lt_cons_iff, List.cons_lt_cons_iff]
    rcases Nat.lt_or_eq_of_le months with month | month
    · exact .inl month
    · refine .inr ⟨month, .inl ?_⟩
      rw [← month]
      omega

theorem yearText_lt {a b : Nat} (less : a < b) (bound : b ≤ 9999) :
    (yearText a).length = (yearText b).length ∧ units (yearText a) < units (yearText b) := by
  unfold yearText
  rw [if_pos (by omega), if_pos bound]
  refine ⟨by simp, pad_lt less ?_⟩
  show b < 10000
  omega

def lastTime : Nat := 253402300799999

theorem yearOf_lastTime {t : Nat} (bound : t ≤ lastTime) : 1970 + yearOf (t / 86400000) ≤ 9999 := by
  have below := (yearOf_spec (t / 86400000)).1
  by_contra late
  have := dayFromYear_mono (show 8030 ≤ yearOf (t / 86400000) by omega)
  have first : dayFromYear 8030 = 2932897 := by decide
  unfold lastTime at bound
  omega

section text

variable {shape : List (JsString × Nat)} {s t : Nat}

theorem text_lt (fits : ∀ t, Fits shape (fields t)) (less : s < t) (bound : t ≤ lastTime) :
    units (text shape s) < units (text shape t) := by
  have years := yearOf_mono (Nat.div_le_div_right (c := 86400000) (Nat.le_of_lt less))
  unfold text
  rw [units_append, units_append]
  by_cases same : yearOf (s / 86400000) = yearOf (t / 86400000)
  · rw [same]
    exact append_lt_append rfl (.inr ⟨rfl, render_lt (fits s) (fits t) (fields_lt less same)⟩)
  · obtain ⟨len, earlier⟩ := yearText_lt (a := 1970 + yearOf (s / 86400000))
      (b := 1970 + yearOf (t / 86400000)) (by omega) (yearOf_lastTime bound)
    exact append_lt_append (by simpa [units] using len) (.inl earlier)

theorem yearText_ne {a b : Nat} (less : a < b) (bound : b ≤ 999999) (u v : JsString) :
    yearText a ++ u ≠ yearText b ++ v := by
  intro eq
  by_cases early : b ≤ 9999
  · obtain ⟨len, lt⟩ := yearText_lt less early
    rw [(List.append_inj eq len).1] at lt
    exact List.lt_irrefl _ lt
  · have signed : yearText b = js "+" ++ pad 6 b := if_neg early
    by_cases late : a ≤ 9999
    · have plain : yearText a = pad 4 a := if_pos late
      rw [plain, signed] at eq
      obtain ⟨u, rest, cons⟩ := List.exists_cons_of_length_eq_add_one (pad_length 4 a)
      have digit := pad_digit (w := 4) (n := a) (u := u) (by rw [cons]; exact List.mem_cons_self)
      rw [cons] at eq
      have head : u = 0x2B := (List.cons.inj eq).1
      rw [head] at digit
      exact absurd digit.1 (by decide)
    · have signed' : yearText a = js "+" ++ pad 6 a := if_neg late
      rw [signed, signed'] at eq
      have same := (List.append_inj eq (by simp)).1
      have lt := pad_lt (w := 6) less (by show b < 1000000; omega)
      rw [List.append_cancel_left same] at lt
      exact List.lt_irrefl _ lt

theorem yearOf_maxTime (bound : t ≤ maxTime) : 1970 + yearOf (t / 86400000) ≤ 999999 := by
  have below := (yearOf_spec (t / 86400000)).1
  have slow : yearOf (t / 86400000) ≤ dayFromYear (yearOf (t / 86400000)) / 364 := by
    generalize yearOf (t / 86400000) = year
    unfold dayFromYear
    omega
  unfold maxTime at bound
  omega

theorem text_ne (fits : ∀ t, Fits shape (fields t)) (less : s < t) (bound : t ≤ maxTime) :
    text shape s ≠ text shape t := by
  have years := yearOf_mono (Nat.div_le_div_right (c := 86400000) (Nat.le_of_lt less))
  by_cases same : yearOf (s / 86400000) = yearOf (t / 86400000)
  · intro eq
    unfold text at eq
    rw [same] at eq
    have lt := render_lt (fits s) (fits t) (fields_lt less same)
    rw [List.append_cancel_left eq] at lt
    exact List.lt_irrefl _ lt
  · exact yearText_ne (by omega) (yearOf_maxTime bound) _ _

theorem text_injective (fits : ∀ t, Fits shape (fields t)) (left : s ≤ maxTime)
    (right : t ≤ maxTime) (same : text shape s = text shape t) : s = t := by
  rcases Nat.lt_trichotomy s t with less | eq | more
  · exact absurd same (text_ne fits less right)
  · exact eq
  · exact absurd same.symm (text_ne fits more left)

end text

end IsoTime
