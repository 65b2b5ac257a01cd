import ForgeDeno.JsNumber
import Mathlib.Data.Nat.Log
import Mathlib.Tactic.FieldSimp
import Mathlib.Tactic.Positivity

theorem toNat_zpow (base : ℚ) (e : Int) :
    (if 0 ≤ e then base ^ e.toNat else 1 / base ^ (-e).toNat) = base ^ e := by
  split
  next nonneg =>
    obtain ⟨k, rfl⟩ := Int.eq_ofNat_of_zero_le nonneg
    rw [Int.toNat_natCast, zpow_natCast]
  next negative =>
    obtain ⟨k, eq⟩ := Int.eq_ofNat_of_zero_le (show 0 ≤ -e by omega)
    have same : e = -(k : Int) := by omega
    rw [same, neg_neg, Int.toNat_natCast, zpow_neg, zpow_natCast, one_div]

namespace Double

theorem scale_eq_zpow (e : Int) : scale e = (2 : ℚ) ^ e :=
  toNat_zpow 2 e

theorem scale_natCast (k : Nat) : scale (k : Int) = 2 ^ k := by
  simp [scale]

theorem scale_sub_of_le {a b : Nat} (h : a ≤ b) : scale ((a : Int) - b) = 1 / 2 ^ (b - a) := by
  obtain ⟨c, rfl⟩ := Nat.exists_eq_add_of_le h
  have eq : (a : Int) - ((a + c : Nat) : Int) = -(c : Int) := by push_cast; ring
  rw [eq, Nat.add_sub_cancel_left]
  unfold scale
  split_ifs with nonneg
  · have zero : c = 0 := by omega
    simp [zero]
  · simp

theorem scale_pos (e : Int) : 0 < scale e := by
  unfold scale
  split_ifs <;> positivity

theorem abs_toRat (x : Double) : |x.toRat| = x.magnitude := by
  have nonneg : 0 ≤ x.magnitude := mul_nonneg (Nat.cast_nonneg _) (scale_pos _).le
  unfold toRat
  split_ifs
  · rw [abs_neg, abs_of_nonneg nonneg]
  · exact abs_of_nonneg nonneg

end Double

namespace JsNumber

theorem roundHalfEven_natCast (m : Nat) : roundHalfEven (m : ℚ) = m := by
  simp [roundHalfEven]

theorem leadingBit_natCast {k : Nat} (pos : 0 < k) : leadingBit (k : ℚ) = Nat.log2 k := by
  have low : ((2 ^ Nat.log2 k : Nat) : ℚ) ≤ k := by
    exact_mod_cast Nat.log2_self_le (Nat.pos_iff_ne_zero.mp pos)
  have scaled : Double.scale ((Nat.log2 k : Nat) : Int) = ((2 ^ Nat.log2 k : Nat) : ℚ) := by
    rw [Double.scale_natCast]
    push_cast
    rfl
  have one : Nat.log2 1 = 0 := by decide
  simp only [leadingBit, Rat.num_natCast, Rat.den_natCast, Int.natAbs_natCast, one, Nat.cast_zero,
    sub_zero, scaled]
  rw [if_neg (not_lt.mpr low)]

theorem exists_mantissa {k m e : Nat} (pos : 0 < k) (eq : k = m * 2 ^ e) (small : m < 2 ^ 53) :
    ∃ M : Nat, 2 ^ 52 ≤ M ∧ M < 2 ^ 53 ∧ (Nat.log2 k : Int) - 52 ≤ e ∧
      (k : ℚ) = M * Double.scale ((Nat.log2 k : Int) - 52) := by
  have nonzero : k ≠ 0 := Nat.pos_iff_ne_zero.mp pos
  have low : 2 ^ Nat.log2 k ≤ k := Nat.log2_self_le nonzero
  have high : k < 2 ^ (Nat.log2 k + 1) := Nat.lt_log2_self
  have below : Nat.log2 k < 53 + e := by
    have bound : k < 2 ^ (53 + e) := by
      rw [eq, pow_add]
      exact Nat.mul_lt_mul_of_pos_right small (by positivity)
    exact (Nat.pow_lt_pow_iff_right (by decide)).mp (lt_of_le_of_lt low bound)
  rcases Nat.le_total (Nat.log2 k) 52 with short | long
  · have split : 2 ^ 52 = 2 ^ Nat.log2 k * 2 ^ (52 - Nat.log2 k) := by
      rw [← pow_add, Nat.add_sub_cancel' short]
    have split' : 2 ^ 53 = 2 ^ (Nat.log2 k + 1) * 2 ^ (52 - Nat.log2 k) := by
      rw [← pow_add]
      congr 1
      omega
    refine ⟨k * 2 ^ (52 - Nat.log2 k), ?_, ?_, by omega, ?_⟩
    · rw [split]
      exact Nat.mul_le_mul_right _ low
    · rw [split']
      exact Nat.mul_lt_mul_of_pos_right high (by positivity)
    · have scaled := Double.scale_sub_of_le short
      push_cast at scaled ⊢
      rw [scaled]
      field_simp
  · obtain ⟨c, long⟩ := Nat.exists_eq_add_of_le long
    have fits : c ≤ e := by omega
    obtain ⟨d, rfl⟩ := Nat.exists_eq_add_of_le fits
    have factor : k = m * 2 ^ d * 2 ^ c := by rw [eq, pow_add]; ring
    have positive : 0 < 2 ^ c := by positivity
    refine ⟨m * 2 ^ d, ?_, ?_, by omega, ?_⟩
    · refine Nat.le_of_mul_le_mul_right ?_ positive
      rw [← factor, ← pow_add, ← long]
      exact low
    · refine Nat.lt_of_mul_lt_mul_right (a := 2 ^ c) ?_
      rw [← factor, ← pow_add]
      refine lt_of_lt_of_le high (Nat.pow_le_pow_right (by decide) ?_)
      omega
    · have place : (Nat.log2 k : Int) - 52 = (c : Int) := by omega
      rw [place, Double.scale_natCast, factor]
      push_cast
      rfl

theorem ofRat_intCast {n : Int} {m e : Nat} (nonzero : n ≠ 0) (eq : n.natAbs = m * 2 ^ e)
    (small : m < 2 ^ 53) (range : e ≤ 971) (sign : Bool) :
    ∃ z : Double, ofRat n sign = .finite z ∧ z.toRat = n := by
  have pos : 0 < n.natAbs := Int.natAbs_pos.mpr nonzero
  obtain ⟨M, low, high, place, value⟩ := exists_mantissa pos eq small
  have magnitude : |(n : ℚ)| = (n.natAbs : ℚ) := by rw [Nat.cast_natAbs, Int.cast_abs]
  have exponent : Max.max ((Nat.log2 n.natAbs : Int) - 52) (-1074) =
      (Nat.log2 n.natAbs : Int) - 52 := by omega
  have quotient : (n.natAbs : ℚ) / Double.scale ((Nat.log2 n.natAbs : Int) - 52) = M := by
    rw [div_eq_iff (Double.scale_pos _).ne', value]
  have canonical : M < 2 ^ 53 ∧ -1074 ≤ (Nat.log2 n.natAbs : Int) - 52 ∧
      (Nat.log2 n.natAbs : Int) - 52 ≤ 971 ∧
      (2 ^ 52 ≤ M ∨ (Nat.log2 n.natAbs : Int) - 52 = -1074) :=
    ⟨high, by omega, by omega, .inl low⟩
  refine ⟨⟨decide ((n : ℚ) < 0), M, (Nat.log2 n.natAbs : Int) - 52, canonical⟩, ?_, ?_⟩
  · have uncarried : M ≠ 2 ^ 53 := Nat.ne_of_lt high
    have filled : M ≠ 0 := by omega
    simp only [ofRat, Int.cast_eq_zero, nonzero, ↓reduceIte, magnitude, leadingBit_natCast pos,
      exponent, quotient, roundHalfEven_natCast, Int.toNat_natCast, uncarried, filled]
    rw [dif_pos canonical]
  · simp only [Double.toRat, Double.magnitude, ← value, Nat.cast_natAbs, Int.cast_abs]
    by_cases negative : (n : ℚ) < 0
    · simp [negative, abs_of_neg negative]
    · simp [negative, abs_of_nonneg (not_lt.mp negative)]

theorem whole_or_small (x : Double) :
    (∃ (n : Int) (e : Nat), x.toRat = n ∧ n.natAbs = x.mantissa * 2 ^ e ∧ e ≤ 971) ∨ |x.toRat| < 2 ^ 52 := by
  obtain ⟨mantissa_small, _, range, _⟩ := x.canonical
  by_cases whole : 0 ≤ x.exponent
  · left
    obtain ⟨e, exponent⟩ := Int.eq_ofNat_of_zero_le whole
    have magnitude : x.magnitude = ((x.mantissa * 2 ^ e : Nat) : ℚ) := by
      rw [Double.magnitude, exponent]
      push_cast [Double.scale_natCast]
      rfl
    unfold Double.toRat
    rw [magnitude]
    split_ifs
    · exact ⟨-((x.mantissa * 2 ^ e : Nat) : Int), e, by push_cast; rfl, by
        rw [Int.natAbs_neg, Int.natAbs_natCast], by omega⟩
    · exact ⟨((x.mantissa * 2 ^ e : Nat) : Int), e, by push_cast; rfl, by
        rw [Int.natAbs_natCast], by omega⟩
  · right
    have eq : x.magnitude = x.mantissa * Double.scale x.exponent := rfl
    have scaled : Double.scale x.exponent ≤ 1 / 2 := by
      rw [Double.scale, if_neg whole]
      have more : (2 : ℚ) ^ 1 ≤ 2 ^ (-x.exponent).toNat :=
        pow_le_pow_right₀ (by norm_num) (by omega)
      exact one_div_le_one_div_of_le (by norm_num) (by simpa using more)
    have bound : (x.mantissa : ℚ) < 2 ^ 53 := by exact_mod_cast mantissa_small
    have nonneg : (0 : ℚ) ≤ x.mantissa := Nat.cast_nonneg _
    rw [Double.abs_toRat, eq]
    nlinarith only [scaled, bound, nonneg]

theorem ofRat_whole {n : Int} (h : (∃ x : Double, x.toRat = n) ∨ n.natAbs < 2 ^ 53) (sign : Bool) :
    ∃ z : Double, ofRat n sign = .finite z ∧ z.toRat = n := by
  by_cases zero : n = 0
  · refine ⟨.zero sign, ?_, ?_⟩
    · simp [ofRat, zero]
    · rw [zero]
      simp [Double.toRat, Double.magnitude, Double.zero]
  · rcases h with ⟨x, same⟩ | fits
    · rcases whole_or_small x with ⟨k, e, value, abs, range⟩ | below
      · have cast : n = k := by exact_mod_cast same.symm.trans value
        rw [← cast] at abs
        exact ofRat_intCast zero abs x.canonical.1 range sign
      · rw [same, ← Int.cast_abs] at below
        have under : |n| < 2 ^ 52 := by exact_mod_cast below
        have fits : n.natAbs < 2 ^ 53 := by
          rw [Int.abs_eq_natAbs] at under
          omega
        exact ofRat_intCast (e := 0) zero (by simp) fits (by omega) sign
    · exact ofRat_intCast (e := 0) zero (by simp) fits (by omega) sign

theorem floor_finite (x : Double) : ∃ z : Double, (finite x).floor = .finite z ∧ z.toRat = ⌊x.toRat⌋ := by
  change ∃ z : Double, ofRat ((⌊x.toRat⌋ : Int) : ℚ) x.negative = .finite z ∧ z.toRat = ⌊x.toRat⌋
  refine ofRat_whole ?_ x.negative
  rcases whole_or_small x with ⟨n, _, value, _⟩ | small
  · left
    refine ⟨x, ?_⟩
    rw [value, Int.floor_intCast]
  · right
    rw [abs_lt] at small
    have above : ⌊x.toRat⌋ < 2 ^ 52 := Int.floor_lt.mpr (by push_cast; exact small.2)
    have under : -(2 ^ 52) ≤ ⌊x.toRat⌋ := Int.le_floor.mpr (by push_cast; exact small.1.le)
    omega

def Whole (d : JsNumber) : Prop := ∀ x : JsNumber, d.le x = true → x.floor.lt d = false

theorem whole_floor (y : JsNumber) : y.floor.Whole := by
  intro x below
  cases y with
  | nan => cases x <;> simp [floor, lt]
  | infinity s =>
    cases x with
    | nan => simp [floor, lt]
    | infinity s' => cases s <;> cases s' <;> simp_all [floor, lt, le, eq]
    | finite x =>
      obtain ⟨z, eq_z, _⟩ := floor_finite x
      rw [eq_z]
      cases s <;> simp_all [floor, lt, le, eq]
  | finite y =>
    obtain ⟨d, eq_d, value_d⟩ := floor_finite y
    rw [eq_d] at below ⊢
    cases x with
    | nan => rfl
    | infinity s => cases s <;> simp_all [floor, lt, le, eq]
    | finite x =>
      obtain ⟨z, eq_z, value_z⟩ := floor_finite x
      rw [eq_z]
      have bound : (⌊y.toRat⌋ : ℚ) ≤ x.toRat := by
        rw [← value_d]
        simp only [le, lt, eq, Bool.or_eq_true, decide_eq_true_eq] at below
        rcases below with less | same
        · exact less.le
        · exact same.le
      have floors : ⌊y.toRat⌋ ≤ ⌊x.toRat⌋ := Int.le_floor.mpr bound
      simp only [lt, value_d, value_z, decide_eq_false_iff_not, not_lt]
      exact_mod_cast floors

theorem whole_min {a b : JsNumber} (ha : a.Whole) (hb : b.Whole) : (a.min b).Whole := by
  have undefined : nan.Whole := by
    intro x below
    cases x <;> simp [le, lt, eq] at below
  unfold min
  split
  · exact undefined
  · exact undefined
  · split_ifs
    · exact hb
    · exact ha

end JsNumber
