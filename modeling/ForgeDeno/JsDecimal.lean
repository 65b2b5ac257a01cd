import ForgeDeno.JsRounding
import ForgeDeno.JsonText
import Mathlib.Tactic.Linarith

/-! Decimal digits that read back as the double they were taken from. -/

namespace JsNumber

theorem roundHalfEven_near {q : ℚ} {m : Int} (near : |q - m| < 1 / 2) : roundHalfEven q = m := by
  obtain ⟨below, above⟩ := abs_lt.mp near
  unfold roundHalfEven
  by_cases under : q < m
  · have floor : ⌊q⌋ = m - 1 := by
      apply Int.floor_eq_iff.mpr
      push_cast
      exact ⟨by linarith, by linarith⟩
    have far : ¬q - (m - 1 : Int) < 1 / 2 := by
      push_cast
      linarith
    have up : 1 / 2 < q - (m - 1 : Int) := by
      push_cast
      linarith
    rw [floor, if_neg far, if_pos up]
    omega
  · have floor : ⌊q⌋ = m := by
      apply Int.floor_eq_iff.mpr
      exact ⟨not_lt.mp under, by linarith⟩
    have close : q - (m : Int) < 1 / 2 := by linarith
    rw [floor, if_pos close]

theorem roundHalfEven_error (q : ℚ) : |(roundHalfEven q : ℚ) - q| ≤ 1 / 2 := by
  have low : (⌊q⌋ : ℚ) ≤ q := Int.floor_le q
  have high : q < ⌊q⌋ + 1 := Int.lt_floor_add_one q
  unfold roundHalfEven
  simp only
  apply abs_le.mpr
  split
  next down => exact ⟨by linarith, by linarith⟩
  next notDown =>
    split
    next up =>
      push_cast
      exact ⟨by linarith, by linarith⟩
    next tie =>
      split
      next => exact ⟨by linarith, by linarith⟩
      next =>
        push_cast
        exact ⟨by linarith, by linarith⟩

theorem leadingBit_spec {q : ℚ} (pos : 0 < q) : (2 : ℚ) ^ leadingBit q ≤ q ∧ q < 2 ^ (leadingBit q + 1) := by
  have num_pos : 0 < q.num.natAbs := Int.natAbs_pos.mpr (Rat.num_pos.mpr pos).ne'
  have value : q * q.den = q.num.natAbs := by
    rw [Rat.mul_den_eq_num, Nat.cast_natAbs, abs_of_nonneg (Rat.num_nonneg.mpr pos.le)]
  have numLow : (2 : ℚ) ^ q.num.natAbs.log2 ≤ q.num.natAbs := by
    exact_mod_cast Nat.log2_self_le num_pos.ne'
  have numHigh : (q.num.natAbs : ℚ) < 2 ^ (q.num.natAbs.log2 + 1) := by
    exact_mod_cast Nat.lt_log2_self
  have denLow : (2 : ℚ) ^ q.den.log2 ≤ q.den := by
    exact_mod_cast Nat.log2_self_le q.den_nz
  have denHigh : (q.den : ℚ) < 2 ^ (q.den.log2 + 1) := by
    exact_mod_cast Nat.lt_log2_self
  have two : (2 : ℚ) ≠ 0 := by norm_num
  have lower : (2 : ℚ) ^ ((q.num.natAbs.log2 : Int) - q.den.log2 - 1) < q := by
    have scaled : (2 : ℚ) ^ ((q.num.natAbs.log2 : Int) - q.den.log2 - 1) * 2 ^ (q.den.log2 + 1) =
        2 ^ q.num.natAbs.log2 := by
      rw [← zpow_natCast, ← zpow_natCast, ← zpow_add₀ two]
      congr 1
      push_cast
      ring
    have bound : (2 : ℚ) ^ ((q.num.natAbs.log2 : Int) - q.den.log2 - 1) * 2 ^ (q.den.log2 + 1) <
        q * 2 ^ (q.den.log2 + 1) := by
      rw [scaled]
      calc (2 : ℚ) ^ q.num.natAbs.log2 ≤ q.num.natAbs := numLow
        _ = q * q.den := value.symm
        _ < q * 2 ^ (q.den.log2 + 1) := mul_lt_mul_of_pos_left denHigh pos
    exact lt_of_mul_lt_mul_right bound (by positivity)
  have upper : q < (2 : ℚ) ^ ((q.num.natAbs.log2 : Int) - q.den.log2 + 1) := by
    have scaled : (2 : ℚ) ^ ((q.num.natAbs.log2 : Int) - q.den.log2 + 1) * 2 ^ q.den.log2 =
        2 ^ (q.num.natAbs.log2 + 1) := by
      rw [← zpow_natCast, ← zpow_natCast, ← zpow_add₀ two]
      congr 1
      push_cast
      ring
    have bound : q * 2 ^ q.den.log2 <
        (2 : ℚ) ^ ((q.num.natAbs.log2 : Int) - q.den.log2 + 1) * 2 ^ q.den.log2 := by
      rw [scaled]
      calc q * 2 ^ q.den.log2 ≤ q * q.den := mul_le_mul_of_nonneg_left denLow pos.le
        _ = q.num.natAbs := value
        _ < 2 ^ (q.num.natAbs.log2 + 1) := numHigh
    exact lt_of_mul_lt_mul_right bound (by positivity)
  unfold leadingBit
  simp only [Double.scale_eq_zpow]
  split
  next small =>
    rw [sub_add_cancel]
    exact ⟨lower.le, small⟩
  next large => exact ⟨not_lt.mp large, upper⟩

theorem leadingBit_eq {q : ℚ} {k : Int} (low : (2 : ℚ) ^ k ≤ q) (high : q < 2 ^ (k + 1)) : leadingBit q = k := by
  have pos : 0 < q := lt_of_lt_of_le (zpow_pos (by norm_num) k) low
  obtain ⟨low', high'⟩ := leadingBit_spec pos
  have above := (zpow_lt_zpow_iff_right₀ (by norm_num : (1 : ℚ) < 2)).mp (lt_of_le_of_lt low high')
  have below := (zpow_lt_zpow_iff_right₀ (by norm_num : (1 : ℚ) < 2)).mp (lt_of_le_of_lt low' high)
  omega

/-- The result of `ofRat` by the exponent and the rounded mantissa. -/
def assemble (negative : Bool) (e : Int) (m : Nat) : JsNumber :=
  let mantissa := if m = 2 ^ 53 then 2 ^ 52 else m
  let exponent := if m = 2 ^ 53 then e + 1 else e
  if mantissa = 0 then .finite (.zero negative)
  else if h : mantissa < 2 ^ 53 ∧ -1074 ≤ exponent ∧ exponent ≤ 971 ∧
      (2 ^ 52 ≤ mantissa ∨ exponent = -1074) then
    .finite ⟨negative, mantissa, exponent, h⟩
  else .infinity negative

theorem ofRat_rounded {q : ℚ} {e : Int} {m : Nat} (ne : q ≠ 0)
    (exponent : Max.max (leadingBit |q| - 52) (-1074) = e)
    (rounded : (roundHalfEven (|q| / Double.scale e)).toNat = m) (sign : Bool) :
    ofRat q sign = assemble (decide (q < 0)) e m := by
  subst exponent
  subst rounded
  exact if_neg ne

theorem assemble_neg {e : Int} {m : Nat} {x : Double} (h : assemble false e m = .finite x) :
    assemble true e m = .finite { x with negative := true } := by
  unfold assemble at h ⊢
  simp only at h ⊢
  generalize (if m = 2 ^ 53 then 2 ^ 52 else m) = mantissa at h ⊢
  generalize (if m = 2 ^ 53 then e + 1 else e) = exponent at h ⊢
  split at h
  next zero =>
    rw [if_pos zero]
    cases h
    rfl
  next filled =>
    rw [if_neg filled]
    split at h
    next fits =>
      rw [dif_pos fits]
      cases h
      rfl
    next => cases h

theorem ofRat_neg {q : ℚ} {x : Double} (pos : 0 < q) (h : ofRat q false = .finite x) (sign : Bool) :
    ofRat (-q) sign = .finite { x with negative := true } := by
  rw [ofRat_rounded pos.ne' rfl rfl, decide_eq_false (not_lt.mpr pos.le)] at h
  rw [ofRat_rounded (neg_ne_zero.mpr pos.ne') rfl rfl, decide_eq_true (neg_lt_zero.mpr pos), abs_neg]
  exact assemble_neg h

theorem ofRat_sign {q : ℚ} (ne : q ≠ 0) (s t : Bool) : ofRat q s = ofRat q t := by
  unfold ofRat
  rw [if_neg ne, if_neg ne]

theorem ofRat_near {x : Double} {q : ℚ} (positive : x.negative = false) (ne : x.mantissa ≠ 0)
    (near : 2 ^ 54 * |q - x.magnitude| < x.magnitude) (sign : Bool) : ofRat q sign = .finite x := by
  obtain ⟨negative, M, e, canonical⟩ := x
  have ⟨small, least, most, filled⟩ := canonical
  cases positive
  simp only [Double.magnitude, Double.scale_eq_zpow] at near ne
  have unit : (0 : ℚ) < 2 ^ e := zpow_pos (by norm_num) e
  obtain ⟨r, rfl⟩ : ∃ r : ℚ, q = r * 2 ^ e := ⟨q / 2 ^ e, (div_mul_cancel₀ q unit.ne').symm⟩
  -- from here on distances are counted in units of the last place
  have close : 2 ^ 54 * |r - M| < M := by
    rw [← sub_mul, abs_mul, abs_of_pos unit, ← mul_assoc] at near
    exact lt_of_mul_lt_mul_right near unit.le
  have big : (M : ℚ) ≤ 2 ^ 53 - 1 := by
    have cast : (M : ℚ) ≤ ((2 ^ 53 - 1 : Nat) : ℚ) := by exact_mod_cast Nat.le_sub_one_of_lt small
    exact cast.trans (by norm_num)
  have one : (1 : ℚ) ≤ M := by exact_mod_cast Nat.one_le_iff_ne_zero.mpr ne
  have half : |r - M| < 1 / 2 := by linarith
  obtain ⟨below, above⟩ := abs_lt.mp half
  have pos : 0 < r * 2 ^ e := mul_pos (by linarith) unit
  have power (k : Int) : (2 : ℚ) ^ (e + k) = 2 ^ k * 2 ^ e := by
    rw [add_comm, zpow_add₀ (by norm_num)]
  by_cases carried : r < 2 ^ 52 ∧ e ≠ -1074
  · -- just below a power of two the places are half as wide
    obtain ⟨under, normal⟩ := carried
    have full : 2 ^ 52 ≤ M := filled.resolve_right normal
    have exact_power : M = 2 ^ 52 := by
      have fits : (M : ℚ) < 2 ^ 52 + 1 := by linarith
      have : M < 2 ^ 52 + 1 := by exact_mod_cast fits
      omega
    subst exact_power
    push_cast at close below above
    have leading : leadingBit (r * 2 ^ e) = e + 51 := by
      apply leadingBit_eq
      · rw [power]
        exact mul_le_mul_of_nonneg_right (by norm_num; linarith) unit.le
      · rw [add_assoc, power]
        exact mul_lt_mul_of_pos_right (by norm_num; linarith) unit
    have exponent : Max.max (leadingBit (r * 2 ^ e) - 52) (-1074) = e - 1 := by omega
    have rounded : roundHalfEven (r * 2 ^ e / Double.scale (e - 1)) = ((2 ^ 53 : Nat) : Int) := by
      have halved : r * 2 ^ e / Double.scale (e - 1) = 2 * r := by
        rw [Double.scale_eq_zpow, zpow_sub_one₀ (by norm_num)]
        field_simp
      rw [halved]
      apply roundHalfEven_near
      push_cast
      have twice : 2 * r - 9007199254740992 = 2 * (r - 4503599627370496) := by ring
      rw [twice, abs_mul, abs_of_pos (by norm_num : (0 : ℚ) < 2)]
      linarith
    rw [ofRat_rounded pos.ne' (e := e - 1) (m := 2 ^ 53) (by rw [abs_of_pos pos, exponent])
      (by rw [abs_of_pos pos, rounded, Int.toNat_natCast]), decide_eq_false (not_lt.mpr pos.le)]
    unfold assemble
    simp only [if_true, sub_add_cancel]
    rw [if_neg (by norm_num), dif_pos canonical]
  · have exponent : Max.max (leadingBit (r * 2 ^ e) - 52) (-1074) = e := by
      have bounded : leadingBit (r * 2 ^ e) < e + 53 := by
        have top : r * 2 ^ e < 2 ^ (e + 53) := by
          rw [power]
          exact mul_lt_mul_of_pos_right (by norm_num; linarith) unit
        exact (zpow_lt_zpow_iff_right₀ (by norm_num : (1 : ℚ) < 2)).mp
          (lt_of_le_of_lt (leadingBit_spec pos).1 top)
      by_cases bottom : e = -1074
      · omega
      · have full : 2 ^ 52 ≤ r := not_lt.mp fun under => carried ⟨under, bottom⟩
        have reached : e + 52 < leadingBit (r * 2 ^ e) + 1 := by
          have low : (2 : ℚ) ^ (e + 52) ≤ r * 2 ^ e := by
            rw [power]
            exact mul_le_mul_of_nonneg_right (by exact_mod_cast full) unit.le
          exact (zpow_lt_zpow_iff_right₀ (by norm_num : (1 : ℚ) < 2)).mp
            (lt_of_le_of_lt low (leadingBit_spec pos).2)
        omega
    have rounded : roundHalfEven (r * 2 ^ e / Double.scale e) = (M : Int) := by
      rw [Double.scale_eq_zpow, mul_div_cancel_right₀ r unit.ne']
      exact roundHalfEven_near (by exact_mod_cast half)
    rw [ofRat_rounded pos.ne' (e := e) (m := M) (by rw [abs_of_pos pos, exponent])
      (by rw [abs_of_pos pos, rounded, Int.toNat_natCast]), decide_eq_false (not_lt.mpr pos.le)]
    have uncarried : M ≠ 2 ^ 53 := Nat.ne_of_lt small
    unfold assemble
    simp only [uncarried, if_false]
    rw [if_neg (by exact_mod_cast ne), dif_pos canonical]

end JsNumber

namespace JsonText

open JsNumber

theorem pow10_eq_zpow (e : Int) : pow10 e = (10 : ℚ) ^ e :=
  toNat_zpow 10 e

theorem pointPosition_spec {a : ℚ} (pos : 0 < a) (reach : 1 ≤ a * 10 ^ 400) :
    (10 : ℚ) ^ (pointPosition a - 1) ≤ a ∧ a < 10 ^ pointPosition a := by
  unfold pointPosition
  split
  next large =>
    have floor : ((⌊a⌋.toNat : Nat) : Int) = ⌊a⌋ :=
      Int.toNat_of_nonneg (Int.floor_nonneg.mpr pos.le)
    have low : ((⌊a⌋.toNat : Nat) : ℚ) ≤ a := by
      have : ((⌊a⌋.toNat : Int) : ℚ) ≤ a := floor ▸ Int.floor_le a
      exact_mod_cast this
    have high : a < ((⌊a⌋.toNat : Nat) : ℚ) + 1 := by
      have : a < ((⌊a⌋.toNat : Int) : ℚ) + 1 := floor ▸ Int.lt_floor_add_one a
      exact_mod_cast this
    obtain ⟨digits, eq⟩ : ∃ k, (Nat.toDigits 10 ⌊a⌋.toNat).length = k + 1 :=
      Nat.exists_eq_add_one.mpr Nat.length_toDigits_pos
    rw [eq]
    have upper : ⌊a⌋.toNat < 10 ^ (digits + 1) :=
      (Nat.length_toDigits_le_iff (by decide) (Nat.succ_pos _)).mp eq.le
    constructor
    · push_cast
      rw [add_sub_cancel_right, zpow_natCast]
      by_cases single : digits = 0
      · rw [single, pow_zero]
        exact large
      · have lower : 10 ^ digits ≤ ⌊a⌋.toNat := by
          apply Nat.le_of_not_lt
          intro short
          have := (Nat.length_toDigits_le_iff (by decide) (Nat.pos_of_ne_zero single)).mpr short
          omega
        exact le_trans (by exact_mod_cast lower) low
    · rw [zpow_natCast]
      have : ((⌊a⌋.toNat : Nat) : ℚ) + 1 ≤ 10 ^ (digits + 1) := by exact_mod_cast upper
      linarith
  next small =>
    cases found : (List.range 400).find? fun j => 1 ≤ a * 10 ^ (j + 1) with
    | none =>
      have all := List.find?_eq_none.mp found 399 (by simp)
      exact absurd (decide_eq_true reach) all
    | some j =>
      obtain ⟨first, _, before⟩ := List.find?_range_eq_some.mp found
      have low : 1 ≤ a * 10 ^ (j + 1) := of_decide_eq_true first
      have high : a * 10 ^ j < 1 := by
        cases j with
        | zero =>
          rw [pow_zero, mul_one]
          exact not_le.mp small
        | succ i =>
          have := before i (Nat.lt_succ_self i)
          simpa using this
      constructor
      · have split : (10 : ℚ) ^ (-(j : Int) - 1) = 1 / 10 ^ (j + 1) := by
          rw [show -(j : Int) - 1 = -((j + 1 : Nat) : Int) by push_cast; ring, zpow_neg, zpow_natCast, one_div]
        rw [split, div_le_iff₀ (by positivity)]
        exact low
      · rw [zpow_neg, zpow_natCast, ← one_div, lt_div_iff₀ (by positivity)]
        exact high

theorem shortestDigits_eq (a : ℚ) : ∃ k s, 1 ≤ k ∧ (s = nearestDigits a k ∨ s = nextDigits a k) ∧
    shortestDigits a = digitsAt (pointPosition a) k s ∧
    (readsBack a k (shortestDigits a) = true ∨ k = 17 ∧ s = nearestDigits a 17) := by
  unfold shortestDigits
  dsimp only
  cases found : (List.range 17).findSome? fun k => ([nearestDigits a (k + 1), nextDigits a (k + 1)].map
      (digitsAt (pointPosition a) (k + 1))).find? (readsBack a (k + 1)) with
  | none => exact ⟨17, _, by decide, .inl rfl, rfl, .inr ⟨rfl, rfl⟩⟩
  | some digits =>
    obtain ⟨k, _, chosen⟩ := List.exists_of_findSome?_eq_some found
    obtain ⟨s, among, rfl⟩ := List.mem_map.mp (List.mem_of_find?_eq_some chosen)
    exact ⟨k + 1, s, Nat.succ_pos k, by simpa using among, rfl, .inl (List.find?_some chosen)⟩

section digits

variable {a : ℚ} {k : Nat}

theorem digitsAt_spec {n : Int} {s : Nat} (digits : 1 ≤ k) (low : 10 ^ (k - 1) ≤ s) (high : s ≤ 10 ^ k) :
    10 ^ (k - 1) ≤ (digitsAt n k s).1 ∧ (digitsAt n k s).1 < 10 ^ k ∧
      ((digitsAt n k s).1 : ℚ) * pow10 ((digitsAt n k s).2 - k) = s * 10 ^ (n - k) := by
  unfold digitsAt
  split
  next carried =>
    refine ⟨le_refl _, Nat.pow_lt_pow_right (by decide) (by omega), ?_⟩
    rw [carried, pow10_eq_zpow]
    push_cast
    rw [← zpow_natCast, ← zpow_natCast, ← zpow_add₀ (by norm_num), ← zpow_add₀ (by norm_num)]
    congr 1
    omega
  next uncarried => exact ⟨low, by omega, by rw [pow10_eq_zpow]⟩

variable (pos : 0 < a) (reach : 1 ≤ a * 10 ^ 400) (digits : 1 ≤ k)

include pos reach digits

theorem scaled_spec : ∃ t : ℚ, a = t * 10 ^ (pointPosition a - k) ∧ a / pow10 (pointPosition a - k) = t ∧
    ((10 ^ (k - 1) : Nat) : ℚ) ≤ t ∧ t < ((10 ^ k : Nat) : ℚ) := by
  obtain ⟨low, high⟩ := pointPosition_spec pos reach
  have unit : (0 : ℚ) < 10 ^ (pointPosition a - k) := zpow_pos (by norm_num) _
  have eq : a = a / 10 ^ (pointPosition a - k) * 10 ^ (pointPosition a - k) :=
    (div_mul_cancel₀ a unit.ne').symm
  refine ⟨_, eq, by rw [pow10_eq_zpow], ?_, ?_⟩
  · apply le_of_mul_le_mul_right _ unit
    rw [← eq]
    push_cast
    rw [← zpow_natCast, ← zpow_add₀ (by norm_num)]
    have place : ((k - 1 : Nat) : Int) + (pointPosition a - k) = pointPosition a - 1 := by omega
    rw [place]
    exact low
  · apply lt_of_mul_lt_mul_right _ unit.le
    rw [← eq]
    push_cast
    rw [← zpow_natCast, ← zpow_add₀ (by norm_num), add_sub_cancel]
    exact high

theorem nearestDigits_spec : 10 ^ (k - 1) ≤ nearestDigits a k ∧ nearestDigits a k ≤ 10 ^ k ∧
    |(nearestDigits a k : ℚ) * 10 ^ (pointPosition a - k) - a| ≤ 1 / 2 * 10 ^ (pointPosition a - k) := by
  have unit : (0 : ℚ) < 10 ^ (pointPosition a - k) := zpow_pos (by norm_num) _
  obtain ⟨t, eq, quotient, bottom, top⟩ := scaled_spec pos reach digits
  obtain ⟨under, above⟩ := abs_le.mp (roundHalfEven_error t)
  have least : ((10 ^ (k - 1) : Nat) : Int) ≤ roundHalfEven t := by
    have : (((10 ^ (k - 1) : Nat) : Int) : ℚ) < ((roundHalfEven t + 1 : Int) : ℚ) := by
      push_cast at bottom ⊢
      linarith
    have : ((10 ^ (k - 1) : Nat) : Int) < roundHalfEven t + 1 := by exact_mod_cast this
    omega
  have most : roundHalfEven t ≤ ((10 ^ k : Nat) : Int) := by
    have : ((roundHalfEven t : Int) : ℚ) < (((10 ^ k : Nat) + 1 : Int) : ℚ) := by
      push_cast at top ⊢
      linarith
    have : roundHalfEven t < ((10 ^ k : Nat) : Int) + 1 := by exact_mod_cast this
    omega
  obtain ⟨s, rounded⟩ := Int.eq_ofNat_of_zero_le (le_trans (Int.natCast_nonneg _) least)
  unfold nearestDigits
  rw [quotient, rounded, Int.toNat_natCast]
  rw [rounded] at least most
  refine ⟨by exact_mod_cast least, by exact_mod_cast most, ?_⟩
  have distance : (s : ℚ) * 10 ^ (pointPosition a - k) - a =
      (roundHalfEven t - t) * 10 ^ (pointPosition a - k) := by
    rw [rounded]
    nth_rewrite 2 [eq]
    push_cast
    ring
  rw [distance, abs_mul, abs_of_pos unit]
  exact mul_le_mul_of_nonneg_right (abs_le.mpr ⟨under, above⟩) unit.le

theorem nextDigits_spec : 10 ^ (k - 1) ≤ nextDigits a k ∧ nextDigits a k ≤ 10 ^ k := by
  obtain ⟨least, most, _⟩ := nearestDigits_spec pos reach digits
  obtain ⟨t, _, quotient, bottom, top⟩ := scaled_spec pos reach digits
  unfold nextDigits
  rw [quotient]
  split
  next under =>
    have below : nearestDigits a k < 10 ^ k := by exact_mod_cast lt_of_le_of_lt under top
    omega
  next above =>
    have more : 10 ^ (k - 1) < nearestDigits a k := by
      exact_mod_cast lt_of_le_of_lt bottom (not_le.mp above)
    omega

end digits

theorem shortestDigits_spec {x : Double} (positive : x.negative = false) (ne : x.mantissa ≠ 0) :
    ∃ k : Nat, 1 ≤ k ∧ 10 ^ (k - 1) ≤ (shortestDigits x.magnitude).1 ∧ (shortestDigits x.magnitude).1 < 10 ^ k ∧
      ∀ sign, ofRat ((shortestDigits x.magnitude).1 *
        pow10 ((shortestDigits x.magnitude).2 - k)) sign = .finite x := by
  have one : (1 : ℚ) ≤ x.mantissa := by exact_mod_cast Nat.one_le_iff_ne_zero.mpr ne
  have pos : 0 < x.magnitude := mul_pos (by linarith) (Double.scale_pos _)
  have reach : 1 ≤ x.magnitude * 10 ^ 400 := by
    have least : (2 : ℚ) ^ (-1074 : Int) ≤ Double.scale x.exponent := by
      rw [Double.scale_eq_zpow]
      exact zpow_le_zpow_right₀ (by norm_num) x.canonical.2.1
    have powers : (2 : ℚ) ^ 1074 ≤ 10 ^ 400 := by
      have : 2 ^ 1074 ≤ 10 ^ 400 := by decide +kernel
      exact_mod_cast this
    have enough : (1 : ℚ) ≤ 2 ^ (-1074 : Int) * 10 ^ 400 := by
      rw [show (-1074 : Int) = -((1074 : Nat) : Int) by rfl, zpow_neg, zpow_natCast,
        le_inv_mul_iff₀ (by positivity), mul_one]
      exact powers
    have unit : (0 : ℚ) < 2 ^ (-1074 : Int) := by norm_num
    have whole : (2 : ℚ) ^ (-1074 : Int) ≤ x.magnitude := by
      calc (2 : ℚ) ^ (-1074 : Int) ≤ Double.scale x.exponent := least
        _ ≤ x.mantissa * Double.scale x.exponent :=
          le_mul_of_one_le_left (Double.scale_pos _).le one
    exact enough.trans (mul_le_mul_of_nonneg_right whole (by positivity))
  obtain ⟨k, s, digits, among, eq, reads⟩ := shortestDigits_eq x.magnitude
  have bounds : 10 ^ (k - 1) ≤ s ∧ s ≤ 10 ^ k := by
    rcases among with rfl | rfl
    · obtain ⟨low, high, _⟩ := nearestDigits_spec pos reach digits
      exact ⟨low, high⟩
    · exact nextDigits_spec pos reach digits
  obtain ⟨least, most, value⟩ := digitsAt_spec (n := pointPosition x.magnitude) digits bounds.1 bounds.2
  rw [← eq] at least most value
  have itself : ofRat x.magnitude false = .finite x := by
    apply ofRat_near positive ne
    rw [sub_self, abs_zero, mul_zero]
    exact pos
  have positiveDigits : (0 : ℚ) < s := by
    exact_mod_cast lt_of_lt_of_le (Nat.pow_pos (by decide)) bounds.1
  refine ⟨k, digits, least, most, fun sign => ?_⟩
  have nonzero : ((shortestDigits x.magnitude).1 : ℚ) * pow10 ((shortestDigits x.magnitude).2 - k) ≠ 0 := by
    rw [value]
    exact (mul_pos positiveDigits (zpow_pos (by norm_num) _)).ne'
  rw [ofRat_sign nonzero sign false]
  rcases reads with reads | ⟨rfl, rfl⟩
  · exact (of_decide_eq_true reads).trans itself
  · obtain ⟨_, _, error⟩ := nearestDigits_spec pos reach digits
    rw [value]
    apply ofRat_near positive ne
    obtain ⟨low, _⟩ := pointPosition_spec pos reach
    have unit : (0 : ℚ) < 10 ^ (pointPosition x.magnitude - (17 : Nat)) := zpow_pos (by norm_num) _
    have place : (10 : ℚ) ^ (pointPosition x.magnitude - 1) =
        10 ^ 16 * 10 ^ (pointPosition x.magnitude - (17 : Nat)) := by
      rw [← zpow_natCast, ← zpow_add₀ (by norm_num)]
      congr 1
      push_cast
      ring
    rw [place] at low
    have narrow : (2 : ℚ) ^ 54 * (1 / 2 * 10 ^ (pointPosition x.magnitude - (17 : Nat))) <
        10 ^ 16 * 10 ^ (pointPosition x.magnitude - (17 : Nat)) := by
      rw [← mul_assoc]
      exact mul_lt_mul_of_pos_right (by norm_num) unit
    calc 2 ^ 54 * |(nearestDigits x.magnitude 17 : ℚ) * 10 ^ (pointPosition x.magnitude - (17 : Nat)) -
          x.magnitude|
        ≤ 2 ^ 54 * (1 / 2 * 10 ^ (pointPosition x.magnitude - (17 : Nat))) :=
          mul_le_mul_of_nonneg_left error (by norm_num)
      _ < 10 ^ 16 * 10 ^ (pointPosition x.magnitude - (17 : Nat)) := narrow
      _ ≤ x.magnitude := low

-- the interval of a power of two is wider above it, where the shorter decimal lies
example : numberText (ofRat (1 / 2 ^ 44) false) = js "5.684341886080802e-14" := by decide +kernel

end JsonText
