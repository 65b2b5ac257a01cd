import ForgeDeno.Cryptoki
import ForgeDeno.JsRounding

namespace JsNumber

def Exact (v : Nat) : Prop := 2 ^ (v.log2 - 52) ∣ v

instance (v : Nat) : Decidable (Exact v) := inferInstanceAs (Decidable (2 ^ (v.log2 - 52) ∣ v))

theorem exact_iff {v : Nat} : Exact v ↔ ∃ m e, m < 2 ^ 53 ∧ v = m * 2 ^ e := by
  constructor
  · intro ⟨m, same⟩
    refine ⟨m, v.log2 - 52, ?_, by rw [Nat.mul_comm]; exact same⟩
    have high : v < 2 ^ (v.log2 + 1) := Nat.lt_log2_self
    have wide : v < 2 ^ 53 * 2 ^ (v.log2 - 52) := by
      rw [← pow_add]
      exact lt_of_lt_of_le high (Nat.pow_le_pow_right (by decide) (by omega))
    have product : m * 2 ^ (v.log2 - 52) < 2 ^ 53 * 2 ^ (v.log2 - 52) := by
      rw [Nat.mul_comm m, ← same]
      exact wide
    exact Nat.lt_of_mul_lt_mul_right product
  · intro ⟨m, e, small, same⟩
    have bits : v.log2 - 52 ≤ e := by
      by_cases zero : v = 0
      · rw [zero]
        have none : Nat.log2 0 = 0 := by decide
        omega
      · have below : v < 2 ^ (53 + e) := by
          rw [same, pow_add]
          exact Nat.mul_lt_mul_of_pos_right small (Nat.two_pow_pos e)
        have bound := (Nat.log2_lt zero).mpr below
        omega
    unfold Exact
    have divides : 2 ^ (v.log2 - 52) ∣ m * 2 ^ e := (Nat.pow_dvd_pow 2 bits).mul_left m
    rwa [← same] at divides

theorem exact_of_lt {v : Nat} (small : v < 2 ^ 53) : Exact v :=
  exact_iff.mpr ⟨v, 0, small, by rw [pow_zero, Nat.mul_one]⟩

theorem exact_finite {x : Double} {n : Nat} (value : x.toRat = n) : Exact n := by
  obtain ⟨mantissa_small, _⟩ := x.canonical
  have magnitude : (n : ℚ) = x.mantissa * Double.scale x.exponent := by
    have size := Double.abs_toRat x
    rw [value, Nat.abs_cast] at size
    exact size
  by_cases whole : 0 ≤ x.exponent
  · obtain ⟨e, exponent⟩ := Int.eq_ofNat_of_zero_le whole
    rw [exponent, Double.scale_natCast] at magnitude
    exact exact_iff.mpr ⟨x.mantissa, e, mantissa_small, by exact_mod_cast magnitude⟩
  · apply exact_of_lt
    have scaled : Double.scale x.exponent ≤ 1 := by
      rw [Double.scale, if_neg whole]
      have more : (1 : ℚ) ≤ 2 ^ (-x.exponent).toNat := one_le_pow₀ (by norm_num)
      exact (div_le_one (by positivity)).mpr more
    have nonneg : (0 : ℚ) ≤ x.mantissa := Nat.cast_nonneg _
    have below : (n : ℚ) ≤ x.mantissa := by
      rw [magnitude]
      exact mul_le_of_le_one_right nonneg scaled
    have below_nat : n ≤ x.mantissa := by exact_mod_cast below
    omega

theorem ofRat_finite {q : ℚ} (positive : 0 < q) {sign : Bool} {z : Double} (finite : ofRat q sign = .finite z) :
    z.toRat = (roundHalfEven (q / Double.scale (Max.max (leadingBit q - 52) (-1074)))).toNat *
      Double.scale (Max.max (leadingBit q - 52) (-1074)) := by
  have size : |q| = q := abs_of_pos positive
  have unsigned : decide (q < 0) = false := decide_eq_false (not_lt.mpr positive.le)
  unfold ofRat at finite
  rw [if_neg positive.ne', size, unsigned] at finite
  dsimp only at finite
  generalize Max.max (leadingBit q - 52) (-1074) = e at finite ⊢
  generalize (roundHalfEven (q / Double.scale e)).toNat = rounded at finite ⊢
  split_ifs at finite with carry empty fits zero fits
  · exact empty.elim
  · cases finite
    simp only [Double.toRat, Double.magnitude, Double.scale_eq_zpow, carry, Bool.false_eq_true, if_false]
    rw [zpow_add_one₀ (by norm_num)]
    push_cast
    ring
  · cases finite
    simp [Double.toRat, Double.magnitude, Double.zero, zero]
  · cases finite
    simp [Double.toRat, Double.magnitude]

theorem roundHalfEven_le (q : ℚ) : (roundHalfEven q : ℚ) ≤ q + 1 / 2 := by
  have low := Int.floor_le q
  have above : q - ⌊q⌋ < 1 / 2 ∨ (⌊q⌋ : ℚ) + 1 ≤ q + 1 / 2 := by
    by_cases near : q - ⌊q⌋ < 1 / 2
    · exact .inl near
    · exact .inr (by linarith)
  unfold roundHalfEven
  dsimp only
  split_ifs with near far even
  · linarith
  · push_cast
    linarith
  · linarith
  · rcases above with near' | up
    · exact absurd near' near
    · push_cast
      exact up

theorem floor_le_roundHalfEven (q : ℚ) : ⌊q⌋ ≤ roundHalfEven q := by
  unfold roundHalfEven
  dsimp only
  split_ifs <;> omega

theorem roundHalfEven_le_floor (q : ℚ) : roundHalfEven q ≤ ⌊q⌋ + 1 := by
  unfold roundHalfEven
  dsimp only
  split_ifs <;> omega

end JsNumber

namespace ForgeDeno

open JsNumber

theorem numberOfBigint_zero : numberOfBigint 0 = 0 := by
  have whole : ofInt (0 : Nat) = .finite (.zero false) := by simp [ofInt, ofRat]
  unfold numberOfBigint
  rw [whole]
  simp [integer?, Double.toRat, Double.magnitude, Double.zero]

theorem numberOfBigint_exact {v : Nat} (held : Exact v) (range : v < 2 ^ 64) : numberOfBigint v = v := by
  by_cases zero : v = 0
  · rw [zero]
    exact numberOfBigint_zero
  · have bits := (Nat.log2_lt zero).mpr range
    obtain ⟨m, same⟩ := held
    have small : m < 2 ^ 53 := by
      have high : v < 2 ^ (v.log2 + 1) := Nat.lt_log2_self
      have wide : 2 ^ (v.log2 - 52) * m < 2 ^ (v.log2 - 52) * 2 ^ 53 := by
        rw [← same, ← pow_add]
        exact lt_of_lt_of_le high (Nat.pow_le_pow_right (by decide) (by omega))
      exact Nat.lt_of_mul_lt_mul_left wide
    have natural : ((v : Nat) : Int).natAbs = m * 2 ^ (v.log2 - 52) := by
      rw [Int.natAbs_natCast, Nat.mul_comm]
      exact same
    obtain ⟨z, finite, value⟩ := ofRat_intCast (by omega) natural small (by omega) false
    have number : ofInt (v : Nat) = .finite z := finite
    have rational : z.toRat = ((v : Nat) : ℚ) := by
      rw [value]
      push_cast
      rfl
    unfold numberOfBigint
    rw [number]
    unfold integer?
    dsimp only
    rw [rational, Rat.den_natCast, Rat.num_natCast]
    rfl

theorem exact_numberOfBigint (v : Nat) : Exact (numberOfBigint v) := by
  unfold numberOfBigint
  cases ofInt (v : Nat) with
  | nan => exact exact_of_lt (by decide)
  | infinity s => exact exact_of_lt (Nat.two_pow_pos 53)
  | finite x =>
    unfold integer?
    dsimp only
    split
    next whole =>
      rw [Option.getD_some]
      by_cases nonneg : 0 ≤ x.toRat.num
      · apply exact_finite (x := x)
        have integral : ((x.toRat.num : Int) : ℚ) = x.toRat := Rat.coe_int_num_of_den_eq_one whole
        rw [← integral]
        have natural : ((x.toRat.num.toNat : Nat) : Int) = x.toRat.num := Int.toNat_of_nonneg nonneg
        exact_mod_cast natural.symm
      · have none : x.toRat.num.toNat = 0 := by omega
        rw [none]
        exact exact_of_lt (by decide)
    next => exact exact_of_lt (by decide)

theorem numberOfBigint_rounded {v : Nat} (large : 2 ^ 52 ≤ v) (range : v < 2 ^ 64) :
    ∃ R, 2 ^ 52 ≤ R ∧ roundHalfEven ((v : ℚ) / 2 ^ (v.log2 - 52)) = (R : Nat) ∧
      numberOfBigint v = R * 2 ^ (v.log2 - 52) := by
  have positive : 0 < v := by omega
  have low : 2 ^ v.log2 ≤ v := Nat.log2_self_le (by omega)
  have high : v < 2 ^ (v.log2 + 1) := Nat.lt_log2_self
  have bits : 52 ≤ v.log2 := (Nat.le_log2 (by omega)).mpr large
  have top : v.log2 < 64 := (Nat.log2_lt (by omega)).mpr range
  obtain ⟨E, place⟩ := Nat.exists_eq_add_of_le bits
  have exponent : Max.max (leadingBit (v : ℚ) - 52) (-1074) = (E : Int) := by
    rw [leadingBit_natCast positive]
    omega
  have unit_pos : (0 : ℚ) < 2 ^ E := by positivity
  have floor_low : (2 ^ 52 : Int) ≤ ⌊(v : ℚ) / 2 ^ E⌋ := by
    rw [Int.le_floor, le_div_iff₀ unit_pos]
    rw [place, pow_add] at low
    exact_mod_cast low
  have floor_high : ⌊(v : ℚ) / 2 ^ E⌋ < (2 ^ 53 : Int) := by
    rw [Int.floor_lt, div_lt_iff₀ unit_pos]
    rw [show v.log2 + 1 = 53 + E by omega, pow_add] at high
    exact_mod_cast high
  have rounded_low := floor_le_roundHalfEven ((v : ℚ) / 2 ^ E)
  have rounded_high := roundHalfEven_le_floor ((v : ℚ) / 2 ^ E)
  rw [place, Nat.add_sub_cancel_left]
  generalize rounded : roundHalfEven ((v : ℚ) / 2 ^ E) = r at rounded_low rounded_high
  obtain ⟨R, whole⟩ := Int.eq_ofNat_of_zero_le (show 0 ≤ r by omega)
  refine ⟨R, by omega, whole, ?_⟩
  have positive_rat : (0 : ℚ) < ((v : Int) : ℚ) := by exact_mod_cast positive
  unfold numberOfBigint ofInt
  cases number : ofRat ((v : Int) : ℚ) false with
  | finite z =>
    have value := ofRat_finite positive_rat number
    rw [Int.cast_natCast, exponent, Double.scale_natCast, rounded, whole] at value
    have natural : z.toRat = ((R * 2 ^ E : Nat) : ℚ) := by
      rw [value]
      push_cast
      rfl
    unfold integer?
    dsimp only
    rw [natural, Rat.den_natCast, Rat.num_natCast, if_pos rfl, Option.getD_some, Int.toNat_natCast]
  | nan | infinity s =>
    unfold ofRat at number
    rw [if_neg positive_rat.ne', abs_of_pos positive_rat, Int.cast_natCast, exponent] at number
    dsimp only at number
    rw [Double.scale_natCast, rounded, whole, Int.toNat_natCast] at number
    split_ifs at number <;> omega

theorem numberOfBigint_le {v : Nat} (range : v < 2 ^ 64) : numberOfBigint v ≤ 2 * v := by
  by_cases small : v < 2 ^ 53
  · rw [numberOfBigint_exact (exact_of_lt small) range]
    omega
  · obtain ⟨R, _, rounded, value⟩ := numberOfBigint_rounded (show 2 ^ 52 ≤ v by omega) range
    have low : 2 ^ v.log2 ≤ v := Nat.log2_self_le (by omega)
    have unit : 2 ^ (v.log2 - 52) ≤ v := (Nat.pow_le_pow_right (by decide) (by omega)).trans low
    have upper := roundHalfEven_le ((v : ℚ) / 2 ^ (v.log2 - 52))
    rw [rounded, Int.cast_natCast] at upper
    rw [value]
    generalize v.log2 - 52 = E at unit upper
    have unit_le : (2 : ℚ) ^ E ≤ v := by exact_mod_cast unit
    have product : (R : ℚ) * 2 ^ E ≤ v + 1 / 2 * 2 ^ E := by
      calc (R : ℚ) * 2 ^ E ≤ (v / 2 ^ E + 1 / 2) * 2 ^ E := by gcongr
        _ = v + 1 / 2 * 2 ^ E := by field_simp
    have bound : ((R * 2 ^ E : Nat) : ℚ) ≤ ((2 * v : Nat) : ℚ) := by
      push_cast
      linarith
    exact_mod_cast bound

theorem numberOfBigint_large {v : Nat} (large : 2 ^ 53 ≤ v) (range : v < 2 ^ 64) : 2 ^ 53 ≤ numberOfBigint v := by
  obtain ⟨R, mantissa, _, value⟩ := numberOfBigint_rounded (show 2 ^ 52 ≤ v by omega) range
  have bits : 53 ≤ v.log2 := (Nat.le_log2 (by omega)).mpr large
  have unit : 2 ^ 1 ≤ 2 ^ (v.log2 - 52) := Nat.pow_le_pow_right (by decide) (by omega)
  rw [value]
  calc 2 ^ 53 = 2 ^ 52 * 2 ^ 1 := by norm_num
    _ ≤ R * 2 ^ (v.log2 - 52) := Nat.mul_le_mul mantissa unit

theorem numberOfBigint_mod_iff {v : Nat} (range : v < 2 ^ 64) : numberOfBigint v % 2 ^ 64 = v ↔ Exact v := by
  constructor
  · intro same
    have bound := numberOfBigint_le range
    have whole : numberOfBigint v = v := by omega
    rw [← whole]
    exact exact_numberOfBigint v
  · intro held
    rw [numberOfBigint_exact held range, Nat.mod_eq_of_lt range]

theorem ofLittleEndian_lt (bytes : Bytes) : ofLittleEndian bytes < 256 ^ bytes.length := by
  induction bytes with
  | nil => exact Nat.one_pos
  | cons b rest ih =>
    have low : b.toNat < 256 := b.toNat_lt
    unfold ofLittleEndian
    rw [List.length_cons, pow_succ]
    omega

theorem ofLittleEndian_littleEndian (width n : Nat) :
    ofLittleEndian (littleEndian width n) = n % 256 ^ width := by
  induction width generalizing n with
  | zero => rw [pow_zero, Nat.mod_one]; rfl
  | succ width ih =>
    have low : (n % 256).toUInt8.toNat = n % 256 := by
      rw [Nat.toUInt8_eq, UInt8.toNat_ofNat']
      omega
    unfold littleEndian ofLittleEndian
    rw [ih, low, pow_succ', Nat.mod_mul]

theorem length_littleEndian (width n : Nat) : (littleEndian width n).length = width := by
  induction width generalizing n with
  | zero => rfl
  | succ width ih =>
    unfold littleEndian
    rw [List.length_cons, ih]

theorem littleEndian_inj {a b : Nat} (range : b < 2 ^ 64) :
    littleEndian 8 a = littleEndian 8 b ↔ a % 2 ^ 64 = b := by
  have width : (256 : Nat) ^ 8 = 2 ^ 64 := by norm_num
  have mod_b : b % 2 ^ 64 = b := Nat.mod_eq_of_lt range
  constructor
  · intro same
    have values := congrArg ofLittleEndian same
    rwa [ofLittleEndian_littleEndian, ofLittleEndian_littleEndian, width, mod_b] at values
  · intro same
    have lower : ∀ width n, littleEndian width (n % 256 ^ width) = littleEndian width n := by
      intro width
      induction width with
      | zero => exact fun _ => rfl
      | succ width ih =>
        intro n
        unfold littleEndian
        have byte : n % 256 ^ (width + 1) % 256 = n % 256 :=
          Nat.mod_mod_of_dvd n (Dvd.intro_left (256 ^ width) rfl)
        have rest : n % 256 ^ (width + 1) / 256 = n / 256 % 256 ^ width := by
          rw [pow_succ', Nat.mod_mul_right_div_self]
        rw [byte, rest, ih]
    have whole := lower 8 a
    rw [width, same] at whole
    exact whole.symm

theorem ulongValue_littleEndian {v : Nat} (range : v < 2 ^ 64) :
    ulongValue (littleEndian 8 v) = some (numberOfBigint v) := by
  have width : (256 : Nat) ^ 8 = 2 ^ 64 := by norm_num
  unfold ulongValue
  rw [if_neg (not_not.mpr (length_littleEndian 8 v)), ofLittleEndian_littleEndian, width, Nat.mod_eq_of_lt range]

end ForgeDeno
