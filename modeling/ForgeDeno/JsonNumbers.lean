import ForgeDeno.JsDecimal

namespace JsonText

open JsNumber List Option

def Digits (ds : JsString) : Prop := ∀ u ∈ ds, isDigit u = true

theorem Digits.append {a b : JsString} (ha : Digits a) (hb : Digits b) : Digits (a ++ b) := by
  intro u mem
  rcases mem_append.mp mem with mem | mem
  · exact ha u mem
  · exact hb u mem

theorem digits_zeros (n : Nat) : Digits (List.replicate n 0x30) := by
  intro u mem
  rw [eq_of_mem_replicate mem]
  rfl

theorem digitsValue_foldl (ds : JsString) (n : Nat) :
    ds.foldl (fun n u => 10 * n + (u.toNat - 0x30)) n = n * 10 ^ ds.length + digitsValue ds := by
  induction ds generalizing n with
  | nil => simp [digitsValue]
  | cons u ds ih =>
    unfold digitsValue
    rw [foldl_cons, foldl_cons, ih, ih (10 * 0 + (u.toNat - 0x30)), length_cons, pow_succ]
    ring

theorem digitsValue_append (a b : JsString) :
    digitsValue (a ++ b) = digitsValue a * 10 ^ b.length + digitsValue b := by
  rw [digitsValue, foldl_append]
  exact digitsValue_foldl b _

theorem digitsValue_zeros (n : Nat) : digitsValue (List.replicate n 0x30) = 0 := by
  induction n with
  | zero => rfl
  | succ n ih =>
    rw [replicate_succ']
    rw [digitsValue_append, ih]
    rfl

theorem isDigit_bounds {u : UInt16} (h : isDigit u = true) : 0x30 ≤ u.toNat ∧ u.toNat ≤ 0x39 := by
  obtain ⟨low, high⟩ := Bool.and_eq_true_iff.mp h
  exact ⟨of_decide_eq_true low, of_decide_eq_true high⟩

variable {ds rest : JsString}

theorem digitsValue_lt (h : Digits ds) : digitsValue ds < 10 ^ ds.length := by
  induction ds with
  | nil => exact Nat.one_pos
  | cons u ds ih =>
    have rest := ih fun v mem => h v (mem_cons_of_mem u mem)
    obtain ⟨_, high⟩ := isDigit_bounds (h u mem_cons_self)
    have first : digitsValue [u] = u.toNat - 0x30 := Nat.zero_add _
    have split : digitsValue (u :: ds) = (u.toNat - 0x30) * 10 ^ ds.length + digitsValue ds := by
      rw [← first]
      exact digitsValue_append [u] ds
    have bound : (u.toNat - 0x30) * 10 ^ ds.length ≤ 9 * 10 ^ ds.length :=
      Nat.mul_le_mul_right _ (by omega)
    rw [split, length_cons, pow_succ]
    omega

theorem isDigit_char {c : Char} (h : c.isDigit = true) :
    isDigit c.toNat.toUInt16 = true ∧ c.toNat.toUInt16.toNat = c.toNat := by
  obtain ⟨low, high⟩ := Bool.and_eq_true_iff.mp h
  have least : 48 ≤ c.toNat := of_decide_eq_true low
  have most : c.toNat ≤ 57 := of_decide_eq_true high
  have same : c.toNat.toUInt16.toNat = c.toNat := by
    show c.toNat % 2 ^ 16 = c.toNat
    omega
  refine ⟨?_, same⟩
  apply Bool.and_eq_true_iff.mpr
  constructor
  · apply decide_eq_true
    show 48 ≤ c.toNat.toUInt16.toNat
    omega
  · apply decide_eq_true
    show c.toNat.toUInt16.toNat ≤ 57
    omega

theorem naturalText_digits (n : Nat) : Digits (naturalText n) := by
  intro u mem
  obtain ⟨c, digit, rfl⟩ := mem_map.mp mem
  exact (isDigit_char (Nat.isDigit_of_mem_toDigits (by decide) (by decide) digit)).1

theorem digitsValue_naturalText (n : Nat) : digitsValue (naturalText n) = n := by
  have chars (cs : List Char) (all : ∀ c ∈ cs, c.isDigit = true) (init : Nat) :
      (cs.map fun c => c.toNat.toUInt16).foldl (fun n u => 10 * n + (u.toNat - 0x30)) init =
        Nat.ofDigitChars 10 cs init := by
    induction cs generalizing init with
    | nil => rfl
    | cons c cs ih =>
      obtain ⟨_, same⟩ := isDigit_char (all c mem_cons_self)
      rw [map_cons, foldl_cons, Nat.ofDigitChars_cons, same]
      exact ih (fun d mem => all d (mem_cons_of_mem c mem)) _
  have all : ∀ c ∈ Nat.toDigits 10 n, c.isDigit = true :=
    fun c digit => Nat.isDigit_of_mem_toDigits (by decide) (by decide) digit
  exact (chars _ all 0).trans Nat.ofDigitChars_ten_toDigits

theorem naturalText_length {n k : Nat} (pos : 1 ≤ k) (low : 10 ^ (k - 1) ≤ n) (high : n < 10 ^ k) :
    (naturalText n).length = k := by
  unfold naturalText
  rw [length_map]
  have upper := (Nat.length_toDigits_le_iff (by decide) pos).mpr high
  have lower : ¬(Nat.toDigits 10 n).length ≤ k - 1 := by
    intro short
    by_cases single : k - 1 = 0
    · have := Nat.length_toDigits_pos (b := 10) (n := n)
      omega
    · have := (Nat.length_toDigits_le_iff (by decide) (Nat.pos_of_ne_zero single)).mp short
      omega
  omega

theorem head_ne_zero (digits : Digits ds)
    (large : 10 ^ (ds.length - 1) ≤ digitsValue ds) : ds.head? ≠ some 0x30 := by
  intro head
  cases ds with
  | nil => cases head
  | cons u tail =>
    cases head
    have small := digitsValue_lt fun v mem => digits v (mem_cons_of_mem _ mem)
    have value : digitsValue (0x30 :: tail) = digitsValue tail := by
      show digitsValue ([0x30] ++ tail) = _
      rw [digitsValue_append]
      simp [digitsValue]
    rw [value, length_cons, Nat.add_sub_cancel] at large
    omega

structure Literal where
  whole : JsString
  fraction : JsString
  exponent : Option Int

namespace Literal

def exponentText : Option Int → JsString
  | none => []
  | some e => 0x65 :: (if 0 ≤ e then 0x2B else 0x2D) :: naturalText e.natAbs

def fractionText (fraction : JsString) : JsString :=
  if fraction = [] then [] else 0x2E :: fraction

def text (l : Literal) : JsString :=
  l.whole ++ (fractionText l.fraction ++ exponentText l.exponent)

def value (l : Literal) : ℚ :=
  digitsValue (l.whole ++ l.fraction) * pow10 (l.exponent.getD 0 - l.fraction.length)

structure Valid (l : Literal) : Prop where
  whole : Digits l.whole
  fraction : Digits l.fraction
  nonempty : l.whole ≠ []
  leading : ¬(l.whole.head? = some 0x30 ∧ 1 < l.whole.length)

end Literal

def EndsNumber (rest : JsString) : Prop :=
  ∀ u ∈ rest.head?, isDigit u = false ∧ u ≠ 0x2E ∧ u ≠ 0x65 ∧ u ≠ 0x45

theorem span_digits {tail : JsString} (digits : Digits ds) (ends : ∀ u ∈ tail.head?, isDigit u = false) :
    (ds ++ tail).takeWhile isDigit = ds ∧ (ds ++ tail).dropWhile isDigit = tail := by
  have stop : tail.takeWhile isDigit = [] ∧ tail.dropWhile isDigit = tail := by
    cases tail with
    | nil => exact ⟨rfl, rfl⟩
    | cons u rest =>
      have other := ends u rfl
      exact ⟨by simp [other], by simp [other]⟩
  rw [takeWhile_append_of_pos digits, dropWhile_append_of_pos digits, stop.1, stop.2, append_nil]
  exact ⟨rfl, rfl⟩

theorem parseExponent_text (exponent : Option Int) (ends : EndsNumber rest) :
    parseExponent (Literal.exponentText exponent ++ rest) = some (exponent.getD 0, rest) := by
  cases exponent with
  | none =>
    unfold Literal.exponentText parseExponent
    cases rest with
    | nil => rfl
    | cons u rest =>
      obtain ⟨_, _, lower, upper⟩ := ends u rfl
      simp [lower, upper]
  | some e =>
    have stop : ∀ u ∈ rest.head?, isDigit u = false := fun u mem => (ends u mem).1
    obtain ⟨taken, dropped⟩ := span_digits (naturalText_digits e.natAbs) stop
    have ne : naturalText e.natAbs ≠ [] := by
      intro empty
      exact Nat.toDigits_ne_nil (map_eq_nil_iff.mp empty)
    unfold Literal.exponentText parseExponent
    by_cases nonneg : 0 ≤ e
    · have whole : (e.natAbs : Int) = e := Int.natAbs_of_nonneg (by omega)
      simp only [nonneg, if_true, cons_append, taken, dropped, ne, if_false,
        digitsValue_naturalText, whole, getD_some, true_or, reduceCtorEq]
    · have whole : -(e.natAbs : Int) = e := by
        rw [Int.ofNat_natAbs_of_nonpos (by omega), neg_neg]
      simp only [nonneg, if_false, cons_append, taken, dropped, ne,
        digitsValue_naturalText, whole, getD_some, true_or]
      rfl

theorem parseFraction_text {fraction : JsString} (digits : Digits fraction)
    (ends : ∀ u ∈ rest.head?, isDigit u = false ∧ u ≠ 0x2E) :
    parseFraction (Literal.fractionText fraction ++ rest) = some (fraction, rest) := by
  unfold Literal.fractionText
  split
  next empty =>
    rw [empty]
    unfold parseFraction
    cases rest with
    | nil => rfl
    | cons u rest =>
      have := (ends u rfl).2
      simp [this]
  next ne =>
    obtain ⟨taken, dropped⟩ := span_digits digits fun u mem => (ends u mem).1
    unfold parseFraction
    simp [taken, dropped, ne]

theorem parseNumber_literal {l : Literal} (valid : l.Valid) (negative : Bool)
    (ends : EndsNumber rest) : parseNumber ((if negative then [0x2D] else []) ++ (l.text ++ rest)) =
      some (JsNumber.ofRat (if negative then -l.value else l.value) negative, rest) := by
  have behind : ∀ u ∈ (Literal.exponentText l.exponent ++ rest).head?,
      isDigit u = false ∧ u ≠ 0x2E := by
    cases l.exponent with
    | none => exact fun u mem => ⟨(ends u mem).1, (ends u mem).2.1⟩
    | some e =>
      intro u mem
      cases mem
      exact ⟨rfl, by decide⟩
  have point : ∀ u ∈ (Literal.fractionText l.fraction ++
      (Literal.exponentText l.exponent ++ rest)).head?, isDigit u = false := by
    unfold Literal.fractionText
    split
    next => exact fun u mem => (behind u mem).1
    next =>
      intro u mem
      cases mem
      rfl
  obtain ⟨taken, dropped⟩ := span_digits valid.whole point
  have fraction := parseFraction_text valid.fraction behind
  have exponent := parseExponent_text l.exponent ends
  have unsigned : l.text ++ rest = l.whole ++ (Literal.fractionText l.fraction ++
      (Literal.exponentText l.exponent ++ rest)) := by
    unfold Literal.text
    rw [append_assoc, append_assoc]
  have accepted : ¬(l.whole = [] ∨ l.whole.head? = some 0x30 ∧ 1 < l.whole.length) :=
    not_or.mpr ⟨valid.nonempty, valid.leading⟩
  have plain : ∀ tail, l.text ++ rest ≠ 0x2D :: tail := by
    intro tail eq
    rw [unsigned] at eq
    obtain ⟨first, others, whole⟩ := exists_cons_of_ne_nil valid.nonempty
    rw [whole, cons_append] at eq
    have digit := valid.whole first (whole ▸ mem_cons_self)
    rw [head_eq_of_cons_eq eq] at digit
    cases digit
  unfold parseNumber
  cases negative with
  | true =>
    simp only [if_true, singleton_append, unsigned, taken, dropped, accepted, if_false,
      fraction, exponent, bind_eq_bind, bind_some]
    rfl
  | false =>
    simp only [Bool.false_eq_true, if_false, nil_append]
    simp only [unsigned, taken, dropped, accepted, if_false, fraction, exponent,
      bind_eq_bind, bind_some]
    rfl

theorem layout_literal {s k : Nat} (n : Int) (pos : 1 ≤ k) (low : 10 ^ (k - 1) ≤ s)
    (high : s < 10 ^ k) {a : ℚ} (shortest : shortestDigits a = (s, n)) :
    ∃ l : Literal, l.Valid ∧ positiveText a = l.text ∧ l.value = s * pow10 (n - k) := by
  obtain ⟨ds, named⟩ : ∃ ds, naturalText s = ds := ⟨_, rfl⟩
  have digits : Digits ds := named ▸ naturalText_digits s
  have value : digitsValue ds = s := named ▸ digitsValue_naturalText s
  have length : ds.length = k := named ▸ naturalText_length pos low high
  have leading : ds.head? ≠ some 0x30 := head_ne_zero digits (by rw [length, value]; exact low)
  have ne : ds ≠ [] := by
    intro empty
    rw [empty, length_nil] at length
    omega
  unfold positiveText
  simp only [shortest, named, length]
  split
  next whole =>
    refine ⟨⟨ds ++ replicate (n - k).toNat 0x30, [], none⟩, ⟨digits.append (digits_zeros _),
      nofun, append_ne_nil_of_left_ne_nil ne _, ?_⟩, ?_, ?_⟩
    · rintro ⟨zero, _⟩
      rw [head?_append_of_ne_nil _ ne] at zero
      exact leading zero
    · simp [Literal.text, Literal.fractionText, Literal.exponentText]
    · have place : n - k = ((n - k).toNat : Int) := (Int.toNat_of_nonneg (by omega)).symm
      simp only [Literal.value, append_nil, digitsValue_append, digitsValue_zeros, value,
        length_replicate, getD_none, length_nil, add_zero]
      rw [pow10_eq_zpow, pow10_eq_zpow]
      nth_rewrite 2 [place]
      rw [zpow_natCast]
      push_cast
      simp
  next =>
    split
    next inner =>
      obtain ⟨positive, _⟩ := inner
      have inside : n.toNat < ds.length := by omega
      refine ⟨⟨ds.take n.toNat, ds.drop n.toNat, none⟩,
        ⟨fun u mem => digits u (mem_of_mem_take mem),
          fun u mem => digits u (mem_of_mem_drop mem), ?_, ?_⟩, ?_, ?_⟩
      · intro empty
        have := congrArg List.length empty
        rw [length_take, length_nil] at this
        omega
      · rintro ⟨zero, _⟩
        rw [head?_take, if_neg (by omega)] at zero
        exact leading zero
      · have fraction : ds.drop n.toNat ≠ [] := by
          intro empty
          have := congrArg List.length empty
          rw [length_drop, length_nil] at this
          omega
        simp [Literal.text, Literal.fractionText, Literal.exponentText, fraction]
      · have place : (0 : Int) - (ds.drop n.toNat).length = n - k := by
          rw [length_drop]
          omega
        simp only [Literal.value, take_append_drop, value, getD_none, place]
    next =>
      split
      next below =>
        refine ⟨⟨[0x30], replicate (-n).toNat 0x30 ++ ds, none⟩,
          ⟨digits_zeros 1, (digits_zeros _).append digits, cons_ne_nil _ _, ?_⟩, ?_, ?_⟩
        · rintro ⟨_, long⟩
          exact absurd long (Nat.lt_irrefl 1)
        · have fraction : replicate (-n).toNat 0x30 ++ ds ≠ [] :=
            append_ne_nil_of_right_ne_nil _ ne
          simp only [Literal.text, Literal.fractionText, Literal.exponentText, fraction, if_false,
            append_nil]
          rfl
        · have place : (0 : Int) - (replicate (-n).toNat (0x30 : UInt16) ++ ds).length =
              n - k := by
            rw [length_append, length_replicate]
            omega
          have zero : digitsValue [0x30] = 0 := rfl
          simp only [Literal.value, getD_none, place, digitsValue_append, digitsValue_zeros,
            zero, value, zero_mul, zero_add]
      next =>
        obtain ⟨d, rest, eq⟩ := exists_cons_of_ne_nil ne
        have single : Digits [d] := by
          intro u mem
          rw [mem_singleton.mp mem]
          exact digits d (eq ▸ mem_cons_self)
        refine ⟨⟨[d], rest, some (n - 1)⟩, ⟨single,
          fun u mem => digits u (eq ▸ mem_cons_of_mem d mem), cons_ne_nil _ _, ?_⟩, ?_, ?_⟩
        · rintro ⟨_, long⟩
          exact absurd long (Nat.lt_irrefl 1)
        · rw [eq]
          cases rest with
          | nil => rfl
          | cons second others => rfl
        · have place : (n - 1 : Int) - rest.length = n - k := by
            have := congrArg List.length eq
            rw [length_cons] at this
            omega
          show (digitsValue ([d] ++ rest) : ℚ) * pow10 (n - 1 - rest.length) = _
          rw [place, singleton_append, ← eq, value]

theorem positiveText_literal {x : Double} (positive : x.negative = false) (ne : x.mantissa ≠ 0) :
    ∃ l : Literal, l.Valid ∧ positiveText x.magnitude = l.text ∧ 0 < l.value ∧
      JsNumber.ofRat l.value false = .finite x := by
  obtain ⟨k, pos, low, high, reads⟩ := shortestDigits_spec positive ne
  obtain ⟨l, valid, text, value⟩ := layout_literal (shortestDigits x.magnitude).2 pos low high rfl
  have digits : (0 : ℚ) < (shortestDigits x.magnitude).1 := by
    exact_mod_cast lt_of_lt_of_le (Nat.pow_pos (by decide)) low
  refine ⟨l, valid, text, ?_, value ▸ reads false⟩
  rw [value, pow10_eq_zpow]
  exact mul_pos digits (zpow_pos (by norm_num) _)

end JsonText

namespace JsNumber

def plusZero : JsNumber → JsNumber
  | .finite x => if x.mantissa = 0 then .finite (.zero false) else .finite x
  | x => x

end JsNumber

namespace JsonText

theorem parseNumber_numberText (x : Double) {rest : JsString} (ends : EndsNumber rest) :
    parseNumber (numberText (.finite x) ++ rest) = some ((JsNumber.finite x).plusZero, rest) := by
  show parseNumber ((if x.mantissa = 0 then [0x30]
    else if x.negative then 0x2D :: positiveText x.magnitude
    else positiveText x.magnitude) ++ rest) =
      some (if x.mantissa = 0 then .finite (.zero false) else .finite x, rest)
  by_cases zero : x.mantissa = 0
  · have valid : Literal.Valid ⟨[0x30], [], none⟩ :=
      ⟨digits_zeros 1, nofun, List.cons_ne_nil _ _, fun h => Nat.lt_irrefl 1 h.2⟩
    have parsed := parseNumber_literal valid false ends
    have value : Literal.value ⟨[0x30], [], none⟩ = 0 := by
      have digits : digitsValue ([0x30] ++ []) = 0 := rfl
      unfold Literal.value
      rw [digits]
      simp
    rw [if_pos zero, if_pos zero]
    rw [value] at parsed
    exact parsed
  · rw [if_neg zero, if_neg zero]
    obtain ⟨l, valid, text, pos, reads⟩ :=
      positiveText_literal (x := { x with negative := false }) rfl zero
    have same : positiveText x.magnitude = l.text := text
    cases sign : x.negative with
    | false =>
      have parsed := parseNumber_literal valid false ends
      rw [if_neg Bool.false_ne_true, same]
      rw [if_neg Bool.false_ne_true, if_neg Bool.false_ne_true, reads] at parsed
      rw [← sign] at parsed
      exact parsed
    | true =>
      have parsed := parseNumber_literal valid true ends
      rw [if_pos rfl, same]
      rw [if_pos rfl, if_pos rfl, JsNumber.ofRat_neg pos reads] at parsed
      rw [← sign] at parsed
      exact parsed

end JsonText
