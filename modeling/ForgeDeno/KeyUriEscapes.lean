import ForgeDeno.KeyUris
import ForgeDeno.Utf8Strict

namespace ForgeDeno

open JsString Option

theorem hexDigit_toNat {letter n : Nat} (h : n < 16) (low : letter < 0x80) :
    (hexDigit letter n).toNat = if n < 10 then 0x30 + n else letter + (n - 10) := by
  unfold hexDigit
  split
  · exact toNat_unit (by omega)
  · exact toNat_unit (by omega)

theorem hexValue?_hexDigit {n : Nat} (h : n < 16) : hexValue? (hexDigit 0x41 n) = some n := by
  have digit := hexDigit_toNat h (show 0x41 < 0x80 by omega)
  unfold hexValue?
  simp only [UInt16.le_iff_toNat_le, UInt16.reduceToNat, digit]
  split
  next decimal =>
    rw [if_pos (by omega)]
    congr 1
    omega
  next letter =>
    rw [if_neg (by omega), if_pos (by omega)]
    congr 1
    omega

section units

variable {name rest : JsString} {u v w : UInt16}

theorem unescape_plain (h : u ≠ 0x25) : unescapeAttribute name (u :: rest) =
    (unescapeAttribute name rest).map (utf8Encode [u] ++ ·) := by
  match rest with
  | [] => exact (if_pos h).trans (congrArg Except.ok (List.append_nil _).symm)
  | [v] => exact if_pos h
  | v :: w :: tail => rw [unescapeAttribute, if_pos h]

theorem unescape_escape {high low : Nat} (first : hexValue? v = some high)
    (second : hexValue? w = some low) : unescapeAttribute name (0x25 :: v :: w :: rest) =
      (unescapeAttribute name rest).map ((high * 16 + low).toUInt8 :: ·) := by
  rw [unescapeAttribute, if_neg (fun different => different rfl), first, second]

def TwoDigits : JsString → Prop
  | v :: w :: _ => (hexValue? v).isSome ∧ (hexValue? w).isSome
  | _ => False

instance : DecidablePred TwoDigits
  | [] => isFalse id
  | [_] => isFalse id
  | v :: w :: _ => inferInstanceAs (Decidable ((hexValue? v).isSome ∧ (hexValue? w).isSome))

theorem unescape_broken (h : ¬TwoDigits rest) :
    ∃ failure, unescapeAttribute name (0x25 :: rest) = .error failure := by
  match rest with
  | [] => exact ⟨_, rfl⟩
  | [v] => exact ⟨_, rfl⟩
  | v :: w :: tail =>
    rw [unescapeAttribute, if_neg (fun different => different rfl)]
    cases first : hexValue? v with
    | none => exact ⟨_, rfl⟩
    | some high =>
      cases second : hexValue? w with
      | none => exact ⟨_, rfl⟩
      | some low => exact absurd ⟨by rw [first]; rfl, by rw [second]; rfl⟩ h

end units

section escaping

theorem unreserved_byte : ∀ n < 256, unreservedAttributeByte n.toUInt8 = true →
    0x20 < n ∧ n < 0x7F ∧ n ≠ 0x25 ∧ n ≠ 0x3B ∧ n ≠ 0x3D ∧ n ≠ 0x3F := by
  decide +kernel

theorem unreserved_bounds {byte : UInt8} (h : unreservedAttributeByte byte = true) :
    0x20 < byte.toNat ∧ byte.toNat < 0x7F ∧ byte.toNat ≠ 0x25 ∧ byte.toNat ≠ 0x3B ∧
      byte.toNat ≠ 0x3D ∧ byte.toNat ≠ 0x3F := by
  apply unreserved_byte byte.toNat byte.toNat_lt
  rw [Nat.toUInt8_eq, UInt8.ofNat_toNat]
  exact h

theorem unescape_escapeByte (name rest : JsString) (byte : UInt8) :
    unescapeAttribute name (escapeByte byte ++ rest) = (unescapeAttribute name rest).map (byte :: ·) := by
  have small := byte.toNat_lt
  unfold escapeByte
  split
  next literal =>
    have unit : byte.toNat.toUInt16.toNat = byte.toNat := toNat_unit (by omega)
    have bounds := unreserved_bounds literal
    have plain : byte.toNat.toUInt16 ≠ 0x25 := by
      intro same
      have value := congrArg UInt16.toNat same
      rw [unit] at value
      exact bounds.2.2.1 value
    have bytes : utf8Encode [byte.toNat.toUInt16] = [byte] := by
      unfold utf8Encode codePoints
      rw [unit, List.flatMap_singleton, utf8OfCodePoint_one (by omega), Nat.toUInt8_eq, UInt8.ofNat_toNat]
    rw [List.singleton_append, unescape_plain plain, bytes]
    rfl
  next =>
    have high := hexValue?_hexDigit (show byte.toNat / 16 < 16 by omega)
    have low := hexValue?_hexDigit (show byte.toNat % 16 < 16 by omega)
    have whole : byte.toNat / 16 * 16 + byte.toNat % 16 = byte.toNat := by omega
    rw [List.cons_append, List.cons_append, List.singleton_append, unescape_escape high low, whole,
      Nat.toUInt8_eq, UInt8.ofNat_toNat]

theorem unescape_escapeAttribute (name : JsString) (value : Bytes) :
    unescapeAttribute name (escapeAttribute value) = .ok value := by
  induction value with
  | nil => rfl
  | cons byte value ih =>
    have whole : escapeAttribute (byte :: value) = escapeByte byte ++ escapeAttribute value := rfl
    rw [whole, unescape_escapeByte, ih]
    rfl

def Inert (u : UInt16) : Prop :=
  0x20 < u.toNat ∧ u.toNat < 0x7F ∧ u.toNat ≠ 0x3B ∧ u.toNat ≠ 0x3D ∧ u.toNat ≠ 0x3F

theorem escaped_inert (value : Bytes) : ∀ u ∈ escapeAttribute value, Inert u := by
  intro u mem
  obtain ⟨byte, _, here⟩ := List.mem_flatMap.mp mem
  have small := byte.toNat_lt
  unfold escapeByte at here
  unfold Inert
  split at here
  next literal =>
    have bounds := unreserved_bounds literal
    have unit : u.toNat = byte.toNat := by
      rw [List.mem_singleton.mp here]
      exact toNat_unit (by omega)
    omega
  next =>
    have digit : ∀ n < 16, (hexDigit 0x41 n).toNat = if n < 10 then 0x30 + n else 0x41 + (n - 10) :=
      fun n limit => hexDigit_toNat limit (by omega)
    simp only [List.mem_cons, List.not_mem_nil, or_false] at here
    rcases here with rfl | rfl | rfl
    · decide
    · rw [digit _ (by omega)]
      split <;> omega
    · rw [digit _ (by omega)]
      split <;> omega

end escaping

section decoding

def hexPoint? (c : Nat) : Option Nat :=
  if 0x30 ≤ c ∧ c ≤ 0x39 then some (c - 0x30)
  else if 0x41 ≤ c ∧ c ≤ 0x46 then some (c - 0x41 + 10)
  else if 0x61 ≤ c ∧ c ≤ 0x66 then some (c - 0x61 + 10)
  else none

/-- What an attribute value stands for: each escape for its byte, any other code point for its
UTF-8 bytes. -/
def percentDecoded : List Nat → Option Bytes
  | [] => some []
  | [c] => if c ≠ 0x25 then some (utf8OfCodePoint c) else none
  | [c, d] => if c ≠ 0x25 then (percentDecoded [d]).map (utf8OfCodePoint c ++ ·) else none
  | c :: d :: e :: rest =>
    if c ≠ 0x25 then (percentDecoded (d :: e :: rest)).map (utf8OfCodePoint c ++ ·)
    else do
      let high ← hexPoint? d
      let low ← hexPoint? e
      let bytes ← percentDecoded rest
      return (high * 16 + low).toUInt8 :: bytes

def BrokenEscape (raw : JsString) : Prop :=
  ∃ before after, raw = before ++ 0x25 :: after ∧ ¬TwoDigits after

/-- `unescapeAttribute` gives the bytes that the text stands for, and throws exactly at a broken
escape. -/
def UnescapesExactly (name raw : JsString) : Prop :=
  (∀ bytes, unescapeAttribute name raw = .ok bytes ↔ percentDecoded raw.codePoints = some bytes) ∧
    ((∃ failure, unescapeAttribute name raw = .error failure) ↔ BrokenEscape raw)

theorem broken_plain {u : UInt16} {rest : JsString} (h : u ≠ 0x25) :
    BrokenEscape (u :: rest) ↔ BrokenEscape rest := by
  constructor
  · rintro ⟨before, after, same, broken⟩
    cases before with
    | nil => exact absurd (List.cons.inj same).1 h
    | cons _ before => exact ⟨before, after, (List.cons.inj same).2, broken⟩
  · intro ⟨before, after, same, broken⟩
    exact ⟨u :: before, after, congrArg (u :: ·) same, broken⟩

theorem hexValue?_percent : hexValue? 0x25 = none := rfl

theorem ne_percent {u : UInt16} (h : (hexValue? u).isSome) : u ≠ 0x25 := by
  intro same
  rw [same, hexValue?_percent] at h
  cases h

theorem broken_escape {v w : UInt16} {rest : JsString} (first : (hexValue? v).isSome)
    (second : (hexValue? w).isSome) : BrokenEscape (0x25 :: v :: w :: rest) ↔ BrokenEscape rest := by
  have skip : BrokenEscape (v :: w :: rest) ↔ BrokenEscape rest :=
    (broken_plain (ne_percent first)).trans (broken_plain (ne_percent second))
  refine Iff.trans ?_ skip
  constructor
  · intro ⟨before, after, same, broken⟩
    cases before with
    | nil =>
      have tail : v :: w :: rest = after := (List.cons.inj same).2
      exact absurd ⟨first, second⟩ (tail ▸ broken)
    | cons _ before => exact ⟨before, after, (List.cons.inj same).2, broken⟩
  · intro ⟨before, after, same, broken⟩
    exact ⟨0x25 :: before, after, congrArg (0x25 :: ·) same, broken⟩

theorem broken_append {rest : JsString} (h : BrokenEscape rest) (units : JsString) :
    BrokenEscape (units ++ rest) := by
  obtain ⟨before, after, same, broken⟩ := h
  refine ⟨units ++ before, after, ?_, broken⟩
  rw [same, List.append_assoc]

theorem map_throws {α β : Type} {f : α → β} {result : Except TokenFailure α} :
    (∃ failure, result.map f = .error failure) ↔ ∃ failure, result = .error failure := by
  cases result <;> simp [Except.map]

theorem throws_iff (name raw : JsString) :
    (∃ failure, unescapeAttribute name raw = .error failure) ↔ BrokenEscape raw := by
  induction size : raw.length using Nat.strong_induction_on generalizing raw with
  | _ size ih =>
    cases raw with
    | nil =>
      constructor
      · intro ⟨_, fails⟩
        cases fails
      · intro ⟨before, after, same, _⟩
        exact absurd same (List.append_ne_nil_of_right_ne_nil before (List.cons_ne_nil _ _)).symm
    | cons u rest =>
      rw [List.length_cons] at size
      by_cases plain : u = 0x25
      · subst plain
        by_cases digits : TwoDigits rest
        · match rest, digits with
          | v :: w :: tail, digits =>
            obtain ⟨high, first⟩ := isSome_iff_exists.mp digits.1
            obtain ⟨low, second⟩ := isSome_iff_exists.mp digits.2
            rw [unescape_escape first second, map_throws, broken_escape digits.1 digits.2]
            simp only [List.length_cons] at size
            exact ih tail.length (by omega) tail rfl
        · constructor
          · intro _
            exact ⟨[], rest, rfl, digits⟩
          · intro _
            exact unescape_broken digits
      · rw [unescape_plain plain, map_throws, broken_plain plain]
        exact ih rest.length (by omega) rest rfl

theorem hexPoint?_unit (u : UInt16) : hexPoint? u.toNat = hexValue? u := by
  unfold hexPoint? hexValue?
  simp only [UInt16.le_iff_toNat_le, UInt16.reduceToNat]
  split
  next => rfl
  next =>
    split
    next => congr 1; omega
    next =>
      split
      next => congr 1; omega
      next => rfl

theorem hexPoint?_head {c : Nat} (rest : JsString) (scalar : Scalar c) :
    ∃ u tail, ofCodePoint c ++ rest = u :: tail ∧ hexValue? u = hexPoint? c ∧
      ((hexPoint? c).isSome → tail = rest) := by
  obtain ⟨valid, _⟩ := scalar
  unfold ofCodePoint
  split
  next small =>
    refine ⟨c.toUInt16, rest, rfl, ?_, fun _ => rfl⟩
    rw [← hexPoint?_unit, toNat_unit small]
  next large =>
    have none_here : hexPoint? c = none := by
      unfold hexPoint?
      rw [if_neg (by omega), if_neg (by omega), if_neg (by omega)]
    refine ⟨_, _, rfl, ?_, ?_⟩
    · have unit := toNat_unit (n := 0xD800 + (c - 0x10000) / 0x400) (by omega)
      rw [none_here, ← hexPoint?_unit, unit]
      unfold hexPoint?
      rw [if_neg (by omega), if_neg (by omega), if_neg (by omega)]
    · intro digit
      rw [none_here] at digit
      cases digit

theorem decoded_plain {c : Nat} {rest : List Nat} (h : c ≠ 0x25) :
    percentDecoded (c :: rest) = (percentDecoded rest).map (utf8OfCodePoint c ++ ·) := by
  match rest with
  | [] => exact (if_pos h).trans (congrArg some (List.append_nil _).symm)
  | [d] => exact if_pos h
  | d :: e :: tail => rw [percentDecoded, if_pos h]

theorem decoded_escape {d e high low : Nat} {rest : List Nat} (first : hexPoint? d = some high)
    (second : hexPoint? e = some low) : percentDecoded (0x25 :: d :: e :: rest) =
      (percentDecoded rest).map ((high * 16 + low).toUInt8 :: ·) := by
  rw [percentDecoded, if_neg (fun different => different rfl), first, second]
  cases percentDecoded rest <;> rfl

theorem digit_small {c n : Nat} (h : hexPoint? c = some n) : c < 0x10000 := by
  by_contra large
  unfold hexPoint? at h
  rw [if_neg (by omega), if_neg (by omega), if_neg (by omega)] at h
  cases h

theorem digit_unit {c n : Nat} (h : hexPoint? c = some n) : ∃ u, ofCodePoint c = [u] ∧ hexValue? u = some n := by
  have small := digit_small h
  refine ⟨c.toUInt16, if_pos small, ?_⟩
  rw [← hexPoint?_unit, toNat_unit small, h]

theorem digits_of_points {points : List Nat} (scalars : ∀ c ∈ points, Scalar c)
    (h : TwoDigits (points.flatMap ofCodePoint)) : ∃ d e rest high low, points = d :: e :: rest ∧
      hexPoint? d = some high ∧ hexPoint? e = some low := by
  cases points with
  | nil => exact False.elim h
  | cons d points =>
    obtain ⟨here, later⟩ := List.forall_mem_cons.mp scalars
    rw [List.flatMap_cons] at h
    obtain ⟨u, tail, same, digit, rest_same⟩ := hexPoint?_head (points.flatMap ofCodePoint) here
    rw [same] at h
    cases tail with
    | nil => exact False.elim h
    | cons v tail =>
      obtain ⟨first, second⟩ := h
      rw [digit] at first
      have units := rest_same first
      cases points with
      | nil => cases units
      | cons e rest =>
        rw [List.flatMap_cons] at units
        obtain ⟨w, others, split, other_digit, _⟩ :=
          hexPoint?_head (rest.flatMap ofCodePoint) (later e List.mem_cons_self)
        rw [split] at units
        have unit : v = w := (List.cons.inj units).1
        rw [unit, other_digit] at second
        obtain ⟨high, some_high⟩ := isSome_iff_exists.mp first
        obtain ⟨low, some_low⟩ := isSome_iff_exists.mp second
        exact ⟨d, e, rest, high, low, rfl, some_high, some_low⟩

theorem decoded_broken {rest : List Nat} (h : ¬TwoDigits (rest.flatMap ofCodePoint)) :
    percentDecoded (0x25 :: rest) = none := by
  match rest with
  | [] => rfl
  | [d] => rfl
  | d :: e :: tail =>
    rw [percentDecoded, if_neg (fun different => different rfl)]
    cases first : hexPoint? d with
    | none => rfl
    | some high =>
      cases second : hexPoint? e with
      | none => rfl
      | some low =>
        obtain ⟨u, unit_d, digit_d⟩ := digit_unit first
        obtain ⟨v, unit_e, digit_e⟩ := digit_unit second
        rw [List.flatMap_cons, List.flatMap_cons, unit_d, unit_e] at h
        exact absurd ⟨by rw [digit_d]; rfl, by rw [digit_e]; rfl⟩ h

def beyond (points : List Nat) : Nat := points.countP fun c => 0x10000 ≤ c

theorem beyond_eq_zero {points : List Nat} : beyond points = 0 ↔ ∀ c ∈ points, c < 0x10000 := by
  unfold beyond
  rw [List.countP_eq_zero]
  simp only [decide_eq_true_eq, Nat.not_le]

structure Given (points : List Nat) (out bytes : Bytes) : Prop where
  length : out.length = bytes.length + 2 * beyond points
  same : beyond points = 0 → out = bytes

theorem utf8Encode_high {u : UInt16} (h : isSurrogate u.toNat) : utf8Encode [u] = [0xEF, 0xBF, 0xBD] := by
  have whole : utf8Encode [u] = utf8OfCodePoint u.toNat := List.flatMap_singleton _ _
  rw [whole]
  exact if_pos h

theorem given_point {name : JsString} {c : Nat} {points : List Nat} {rest : JsString}
    {out bytes : Bytes} (scalar : Scalar c) (plain : c ≠ 0x25)
    (ok : unescapeAttribute name rest = .ok out) (given : Given points out bytes) :
    ∃ whole, unescapeAttribute name (ofCodePoint c ++ rest) = .ok whole ∧
      Given (c :: points) whole (utf8OfCodePoint c ++ bytes) := by
  obtain ⟨valid, single⟩ := scalar
  have count : beyond (c :: points) = beyond points + if 0x10000 ≤ c then 1 else 0 := by
    unfold beyond
    rw [List.countP_cons]
    simp only [decide_eq_true_eq]
  unfold ofCodePoint
  split
  next small =>
    have unit := toNat_unit small
    have other : c.toUInt16 ≠ 0x25 := by
      intro same
      have value := congrArg UInt16.toNat same
      rw [unit] at value
      exact plain value
    have bytes_here : utf8Encode [c.toUInt16] = utf8OfCodePoint c := by
      unfold utf8Encode codePoints
      rw [unit, List.flatMap_singleton]
    rw [if_neg (by omega)] at count
    refine ⟨utf8OfCodePoint c ++ out, ?_, ?_, ?_⟩
    · rw [List.singleton_append, unescape_plain other, ok, bytes_here]
      rfl
    · rw [List.length_append, List.length_append, given.length, count]
      omega
    · intro zero
      rw [given.same (by omega)]
  next large =>
    have high := toNat_unit (n := 0xD800 + (c - 0x10000) / 0x400) (by omega)
    have low := toNat_unit (n := 0xDC00 + (c - 0x10000) % 0x400) (by omega)
    have replaced : ∀ u : UInt16, isSurrogate u.toNat → u ≠ 0x25 ∧ utf8Encode [u] = [0xEF, 0xBF, 0xBD] := by
      intro u surrogate
      refine ⟨?_, utf8Encode_high surrogate⟩
      intro same
      rw [same] at surrogate
      exact absurd surrogate (by decide)
    have first := replaced _ (show isSurrogate (0xD800 + (c - 0x10000) / 0x400).toUInt16.toNat by
      rw [high]
      unfold isSurrogate
      omega)
    have second := replaced _ (show isSurrogate (0xDC00 + (c - 0x10000) % 0x400).toUInt16.toNat by
      rw [low]
      unfold isSurrogate
      omega)
    rw [if_pos (by omega)] at count
    refine ⟨[0xEF, 0xBF, 0xBD] ++ ([0xEF, 0xBF, 0xBD] ++ out), ?_, ?_, ?_⟩
    · rw [List.cons_append, List.singleton_append, unescape_plain first.1, unescape_plain second.1,
        ok, first.2, second.2]
      rfl
    · rw [utf8OfCodePoint_four (by omega)]
      simp only [List.length_append, List.length_cons, List.length_nil, given.length, count]
      omega
    · intro zero
      omega

def Compared (result : Except TokenFailure Bytes) (points : List Nat) : Option Bytes → Prop
  | none => ∃ failure, result = .error failure
  | some bytes => ∃ out, result = .ok out ∧ Given points out bytes

theorem unescape_compared (name : JsString) (points : List Nat) (scalars : ∀ c ∈ points, Scalar c) :
    Compared (unescapeAttribute name (points.flatMap ofCodePoint)) points (percentDecoded points) := by
  induction size : points.length using Nat.strong_induction_on generalizing points with
  | _ size ih =>
    cases points with
    | nil => exact ⟨[], rfl, rfl, fun _ => rfl⟩
    | cons c rest =>
      rw [List.length_cons] at size
      obtain ⟨here, later⟩ := List.forall_mem_cons.mp scalars
      by_cases plain : c = 0x25
      · subst plain
        have unit : ofCodePoint 0x25 = [0x25] := rfl
        rw [List.flatMap_cons, unit, List.singleton_append]
        by_cases digits : TwoDigits (rest.flatMap ofCodePoint)
        · obtain ⟨d, e, tail, high, low, rfl, first, second⟩ := digits_of_points later digits
          obtain ⟨u, unit_d, digit_d⟩ := digit_unit first
          obtain ⟨v, unit_e, digit_e⟩ := digit_unit second
          have tail_scalars : ∀ c ∈ tail, Scalar c := fun c mem =>
            later c (List.mem_cons_of_mem d (List.mem_cons_of_mem e mem))
          simp only [List.length_cons] at size
          have compared := ih tail.length (by omega) tail tail_scalars rfl
          rw [List.flatMap_cons, List.flatMap_cons, unit_d, unit_e, List.singleton_append,
            List.singleton_append, unescape_escape digit_d digit_e, decoded_escape first second]
          cases decoded : percentDecoded tail with
          | none =>
            rw [decoded] at compared
            exact map_throws.mpr compared
          | some bytes =>
            rw [decoded] at compared
            obtain ⟨out, ok, given⟩ := compared
            have count : beyond (0x25 :: d :: e :: tail) = beyond tail := by
              have small_d := digit_small first
              have small_e := digit_small second
              unfold beyond
              rw [List.countP_cons_of_neg (by decide), List.countP_cons_of_neg (by simpa using small_d),
                List.countP_cons_of_neg (by simpa using small_e)]
            refine ⟨(high * 16 + low).toUInt8 :: out, by rw [ok]; rfl, ?_, ?_⟩
            · rw [List.length_cons, List.length_cons, given.length, count]
              omega
            · intro zero
              rw [given.same (count ▸ zero)]
        · rw [decoded_broken digits]
          exact unescape_broken digits
      · have compared := ih rest.length (by omega) rest later rfl
        rw [List.flatMap_cons, decoded_plain plain]
        cases decoded : percentDecoded rest with
        | none =>
          rw [decoded] at compared
          exact (throws_iff _ _).mpr (broken_append ((throws_iff _ _).mp compared) _)
        | some bytes =>
          rw [decoded] at compared
          obtain ⟨out, ok, given⟩ := compared
          exact given_point here plain ok given

/-- Exactly the texts of the basic plane are unescaped to what they stand for, broken escapes
apart. -/
theorem unescapeAttribute_exact_iff (name : JsString) {raw : JsString} (formed : raw.WellFormed) :
    UnescapesExactly name raw ↔ (∀ c ∈ raw.codePoints, c < 0x10000) ∨ BrokenEscape raw := by
  have compared := unescape_compared name raw.codePoints formed.scalars
  rw [flatMap_codePoints] at compared
  have throws := throws_iff name raw
  cases decoded : percentDecoded raw.codePoints with
  | none =>
    rw [decoded] at compared
    have broken := throws.mp compared
    obtain ⟨failure, fails⟩ := compared
    refine ⟨fun _ => Or.inr broken, fun _ => ⟨?_, throws⟩⟩
    intro bytes
    rw [fails, decoded]
    constructor <;> intro h <;> cases h
  | some bytes =>
    rw [decoded] at compared
    obtain ⟨out, ok, given⟩ := compared
    have whole : ¬BrokenEscape raw := by
      intro broken
      obtain ⟨failure, fails⟩ := throws.mpr broken
      rw [ok] at fails
      cases fails
    rw [← beyond_eq_zero]
    constructor
    · intro exactly
      have same := (exactly.1 bytes).mpr decoded
      rw [ok] at same
      have lengths := congrArg List.length (Except.ok.inj same)
      rw [given.length] at lengths
      exact Or.inl (by omega)
    · intro basic
      have zero := basic.resolve_right whole
      refine ⟨?_, throws⟩
      intro other
      rw [ok, decoded, given.same zero]
      constructor
      · intro same
        exact congrArg some (Except.ok.inj same)
      · intro same
        exact congrArg Except.ok (Option.some.inj same)

theorem escaped_text_exact : UnescapesExactly (js "object") (js "caf%C3%A9 é") ↔
    (∀ c ∈ (js "caf%C3%A9 é").codePoints, c < 0x10000) ∨ BrokenEscape (js "caf%C3%A9 é") :=
  unescapeAttribute_exact_iff (js "object") (by decide)

/-- U+1F600 stands for four bytes and is given as six. -/
theorem astral_text_differs : WellFormed [0xD83D, 0xDE00] ∧
    ¬UnescapesExactly (js "object") [0xD83D, 0xDE00] := by
  refine ⟨by decide, ?_⟩
  intro exactly
  have same := (exactly.1 [0xEF, 0xBF, 0xBD, 0xEF, 0xBF, 0xBD]).mp (by rfl)
  exact absurd same (by decide)

end decoding

end ForgeDeno
