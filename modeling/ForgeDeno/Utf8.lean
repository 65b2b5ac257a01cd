import ForgeDeno.JsString
import Mathlib.Tactic.Ring

namespace JsString

open List

/-- The decoder inside a sequence: the bits so far, how many bytes are still needed and the range of
the next one. -/
structure Pending where
  point : Nat
  needed : Nat
  lower : Nat
  upper : Nat

def leadByte (n : Nat) : JsString × Option Pending :=
  if n < 0x80 then (ofCodePoint n, none)
  else if 0xC2 ≤ n ∧ n ≤ 0xDF then ([], some ⟨n - 0xC0, 1, 0x80, 0xBF⟩)
  else if 0xE0 ≤ n ∧ n ≤ 0xEF then
    ([], some ⟨n - 0xE0, 2, if n = 0xE0 then 0xA0 else 0x80, if n = 0xED then 0x9F else 0xBF⟩)
  else if 0xF0 ≤ n ∧ n ≤ 0xF4 then
    ([], some ⟨n - 0xF0, 3, if n = 0xF0 then 0x90 else 0x80, if n = 0xF4 then 0x8F else 0xBF⟩)
  else ([0xFFFD], none)

def decodeFrom : Option Pending → List UInt8 → JsString
  | none, [] => []
  | some _, [] => [0xFFFD]
  | none, b :: rest => (leadByte b.toNat).1 ++ decodeFrom (leadByte b.toNat).2 rest
  | some p, b :: rest =>
    if p.lower ≤ b.toNat ∧ b.toNat ≤ p.upper then
      let point := p.point * 0x40 + b.toNat % 0x40
      if p.needed = 1 then ofCodePoint point ++ decodeFrom none rest
      else decodeFrom (some ⟨point, p.needed - 1, 0x80, 0xBF⟩) rest
    else 0xFFFD :: (leadByte b.toNat).1 ++ decodeFrom (leadByte b.toNat).2 rest

/-- `new TextDecoder().decode(bytes)`: one leading byte order mark is dropped. -/
def utf8Decode : List UInt8 → JsString
  | 0xEF :: 0xBB :: 0xBF :: rest => decodeFrom none rest
  | bytes => decodeFrom none bytes

def isSurrogate (c : Nat) : Prop := 0xD800 ≤ c ∧ c ≤ 0xDFFF

instance (c : Nat) : Decidable (isSurrogate c) := inferInstanceAs (Decidable (_ ∧ _))

def WellFormed (s : JsString) : Prop := ∀ c ∈ s.codePoints, ¬isSurrogate c

instance (s : JsString) : Decidable s.WellFormed := List.decidableBAll _ s.codePoints

def replacePoint (c : Nat) : Nat := if isSurrogate c then 0xFFFD else c

def toWellFormed (s : JsString) : JsString := s.codePoints.flatMap fun c => ofCodePoint (replacePoint c)

section points

variable {c : Nat} {rest : List UInt8}

theorem toNat_byte {n : Nat} (h : n < 256) : n.toUInt8.toNat = n := by
  show n % 2 ^ 8 = n
  omega

theorem decodeFrom_lead {n : Nat} (h : n < 256) :
    decodeFrom none (n.toUInt8 :: rest) = (leadByte n).1 ++ decodeFrom (leadByte n).2 rest := by
  show (leadByte n.toUInt8.toNat).1 ++ decodeFrom (leadByte n.toUInt8.toNat).2 rest = _
  rw [toNat_byte h]

theorem decodeFrom_next {n point needed lower upper : Nat} (h : n < 256) (low : lower ≤ n)
    (high : n ≤ upper) (more : needed ≠ 1) : decodeFrom (some ⟨point, needed, lower, upper⟩) (n.toUInt8 :: rest) =
      decodeFrom (some ⟨point * 0x40 + n % 0x40, needed - 1, 0x80, 0xBF⟩) rest := by
  rw [decodeFrom, toNat_byte h, if_pos ⟨low, high⟩]
  exact if_neg more

theorem decodeFrom_last {n point lower upper : Nat} (h : n < 256) (low : lower ≤ n) (high : n ≤ upper) :
    decodeFrom (some ⟨point, 1, lower, upper⟩) (n.toUInt8 :: rest) =
      ofCodePoint (point * 0x40 + n % 0x40) ++ decodeFrom none rest := by
  rw [decodeFrom, toNat_byte h, if_pos ⟨low, high⟩]
  exact if_pos rfl

theorem decodeFrom_point (valid : c ≤ 0x10FFFF) (scalar : ¬isSurrogate c) :
    decodeFrom none (utf8OfCodePoint c ++ rest) = ofCodePoint c ++ decodeFrom none rest := by
  unfold isSurrogate at scalar
  unfold utf8OfCodePoint
  rw [if_neg scalar]
  split
  next small =>
    rw [singleton_append, decodeFrom_lead (by omega)]
    unfold leadByte
    rw [if_pos small]
  next large =>
    split
    next small =>
      have lead : leadByte (0xC0 + c / 0x40) = ([], some ⟨c / 0x40, 1, 0x80, 0xBF⟩) := by
        unfold leadByte
        rw [if_neg (by omega), if_pos (by omega)]
        have point : 0xC0 + c / 0x40 - 0xC0 = c / 0x40 := by omega
        rw [point]
      have whole : c / 0x40 * 0x40 + (0x80 + c % 0x40) % 0x40 = c := by omega
      rw [cons_append, singleton_append, decodeFrom_lead (by omega), lead,
        decodeFrom_last (by omega) (by omega) (by omega), whole]
      rfl
    next large =>
      split
      next small =>
        have lead : leadByte (0xE0 + c / 0x1000) = ([], some ⟨c / 0x1000, 2,
            if 0xE0 + c / 0x1000 = 0xE0 then 0xA0 else 0x80,
            if 0xE0 + c / 0x1000 = 0xED then 0x9F else 0xBF⟩) := by
          unfold leadByte
          rw [if_neg (by omega), if_neg (by omega), if_pos (by omega)]
          have point : 0xE0 + c / 0x1000 - 0xE0 = c / 0x1000 := by omega
          rw [point]
        have whole : (c / 0x1000 * 0x40 + (0x80 + c / 0x40 % 0x40) % 0x40) * 0x40 +
            (0x80 + c % 0x40) % 0x40 = c := by omega
        rw [cons_append, cons_append, singleton_append, decodeFrom_lead (by omega),
          lead, nil_append,
          decodeFrom_next (by omega) (by split <;> omega) (by split <;> omega) (by omega),
          decodeFrom_last (by omega) (by omega) (by omega), whole]
      next large =>
        have lead : leadByte (0xF0 + c / 0x40000) = ([], some ⟨c / 0x40000, 3,
            if 0xF0 + c / 0x40000 = 0xF0 then 0x90 else 0x80,
            if 0xF0 + c / 0x40000 = 0xF4 then 0x8F else 0xBF⟩) := by
          unfold leadByte
          rw [if_neg (by omega), if_neg (by omega), if_neg (by omega), if_pos (by omega)]
          have point : 0xF0 + c / 0x40000 - 0xF0 = c / 0x40000 := by omega
          rw [point]
        have whole : ((c / 0x40000 * 0x40 + (0x80 + c / 0x1000 % 0x40) % 0x40) * 0x40 +
            (0x80 + c / 0x40 % 0x40) % 0x40) * 0x40 + (0x80 + c % 0x40) % 0x40 = c := by omega
        rw [cons_append, cons_append, cons_append, singleton_append,
          decodeFrom_lead (by omega), lead, nil_append,
          decodeFrom_next (by omega) (by split <;> omega) (by split <;> omega) (by omega),
          decodeFrom_next (by omega) (by omega) (by omega) (by omega),
          decodeFrom_last (by omega) (by omega) (by omega), whole]

theorem replacePoint_scalar (c : Nat) : ¬isSurrogate (replacePoint c) := by
  unfold replacePoint
  split
  next => decide
  next scalar => exact scalar

theorem replacePoint_le (valid : c ≤ 0x10FFFF) : replacePoint c ≤ 0x10FFFF := by
  unfold replacePoint
  split <;> omega

theorem utf8OfCodePoint_replacePoint (c : Nat) : utf8OfCodePoint (replacePoint c) = utf8OfCodePoint c := by
  unfold replacePoint
  split
  next surrogate =>
    unfold isSurrogate at surrogate
    rw [show utf8OfCodePoint c = [0xEF, 0xBF, 0xBD] from if_pos surrogate]
    rfl
  next => rfl

end points

theorem codePoints_le (s : JsString) : ∀ c ∈ s.codePoints, c ≤ 0x10FFFF := by
  induction s using codePoints.induct with
  | case1 => intro c mem; cases mem
  | case2 u =>
    intro c mem
    rw [codePoints, mem_singleton] at mem
    have := u.toNat_lt
    omega
  | case3 u v rest pair ih =>
    intro c mem
    rw [codePoints, if_pos pair, mem_cons] at mem
    rcases mem with same | mem
    · have bounds : u ≤ 0xDBFF ∧ v ≤ 0xDFFF := by
        simp only [isHighSurrogate, isLowSurrogate, Bool.and_eq_true, decide_eq_true_eq] at pair
        exact ⟨pair.1.2, pair.2.2⟩
      have high := UInt16.le_iff_toNat_le.mp bounds.1
      have low := UInt16.le_iff_toNat_le.mp bounds.2
      simp only [UInt16.reduceToNat] at high low
      omega
    · exact ih c mem
  | case4 u v rest single ih =>
    intro c mem
    rw [codePoints, if_neg single, mem_cons] at mem
    rcases mem with rfl | mem
    · have := u.toNat_lt
      omega
    · exact ih c mem

theorem decodeFrom_points (points : List Nat) (valid : ∀ c ∈ points, c ≤ 0x10FFFF)
    (rest : List UInt8) : decodeFrom none (points.flatMap utf8OfCodePoint ++ rest) =
      points.flatMap (fun c => ofCodePoint (replacePoint c)) ++ decodeFrom none rest := by
  induction points with
  | nil => rfl
  | cons c points ih =>
    have here := valid c mem_cons_self
    rw [flatMap_cons, flatMap_cons, ← utf8OfCodePoint_replacePoint, append_assoc,
      decodeFrom_point (replacePoint_le here) (replacePoint_scalar c),
      ih fun other mem => valid other (mem_cons_of_mem c mem), append_assoc]

theorem decodeFrom_utf8Encode (s : JsString) : decodeFrom none s.utf8Encode = s.toWellFormed := by
  have whole := decodeFrom_points s.codePoints (codePoints_le s) []
  rw [append_nil] at whole
  exact whole.trans (append_nil _)

theorem ofCodePoint_pair {u v : UInt16} (high : isHighSurrogate u = true) (low : isLowSurrogate v = true) :
    ofCodePoint (0x10000 + (u.toNat - 0xD800) * 0x400 + (v.toNat - 0xDC00)) = [u, v] := by
  simp only [isHighSurrogate, Bool.and_eq_true, decide_eq_true_eq, UInt16.le_iff_toNat_le,
    UInt16.reduceToNat] at high
  simp only [isLowSurrogate, Bool.and_eq_true, decide_eq_true_eq, UInt16.le_iff_toNat_le,
    UInt16.reduceToNat] at low
  unfold ofCodePoint
  rw [if_neg (by omega)]
  have first : 0xD800 + (0x10000 + (u.toNat - 0xD800) * 0x400 + (v.toNat - 0xDC00) - 0x10000) / 0x400 =
      u.toNat := by omega
  have second : 0xDC00 + (0x10000 + (u.toNat - 0xD800) * 0x400 + (v.toNat - 0xDC00) - 0x10000) % 0x400 =
      v.toNat := by omega
  rw [first, second, Nat.toUInt16_eq, Nat.toUInt16_eq, UInt16.ofNat_toNat, UInt16.ofNat_toNat]

theorem ofCodePoint_unit (u : UInt16) : ofCodePoint u.toNat = [u] := by
  unfold ofCodePoint
  rw [if_pos u.toNat_lt, Nat.toUInt16_eq, UInt16.ofNat_toNat]

theorem flatMap_codePoints (s : JsString) : s.codePoints.flatMap ofCodePoint = s := by
  induction s using codePoints.induct with
  | case1 => rfl
  | case2 u => exact (append_nil _).trans (ofCodePoint_unit u)
  | case3 u v rest pair ih =>
    rw [codePoints, if_pos pair, flatMap_cons, ih]
    simp only [Bool.and_eq_true] at pair
    rw [ofCodePoint_pair pair.1 pair.2]
    rfl
  | case4 u v rest single ih =>
    rw [codePoints, if_neg single, flatMap_cons, ih, ofCodePoint_unit]
    rfl

theorem toWellFormed_of_wellFormed {s : JsString} (h : s.WellFormed) : s.toWellFormed = s := by
  have same : ∀ c ∈ s.codePoints, ofCodePoint (replacePoint c) = ofCodePoint c := by
    intro c mem
    rw [show replacePoint c = c from if_neg (h c mem)]
  exact (flatMap_congr same).trans (flatMap_codePoints s)

theorem toNat_unit {n : Nat} (h : n < 65536) : n.toUInt16.toNat = n := by
  show n % 2 ^ 16 = n
  omega

theorem codePoints_cons {u : UInt16} {rest : JsString} (h : isHighSurrogate u = false) :
    codePoints (u :: rest) = u.toNat :: codePoints rest := by
  cases rest with
  | nil => rfl
  | cons v rest =>
    rw [codePoints, if_neg]
    rw [h]
    exact Bool.false_ne_true

theorem codePoints_point {c : Nat} {rest : JsString} (valid : c ≤ 0x10FFFF)
    (scalar : ¬isSurrogate c) : codePoints (ofCodePoint c ++ rest) = c :: codePoints rest := by
  unfold isSurrogate at scalar
  unfold ofCodePoint
  split
  next small =>
    have unit := toNat_unit small
    rw [singleton_append, codePoints_cons, unit]
    simp only [isHighSurrogate, Bool.and_eq_false_iff, decide_eq_false_iff_not,
      UInt16.le_iff_toNat_le, UInt16.reduceToNat, unit]
    omega
  next large =>
    have high := toNat_unit (n := 0xD800 + (c - 0x10000) / 0x400) (by omega)
    have low := toNat_unit (n := 0xDC00 + (c - 0x10000) % 0x400) (by omega)
    have whole : 0x10000 + (0xD800 + (c - 0x10000) / 0x400 - 0xD800) * 0x400 +
        (0xDC00 + (c - 0x10000) % 0x400 - 0xDC00) = c := by omega
    rw [cons_append, singleton_append, codePoints, if_pos, high, low, whole]
    · simp only [isHighSurrogate, isLowSurrogate, Bool.and_eq_true, decide_eq_true_eq,
        UInt16.le_iff_toNat_le, UInt16.reduceToNat, high, low]
      omega

def bom : UInt16 := 0xFEFF

theorem utf8Encode_bom (rest : JsString) :
    utf8Encode (bom :: rest) = 0xEF :: 0xBB :: 0xBF :: utf8Encode rest := by
  unfold utf8Encode
  rw [codePoints_cons (by decide)]
  rfl

theorem utf8OfCodePoint_bom {c : Nat} {rest tail : List UInt8} (valid : c ≤ 0x10FFFF)
    (h : utf8OfCodePoint c ++ rest = 0xEF :: 0xBB :: 0xBF :: tail) : c = 0xFEFF := by
  have byte : ∀ {n : Nat} {b : UInt8}, n < 256 → n.toUInt8 = b → n = b.toNat := by
    intro n b small same
    rw [← same, toNat_byte small]
  unfold utf8OfCodePoint at h
  split at h
  next =>
    have second : (0xBF : UInt8) = 0xBB := (List.cons.inj (List.cons.inj h).2).1
    exact absurd second (by decide)
  next scalar =>
    split at h
    next small =>
      have first := byte (by omega) (List.cons.inj h).1
      simp only [UInt8.reduceToNat] at first
      omega
    next =>
      split at h
      next small =>
        have first := byte (by omega) (List.cons.inj h).1
        simp only [UInt8.reduceToNat] at first
        omega
      next =>
        split at h
        next small =>
          have first := byte (by omega) (List.cons.inj h).1
          have second := byte (by omega) (List.cons.inj (List.cons.inj h).2).1
          have third := byte (by omega) (List.cons.inj (List.cons.inj (List.cons.inj h).2).2).1
          simp only [UInt8.reduceToNat] at first second third
          omega
        next =>
          have first := byte (by omega) (List.cons.inj h).1
          simp only [UInt8.reduceToNat] at first
          omega

theorem head_of_utf8Encode_bom {s : JsString} {tail : List UInt8}
    (h : s.utf8Encode = 0xEF :: 0xBB :: 0xBF :: tail) : s.head? = some bom := by
  cases points : s.codePoints with
  | nil =>
    unfold utf8Encode at h
    rw [points] at h
    cases h
  | cons c cs =>
    have whole := flatMap_codePoints s
    unfold utf8Encode at h
    rw [points, flatMap_cons] at h whole
    have same := utf8OfCodePoint_bom (codePoints_le s c (points ▸ mem_cons_self)) h
    rw [← whole, same]
    rfl

theorem utf8Decode_utf8Encode {s : JsString} (h : s.head? ≠ some bom) :
    utf8Decode s.utf8Encode = s.toWellFormed := by
  unfold utf8Decode
  split
  next tail marked => exact absurd (head_of_utf8Encode_bom marked) h
  next => exact decodeFrom_utf8Encode s

theorem utf8Decode_bom (rest : JsString) : utf8Decode (utf8Encode (bom :: rest)) = rest.toWellFormed := by
  rw [utf8Encode_bom]
  exact decodeFrom_utf8Encode rest

theorem utf8_round_trip {s : JsString} (formed : s.WellFormed) :
    utf8Decode s.utf8Encode = s ↔ s.head? ≠ some bom := by
  constructor
  · intro same marked
    cases s with
    | nil => cases marked
    | cons u rest =>
      cases marked
      rw [utf8Decode_bom] at same
      have tailFormed : WellFormed rest := by
        intro c mem
        apply formed c
        rw [codePoints_cons (by decide)]
        exact mem_cons_of_mem _ mem
      rw [toWellFormed_of_wellFormed tailFormed] at same
      have lengths := congrArg length same
      rw [length_cons] at lengths
      omega
  · intro unmarked
    rw [utf8Decode_utf8Encode unmarked, toWellFormed_of_wellFormed formed]

end JsString
