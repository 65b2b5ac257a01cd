import ForgeDeno.DerReader

namespace Der

open List

theorem ofOctets_lt_byte {l : List UInt8} {k n : Nat} (length : l.length = k + 1)
    (value : ofOctets l = n) (small : n < 256) : l = List.replicate k 0 ++ [n.toUInt8] := by
  induction k generalizing l with
  | zero =>
    obtain ⟨b, rfl⟩ := length_eq_one_iff.mp length
    have spelled : b.toNat = n := by
      rw [← value, ofOctets_cons]
      simp [ofOctets]
    rw [← spelled]
    simp [Nat.toUInt8]
  | succ k ih =>
    cases l with
    | nil => cases length
    | cons b rest =>
      have shorter := Nat.succ.inj length
      rw [ofOctets_cons, shorter] at value
      have zero : b.toNat = 0 := by
        by_contra some
        have big : 1 * 256 ^ 1 ≤ b.toNat * 256 ^ (k + 1) :=
          Nat.mul_le_mul (by omega) (Nat.pow_le_pow_right (by decide) (by omega))
        omega
      have tail := ih shorter (by rw [zero] at value; omega)
      have first : b = 0 := UInt8.toNat_inj.mp zero
      rw [first, tail, replicate_succ, cons_append]

theorem ofOctets_replicate_zero (k : Nat) (b : UInt8) : ofOctets (List.replicate k 0 ++ [b]) = b.toNat := by
  induction k with
  | zero => simp [ofOctets]
  | succ k ih =>
    rw [replicate_succ, cons_append, ofOctets_cons, ih]
    simp

end Der

namespace ForgeDeno

def lengthForm (count length : Nat) : Bytes :=
  if count = 0 then [length.toUInt8]
  else (0x80 + count).toUInt8 :: (List.replicate (count - 1) 0 ++ [length.toUInt8])

theorem lengthForm_length (count length : Nat) : (lengthForm count length).length = count + 1 := by
  rw [lengthForm]
  split
  next zero => simp [zero]
  next some =>
    simp only [List.length_cons, List.length_append, List.length_replicate, List.length_nil]
    omega

variable {inner value : Bytes}

theorem readHeader_lengthForm {count : Nat} (few : count ≤ 4)
    (short : count = 0 → inner.length < 128) (small : inner.length < 256) :
    Der.readHeader (0x04 :: lengthForm count inner.length ++ inner) 0 = some ⟨count + 2, inner.length⟩ := by
  have byte : inner.length.toUInt8.toNat = inner.length := Nat.mod_eq_of_lt small
  cases count with
  | zero =>
    have low := short rfl
    simp [Der.readHeader, lengthForm, byte, low]
  | succ k =>
    have marked : (0x80 + (k + 1)).toUInt8.toNat = 0x80 + (k + 1) :=
      Nat.mod_eq_of_lt (by omega : 0x80 + (k + 1) < 256)
    have digits := Der.ofOctets_replicate_zero k inner.length.toUInt8
    have long : ¬0x80 + (k + 1) < 128 := by omega
    have count : 0x80 + (k + 1) - 128 = k + 1 := by omega
    have cut : (List.replicate k 0 ++ [inner.length.toUInt8] ++ inner).take (k + 1)
        = List.replicate k 0 ++ [inner.length.toUInt8] :=
      List.take_left' (by simp)
    have room : ¬(k + 1 = 0 ∨ (0x04 :: lengthForm (k + 1) inner.length ++ inner).length
        < 0 + 2 + (k + 1)) := by
      rw [List.length_append, List.length_cons, lengthForm_length]
      omega
    have second : (0x04 :: lengthForm (k + 1) inner.length ++ inner)[0 + 1]?
        = some (0x80 + (k + 1)).toUInt8 := rfl
    have behind : (0x04 :: lengthForm (k + 1) inner.length ++ inner).drop (0 + 2)
        = List.replicate k 0 ++ [inner.length.toUInt8] ++ inner := rfl
    rw [Der.readHeader, second, Option.bind_some]
    simp only [marked, if_neg long, count, if_neg room, behind, cut, digits, byte]
    rw [Nat.add_comm (k + 1) 2, Nat.zero_add]

theorem header_form {header : Der.Header} (small : value.length < 256)
    (read : Der.readHeader value 0 = some header) (few : header.start ≤ 6)
    (whole : (header.start : Int) + wrapped header.length = value.length) :
    ∃ count ≤ 4, (count = 0 → value.length - header.start < 128) ∧ header.start = count + 2 ∧
      value.drop 1 = lengthForm count (value.length - header.start) ++ value.drop header.start := by
  obtain ⟨bound, -⟩ := length_of_count read (by omega)
  have start := (Der.readHeader_start read).2
  have low : header.length < 2 ^ 31 := by
    by_contra large
    rw [wrapped_high (by omega) bound] at whole
    omega
  rw [wrapped_low low] at whole
  have rest : value.length - header.start = header.length := by omega
  have second (first : UInt8) (there : value[0 + 1]? = some first) :
      value.drop 1 = first :: value.drop 2 := by
    obtain ⟨inside, eq⟩ := List.getElem?_eq_some_iff.mp there
    rw [List.drop_eq_getElem_cons inside, eq]
  rw [rest]
  obtain ⟨first, there, ⟨short, rfl⟩ | ⟨long, room, rfl⟩⟩ := Der.readHeader_cases read
  · refine ⟨0, by omega, fun _ => short, rfl, ?_⟩
    rw [second first there]
    simp [lengthForm, Nat.toUInt8]
  · simp only at few rest whole low ⊢
    obtain ⟨k, count⟩ : ∃ k, first.toNat - 128 = k + 1 := ⟨first.toNat - 129, by omega⟩
    have mark : first = (0x80 + (k + 1)).toUInt8 := by
      rw [← count]
      have whole : 0x80 + (first.toNat - 128) = first.toNat := by omega
      rw [whole]
      simp [Nat.toUInt8]
    rw [count] at few rest whole ⊢
    obtain ⟨digits, eq⟩ : ∃ digits, (value.drop (0 + 2)).take (k + 1) = digits := ⟨_, rfl⟩
    have length : digits.length = k + 1 := by
      rw [← eq, List.length_take, List.length_drop]
      omega
    rw [eq] at rest whole ⊢
    have spelled := Der.ofOctets_lt_byte length rfl (by omega)
    refine ⟨k + 1, by omega, fun none => by omega, by omega, ?_⟩
    have parts : value.drop 2 = digits ++ value.drop (0 + 2 + (k + 1)) := by
      have behind : (value.drop 2).drop (k + 1) = value.drop (2 + (k + 1)) := List.drop_drop
      rw [← eq, Nat.zero_add, ← behind, List.take_append_drop]
    rw [second first there, parts, lengthForm, if_neg (by omega), Nat.add_sub_cancel, ← spelled,
      mark, List.cons_append]

theorem readOctetString_some (small : value.length < 256) :
    readOctetString value = some inner ↔ ∃ count ≤ 4, (count = 0 → inner.length < 128) ∧
      value = 0x04 :: lengthForm count inner.length ++ inner := by
  constructor
  · intro h
    unfold readOctetString at h
    split at h
    next start finish read =>
      split at h
      next ends =>
        have zero : (some 0 : Position) = some ((0 : Nat) : Int) := rfl
        rw [zero, readElement_eq] at read
        obtain ⟨header, declared, eq⟩ := Option.bind_eq_some_iff.mp read
        split at eq
        next => cases eq
        next good =>
          injection Option.some.inj eq with tag start_eq finish_eq
          have few : header.start ≤ 6 := by omega
          have start_value := Option.some.inj start_eq
          have finish_value := Option.some.inj finish_eq
          obtain ⟨count, le, short, start_count, tail⟩ :=
            header_form small declared few (by omega)
          have content : inner = value.drop header.start := by
            have cut := Option.some.inj h
            have all : finish.toNat = value.length := by omega
            have from_start : start.toNat = header.start := by omega
            rw [all, from_start, List.take_length] at cut
            exact cut.symm
          have length : inner.length = value.length - header.start := by
            rw [content, List.length_drop]
          refine ⟨count, le, by rw [length]; exact short, ?_⟩
          have head : value = 0x04 :: value.drop 1 := by
            cases value with
            | nil => cases tag
            | cons b rest =>
              cases tag
              rfl
          rw [head, tail, ← content, length, List.cons_append]
      next => cases h
    next => cases h
  · rintro ⟨count, few, short, rfl⟩
    have total : (0x04 :: lengthForm count inner.length ++ inner).length
        = count + 2 + inner.length := by
      rw [List.length_append, List.length_cons, lengthForm_length]
    rw [total] at small
    have declared := readHeader_lengthForm few short (by omega)
    have zero : (some 0 : Position) = some ((0 : Nat) : Int) := rfl
    have read : readElement (0x04 :: lengthForm count inner.length ++ inner) (some 0)
        = some ⟨some 0x04, some ((count + 2 : Nat) : Int), some ((count + 2 : Nat) + (inner.length : Int))⟩ := by
      rw [zero, readElement_eq, declared, Option.bind_some]
      simp only [wrapped_low (show inner.length < 2 ^ 31 by omega)]
      rw [if_neg (by omega)]
      rfl
    have content : (0x04 :: lengthForm count inner.length ++ inner).drop (count + 2) = inner :=
      List.drop_left' (by rw [List.length_cons, lengthForm_length])
    have whole : ((count + 2 : Nat) : Int) + inner.length
        = ((0x04 :: lengthForm count inner.length ++ inner).length : Nat) := by omega
    rw [readOctetString, read]
    simp only [whole, if_true, Int.toNat_natCast, List.take_length, content]

inductive EcCurve
  | p256
  | p384
  | p521
deriving DecidableEq

def EcCurve.coordinateBytes : EcCurve → Nat
  | .p256 => 32
  | .p384 => 48
  | .p521 => 66

inductive PublicPoint
  | edwards (point : Bytes) (size : point.length = ED25519_PUBLIC_KEY_BYTES)
  | uncompressed (curve : EcCurve) (x y : Bytes) (x_size : x.length = curve.coordinateBytes)
      (y_size : y.length = curve.coordinateBytes)

namespace PublicPoint

def octets : PublicPoint → Bytes
  | .edwards point _ => point
  | .uncompressed _ x y _ _ => 0x04 :: (x ++ y)

def misread : PublicPoint → List Bytes
  | .edwards _ _ => [[0x04, 0x81, 0x1d, 0x04], [0x04, 0x83, 0x00, 0x00, 0x1b, 0x04]]
  | .uncompressed .p256 _ _ _ _ => [[0x04, 0x3f, 0x04], [0x04, 0x82, 0x00, 0x3d, 0x04],
      [0x04, 0x84, 0x00, 0x00, 0x00, 0x3b, 0x04]]
  | .uncompressed .p384 _ _ _ _ => [[0x04, 0x5f, 0x04], [0x04, 0x82, 0x00, 0x5d, 0x04],
      [0x04, 0x84, 0x00, 0x00, 0x00, 0x5b, 0x04]]
  | .uncompressed .p521 _ _ _ _ => [[0x04, 0x82, 0x00, 0x81, 0x04], [0x04, 0x84, 0x00, 0x00, 0x00, 0x7f, 0x04]]

theorem octets_accepted (p : PublicPoint) : isPlausibleEcPoint p.octets = true := by
  cases p with
  | edwards point size => simp [isPlausibleEcPoint, octets, size]
  | uncompressed curve x y x_size y_size =>
    have even : (x.length + y.length) % 2 = 0 := by omega
    have some : 0 < x.length + y.length := by
      cases curve <;> simp only [EcCurve.coordinateBytes] at x_size <;> omega
    simp [isPlausibleEcPoint, octets, even, some]

end PublicPoint

theorem decodeEcPoint_bare (shaped : isPlausibleEcPoint value = true)
    (small : value.length < 256) : decodeEcPoint value = .ok value ↔
      ¬∃ inner, readOctetString value = some inner ∧ isPlausibleEcPoint inner = true := by
  have some_bytes : value ≠ [] := by
    intro empty
    rw [empty] at shaped
    exact absurd shaped (by decide)
  rw [decodeEcPoint, if_neg some_bytes]
  cases read : readOctetString value with
  | none =>
    simp only [Option.filter_none, shaped, if_true, true_iff]
    rintro ⟨inner, eq, -⟩
    cases eq
  | some inner =>
    obtain ⟨count, -, -, eq⟩ := (readOctetString_some small).mp read
    have shorter : inner ≠ value := by
      intro same
      have lengths := congrArg List.length eq
      rw [List.length_append, List.length_cons, lengthForm_length, same] at lengths
      omega
    by_cases accepted : isPlausibleEcPoint inner = true
    · simp only [Option.filter_some, accepted, if_true]
      exact iff_of_false (fun h => shorter (Except.ok.inj h)) (fun h => h ⟨inner, rfl, accepted⟩)
    · simp only [Option.filter_some, accepted, shaped, if_true]
      refine iff_of_true rfl ?_
      rintro ⟨other, eq, good⟩
      cases eq
      exact accepted good

def pointHeaders (total : Nat) : List Bytes :=
  ((List.range 5).filter fun count =>
      (count ≠ 0 ∨ total - 2 < 128) ∧ (total - (count + 2)) % 2 = 1).map fun count =>
    0x04 :: lengthForm count (total - (count + 2)) ++ [0x04]

theorem mem_pointHeaders {total : Nat} {form : Bytes} : form ∈ pointHeaders total ↔
    ∃ count ≤ 4, (count = 0 → total - 2 < 128) ∧ (total - (count + 2)) % 2 = 1 ∧
      form = 0x04 :: lengthForm count (total - (count + 2)) ++ [0x04] := by
  simp only [pointHeaders, List.mem_map, List.mem_filter, List.mem_range, decide_eq_true_eq]
  constructor
  · rintro ⟨count, ⟨few, short, odd⟩, rfl⟩
    exact ⟨count, by omega, fun zero => by omega, odd, rfl⟩
  · rintro ⟨count, few, short, odd, rfl⟩
    refine ⟨count, ⟨by omega, ?_, odd⟩, rfl⟩
    by_cases zero : count = 0
    · exact .inr (short zero)
    · exact .inl zero

theorem inner_plausible_iff (small : value.length < 256) (large : 8 ≤ value.length)
    (edwards : ∀ count ≤ 4, value.length - (count + 2) ≠ ED25519_PUBLIC_KEY_BYTES) :
    (∃ inner, readOctetString value = some inner ∧ isPlausibleEcPoint inner = true) ↔
      ∃ form ∈ pointHeaders value.length, form <+: value := by
  constructor
  · rintro ⟨inner, read, shaped⟩
    obtain ⟨count, few, short, eq⟩ := (readOctetString_some small).mp read
    have total : value.length = count + 2 + inner.length := by
      rw [eq, List.length_append, List.length_cons, lengthForm_length]
    have rest : value.length - (count + 2) = inner.length := by omega
    have other := edwards count few
    rw [rest] at other
    simp only [isPlausibleEcPoint, other, decide_false, Bool.false_or, Bool.and_eq_true,
      decide_eq_true_eq] at shaped
    obtain ⟨⟨long, head⟩, even⟩ := shaped
    refine ⟨_, mem_pointHeaders.mpr ⟨count, few, fun zero => ?_, by omega, rfl⟩, ?_⟩
    · have low := short zero
      omega
    · obtain ⟨tail, inner_eq⟩ : ∃ tail, inner = 0x04 :: tail := by
        cases inner with
        | nil => cases head
        | cons b tail =>
          cases head
          exact ⟨tail, rfl⟩
      refine ⟨tail, ?_⟩
      rw [rest, eq, List.append_assoc, List.singleton_append, ← inner_eq]
  · rintro ⟨form, mem, tail, eq⟩
    obtain ⟨count, few, short, odd, rfl⟩ := mem_pointHeaders.mp mem
    have total := congrArg List.length eq
    simp only [List.length_append, List.length_cons, lengthForm_length, List.length_nil] at total
    have rest : value.length - (count + 2) = (0x04 :: tail).length := by
      rw [List.length_cons]
      omega
    have other := edwards count few
    rw [rest] at odd other
    refine ⟨0x04 :: tail, (readOctetString_some small).mpr ⟨count, few, fun zero => ?_, ?_⟩, ?_⟩
    · have low := short zero
      omega
    · rw [← eq, rest, List.append_assoc, List.singleton_append]
    · have even : ((0x04 :: tail).length - 1) % 2 = 0 := by omega
      have long : 1 < (0x04 :: tail).length := by omega
      simp only [isPlausibleEcPoint, long, even, List.head?_cons, decide_true, Bool.and_true, Bool.or_true]

namespace PublicPoint

theorem misread_eq (p : PublicPoint) : p.misread = pointHeaders p.octets.length := by
  cases p with
  | edwards point size =>
    rw [octets, size]
    rfl
  | uncompressed curve x y x_size y_size =>
    rw [octets, List.length_cons, List.length_append, x_size, y_size]
    cases curve <;> rfl

theorem size (p : PublicPoint) : p.octets.length < 250 ∧ 8 ≤ p.octets.length ∧
    ∀ count ≤ 4, p.octets.length - (count + 2) ≠ ED25519_PUBLIC_KEY_BYTES := by
  cases p with
  | edwards point size =>
    rw [octets, size]
    decide
  | uncompressed curve x y x_size y_size =>
    rw [octets, List.length_cons, List.length_append, x_size, y_size]
    cases curve <;> decide

theorem bare_iff (p : PublicPoint) :
    decodeEcPoint p.octets = .ok p.octets ↔ ¬∃ form ∈ p.misread, form <+: p.octets := by
  obtain ⟨small, large, edwards⟩ := p.size
  have short : p.octets.length < 256 := by omega
  rw [decodeEcPoint_bare p.octets_accepted short, inner_plausible_iff short large edwards, misread_eq]

theorem header (p : PublicPoint) : ∃ count ≤ 4, (count = 0 → p.octets.length < 128) ∧
    derLength p.octets.length = lengthForm count p.octets.length := by
  cases p with
  | edwards point size =>
    rw [octets, size, derLength_eq (by decide)]
    exact ⟨0, by decide, by decide, rfl⟩
  | uncompressed curve x y x_size y_size =>
    rw [octets, List.length_cons, List.length_append, x_size, y_size]
    cases curve with
    | p256 => exact ⟨0, by decide, by decide, derLength_eq (by decide)⟩
    | p384 => exact ⟨0, by decide, by decide, derLength_eq (by decide)⟩
    | p521 =>
      rw [derLength_eq (by decide)]
      exact ⟨1, by decide, by decide, by decide⟩

theorem wrapped_point (p : PublicPoint) : decodeEcPoint (tagged 0x04 p.octets) = .ok p.octets := by
  obtain ⟨count, few, short, form⟩ := p.header
  have eq : tagged 0x04 p.octets = 0x04 :: lengthForm count p.octets.length ++ p.octets := by
    rw [tagged, form]
  have small : (tagged 0x04 p.octets).length < 256 := by
    have bound := p.size.1
    rw [eq, List.length_append, List.length_cons, lengthForm_length]
    omega
  have read := (readOctetString_some small).mpr ⟨count, few, short, eq⟩
  have some_bytes : tagged 0x04 p.octets ≠ [] := List.cons_ne_nil _ _
  rw [decodeEcPoint, if_neg some_bytes, read]
  simp only [Option.filter_some, p.octets_accepted, if_true]

end PublicPoint

/-- A point is decoded both bare and wrapped exactly when its bare form does not begin like an
OCTET STRING around another point. -/
theorem decodeEcPoint_exact (p : PublicPoint) : (decodeEcPoint p.octets = .ok p.octets ∧
        decodeEcPoint (tagged 0x04 p.octets) = .ok p.octets) ↔ ∀ form ∈ p.misread, ¬form <+: p.octets := by
  rw [p.bare_iff]
  constructor
  · rintro ⟨bare, -⟩ form mem begins
    exact bare ⟨form, mem, begins⟩
  · intro h
    refine ⟨?_, p.wrapped_point⟩
    rintro ⟨form, mem, begins⟩
    exact h form mem begins

def misreadPoint : PublicPoint :=
  .uncompressed .p256
    ([0x3f, 0x04] ++ List.replicate 29 0x00 ++ [0x02])
    [0x11, 0x62, 0x5a, 0x2e, 0x21, 0x39, 0x6f, 0xb2, 0x90, 0x1e, 0x1a, 0xc5, 0x13, 0x9b, 0xa7, 0x2c,
      0xef, 0x9a, 0x99, 0x40, 0x8f, 0x81, 0xe7, 0xb1, 0x4f, 0x1b, 0xd5, 0xdb, 0xbd, 0x73, 0x0c, 0x33]
    rfl rfl

theorem misreadPoint_truncated : decodeEcPoint misreadPoint.octets = .ok (misreadPoint.octets.drop 2) ∧
      ¬(decodeEcPoint misreadPoint.octets = .ok misreadPoint.octets ∧
        decodeEcPoint (tagged 0x04 misreadPoint.octets) = .ok misreadPoint.octets) := by
  decide

end ForgeDeno
