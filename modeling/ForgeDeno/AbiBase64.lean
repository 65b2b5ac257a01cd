import ForgeDeno.ExceptRules
import ForgeDeno.NativePayload

namespace ForgeDeno

open ExceptRules

def MAX_BINARY_BYTES : Nat := 512 <<< 10

section patterns

open TextPattern Native

/-- `/^(?:[A-Za-z0-9+/]{4})*(?:[A-Za-z0-9+/]{2}==|[A-Za-z0-9+/]{3}=)?$/` -/
def base64Pattern : TextPattern UInt16 :=
  seq (star (times base64Letter 4))
    (opt (alt (seq (times base64Letter 2) (text "==")) (seq (times base64Letter 3) (text "="))))

end patterns

/-- What `encodeAbiBase64` can be called with; a view shows a part of its buffer. -/
inductive BinaryInput where
  | uint8Array (bytes : Bytes)
  | arrayBuffer (bytes : Bytes)
  | view (buffer : Bytes) (byteOffset byteLength : Nat) (fits : byteOffset + byteLength ≤ buffer.length)
  | other

def BinaryInput.bytes : BinaryInput → Option Bytes
  | .uint8Array bytes => some bytes
  | .arrayBuffer bytes => some bytes
  | .view buffer byteOffset byteLength _ => some ((buffer.drop byteOffset).take byteLength)
  | .other => none

section base64

variable (base64 : Base64)

def encodeAbiBase64 (value : BinaryInput) : Except Thrown JsString :=
  match value.bytes with
  | none => .error (wasmCodecError (js "Base64 input must be an ArrayBuffer or typed-array view"))
  | some bytes =>
    if MAX_BINARY_BYTES < bytes.length then
      .error (wasmCodecError (js "Base64 input exceeds the ABI binary limit"))
    else .ok (base64.encode bytes)

/-- A decoder's failure is a `TypeError`, the one below it a plain `Error`. -/
def assertCanonicalBase64 (value : JsValue) (path : JsString) : Except Thrown JsString :=
  let invalid (cause : Thrown) : Thrown :=
    .caused (WasmErrorClass.codec.error (path ++ js " is invalid Base64")) cause
  match value with
  | .string value =>
    if value.length % 4 ≠ 0 || !base64Pattern.test value then
      .error (wasmCodecError (path ++ js " is not canonical RFC 4648 padded Base64"))
    else match base64.decode value with
      | .error failure => .error (invalid (.typeError failure.message))
      | .ok decoded =>
        if base64.encode decoded ≠ value then .error (invalid (.foreign 0)) else .ok value
  | _ => .error (wasmCodecError (path ++ js " is not canonical RFC 4648 padded Base64"))

def decodeAbiBase64 (value : JsValue) : Except Thrown Bytes := do
  let value ← assertCanonicalBase64 base64 value (js "Base64 value")
  match base64.decode value with
  | .error failure => throw (.typeError failure.message)
  | .ok bytes =>
    if MAX_BINARY_BYTES < bytes.length then
      throw (wasmCodecError (js "Base64 value exceeds the ABI binary limit"))
    else return bytes

end base64

structure Base64.Standard (base64 : Base64) : Prop where
  encode_eq : ∀ bytes, base64.encode bytes = Rfc4648.encode bytes
  decode_encode : ∀ bytes, base64.decode (Rfc4648.encode bytes) = .ok bytes

namespace Rfc4648

theorem encode_length (bytes : Bytes) : (encode bytes).length = Native.encodedLength bytes.length := by
  induction bytes using encode.induct with
  | case1 => rfl
  | case2 a => simp [encode, Native.encodedLength]
  | case3 a b => simp [encode, Native.encodedLength]
  | case4 a b c rest ih =>
    rw [encode]
    simp only [List.length_cons, ih, Native.encodedLength]
    omega

theorem letter_unitOf {d : Nat} (h : d < 64) : Native.base64Letter.test [unitOf d] = true := by
  revert d
  decide

section words

open TextPattern Native

variable {d e f g : Nat}

theorem two_letters (hd : d < 64) (he : e < 64) : (times base64Letter 2).test [unitOf d, unitOf e] = true :=
  times_succ_word (letter_unitOf hd) (times_succ_word (letter_unitOf he) rfl)

theorem three_letters (hd : d < 64) (he : e < 64) (hf : f < 64) :
    (times base64Letter 3).test [unitOf d, unitOf e, unitOf f] = true :=
  times_succ_word (letter_unitOf hd) (two_letters he hf)

theorem four_letters (hd : d < 64) (he : e < 64) (hf : f < 64) (hg : g < 64) :
    (times base64Letter 4).test [unitOf d, unitOf e, unitOf f, unitOf g] = true :=
  times_succ_word (letter_unitOf hd) (three_letters he hf hg)

theorem base64Pattern_encode (bytes : Bytes) : base64Pattern.test (encode bytes) = true := by
  have parts : ∃ groups last, encode bytes = groups ++ last ∧
      (star (times base64Letter 4)).test groups = true ∧
      (opt (alt (seq (times base64Letter 2) (TextPattern.text "=="))
        (seq (times base64Letter 3) (TextPattern.text "=")))).test last = true := by
    induction bytes using encode.induct with
    | case1 => exact ⟨[], [], rfl, rfl, opt_nil⟩
    | case2 a =>
      have byte : a.toNat < 256 := a.toNat_lt
      refine ⟨[], encode [a], rfl, rfl, opt_word (alt_left ?_)⟩
      exact seq_word (two_letters (by omega) (by omega)) rfl
    | case3 a b =>
      have first : a.toNat < 256 := a.toNat_lt
      have second : b.toNat < 256 := b.toNat_lt
      refine ⟨[], encode [a, b], rfl, rfl, opt_word (alt_right ?_)⟩
      exact seq_word (three_letters (by omega) (by omega) (by omega)) rfl
    | case4 a b c rest ih =>
      have first : a.toNat < 256 := a.toNat_lt
      have second : b.toNat < 256 := b.toNat_lt
      have third : c.toNat < 256 := c.toNat_lt
      obtain ⟨groups, last, eq, matched, ended⟩ := ih
      have group := four_letters (d := a.toNat / 4) (e := a.toNat % 4 * 16 + b.toNat / 16)
        (f := b.toNat % 16 * 4 + c.toNat / 64) (g := c.toNat % 64) (by omega) (by omega)
        (by omega) (by omega)
      refine ⟨_ ++ groups, last, ?_, star_word group matched, ended⟩
      rw [encode, eq]
      rfl
  obtain ⟨groups, last, eq, matched, ended⟩ := parts
  rw [eq]
  exact seq_word matched ended

theorem binaryPattern_encode (bytes : Bytes) : binaryPattern.test (encode bytes) = true := by
  have parts : ∃ letters pads, encode bytes = letters ++ pads ∧
      (star base64Letter).test letters = true ∧
      (seq (opt (TextPattern.text "=")) (opt (TextPattern.text "="))).test pads = true := by
    induction bytes using encode.induct with
    | case1 => exact ⟨[], [], rfl, rfl, rfl⟩
    | case2 a =>
      have byte : a.toNat < 256 := a.toNat_lt
      refine ⟨[unitOf (a.toNat / 4), unitOf (a.toNat % 4 * 16)], [PAD, PAD], ?_, ?_, by decide⟩
      · rw [encode]
        rfl
      · exact star_word (letter_unitOf (by omega)) (star_word (letter_unitOf (by omega)) rfl)
    | case3 a b =>
      have first : a.toNat < 256 := a.toNat_lt
      have second : b.toNat < 256 := b.toNat_lt
      refine ⟨[unitOf (a.toNat / 4), unitOf (a.toNat % 4 * 16 + b.toNat / 16),
        unitOf (b.toNat % 16 * 4)], [PAD], ?_, ?_, by decide⟩
      · rw [encode]
        rfl
      · exact star_word (letter_unitOf (by omega)) (star_word (letter_unitOf (by omega))
          (star_word (letter_unitOf (by omega)) rfl))
    | case4 a b c rest ih =>
      have first : a.toNat < 256 := a.toNat_lt
      have second : b.toNat < 256 := b.toNat_lt
      have third : c.toNat < 256 := c.toNat_lt
      obtain ⟨letters, pads, eq, matched, ended⟩ := ih
      refine ⟨unitOf (a.toNat / 4) :: unitOf (a.toNat % 4 * 16 + b.toNat / 16) ::
        unitOf (b.toNat % 16 * 4 + c.toNat / 64) :: unitOf (c.toNat % 64) :: letters, pads, ?_, ?_,
        ended⟩
      · rw [encode, eq]
        rfl
      · exact star_word (letter_unitOf (by omega)) (star_word (letter_unitOf (by omega))
          (star_word (letter_unitOf (by omega)) (star_word (letter_unitOf (by omega)) matched)))
  obtain ⟨letters, pads, eq, matched, ended⟩ := parts
  rw [eq]
  exact seq_word matched ended

end words

end Rfc4648

theorem encodeAbiBase64_ok {base64 : Base64} {value : BinaryInput} {encoded : JsString} :
    encodeAbiBase64 base64 value = .ok encoded ↔ ∃ bytes, value.bytes = some bytes ∧
      bytes.length ≤ MAX_BINARY_BYTES ∧ encoded = base64.encode bytes := by
  rw [encodeAbiBase64]
  cases value.bytes with
  | none => simp
  | some bytes =>
    by_cases large : MAX_BINARY_BYTES < bytes.length
    · simp [large, Nat.not_le.mpr large]
    · simp [large, Nat.not_lt.mp large, eq_comm]

theorem rfcBase64_standard : rfcBase64.Standard where
  encode_eq _ := rfl
  decode_encode := rfcBase64_lawful.round_trip

section standard

variable {base64 : Base64} (standard : base64.Standard)
include standard

theorem Base64.Standard.round_trip (bytes : Bytes) : base64.decode (base64.encode bytes) = .ok bytes := by
  rw [standard.encode_eq]
  exact standard.decode_encode bytes

theorem binary_ok {encoded field : JsString} {maxBytes : Nat} {bytes : Bytes} :
    Native.binary base64 encoded field maxBytes = .ok bytes ↔
      encoded = base64.encode bytes ∧ bytes.length ≤ maxBytes := by
  constructor
  · intro h
    unfold Native.binary at h
    split at h
    next => cases h
    next =>
      split at h
      next => cases h
      next =>
        split at h
        next => cases h
        next decoded _ =>
          split at h
          next => cases h
          next same =>
            split at h
            next => cases h
            next fits =>
              cases h
              exact ⟨(not_not.mp same).symm, by omega⟩
  · rintro ⟨rfl, fits⟩
    have length : (base64.encode bytes).length = Native.encodedLength bytes.length := by
      rw [standard.encode_eq, Rfc4648.encode_length]
    have short : ¬Native.encodedLength maxBytes < (base64.encode bytes).length := by
      rw [length, Native.encodedLength, Native.encodedLength]
      omega
    have pattern : Native.binaryPattern.test (base64.encode bytes) = true := by
      rw [standard.encode_eq]
      exact Rfc4648.binaryPattern_encode bytes
    have groups : (base64.encode bytes).length % 4 = 0 := by
      rw [length, Native.encodedLength]
      omega
    have inside : ¬maxBytes < bytes.length := by omega
    simp [Native.binary, short, groups, pattern, standard.round_trip, inside]

theorem assertCanonicalBase64_ok {value : JsValue} {path encoded : JsString} :
    assertCanonicalBase64 base64 value path = .ok encoded ↔
      value = .string encoded ∧ ∃ bytes, encoded = base64.encode bytes := by
  constructor
  · intro h
    unfold assertCanonicalBase64 at h
    split at h
    next text =>
      split at h
      next => cases h
      next =>
        split at h
        next => cases h
        next decoded _ =>
          split at h
          next => cases h
          next same =>
            cases h
            exact ⟨rfl, decoded, (not_not.mp same).symm⟩
    next => cases h
  · rintro ⟨rfl, bytes, rfl⟩
    have groups : (base64.encode bytes).length % 4 = 0 := by
      rw [standard.encode_eq, Rfc4648.encode_length, Native.encodedLength]
      omega
    have pattern : base64Pattern.test (base64.encode bytes) = true := by
      rw [standard.encode_eq]
      exact Rfc4648.base64Pattern_encode bytes
    simp [assertCanonicalBase64, groups, pattern, standard.round_trip]

theorem decodeAbiBase64_ok {value : JsValue} {bytes : Bytes} : decodeAbiBase64 base64 value = .ok bytes ↔
      value = .string (base64.encode bytes) ∧ bytes.length ≤ MAX_BINARY_BYTES := by
  constructor
  · intro h
    obtain ⟨encoded, asserted, checked⟩ := bind_ok.mp h
    obtain ⟨rfl, original, rfl⟩ := (assertCanonicalBase64_ok standard).mp asserted
    rw [standard.round_trip] at checked
    obtain ⟨fits, same⟩ := check_ok.mp checked
    cases same
    exact ⟨rfl, by omega⟩
  · rintro ⟨rfl, fits⟩
    have asserted : assertCanonicalBase64 base64 (.string (base64.encode bytes))
        (js "Base64 value") = .ok (base64.encode bytes) :=
      (assertCanonicalBase64_ok standard).mpr ⟨rfl, bytes, rfl⟩
    refine bind_ok.mpr ⟨_, asserted, ?_⟩
    rw [standard.round_trip]
    exact check_ok.mpr ⟨by omega, rfl⟩

end standard

/-- The codec and the adapter decode the same texts, the encodings of at most 512 KiB, to the
bytes they encode. -/
theorem base64_boundary {base64 : Base64} (standard : base64.Standard) :
    (∀ (input : BinaryInput) (bytes : Bytes), input.bytes = some bytes →
      bytes.length ≤ 512 * 1024 → ∃ encoded, encodeAbiBase64 base64 input = .ok encoded ∧
        decodeAbiBase64 base64 (.string encoded) = .ok bytes) ∧
    (∀ value, (∃ bytes, decodeAbiBase64 base64 value = .ok bytes) ↔
      ∃ encoded input, value = .string encoded ∧ encodeAbiBase64 base64 input = .ok encoded) ∧
    ∀ (encoded field : JsString) (bytes : Bytes), Native.binary base64 encoded field (512 * 1024) = .ok bytes ↔
        decodeAbiBase64 base64 (.string encoded) = .ok bytes := by
  refine ⟨?_, ?_, ?_⟩
  · intro input bytes shown fits
    refine ⟨base64.encode bytes, encodeAbiBase64_ok.mpr ⟨bytes, shown, fits, rfl⟩, ?_⟩
    exact (decodeAbiBase64_ok standard).mpr ⟨rfl, fits⟩
  · intro value
    constructor
    · rintro ⟨bytes, decoded⟩
      obtain ⟨rfl, fits⟩ := (decodeAbiBase64_ok standard).mp decoded
      exact ⟨_, .uint8Array bytes, rfl, encodeAbiBase64_ok.mpr ⟨bytes, rfl, fits, rfl⟩⟩
    · rintro ⟨encoded, input, rfl, produced⟩
      obtain ⟨bytes, -, fits, rfl⟩ := encodeAbiBase64_ok.mp produced
      exact ⟨bytes, (decodeAbiBase64_ok standard).mpr ⟨rfl, fits⟩⟩
  · intro encoded field bytes
    rw [binary_ok standard, decodeAbiBase64_ok standard, JsValue.string.injEq]
    exact Iff.rfl

theorem base64_boundary_three_bytes :
    decodeAbiBase64 rfcBase64 (.string (js "AQID")) = .ok [1, 2, 3] ∧
      Native.binary rfcBase64 (js "AQID") (js "payload.data") (512 * 1024) = .ok [1, 2, 3] := by
  obtain ⟨encodes, -, agrees⟩ := base64_boundary rfcBase64_standard
  obtain ⟨encoded, produced, decoded⟩ := encodes (.uint8Array [1, 2, 3]) [1, 2, 3] rfl (by decide)
  have text : encoded = js "AQID" := by
    obtain ⟨bytes, shown, -, eq⟩ := encodeAbiBase64_ok.mp produced
    cases shown
    rw [eq]
    decide
  rw [text] at decoded
  exact ⟨decoded, (agrees _ _ _).mpr decoded⟩

end ForgeDeno
