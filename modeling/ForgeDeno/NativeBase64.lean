import ForgeDeno.AbiBase64
import ForgeDeno.NativeText

namespace ForgeDeno.Native

open JsString ExceptRules Rfc4648 List

section base64

variable (base64 : Base64)

def base64Encode (payload : JsonValue) : Except PayloadError JsonValue := do
  let input ← object payload [js "text"] []
  let value ← text input (js "text")
  assertUtf8 value (js "payload.text")
  let bytes := value.utf8Encode
  if maxStringBytes < bytes.length then throw ⟨.inputTooLarge, some (js "payload.text")⟩
  else return .object [(js "encoded", .string (base64.encode bytes))]

def base64Decode (payload : JsonValue) : Except PayloadError JsonValue := do
  let input ← object payload [js "encoded"] []
  let encoded ← text input (js "encoded")
  let decoded ← binary base64 encoded (js "payload.encoded") maxStringBytes
  match utf8DecodeFatal decoded with
  | some s => return .object [(js "text", .string s)]
  | none => throw ⟨.invalidUtf8, some (js "payload.encoded")⟩

end base64

/-- `{ text }` and `{ encoded }`, each the payload of one operation and the result of the other. -/
def textObject (value : JsString) : JsonValue := .object [(js "text", .string value)]

def encodedObject (value : JsString) : JsonValue := .object [(js "encoded", .string value)]

theorem object_text (value : JsString) :
    object (textObject value) [js "text"] [] = .ok [(js "text", .string value)] := rfl

theorem object_encoded (value : JsString) :
    object (encodedObject value) [js "encoded"] [] = .ok [(js "encoded", .string value)] := rfl

theorem textObject_inj {a b : JsString} : textObject a = textObject b ↔ a = b := by
  simp [textObject]

theorem encodedObject_inj {a b : JsString} : encodedObject a = encodedObject b ↔ a = b := by
  simp [encodedObject]

theorem base64Encode_ok {base64 : Base64} {value : JsString} {result : JsonValue} :
    base64Encode base64 (textObject value) = .ok result ↔
      value.WellFormed ∧ value.utf8Encode.length ≤ maxStringBytes ∧
        result = encodedObject (base64.encode value.utf8Encode) := by
  constructor
  · intro h
    obtain ⟨input, object_eq, h⟩ := bind_ok.mp h
    cases (object_text value).symm.trans object_eq
    obtain ⟨read, text_eq, h⟩ := bind_ok.mp h
    cases text_eq
    obtain ⟨⟨⟩, formed, h⟩ := bind_ok.mp h
    obtain ⟨fits, same⟩ := check_ok.mp h
    cases same
    exact ⟨assertUtf8_ok.mp formed, Nat.not_lt.mp fits, rfl⟩
  · rintro ⟨formed, fits, rfl⟩
    refine bind_ok.mpr ⟨_, object_text value, ?_⟩
    refine bind_ok.mpr ⟨value, rfl, ?_⟩
    refine bind_ok.mpr ⟨(), assertUtf8_ok.mpr formed, ?_⟩
    exact check_ok.mpr ⟨Nat.not_lt.mpr fits, rfl⟩

section standard

variable {base64 : Base64} (standard : base64.Standard)
include standard

theorem base64Decode_ok {encoded : JsString} {result : JsonValue} :
    base64Decode base64 (encodedObject encoded) = .ok result ↔ ∃ bytes value,
      encoded = base64.encode bytes ∧ bytes.length ≤ maxStringBytes ∧
        utf8DecodeFatal bytes = some value ∧ result = textObject value := by
  constructor
  · intro h
    obtain ⟨input, object_eq, h⟩ := bind_ok.mp h
    cases (object_encoded encoded).symm.trans object_eq
    obtain ⟨read, text_eq, h⟩ := bind_ok.mp h
    cases text_eq
    obtain ⟨bytes, decoded, h⟩ := bind_ok.mp h
    obtain ⟨eq, fits⟩ := (binary_ok standard).mp decoded
    split at h
    next value utf8 =>
      cases h
      exact ⟨bytes, value, eq, fits, utf8, rfl⟩
    next => cases h
  · rintro ⟨bytes, value, rfl, fits, utf8, rfl⟩
    refine bind_ok.mpr ⟨_, object_encoded _, ?_⟩
    refine bind_ok.mpr ⟨base64.encode bytes, rfl, ?_⟩
    refine bind_ok.mpr ⟨bytes, (binary_ok standard).mpr ⟨rfl, fits⟩, ?_⟩
    simp only [utf8]
    rfl

theorem decode_encoded {value : JsString} {encoded : JsonValue}
    (accepted : base64Encode base64 (textObject value) = .ok encoded) {result : JsString} :
    base64Decode base64 encoded = .ok (textObject result) ↔ utf8DecodeFatal value.utf8Encode = some result := by
  obtain ⟨formed, fits, rfl⟩ := base64Encode_ok.mp accepted
  rw [base64Decode_ok standard]
  constructor
  · rintro ⟨bytes, read, eq, -, utf8, same⟩
    rw [textObject_inj.mp same]
    have back := standard.round_trip bytes
    rw [← eq, standard.round_trip] at back
    cases back
    exact utf8
  · intro utf8
    exact ⟨_, result, rfl, fits, utf8, rfl⟩

theorem starts_with_bom (bytes : Bytes) :
    js "77u/" <+: base64.encode bytes ↔ ∃ rest, bytes = 0xEF :: 0xBB :: 0xBF :: rest := by
  have letters : js "77u/" = [0x37, 0x37, 0x75, 0x2F] := by decide
  have seven : ∀ d < 64, unitOf d = 0x37 → d = 59 := by decide
  have u : ∀ d < 64, unitOf d = 0x75 → d = 46 := by decide
  have slash : ∀ d < 64, unitOf d = 0x2F → d = 63 := by decide
  rw [standard.encode_eq, letters]
  constructor
  · rintro ⟨tail, eq⟩
    cases bytes using encode.fun_cases with
    | case1 => cases eq
    | case2 a =>
      rw [encode] at eq
      cases (cons.inj (cons.inj (cons.inj eq).2).2).1
    | case3 a b =>
      rw [encode] at eq
      cases (cons.inj (cons.inj (cons.inj (cons.inj eq).2).2).2).1
    | case4 a b c rest =>
      rw [encode] at eq
      have byte : a.toNat < 256 := a.toNat_lt
      have byte' : b.toNat < 256 := b.toNat_lt
      have byte'' : c.toNat < 256 := c.toNat_lt
      obtain ⟨first, eq⟩ := cons.inj eq
      obtain ⟨second, eq⟩ := cons.inj eq
      obtain ⟨third, eq⟩ := cons.inj eq
      obtain ⟨fourth, -⟩ := cons.inj eq
      have w := seven _ (by omega) first.symm
      have x := seven _ (by omega) second.symm
      have y := u _ (by omega) third.symm
      have z := slash _ (by omega) fourth.symm
      refine ⟨rest, ?_⟩
      rw [UInt8.toNat_inj.mp (by simp only [UInt8.reduceToNat]; omega : a.toNat = (0xEF : UInt8).toNat),
        UInt8.toNat_inj.mp (by simp only [UInt8.reduceToNat]; omega : b.toNat = (0xBB : UInt8).toNat),
        UInt8.toNat_inj.mp (by simp only [UInt8.reduceToNat]; omega : c.toNat = (0xBF : UInt8).toNat)]
  · rintro ⟨rest, rfl⟩
    rw [encode]
    exact ⟨encode rest, rfl⟩

end standard

/-- The operations are inverse except at a byte order mark in front: it is dropped by the
decoder, so a text that starts with it does not come back, nor does an encoding of such a text. -/
theorem base64_text_exact {base64 : Base64} (standard : base64.Standard) :
    (∀ value encoded, base64Encode base64 (textObject value) = .ok encoded →
      (base64Decode base64 encoded = .ok (textObject value) ↔ value.head? ≠ some bom)) ∧
    ∀ encoded value, base64Decode base64 (encodedObject encoded) = .ok value →
      (base64Encode base64 value = .ok (encodedObject encoded) ↔ ¬js "77u/" <+: encoded) := by
  constructor
  · intro value encoded accepted
    have formed := (base64Encode_ok.mp accepted).1
    rw [decode_encoded standard accepted, utf8DecodeFatal_iff, and_iff_right formed, and_iff_right rfl]
    refine or_iff_right ?_
    intro marked
    have lengths := congrArg List.length marked
    rw [utf8Encode_bom, List.length_cons, List.length_cons, List.length_cons] at lengths
    omega
  · intro encoded result accepted
    obtain ⟨bytes, value, rfl, fits, utf8, rfl⟩ := (base64Decode_ok standard).mp accepted
    obtain ⟨formed, origin⟩ := utf8DecodeFatal_iff.mp utf8
    rw [starts_with_bom standard, base64Encode_ok, encodedObject_inj]
    rcases origin with marked | ⟨rfl, unmarked⟩
    · refine iff_of_false ?_ (fun h => h ⟨_, marked.trans (utf8Encode_bom value)⟩)
      rintro ⟨-, -, same⟩
      have back := standard.round_trip bytes
      rw [same, standard.round_trip] at back
      have lengths := congrArg List.length ((Except.ok.inj back).trans marked)
      rw [utf8Encode_bom, List.length_cons, List.length_cons, List.length_cons] at lengths
      omega
    · refine iff_of_true ⟨formed, fits, rfl⟩ ?_
      rintro ⟨rest, same⟩
      exact unmarked (head_of_utf8Encode_bom same)

theorem base64_text_hello :
    base64Decode rfcBase64 (encodedObject (js "aGk=")) = .ok (textObject (js "hi")) :=
  ((base64_text_exact rfcBase64_standard).1 (js "hi") _
    (base64Encode_ok.mpr ⟨by decide, by decide, congrArg encodedObject (by decide)⟩)).mpr (by decide)

/-- The text of a lone byte order mark comes back empty. -/
theorem base64_text_bom :
    base64Encode rfcBase64 (textObject [bom]) = .ok (encodedObject (js "77u/")) ∧
      base64Decode rfcBase64 (encodedObject (js "77u/")) = .ok (textObject []) ∧
      base64Encode rfcBase64 (textObject []) = .ok (encodedObject []) ∧
      ¬((∀ value encoded, base64Encode rfcBase64 (textObject value) = .ok encoded →
          base64Decode rfcBase64 encoded = .ok (textObject value)) ∧
        ∀ encoded value, base64Decode rfcBase64 (encodedObject encoded) = .ok value →
          base64Encode rfcBase64 value = .ok (encodedObject encoded)) := by
  have encoded : base64Encode rfcBase64 (textObject [bom]) = .ok (encodedObject (js "77u/")) :=
    base64Encode_ok.mpr ⟨by decide, by decide, congrArg encodedObject (by decide)⟩
  have decoded : base64Decode rfcBase64 (encodedObject (js "77u/")) = .ok (textObject []) :=
    (base64Decode_ok rfcBase64_standard).mpr
      ⟨[0xEF, 0xBB, 0xBF], [], by decide, by decide,
        utf8DecodeFatal_iff.mpr ⟨wellFormed_nil, Or.inl (by decide)⟩, rfl⟩
  refine ⟨encoded, decoded, base64Encode_ok.mpr ⟨wellFormed_nil, by decide, rfl⟩, ?_⟩
  rintro ⟨inverse, -⟩
  have same := Except.ok.inj (decoded.symm.trans (inverse [bom] _ encoded))
  exact absurd (textObject_inj.mp same) (by decide)

end ForgeDeno.Native
