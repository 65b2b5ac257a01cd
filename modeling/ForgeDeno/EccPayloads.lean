import ForgeDeno.ExceptRules
import ForgeDeno.JsonRoundTrip
import ForgeDeno.JsonUtf8
import ForgeDeno.Pkcs11Provider

namespace JsString

instance (s : JsString) : Decidable s.Printable := inferInstanceAs (Decidable (∀ u ∈ s, _))

end JsString

namespace ForgeDeno

def encodeECCCipherPayload (base64 : Base64) (curve ephemeralPublicKey nonce cipherText : JsString) : JsString :=
  let payload : JsonValue := .object
    [(js "curve", .string curve), (js "ephemeralPublicKey", .string ephemeralPublicKey),
      (js "nonce", .string nonce), (js "cipherText", .string cipherText)]
  base64.encode (JsString.utf8Encode ((JsonText.stringify payload.toJs).getD []))

def payloadObject (curve ephemeralPublicKey nonce cipherText : JsString) : JsonValue :=
  .object
    [(js "curve", .string curve), (js "ephemeralPublicKey", .string ephemeralPublicKey),
      (js "nonce", .string nonce), (js "cipherText", .string cipherText)]

section payloads

variable {curve ephemeralPublicKey nonce cipherText : JsString}

theorem payloadObject_wellFormed : (payloadObject curve ephemeralPublicKey nonce cipherText).WellFormed := by
  constructor
  · show List.Pairwise _ [js "curve", js "ephemeralPublicKey", js "nonce", js "cipherText"]
    decide
  · exact ⟨trivial, trivial, trivial, trivial, trivial⟩

theorem encodeECCCipherPayload_eq (base64 : Base64) (curve ephemeralPublicKey nonce cipherText : JsString) :
    encodeECCCipherPayload base64 curve ephemeralPublicKey nonce cipherText =
      base64.encode (JsString.utf8Encode (payloadObject curve ephemeralPublicKey nonce cipherText).text) := by
  have text : JsonText.stringify (payloadObject curve ephemeralPublicKey nonce cipherText).toJs =
      some (payloadObject curve ephemeralPublicKey nonce cipherText).text := JsonText.stringify_toJs _
  show base64.encode (JsString.utf8Encode ((JsonText.stringify
    (payloadObject curve ephemeralPublicKey nonce cipherText).toJs).getD [])) = _
  rw [text]
  rfl

end payloads

namespace Utilities

section payloads

variable (base64 : Base64)

def TypedPayload (payload : JsonValue) : Prop :=
  ∃ members, payload = .object members ∧
    ∀ field ∈ payloadFields, ∃ text, text ≠ [] ∧ lookupMember members field = some (.string text)

/-- The text decodes to a typed payload or is refused with an `EncryptError`. -/
structure PayloadContract (encoded : JsString) : Prop where
  typed : ∀ payload, decodeECCCipherPayload base64 encoded = .ok payload → TypedPayload payload
  refused : ∀ thrown, decodeECCCipherPayload base64 encoded = .error thrown →
    ∃ message, thrown = .encryptError message

/-- JSON that is not `null` and has no truthy field of another type where all four are truthy. -/
structure ProperPayload (parsed : JsonValue) : Prop where
  present : parsed ≠ .null
  texts : ∀ members, parsed = .object members →
    (∀ field ∈ payloadFields, (lookupMember members field).any JsonValue.truthy) →
    ∀ field ∈ payloadFields, ∃ text, lookupMember members field = some (.string text)

variable {base64}

theorem checkField_object (members : List (JsString × JsonValue)) (field : JsString) :
    checkField (.object members) field =
      if (lookupMember members field).any JsonValue.truthy then .ok ()
      else .error (.encryptError (js "ECC cipher payload missing field: " ++ field)) := by
  rfl

theorem checkFields_object (members : List (JsString × JsonValue)) (fields : List JsString) :
    (fields.forM (checkField (.object members)) = .ok () ∧
      ∀ field ∈ fields, (lookupMember members field).any JsonValue.truthy) ∨
    ((∃ message, fields.forM (checkField (.object members)) = .error (.encryptError message)) ∧
      ∃ field ∈ fields, ¬(lookupMember members field).any JsonValue.truthy) := by
  induction fields with
  | nil => exact .inl ⟨rfl, nofun⟩
  | cons field rest ih =>
    have split : (field :: rest).forM (checkField (.object members)) =
        (checkField (.object members) field >>= fun _ => rest.forM (checkField (.object members))) := rfl
    rw [split, checkField_object]
    by_cases truth : (lookupMember members field).any JsonValue.truthy = true
    · rw [if_pos truth]
      rcases ih with ⟨passed, all⟩ | ⟨⟨message, failed⟩, other, mem, falsy⟩
      · refine .inl ⟨passed, fun other mem => ?_⟩
        rcases List.mem_cons.mp mem with rfl | later
        · exact truth
        · exact all other later
      · exact .inr ⟨⟨message, failed⟩, other, List.mem_cons_of_mem field mem, falsy⟩
    · rw [if_neg truth]
      exact .inr ⟨⟨_, rfl⟩, field, List.mem_cons_self, truth⟩

variable {encoded : JsString}

theorem decode_parsed {parsed : JsonValue} (read : parsePayload base64 encoded = some parsed) :
    decodeECCCipherPayload base64 encoded = (do
      payloadFields.forM (checkField parsed)
      return parsed) := by
  unfold decodeECCCipherPayload
  rw [read]

theorem decode_unread (read : parsePayload base64 encoded = none) :
    decodeECCCipherPayload base64 encoded = .error (.encryptError (js "invalid ECC cipher payload")) := by
  unfold decodeECCCipherPayload
  rw [read]

theorem truthy_text {text : JsString} (h : (some (JsonValue.string text)).any JsonValue.truthy = true) :
    text ≠ [] := of_decide_eq_true h

theorem contract_object {members : List (JsString × JsonValue)}
    (read : parsePayload base64 encoded = some (.object members)) :
    PayloadContract base64 encoded ↔ ProperPayload (.object members) := by
  rcases checkFields_object members payloadFields with ⟨passed, all⟩ | ⟨⟨message, failed⟩, field, mem, falsy⟩
  · have decoded : decodeECCCipherPayload base64 encoded = .ok (.object members) := by
      rw [decode_parsed read, passed]
      rfl
    constructor
    · intro contract
      obtain ⟨members', same, texts⟩ := contract.typed _ decoded
      cases same
      refine ⟨nofun, fun members' same _ field mem => ?_⟩
      cases same
      obtain ⟨text, _, found⟩ := texts field mem
      exact ⟨text, found⟩
    · intro proper
      refine ⟨fun payload result => ?_, fun thrown result => ?_⟩
      · cases decoded.symm.trans result
        refine ⟨members, rfl, fun field mem => ?_⟩
        obtain ⟨text, found⟩ := proper.texts members rfl all field mem
        have truth := all field mem
        rw [found] at truth
        exact ⟨text, truthy_text truth, found⟩
      · cases decoded.symm.trans result
  · have decoded : decodeECCCipherPayload base64 encoded = .error (.encryptError message) := by
      rw [decode_parsed read, failed]
      rfl
    have contract : PayloadContract base64 encoded := by
      refine ⟨fun payload result => ?_, fun thrown result => ?_⟩
      · cases decoded.symm.trans result
      · cases decoded.symm.trans result
        exact ⟨message, rfl⟩
    have proper : ProperPayload (.object members) := by
      refine ⟨nofun, fun members' same all => ?_⟩
      cases same
      exact absurd (all field mem) falsy
    exact iff_of_true contract proper

theorem contract_other {parsed : JsonValue}
    (read : parsePayload base64 encoded = some parsed) (other : ∀ field, property parsed field = .ok none) :
    PayloadContract base64 encoded := by
  have decoded : decodeECCCipherPayload base64 encoded =
      .error (.encryptError (js "ECC cipher payload missing field: " ++ js "curve")) := by
    have first : checkField parsed (js "curve") =
        .error (.encryptError (js "ECC cipher payload missing field: " ++ js "curve")) := by
      unfold checkField
      rw [other]
      rfl
    rw [decode_parsed read]
    show (checkField parsed (js "curve") >>= _) >>= _ = _
    rw [first]
    rfl
  refine ⟨fun payload result => ?_, fun thrown result => ?_⟩
  · cases decoded.symm.trans result
  · cases decoded.symm.trans result
    exact ⟨_, rfl⟩

theorem contract_null (read : parsePayload base64 encoded = some .null) :
    ¬PayloadContract base64 encoded := by
  intro contract
  have decoded : decodeECCCipherPayload base64 encoded =
      .error (.typeError (js "Cannot read properties of null (reading '" ++ js "curve" ++ js "')")) := by
    rw [decode_parsed read]
    rfl
  obtain ⟨message, same⟩ := contract.refused _ decoded
  cases same

theorem contract_iff (encoded : JsString) : PayloadContract base64 encoded ↔
    ∀ parsed, parsePayload base64 encoded = some parsed → ProperPayload parsed := by
  have proper_other : ∀ {parsed : JsonValue}, parsed ≠ .null → (∀ members, parsed ≠ .object members) →
      ProperPayload parsed :=
    fun present other => ⟨present, fun members same => absurd same (other members)⟩
  cases read : parsePayload base64 encoded with
  | none =>
    have contract : PayloadContract base64 encoded := by
      refine ⟨fun payload result => ?_, fun thrown result => ?_⟩
      · rw [decode_unread read] at result
        cases result
      · rw [decode_unread read] at result
        cases result
        exact ⟨_, rfl⟩
    exact iff_of_true contract fun parsed found => by cases found
  | some parsed =>
    have only : (∀ parsed', some parsed = some parsed' → ProperPayload parsed') ↔
        ProperPayload parsed :=
      ⟨fun all => all parsed rfl, fun proper parsed' same => Option.some.inj same ▸ proper⟩
    rw [only]
    cases parsed with
    | null =>
      refine iff_of_false (contract_null read) fun proper => ?_
      exact proper.present rfl
    | object members => exact contract_object read
    | bool b =>
      exact iff_of_true (contract_other read fun _ => rfl)
        (proper_other (fun same => by cases same) fun _ same => by cases same)
    | number n =>
      exact iff_of_true (contract_other read fun _ => rfl)
        (proper_other (fun same => by cases same) fun _ same => by cases same)
    | string s =>
      exact iff_of_true (contract_other read fun _ => rfl)
        (proper_other (fun same => by cases same) fun _ same => by cases same)
    | array items =>
      exact iff_of_true (contract_other read fun _ => rfl)
        (proper_other (fun same => by cases same) fun _ same => by cases same)

theorem decode_encode_payload (lawful : base64.Lawful) {curve ephemeralPublicKey nonce cipherText : JsString}
    (someCurve : curve ≠ []) (someKey : ephemeralPublicKey ≠ []) (someNonce : nonce ≠ [])
    (someText : cipherText ≠ []) : decodeECCCipherPayload base64
      (encodeECCCipherPayload base64 curve ephemeralPublicKey nonce cipherText) =
      .ok (payloadObject curve ephemeralPublicKey nonce cipherText) := by
  have read : parsePayload base64
      (encodeECCCipherPayload base64 curve ephemeralPublicKey nonce cipherText) =
      some (payloadObject curve ephemeralPublicKey nonce cipherText) := by
    unfold parsePayload
    rw [encodeECCCipherPayload_eq, lawful.round_trip]
    exact JsonText.parse_utf8 payloadObject_wellFormed
  have truthy : ∀ {text : JsString}, text ≠ [] → (some (JsonValue.string text)).any JsonValue.truthy = true :=
    fun h => decide_eq_true h
  rcases checkFields_object
    [(js "curve", .string curve), (js "ephemeralPublicKey", .string ephemeralPublicKey),
      (js "nonce", .string nonce), (js "cipherText", .string cipherText)] payloadFields with
    ⟨passed, _⟩ | ⟨_, field, mem, falsy⟩
  · rw [decode_parsed read]
    unfold payloadObject
    rw [passed]
    rfl
  · simp only [payloadFields, List.mem_cons, List.not_mem_nil, or_false] at mem
    rcases mem with rfl | rfl | rfl | rfl
    · exact absurd (truthy someCurve) falsy
    · exact absurd (truthy someKey) falsy
    · exact absurd (truthy someNonce) falsy
    · exact absurd (truthy someText) falsy

/-- A text is decoded to a typed payload or refused with an `EncryptError` exactly when the JSON in it
is not `null` and has no truthy field of another type where all four are truthy; and every payload
of four texts with something in them is decoded as it was encoded. -/
theorem ecc_payload_exact (lawful : base64.Lawful) : (∀ encoded, PayloadContract base64 encoded ↔
      ∀ parsed, parsePayload base64 encoded = some parsed → ProperPayload parsed) ∧
    ∀ curve ephemeralPublicKey nonce cipherText : JsString, curve ≠ [] → ephemeralPublicKey ≠ [] →
      nonce ≠ [] → cipherText ≠ [] → decodeECCCipherPayload base64
        (encodeECCCipherPayload base64 curve ephemeralPublicKey nonce cipherText) =
        .ok (payloadObject curve ephemeralPublicKey nonce cipherText) :=
  ⟨contract_iff, fun _ _ _ _ someCurve someKey someNonce someText =>
    decode_encode_payload lawful someCurve someKey someNonce someText⟩

end payloads

theorem ecc_payload_rfc :
    (PayloadContract rfcBase64 (js "e30=") ↔
      ∀ parsed, parsePayload rfcBase64 (js "e30=") = some parsed → ProperPayload parsed) ∧
    decodeECCCipherPayload rfcBase64 (encodeECCCipherPayload rfcBase64 (js "P-256") (js "k") (js "n")
      (js "c")) = .ok (payloadObject (js "P-256") (js "k") (js "n") (js "c")) := by
  have exact_payloads := ecc_payload_exact rfcBase64_lawful
  have some_text : ∀ {u : UInt16} {rest : JsString}, u :: rest ≠ [] := List.cons_ne_nil _ _
  exact ⟨exact_payloads.1 _, exact_payloads.2 _ _ _ _ some_text some_text some_text some_text⟩

/-- The Base64 text of `null`. -/
theorem null_payload_breaks : ¬PayloadContract rfcBase64 (js "bnVsbA==") := by
  have read : parsePayload rfcBase64 (js "bnVsbA==") = some .null := rfl
  exact contract_null read

end Utilities

end ForgeDeno
