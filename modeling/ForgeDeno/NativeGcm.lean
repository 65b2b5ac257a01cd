import ForgeDeno.NativeCrypto

namespace ForgeDeno

open ExceptRules List

inductive AbiResponseV1.Stable : AbiResponseV1 → Prop
  | success (id : JsString) (result : JsValue) : Stable (.success id result)
  | failure (id : JsString) (error : AbiErrorV1) (code : GoforgeAbiErrorCodeV1)
      (named : error.code = code.name) (catalogued : error.Catalogued) : Stable (.failure id error)

def PayloadError.Bounded (error : PayloadError) : Prop :=
  ∀ field ∈ error.field, isBoundedText field 512 = true

namespace Native

theorem checked_ok {α : Type} {x : Except PayloadError α} {a : α} : checked x = .ok a ↔ x = .ok a := by
  cases x <;> simp [checked, Except.mapError]

theorem awaited_ok {α : Type} {x : Except Thrown α} {a : α} : awaited x = .ok a ↔ x = .ok a := by
  cases x <;> simp [awaited, Except.mapError]

structure GcmPayload (members : Members) (usage : KeyUsage) (key nonce aad value : JsString) : Prop where
  known : ∀ member ∈ members, member.1 ∈ [js "key", js "nonce", js "aad", valueField usage]
  key : text members (js "key") = .ok key
  nonce : text members (js "nonce") = .ok nonce
  aad : text members (js "aad") = .ok aad
  value : text members (valueField usage) = .ok value

structure GcmSizes (usage : KeyUsage) (raw iv aad data : Bytes) : Prop where
  key : raw.length = 16 ∨ raw.length = 24 ∨ raw.length = 32
  nonce : iv.length = AES_GCM_NONCE_BYTES
  additional : aad.length ≤ maxBinaryBytes
  value : data.length ≤ valueLimit usage
  tagged : usage = .decrypt → AES_GCM_TAG_BYTES ≤ data.length

theorem present_of_text {members : Members} {key value : JsString}
    (read : text members key = .ok value) : absent members key = false := by
  rw [text] at read
  rw [absent]
  split at read
  next found => rw [found]
  next => cases read

theorem GcmPayload.object_eq {members : Members} {usage : KeyUsage} {key nonce aad value : JsString}
    (payload : GcmPayload members usage key nonce aad value) :
    object (.object members) [js "key", js "nonce", js "aad", valueField usage] [] = .ok members := by
  refine object_ok.mpr ⟨rfl, by simpa using payload.known, ?_⟩
  intro name mem
  simp only [mem_cons, not_mem_nil, or_false] at mem
  rcases mem with rfl | rfl | rfl | rfl
  · exact present_of_text payload.key
  · exact present_of_text payload.nonce
  · exact present_of_text payload.aad
  · exact present_of_text payload.value

section standard

variable {crypto : SubtleCrypto} {base64 : Base64} (standard : base64.Standard)
include standard

theorem aesInputs_ok {members : Members} {usage : KeyUsage} {inputs : AesInputs crypto}
    (known : ∀ member ∈ members, member.1 ∈ [js "key", js "nonce", js "aad", valueField usage]) :
    aesInputs crypto base64 members usage = .ok inputs ↔ ∃ raw nonce aad value key,
      GcmPayload members usage (base64.encode raw) (base64.encode nonce) (base64.encode aad)
          (base64.encode value) ∧
        GcmSizes usage raw nonce aad value ∧ crypto.importAesKey raw usage = .ok key ∧
          inputs = ⟨key, nonce, aad, value⟩ := by
  constructor
  · intro h
    obtain ⟨keyText, key_eq, h1⟩ := bind_ok.mp h
    obtain ⟨raw, raw_eq, h2⟩ := bind_ok.mp h1
    obtain ⟨size, h3⟩ := check_ok.mp h2
    obtain ⟨nonceText, nonce_eq, h4⟩ := bind_ok.mp h3
    obtain ⟨nonce, nonce_binary, h5⟩ := bind_ok.mp h4
    obtain ⟨nonce_size, h6⟩ := check_ok.mp h5
    obtain ⟨aadText, aad_eq, h7⟩ := bind_ok.mp h6
    obtain ⟨aad, aad_binary, h8⟩ := bind_ok.mp h7
    obtain ⟨valueText, value_eq, h9⟩ := bind_ok.mp h8
    obtain ⟨value, value_binary, h10⟩ := bind_ok.mp h9
    obtain ⟨tagged, last⟩ := check_ok.mp h10
    obtain ⟨rfl, -⟩ := (binary_ok standard).mp raw_eq
    obtain ⟨rfl, -⟩ := (binary_ok standard).mp nonce_binary
    obtain ⟨rfl, aad_size⟩ := (binary_ok standard).mp aad_binary
    obtain ⟨rfl, value_size⟩ := (binary_ok standard).mp value_binary
    split at last
    next key imported =>
      cases last
      refine ⟨raw, nonce, aad, value, key, ⟨known, key_eq, nonce_eq, aad_eq, value_eq⟩,
        ⟨by omega, not_not.mp nonce_size, aad_size, value_size, ?_⟩, imported, rfl⟩
      intro decrypting
      by_contra short
      exact tagged ⟨decrypting, by omega⟩
    next => cases last
  · rintro ⟨raw, nonce, aad, value, key, payload, sizes, imported, rfl⟩
    have raw_fits : raw.length ≤ maxBinaryBytes := by
      have size := sizes.key
      rw [maxBinaryBytes]
      omega
    have nonce_fits : nonce.length ≤ maxBinaryBytes := by
      rw [sizes.nonce]
      decide
    refine bind_ok.mpr ⟨_, payload.key, ?_⟩
    refine bind_ok.mpr ⟨raw, (binary_ok standard).mpr ⟨rfl, raw_fits⟩, ?_⟩
    refine check_ok.mpr ⟨by have := sizes.key; omega, ?_⟩
    refine bind_ok.mpr ⟨_, payload.nonce, ?_⟩
    refine bind_ok.mpr ⟨nonce, (binary_ok standard).mpr ⟨rfl, nonce_fits⟩, ?_⟩
    refine check_ok.mpr ⟨not_not.mpr sizes.nonce, ?_⟩
    refine bind_ok.mpr ⟨_, payload.aad, ?_⟩
    refine bind_ok.mpr ⟨aad, (binary_ok standard).mpr ⟨rfl, sizes.additional⟩, ?_⟩
    refine bind_ok.mpr ⟨_, payload.value, ?_⟩
    refine bind_ok.mpr ⟨value, (binary_ok standard).mpr ⟨rfl, sizes.value⟩, ?_⟩
    refine check_ok.mpr ⟨?_, ?_⟩
    · rintro ⟨decrypting, short⟩
      have long := sizes.tagged decrypting
      omega
    · rw [imported]
      rfl

theorem aesGcmEncrypt_ok {members : Members} {result : JsonValue} :
    aesGcmEncrypt crypto base64 (.object members) = .ok result ↔
      ∃ raw nonce aad plaintext key ciphertext,
        GcmPayload members .encrypt (base64.encode raw) (base64.encode nonce) (base64.encode aad)
            (base64.encode plaintext) ∧
          GcmSizes .encrypt raw nonce aad plaintext ∧ crypto.importAesKey raw .encrypt = .ok key ∧
            crypto.encryptGcm key nonce aad 128 plaintext = .ok ciphertext ∧
              result = .object [(js "ciphertext", .string (base64.encode ciphertext))] := by
  constructor
  · intro h
    obtain ⟨input, object_eq, h1⟩ := bind_ok.mp h
    obtain ⟨same, known, -⟩ := object_ok.mp (checked_ok.mp object_eq)
    cases same
    obtain ⟨inputs, inputs_eq, h2⟩ := bind_ok.mp h1
    obtain ⟨raw, nonce, aad, plaintext, key, payload, sizes, imported, rfl⟩ :=
      (aesInputs_ok standard known).mp (checked_ok.mp inputs_eq)
    obtain ⟨ciphertext, encrypted, last⟩ := bind_ok.mp h2
    cases last
    exact ⟨raw, nonce, aad, plaintext, key, ciphertext, payload, sizes, imported, awaited_ok.mp encrypted, rfl⟩
  · rintro ⟨raw, nonce, aad, plaintext, key, ciphertext, payload, sizes, imported, encrypted, rfl⟩
    refine bind_ok.mpr ⟨members, checked_ok.mpr payload.object_eq, ?_⟩
    have inputs_eq : aesInputs crypto base64 members .encrypt = .ok ⟨key, nonce, aad, plaintext⟩ :=
      (aesInputs_ok standard payload.known).mpr ⟨raw, nonce, aad, plaintext, key, payload, sizes, imported, rfl⟩
    refine bind_ok.mpr ⟨_, checked_ok.mpr inputs_eq, ?_⟩
    exact bind_ok.mpr ⟨ciphertext, awaited_ok.mpr encrypted, rfl⟩

theorem aesGcmDecrypt_of {members : Members} {raw nonce aad ciphertext plaintext : Bytes}
    {key : crypto.CryptoKey}
    (payload : GcmPayload members .decrypt (base64.encode raw) (base64.encode nonce)
      (base64.encode aad) (base64.encode ciphertext))
    (sizes : GcmSizes .decrypt raw nonce aad ciphertext)
    (imported : crypto.importAesKey raw .decrypt = .ok key)
    (decrypted : crypto.decryptGcm key nonce aad 128 ciphertext = .ok plaintext) :
    aesGcmDecrypt crypto base64 (.object members) =
      .ok (.object [(js "plaintext", .string (base64.encode plaintext))]) := by
  have inputs_eq : aesInputs crypto base64 members .decrypt = .ok ⟨key, nonce, aad, ciphertext⟩ :=
    (aesInputs_ok standard payload.known).mpr ⟨raw, nonce, aad, ciphertext, key, payload, sizes, imported, rfl⟩
  refine bind_ok.mpr ⟨members, checked_ok.mpr payload.object_eq, ?_⟩
  refine bind_ok.mpr ⟨_, checked_ok.mpr inputs_eq, ?_⟩
  simp only [AES_GCM_TAG_BYTES, Nat.reduceMul, decrypted]
  rfl

theorem gcm_decrypts (correct : crypto.CorrectGcm) {members : Members} {result : JsonValue}
    (accepted : aesGcmEncrypt crypto base64 (.object members) = .ok result) :
    ∃ key nonce aad plaintext ciphertext, GcmPayload members .encrypt key nonce aad plaintext ∧
      result = .object [(js "ciphertext", .string ciphertext)] ∧
      ∀ later, GcmPayload later .decrypt key nonce aad ciphertext →
        aesGcmDecrypt crypto base64 (.object later) =
          .ok (.object [(js "plaintext", .string plaintext)]) := by
  obtain ⟨raw, nonce, aad, plaintext, key, ciphertext, payload, sizes, imported, encrypted, rfl⟩ :=
    (aesGcmEncrypt_ok standard).mp accepted
  have fits : plaintext.length ≤ maxBinaryBytes - AES_GCM_TAG_BYTES := sizes.value
  have small : plaintext.length ≤ 2 ^ 36 - 32 := le_trans fits (by decide)
  obtain ⟨key', imported'⟩ := correct.usages raw key imported
  obtain ⟨produced, same, length, decrypted⟩ :=
    correct.round_trip raw key key' nonce aad plaintext imported imported' sizes.nonce small
  cases encrypted.symm.trans same
  have room : plaintext.length + 16 ≤ maxBinaryBytes := by
    rw [maxBinaryBytes, AES_GCM_TAG_BYTES] at fits
    rw [maxBinaryBytes]
    omega
  refine ⟨_, _, _, _, _, payload, rfl, ?_⟩
  intro later payload'
  refine aesGcmDecrypt_of standard payload' ⟨sizes.key, sizes.nonce, sizes.additional, ?_, ?_⟩ imported' decrypted
  · rw [length]
    exact room
  · intro _
    rw [length]
    exact Nat.le_add_left _ _

theorem gcm_accepts (correct : crypto.CorrectGcm) {members : Members}
    {raw nonce aad plaintext : Bytes} {key : crypto.CryptoKey}
    (payload : GcmPayload members .encrypt (base64.encode raw) (base64.encode nonce)
      (base64.encode aad) (base64.encode plaintext)) (sizes : GcmSizes .encrypt raw nonce aad plaintext)
    (imported : crypto.importAesKey raw .encrypt = .ok key) :
    ∃ result, aesGcmEncrypt crypto base64 (.object members) = .ok result := by
  have fits : plaintext.length ≤ maxBinaryBytes - AES_GCM_TAG_BYTES := sizes.value
  obtain ⟨key', imported'⟩ := correct.usages raw key imported
  obtain ⟨ciphertext, encrypted, -, -⟩ := correct.round_trip raw key key' nonce aad plaintext
    imported imported' sizes.nonce (le_trans fits (by decide))
  exact ⟨_, (aesGcmEncrypt_ok standard).mpr ⟨raw, nonce, aad, plaintext, key, ciphertext, payload,
    sizes, imported, encrypted, rfl⟩⟩

end standard

def Failure.Bounded : Failure → Prop
  | .payload error => PayloadError.Bounded error
  | .thrown _ => False

theorem checked_bounded {α : Type} {x : Except PayloadError α}
    (h : ExceptRules.FailsWith PayloadError.Bounded x) : ExceptRules.FailsWith Failure.Bounded (checked x) := by
  cases x with
  | ok a => exact .ok a
  | error e => exact .error (h e rfl)

theorem bounded_none (code : GoforgeAbiErrorCodeV1) : PayloadError.Bounded { code } := by
  intro field mem
  cases mem

theorem bounded_some (code : GoforgeAbiErrorCodeV1) {field : JsString}
    (short : isBoundedText field 512 = true) : PayloadError.Bounded ⟨code, some field⟩ := by
  intro text mem
  cases mem
  exact short

theorem object_bounded (payload : JsonValue) {required : List JsString} (optional : List JsString)
    (short : ∀ key ∈ required, isBoundedText (js "payload." ++ key) 512 = true) :
    ExceptRules.FailsWith PayloadError.Bounded (object payload required optional) := by
  intro e h
  unfold object at h
  split at h
  next members =>
    split at h
    next =>
      cases h
      exact bounded_none _
    next =>
      split at h
      next key found =>
        cases h
        exact bounded_some _ (short key (mem_of_find?_eq_some found))
      next => cases h
  next =>
    cases h
    exact bounded_some _ (by decide)

theorem text_bounded (members : Members) (key : JsString) :
    ExceptRules.FailsWith PayloadError.Bounded (text members key) := by
  intro e h
  unfold text at h
  split at h
  next => cases h
  next =>
    cases h
    exact bounded_none _

theorem binary_bounded (base64 : Base64) (encoded : JsString) {field : JsString} (maxBytes : Nat)
    (short : isBoundedText field 512 = true) :
    ExceptRules.FailsWith PayloadError.Bounded (binary base64 encoded field maxBytes) := by
  intro e h
  have named : e.field = some field := by
    unfold binary at h
    split_ifs at h
    · cases h
      rfl
    · cases h
      rfl
    · split at h
      next =>
        cases h
        rfl
      next =>
        split_ifs at h
        · cases h
          rfl
        · cases h
          rfl
  intro text mem
  cases named.symm.trans mem
  exact short

theorem aesInputs_bounded (crypto : SubtleCrypto) (base64 : Base64) (members : Members) (usage : KeyUsage) :
    ExceptRules.FailsWith PayloadError.Bounded (aesInputs crypto base64 members usage) := by
  have field : isBoundedText (js "payload." ++ valueField usage) 512 = true := by
    cases usage <;> decide
  refine (text_bounded members _).bind fun key _ => ?_
  refine (binary_bounded base64 key _ (by decide)).bind fun raw _ => ?_
  refine .check (bounded_some _ (by decide)) fun _ => ?_
  refine (text_bounded members _).bind fun nonce _ => ?_
  refine (binary_bounded base64 nonce _ (by decide)).bind fun iv _ => ?_
  refine .check (bounded_some _ (by decide)) fun _ => ?_
  refine (text_bounded members _).bind fun aad _ => ?_
  refine (binary_bounded base64 aad _ (by decide)).bind fun additional _ => ?_
  refine (text_bounded members _).bind fun value _ => ?_
  refine (binary_bounded base64 value _ field).bind fun data _ => ?_
  refine .check (bounded_some _ field) fun _ => ?_
  cases crypto.importAesKey raw usage with
  | ok key => exact .ok _
  | error cause => exact .error (bounded_some _ (by decide))

theorem aesGcmDecrypt_bounded (crypto : SubtleCrypto) (base64 : Base64) (payload : JsonValue) :
    ExceptRules.FailsWith Failure.Bounded (aesGcmDecrypt crypto base64 payload) := by
  refine (checked_bounded (object_bounded payload [] (by decide))).bind fun input _ => ?_
  refine (checked_bounded (aesInputs_bounded crypto base64 input .decrypt)).bind fun inputs _ => ?_
  cases crypto.decryptGcm inputs.key inputs.nonce inputs.aad (AES_GCM_TAG_BYTES * 8) inputs.value with
  | ok plaintext => exact .ok _
  | error cause => exact .error (bounded_some .authenticationFailed (by decide))

theorem aesGcmEncrypt_bounded {crypto : SubtleCrypto} (correct : crypto.CorrectGcm)
    {base64 : Base64} (standard : base64.Standard) (payload : JsonValue) :
    ExceptRules.FailsWith Failure.Bounded (aesGcmEncrypt crypto base64 payload) := by
  refine (checked_bounded (object_bounded payload [] (by decide))).bind fun input checkedInput => ?_
  obtain ⟨rfl, known, -⟩ := object_ok.mp (checked_ok.mp checkedInput)
  refine (checked_bounded (aesInputs_bounded crypto base64 input .encrypt)).bind fun inputs checkedInputs => ?_
  obtain ⟨raw, nonce, aad, plaintext, key, members, sizes, imported, rfl⟩ :=
    (aesInputs_ok standard known).mp (checked_ok.mp checkedInputs)
  obtain ⟨key', imported'⟩ := correct.usages raw key imported
  obtain ⟨ciphertext, encrypted, -, -⟩ := correct.round_trip raw key key' nonce aad plaintext
    imported imported' sizes.nonce (le_trans sizes.value (by decide))
  have sent : awaited (crypto.encryptGcm key nonce aad (AES_GCM_TAG_BYTES * 8) plaintext)
      = .ok ciphertext := awaited_ok.mpr encrypted
  refine ExceptRules.FailsWith.bind ?_ fun ciphertext _ => .ok _
  intro e failed
  cases sent.symm.trans failed

theorem failureResponse_stable {id : JsString} (accepted : assertIdentifier id (js "id") = .ok ())
    {error : PayloadError} (bounded : error.Bounded) :
    ∃ response, failureResponse id error = .ok response ∧ response.Stable := by
  obtain ⟨definition, -, -, entry⟩ := error.code.catalogued
  have field_ok : (error.field.mapM fun field => assertErrorField (.string field))
      = .ok error.field := by
    cases found : error.field with
    | none => rfl
    | some field =>
      have checked : assertErrorField (.string field) = .ok field := by
        rw [assertErrorField, if_pos (bounded field found)]
      exact bind_ok.mpr ⟨field, checked, rfl⟩
  refine ⟨.failure id ⟨error.code.name, some definition.2.message, some definition.2.retryable,
    error.field⟩, ?_, .failure id _ error.code rfl entry⟩
  refine bind_ok.mpr ⟨(), accepted, ?_⟩
  simp only [entry]
  refine check_ok.mpr ⟨fun h => h.1 rfl, ?_⟩
  refine check_ok.mpr ⟨fun h => h.1 rfl, ?_⟩
  exact bind_ok.mpr ⟨error.field, field_ok, rfl⟩

/-- An operation that fails with bounded payload failures only, and results in values that a
response may carry, is answered. -/
theorem dispatch_stable {crypto : SubtleCrypto} {base64 : Base64} (request : Request)
    (context : Context) (accepted : assertIdentifier request.id (js "id") = .ok ())
    (bounded : ExceptRules.FailsWith Failure.Bounded (execute crypto base64 request.operation request.payload))
    (carried : ∀ result, execute crypto base64 request.operation request.payload = .ok result →
      encodeAbiValue result.toJs = .ok result.toJs) :
    ∃ response, dispatch crypto base64 request context = .ok response ∧ response.Stable := by
  unfold dispatch
  by_cases aborted : context.aborted = true
  · rw [if_pos aborted]
    exact failureResponse_stable accepted (bounded_none _)
  rw [if_neg aborted]
  by_cases late : (context.deadlineUnixMs.any fun deadline => deadline.lt context.now) = true
  · rw [if_pos late]
    exact failureResponse_stable accepted (bounded_none _)
  rw [if_neg late]
  cases executed : execute crypto base64 request.operation request.payload with
  | ok result =>
    refine ⟨.success request.id result.toJs, ?_, .success _ _⟩
    refine bind_ok.mpr ⟨(), accepted, ?_⟩
    exact bind_ok.mpr ⟨_, carried result executed, rfl⟩
  | error failure =>
    have within := bounded failure executed
    cases failure with
    | payload error => exact failureResponse_stable accepted within
    | thrown cause => exact within.elim

theorem encrypt_result {crypto : SubtleCrypto} {base64 : Base64} {payload result : JsonValue}
    (h : aesGcmEncrypt crypto base64 payload = .ok result) :
    ∃ ciphertext, result = .object [(js "ciphertext", .string ciphertext)] := by
  obtain ⟨input, -, h1⟩ := bind_ok.mp h
  obtain ⟨inputs, -, h2⟩ := bind_ok.mp h1
  obtain ⟨ciphertext, -, last⟩ := bind_ok.mp h2
  cases last
  exact ⟨_, rfl⟩

theorem decrypt_result {crypto : SubtleCrypto} {base64 : Base64} {payload result : JsonValue}
    (h : aesGcmDecrypt crypto base64 payload = .ok result) :
    ∃ plaintext, result = .object [(js "plaintext", .string plaintext)] := by
  obtain ⟨input, -, h1⟩ := bind_ok.mp h
  obtain ⟨inputs, -, last⟩ := bind_ok.mp h1
  split at last
  next =>
    cases last
    exact ⟨_, rfl⟩
  next => cases last

/-- An accepted encryption decrypts to the same text under the same key, nonce and additional data,
plaintexts of the maximum size are accepted, and no payload of the two operations is left without
a success or a failure of the catalog. -/
theorem gcm_round_trip {crypto : SubtleCrypto} {base64 : Base64} (correct : crypto.CorrectGcm)
    (standard : base64.Standard) :
    (∀ payload result, aesGcmEncrypt crypto base64 payload = .ok result →
      ∃ members key nonce aad plaintext ciphertext, payload = .object members ∧
        GcmPayload members .encrypt key nonce aad plaintext ∧
        result = .object [(js "ciphertext", .string ciphertext)] ∧
        ∀ later, GcmPayload later .decrypt key nonce aad ciphertext →
          aesGcmDecrypt crypto base64 (.object later) =
            .ok (.object [(js "plaintext", .string plaintext)])) ∧
    (∀ members raw nonce aad plaintext key, crypto.importAesKey raw .encrypt = .ok key →
      raw.length = 16 ∨ raw.length = 24 ∨ raw.length = 32 →
      nonce.length = 12 → aad.length ≤ 512 * 1024 → plaintext.length ≤ 512 * 1024 - 16 →
        GcmPayload members .encrypt (base64.encode raw) (base64.encode nonce)
            (base64.encode aad) (base64.encode plaintext) →
          ∃ result, aesGcmEncrypt crypto base64 (.object members) = .ok result) ∧
    ∀ (request : Request) context, assertIdentifier request.id (js "id") = .ok () →
      request.operation = js "crypto.aes-gcm.encrypt" ∨
          request.operation = js "crypto.aes-gcm.decrypt" →
        ∃ response, dispatch crypto base64 request context = .ok response ∧ response.Stable := by
  refine ⟨?_, ?_, ?_⟩
  · intro payload result accepted
    obtain ⟨members, object_eq, -⟩ := ExceptRules.bind_ok.mp accepted
    obtain ⟨rfl, -⟩ := object_ok.mp (checked_ok.mp object_eq)
    obtain ⟨key, nonce, aad, plaintext, ciphertext, read, eq, back⟩ :=
      gcm_decrypts standard correct accepted
    exact ⟨members, key, nonce, aad, plaintext, ciphertext, rfl, read, eq, back⟩
  · intro members raw nonce aad plaintext key imported size nonce_size aad_size fits payload
    exact gcm_accepts standard correct payload ⟨size, nonce_size, aad_size, fits, fun h => by cases h⟩ imported
  · intro request context accepted operation
    rcases operation with named | named
    · have routed : execute crypto base64 request.operation request.payload
          = aesGcmEncrypt crypto base64 request.payload := by
        rw [named]
        rfl
      apply dispatch_stable request context accepted
      · rw [routed]
        exact aesGcmEncrypt_bounded correct standard _
      · intro result executed
        rw [routed] at executed
        obtain ⟨ciphertext, rfl⟩ := encrypt_result executed
        rfl
    · have routed : execute crypto base64 request.operation request.payload
          = aesGcmDecrypt crypto base64 request.payload := by
        rw [named]
        rfl
      apply dispatch_stable request context accepted
      · rw [routed]
        exact aesGcmDecrypt_bounded crypto base64 _
      · intro result executed
        rw [routed] at executed
        obtain ⟨plaintext, rfl⟩ := decrypt_result executed
        rfl

/-- The first block of the key stream for a key of 16 zeros and a nonce of zeros. -/
def zeroKeyStream : Bytes := [0x03, 0x88, 0xDA, 0xCE, 0x60, 0xB6, 0xA3, 0x92,
  0xF3, 0x28, 0xC2, 0xB9, 0x71, 0xB2, 0xFE, 0x78]

/-- The tags, without additional data, of the empty message and of 16 zeros. -/
def zeroKeyTag (plaintext : Bytes) : Bytes :=
  if plaintext = [] then [0x58, 0xE2, 0xFC, 0xCE, 0xFA, 0x7E, 0x30, 0x61,
    0x36, 0x7F, 0x1D, 0x57, 0xA4, 0xE7, 0x45, 0x5A]
  else [0xAB, 0x6E, 0x47, 0xD4, 0x2C, 0xEC, 0x13, 0xBD,
    0xF5, 0x3A, 0x67, 0xB2, 0x12, 0x57, 0xBD, 0xDF]

def zeroKeyMask (data : Bytes) : Bytes := data.mapIdx fun i byte => byte ^^^ zeroKeyStream.getD i 0

def zeroKeyCrypto : SubtleCrypto where
  CryptoKey := Bytes
  digest _ := .error (.foreign 0)
  importHmacKey raw := .ok raw
  sign _ _ := .error (.foreign 0)
  importAesKey raw _ :=
    if raw.length = 16 ∨ raw.length = 24 ∨ raw.length = 32 then .ok raw else .error (.foreign 0)
  encryptGcm _ _ _ _ data := .ok (zeroKeyMask data ++ zeroKeyTag data)
  decryptGcm _ _ _ _ data :=
    let plaintext := zeroKeyMask (data.take (data.length - 16))
    if data.drop (data.length - 16) = zeroKeyTag plaintext then .ok plaintext else .error (.foreign 0)

theorem zeroKeyMask_length (data : Bytes) : (zeroKeyMask data).length = data.length := length_mapIdx

theorem zeroKeyMask_mask (data : Bytes) : zeroKeyMask (zeroKeyMask data) = data := by
  refine List.ext_getElem ((zeroKeyMask_length _).trans (zeroKeyMask_length _)) fun i _ _ => ?_
  simp [zeroKeyMask, UInt8.xor_assoc]

theorem zeroKeyCrypto_correct : zeroKeyCrypto.CorrectGcm where
  usages _ key imported := ⟨key, imported⟩
  round_trip raw key key' iv aad plaintext imported imported' sized fits := by
    have tag : (zeroKeyTag plaintext).length = 16 := by
      unfold zeroKeyTag
      split <;> rfl
    have whole : (zeroKeyMask plaintext ++ zeroKeyTag plaintext).length = plaintext.length + 16 := by
      rw [length_append, zeroKeyMask_length, tag]
    refine ⟨_, rfl, whole, ?_⟩
    have front : (zeroKeyMask plaintext ++ zeroKeyTag plaintext).length - 16 =
        (zeroKeyMask plaintext).length := by
      rw [whole, Nat.add_sub_cancel, zeroKeyMask_length]
    simp only [zeroKeyCrypto, front, drop_left, take_left, zeroKeyMask_mask, if_true]

def zeroKeyMembers (name value : JsString) : Members :=
  [(js "key", .string (js "AAAAAAAAAAAAAAAAAAAAAA==")), (js "nonce", .string (js "AAAAAAAAAAAAAAAA")),
    (js "aad", .string []), (name, .string value)]

theorem zeroKey_encrypts {plaintext : Bytes} (small : plaintext.length ≤ 16) :
    aesGcmEncrypt zeroKeyCrypto rfcBase64
        (.object (zeroKeyMembers (js "plaintext") (rfcBase64.encode plaintext))) =
      .ok (.object [(js "ciphertext",
        .string (rfcBase64.encode (zeroKeyMask plaintext ++ zeroKeyTag plaintext)))]) := by
  have room : plaintext.length ≤ valueLimit .encrypt := small.trans (by decide)
  refine (aesGcmEncrypt_ok rfcBase64_standard).mpr ⟨List.replicate 16 0, List.replicate 12 0, [],
    plaintext, List.replicate 16 0, _, ⟨?_, ?_, ?_, rfl, rfl⟩,
    ⟨.inl rfl, rfl, by decide, room, nofun⟩, rfl, rfl, rfl⟩
  · simp [zeroKeyMembers, valueField]
  · exact congrArg Except.ok (by decide)
  · exact congrArg Except.ok (by decide)

/-- The published vectors of AES-128-GCM for the empty message and for one block of zeros. -/
theorem gcm_round_trip_vectors :
    aesGcmDecrypt zeroKeyCrypto rfcBase64 (.object (zeroKeyMembers (js "ciphertext")
        (js "WOL8zvp+MGE2fx1XpOdFWg=="))) = .ok (.object [(js "plaintext", .string [])]) ∧
      aesGcmDecrypt zeroKeyCrypto rfcBase64 (.object (zeroKeyMembers (js "ciphertext")
          (js "A4jazmC2o5LzKMK5cbL+eKtuR9Qs7BO99TpnshJXvd8="))) =
        .ok (.object [(js "plaintext", .string (js "AAAAAAAAAAAAAAAAAAAAAA=="))]) := by
  have trip := (gcm_round_trip zeroKeyCrypto_correct rfcBase64_standard).1
  have opens (plaintext : Bytes) (small : plaintext.length ≤ 16) :
      aesGcmDecrypt zeroKeyCrypto rfcBase64 (.object (zeroKeyMembers (js "ciphertext")
          (rfcBase64.encode (zeroKeyMask plaintext ++ zeroKeyTag plaintext)))) =
        .ok (.object [(js "plaintext", .string (rfcBase64.encode plaintext))]) := by
    obtain ⟨members, key, nonce, aad, value, ciphertext, eq, payload, result, back⟩ :=
      trip _ _ (zeroKey_encrypts small)
    cases eq
    cases payload.key
    cases payload.nonce
    cases payload.aad
    cases payload.value
    cases result
    refine back _ ⟨?_, rfl, rfl, rfl, rfl⟩
    simp [zeroKeyMembers, valueField]
  have block : rfcBase64.encode (zeroKeyMask (List.replicate 16 0) ++ zeroKeyTag (List.replicate 16 0)) =
      js "A4jazmC2o5LzKMK5cbL+eKtuR9Qs7BO99TpnshJXvd8=" := by
    decide
  have empty : rfcBase64.encode (zeroKeyMask [] ++ zeroKeyTag []) = js "WOL8zvp+MGE2fx1XpOdFWg==" := by
    decide
  refine ⟨empty ▸ opens [] (Nat.zero_le _), ?_⟩
  rw [← block]
  exact opens (List.replicate 16 0) (le_of_eq rfl)

end Native

end ForgeDeno
