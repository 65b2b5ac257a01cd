import ForgeDeno.AbiResponses
import ForgeDeno.NativeBase64
import ForgeDeno.ValidateText

namespace ForgeDeno

inductive KeyUsage where
  | encrypt
  | decrypt
deriving DecidableEq

/-- The calls of `crypto.subtle` that the operations make; a rejection carries what it throws. -/
structure SubtleCrypto where
  CryptoKey : Type
  /-- `digest("SHA-256", data)` -/
  digest : Bytes → Except Thrown Bytes
  /-- `importKey("raw", raw, { name: "HMAC", hash: "SHA-256" }, false, ["sign"])` -/
  importHmacKey : Bytes → Except Thrown CryptoKey
  /-- `sign("HMAC", key, data)` -/
  sign : CryptoKey → Bytes → Except Thrown Bytes
  /-- `importKey("raw", raw, "AES-GCM", false, [usage])` -/
  importAesKey : Bytes → KeyUsage → Except Thrown CryptoKey
  encryptGcm : CryptoKey → (iv additionalData : Bytes) → (tagLength : Nat) → Bytes → Except Thrown Bytes
  decryptGcm : CryptoKey → (iv additionalData : Bytes) → (tagLength : Nat) → Bytes → Except Thrown Bytes

/-- AES-GCM with a tag of 16 bytes: a key imported for encryption imports for decryption too, and
below the limit of the mode what the one encrypts the other decrypts. -/
structure SubtleCrypto.CorrectGcm (crypto : SubtleCrypto) : Prop where
  usages : ∀ raw key, crypto.importAesKey raw .encrypt = .ok key →
    ∃ key', crypto.importAesKey raw .decrypt = .ok key'
  round_trip : ∀ raw key key' iv aad plaintext, crypto.importAesKey raw .encrypt = .ok key →
    crypto.importAesKey raw .decrypt = .ok key' → iv.length = 12 →
      plaintext.length ≤ 2 ^ 36 - 32 → ∃ ciphertext,
        crypto.encryptGcm key iv aad 128 plaintext = .ok ciphertext ∧
          ciphertext.length = plaintext.length + 16 ∧
          crypto.decryptGcm key' iv aad 128 ciphertext = .ok plaintext

namespace Native

inductive Failure where
  | payload (error : PayloadError)
  | thrown (cause : Thrown)
deriving DecidableEq

def checked {α : Type} (x : Except PayloadError α) : Except Failure α := x.mapError .payload

/-- `await` of a call whose rejection is not caught. -/
def awaited {α : Type} (x : Except Thrown α) : Except Failure α := x.mapError .thrown

def AES_GCM_NONCE_BYTES : Nat := 12

def AES_GCM_TAG_BYTES : Nat := 16

def MINIMUM_HMAC_KEY_BYTES : Nat := 16

section operations

variable (crypto : SubtleCrypto) (base64 : Base64)

def sha256 (payload : JsonValue) : Except Failure JsonValue := do
  let input ← checked (object payload [js "data"] [])
  let data ← checked (text input (js "data"))
  let data ← checked (binary base64 data (js "payload.data") maxBinaryBytes)
  let digest ← awaited (crypto.digest data)
  return .object [(js "digest", .string (base64.encode digest))]

def hmacSha256 (payload : JsonValue) : Except Failure JsonValue := do
  let input ← checked (object payload [js "key", js "data"] [])
  let key ← checked (text input (js "key"))
  let keyBytes ← checked (binary base64 key (js "payload.key") maxBinaryBytes)
  if keyBytes.length < MINIMUM_HMAC_KEY_BYTES then
    throw (.payload ⟨.invalidKey, some (js "payload.key")⟩)
  else
    let data ← checked (text input (js "data"))
    let data ← checked (binary base64 data (js "payload.data") maxBinaryBytes)
    let key ← awaited (crypto.importHmacKey keyBytes)
    let mac ← awaited (crypto.sign key data)
    return .object [(js "mac", .string (base64.encode mac))]

structure AesInputs where
  key : crypto.CryptoKey
  nonce : Bytes
  aad : Bytes
  value : Bytes

def valueField : KeyUsage → JsString
  | .encrypt => js "plaintext"
  | .decrypt => js "ciphertext"

def valueLimit : KeyUsage → Nat
  | .encrypt => maxBinaryBytes - AES_GCM_TAG_BYTES
  | .decrypt => maxBinaryBytes

def aesInputs (input : Members) (usage : KeyUsage) : Except PayloadError (AesInputs crypto) := do
  let key ← text input (js "key")
  let keyBytes ← binary base64 key (js "payload.key") maxBinaryBytes
  if keyBytes.length ≠ 16 ∧ keyBytes.length ≠ 24 ∧ keyBytes.length ≠ 32 then
    throw ⟨.invalidKey, some (js "payload.key")⟩
  else
    let nonce ← text input (js "nonce")
    let nonce ← binary base64 nonce (js "payload.nonce") maxBinaryBytes
    if nonce.length ≠ AES_GCM_NONCE_BYTES then throw ⟨.invalidNonce, some (js "payload.nonce")⟩
    else
      let aad ← text input (js "aad")
      let aad ← binary base64 aad (js "payload.aad") maxBinaryBytes
      let field := js "payload." ++ valueField usage
      let value ← text input (valueField usage)
      let value ← binary base64 value field (valueLimit usage)
      if usage = .decrypt ∧ value.length < AES_GCM_TAG_BYTES then
        throw ⟨.authenticationFailed, some field⟩
      else
        match crypto.importAesKey keyBytes usage with
        | .ok key => return ⟨key, nonce, aad, value⟩
        | .error _ => throw ⟨.invalidKey, some (js "payload.key")⟩

def aesGcmEncrypt (payload : JsonValue) : Except Failure JsonValue := do
  let input ← checked (object payload [js "key", js "nonce", js "aad", js "plaintext"] [])
  let inputs ← checked (aesInputs crypto base64 input .encrypt)
  let ciphertext ← awaited (crypto.encryptGcm inputs.key inputs.nonce inputs.aad
    (AES_GCM_TAG_BYTES * 8) inputs.value)
  return .object [(js "ciphertext", .string (base64.encode ciphertext))]

def aesGcmDecrypt (payload : JsonValue) : Except Failure JsonValue := do
  let input ← checked (object payload [js "key", js "nonce", js "aad", js "ciphertext"] [])
  let inputs ← checked (aesInputs crypto base64 input .decrypt)
  match crypto.decryptGcm inputs.key inputs.nonce inputs.aad (AES_GCM_TAG_BYTES * 8)
      inputs.value with
  | .ok plaintext => return .object [(js "plaintext", .string (base64.encode plaintext))]
  | .error _ => throw (.payload ⟨.authenticationFailed, some (js "payload.ciphertext")⟩)

def execute (operation : JsString) (payload : JsonValue) : Except Failure JsonValue :=
  if operation = js "text.normalize" then checked (normalize payload)
  else if operation = js "text.validate" then checked (validate payload)
  else if operation = js "crypto.sha256" then sha256 crypto base64 payload
  else if operation = js "crypto.hmac-sha256" then hmacSha256 crypto base64 payload
  else if operation = js "crypto.aes-gcm.encrypt" then aesGcmEncrypt crypto base64 payload
  else if operation = js "crypto.aes-gcm.decrypt" then aesGcmDecrypt crypto base64 payload
  else if operation = js "encoding.base64.encode" then checked (base64Encode base64 payload)
  else if operation = js "encoding.base64.decode" then checked (base64Decode base64 payload)
  else .error (.payload { code := .unknownOperation })

/-- What `dispatch` reads of a request. -/
structure Request where
  id : JsString
  operation : JsString
  payload : JsonValue

structure Context where
  aborted : Bool
  deadlineUnixMs : Option JsNumber
  now : JsNumber

def failureResponse (id : JsString) (error : PayloadError) : Except Thrown AbiResponseV1 :=
  createAbiFailureResponse id { code := error.code.name, message := none, retryable := none,
                                field := error.field }

def dispatch (request : Request) (context : Context) : Except Thrown AbiResponseV1 :=
  if context.aborted then failureResponse request.id { code := .cancellationRequested }
  else if context.deadlineUnixMs.any fun deadline => deadline.lt context.now then
    failureResponse request.id { code := .deadlineExceeded }
  else match execute crypto base64 request.operation request.payload with
    | .ok result => createAbiSuccessResponse request.id result.toJs
    | .error (.payload error) => failureResponse request.id error
    | .error (.thrown cause) => .error cause

end operations

end Native

end ForgeDeno
