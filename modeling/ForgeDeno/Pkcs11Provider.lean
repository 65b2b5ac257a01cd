import ForgeDeno.TokenOperations
import ForgeDeno.ConfigValues

def JsonValue.truthy : JsonValue → Bool
  | .null => false
  | .bool b => b
  | .number n => !n.eq 0 && n.eq n
  | .string s => s ≠ []
  | _ => true

namespace ForgeDeno

/-- The operations of the local provider, and the Web Crypto computations that the token provider makes
itself. -/
inductive SoftwareCall where
  | encryptAES (secretKey : JsString) (additional : Option JsString) (value : JsString)
  | decryptAES (secretKey cipherValue : JsString) (additional : Option JsString)
  | rsaOaepEncode (publicKey text : JsString)
  | rsaOaepDecode (privateKey cipherText : JsString)
  | ecdhEncode (publicKey text : JsString)
  | ecdhDecode (privateKey cipherText : JsString)
  | hmac (secretKey message : JsString)
  | sha256Hex (message : JsString)
  | blake3 (message : JsString)
  | signEd25519 (privateKey text : JsString)
  | verifyEd25519 (publicKey text signature : JsString)
  | signRSAPSS (privateKey text : JsString)
  | verifyRSAPSS (publicKey text signature : JsString)
  | signRSAPKCS1v15SHA256 (privateKey data : JsString)
  | verifyRSAPKCS1v15SHA256 (data publicKey signature : JsString)
  /-- `ecdhPeerPoint` behind its Base64 decoding -/
  | peerPoint (spki : Bytes) (curve : JsString)
  /-- `decryptWithSharedSecret` -/
  | finishEcdh (shared : Bytes) (curve : JsString) (info nonce ciphertext : Bytes)
deriving DecidableEq

def SoftwareCall.Reply : SoftwareCall → Type
  | .verifyEd25519 _ _ _ | .verifyRSAPSS _ _ _ | .verifyRSAPKCS1v15SHA256 _ _ _ => Unit
  | .peerPoint _ _ | .finishEcdh _ _ _ _ _ => Bytes
  | _ => JsString

/-- What an operation of the provider does outside itself. `openToken` is `withSession` up to its
operation: it gives the mechanisms of the slot. -/
inductive ProviderCall where
  | openToken
  | token (c : TokenCall)
  | software (c : SoftwareCall)
deriving DecidableEq

def ProviderCall.Reply : ProviderCall → Type
  | .openToken => List Nat
  | .token c => c.Reply
  | .software c => c.Reply

abbrev ProviderProgram (α : Type) := CallProgram ProviderCall ProviderCall.Reply TokenFailure α

def onSession {α : Type} : TokenProgram α → ProviderProgram α
  | .done outcome => .done outcome
  | .call c replaced next => .call (.token c) replaced fun reply => onSession (next reply)

section sessions

variable {α β : Type}

theorem onSession_pure (a : α) : onSession (pure a : TokenProgram α) = pure a := rfl

theorem onSession_bind (p : TokenProgram α) (f : α → TokenProgram β) :
    onSession (p >>= f) = onSession p >>= fun a => onSession (f a) := by
  induction p with
  | done outcome => cases outcome <;> rfl
  | call c replaced next ih =>
    show CallProgram.call _ replaced _ = CallProgram.call _ replaced _
    exact congrArg _ (funext ih)

theorem onSession_handle (p : TokenProgram α) (handler : TokenFailure → Option (TokenProgram α)) :
    onSession (p.handle handler) = (onSession p).handle fun e => (handler e).map onSession := by
  induction p with
  | done outcome =>
    cases outcome with
    | ok a => rfl
    | error e =>
      show onSession ((handler e).getD _) = ((handler e).map onSession).getD _
      cases handler e <;> rfl
  | call c replaced next ih =>
    show CallProgram.call _ (fun e => replaced e || (handler e).isSome) _ =
      CallProgram.call _ (fun e => replaced e || ((handler e).map onSession).isSome) _
    simp only [Option.isSome_map]
    exact congrArg _ (funext ih)

theorem onSession_andFinally (p : TokenProgram α) (cleanup : TokenProgram Unit) :
    onSession (p.andFinally cleanup) = (onSession p).andFinally (onSession cleanup) := by
  induction p with
  | done outcome => exact onSession_bind cleanup fun _ => .done outcome
  | call c replaced next ih =>
    show CallProgram.call _ replaced _ = CallProgram.call _ replaced _
    exact congrArg _ (funext ih)

end sessions

def validateOptions (options : ResolvedOptions) : Except TokenFailure Unit :=
  if !options.injected && options.modulePath = [] then
    .error
      { name := js "Pkcs11ModuleRequiredError", message := js "pkcs11: module path is required" }
  else if options.tokenLabel = [] && options.slotId = none then
    .error
      { name := js "Pkcs11TokenRequiredError",
        message := js "pkcs11: token label or slot id is required" }
  else if !options.pin then
    .error { name := js "Pkcs11PinRequiredError", message := js "pkcs11: pin provider is required" }
  else .ok ()

def ECDH_HKDF_INFO_PREFIX : JsString := js "denoforge/ecdh/"

def encryptError (message : JsString) : TokenFailure := { name := js "EncryptError", message }

/-- A decoded envelope; a field is whatever `JSON.parse` gave. -/
structure ECCCipherPayload where
  curve : ConfigValue
  ephemeralPublicKey : ConfigValue
  nonce : ConfigValue
  cipherText : ConfigValue

inductive PayloadThrown where
  | encryptError (message : JsString)
  | typeError (message : JsString)
deriving DecidableEq

def payloadFields : List JsString :=
  [js "curve", js "ephemeralPublicKey", js "nonce", js "cipherText"]

namespace Utilities

/-- `parsed[field]`; none of the fields is a property of a prototype. -/
def property (parsed : JsonValue) (field : JsString) : Except PayloadThrown (Option JsonValue) :=
  match parsed with
  | .null => .error (.typeError
      (js "Cannot read properties of null (reading '" ++ field ++ js "')"))
  | .object members => .ok (lookupMember members field)
  | _ => .ok none

def checkField (parsed : JsonValue) (field : JsString) : Except PayloadThrown Unit := do
  let value ← property parsed field
  if value.any JsonValue.truthy then return ()
  else throw (.encryptError (js "ECC cipher payload missing field: " ++ field))

def parsePayload (base64 : Base64) (encoded : JsString) : Option JsonValue :=
  (base64.decode encoded).toOption.bind fun bytes => JsonText.parse (JsString.utf8Decode bytes)

def decodeECCCipherPayload (base64 : Base64) (encoded : JsString) : Except PayloadThrown JsonValue :=
  match parsePayload base64 encoded with
  | none => .error (.encryptError (js "invalid ECC cipher payload"))
  | some parsed => do
    payloadFields.forM (checkField parsed)
    return parsed

end Utilities

/-- The failure that `runWithSignal` makes of what is thrown. -/
def PayloadThrown.seen : PayloadThrown → TokenFailure
  | .encryptError message => ForgeDeno.encryptError message
  | .typeError message => ForgeDeno.encryptError message

def payloadField (payload : JsonValue) (field : JsString) : ConfigValue :=
  match payload with
  | .object members => ((lookupMember members field).map ConfigValue.ofJson).getD .null
  | _ => .null

def readPayload (payload : JsonValue) : ECCCipherPayload where
  curve := payloadField payload (js "curve")
  ephemeralPublicKey := payloadField payload (js "ephemeralPublicKey")
  nonce := payloadField payload (js "nonce")
  cipherText := payloadField payload (js "cipherText")

/-- The text a field is used as; `String(value)` may throw. -/
def fieldText (value : ConfigValue) : Except TokenFailure JsString :=
  match value.toText with
  | some text => .ok text
  | none => .error (encryptError (js "Cannot convert object to primitive value"))

namespace Pkcs11Provider

def software (c : SoftwareCall) : ProviderProgram c.Reply :=
  CallProgram.ask (C := ProviderCall) (.software c)

def openToken : ProviderProgram (List Nat) := CallProgram.ask (C := ProviderCall) .openToken

def lift {α : Type} (x : Except TokenFailure α) : ProviderProgram α := .done x

section provider

variable (base64 : Base64) (sha256 : Bytes → Bytes) (options : ResolvedOptions)

def decodeECCCipherPayload (encoded : JsString) : Except TokenFailure ECCCipherPayload :=
  ((Utilities.decodeECCCipherPayload base64 encoded).mapError PayloadThrown.seen).map readPayload

def onToken {α : Type} (operation : List Nat → TokenProgram α) : ProviderProgram α := do
  lift (validateOptions options)
  let mechanisms ← openToken
  onSession (operation mechanisms)

def routesToToken (reference : JsString) : Bool :=
  isKeyUri reference || (reference.trim = [] && options.keyUri ≠ [])

def fetchPublicKey (uri : KeyUri) : ProviderProgram JsString :=
  onToken options fun _ => ForgeDeno.fetchPublicKey base64 uri

def fetchVerificationKey (reference : JsString) : ProviderProgram JsString := do
  let uri ← lift (resolveKeyUri options reference)
  fetchPublicKey base64 options uri

def generateSymmetricKeys (id : Bytes) (now : Nat) (uid : Option JsString) (size : Nat) :
    ProviderProgram KeyData :=
  onToken options fun mechanisms => ForgeDeno.generateSymmetricKeys mechanisms id
    (newObjectLabel now KeyLabelPrefix.Symmetric uid) size

def encryptAES (nonce : Bytes) (secretKey : JsString) (additional : Option JsString)
    (value : JsString) : ProviderProgram JsString :=
  if routesToToken options secretKey then
    onToken options fun mechanisms =>
      ForgeDeno.encryptAES base64 options mechanisms secretKey nonce additional value
  else software (.encryptAES secretKey additional value)

def decryptAES (secretKey cipherValue : JsString) (additional : Option JsString) : ProviderProgram JsString :=
  if routesToToken options secretKey then
    onToken options fun mechanisms =>
      ForgeDeno.decryptAES base64 options mechanisms secretKey cipherValue additional
  else software (.decryptAES secretKey cipherValue additional)

def generateRSAKeys (id : Bytes) (now : Nat) (uid : Option JsString) (size : Nat) : ProviderProgram KeyData :=
  onToken options fun mechanisms => ForgeDeno.generateRSAKeys base64 mechanisms id
    (newObjectLabel now KeyLabelPrefix.Rsa uid) size

def generateECDHCurveKeys (id : Bytes) (now : Nat) (uid : Option JsString) (curve : Nat) :
    ProviderProgram KeyData :=
  onToken options fun mechanisms => ForgeDeno.generateECDHCurveKeys base64 mechanisms id
    (newObjectLabel now KeyLabelPrefix.Ecdh uid) curve

def rsaOaepEncode (publicKey text : JsString) : ProviderProgram JsString :=
  if routesToToken options publicKey then do
    let publicKey ← fetchVerificationKey base64 options publicKey
    software (.rsaOaepEncode publicKey text)
  else software (.rsaOaepEncode publicKey text)

def rsaOaepDecode (privateKey cipherText : JsString) : ProviderProgram JsString :=
  if routesToToken options privateKey then
    onToken options fun mechanisms =>
      ForgeDeno.rsaOaepDecode base64 options mechanisms privateKey cipherText
  else software (.rsaOaepDecode privateKey cipherText)

def ecdhEncode (publicKey text : JsString) : ProviderProgram JsString :=
  if routesToToken options publicKey then do
    let publicKey ← fetchVerificationKey base64 options publicKey
    software (.ecdhEncode publicKey text)
  else software (.ecdhEncode publicKey text)

/-- `ecdhDecode` on a key of the token. -/
def ecdhDecodeOnToken (privateKey cipherText : JsString) : ProviderProgram JsString := do
  let uri ← lift (resolveKeyUri options privateKey)
  let payload ← lift (decodeECCCipherPayload base64 cipherText)
  let encodedKey ← lift (fieldText payload.ephemeralPublicKey)
  let spki ← lift (base64.decode encodedKey)
  let curve ← lift (fieldText payload.curve)
  let peerPoint ← software (.peerPoint spki curve)
  let encodedNonce ← lift (fieldText payload.nonce)
  let nonce ← lift (base64.decode encodedNonce)
  let encodedText ← lift (fieldText payload.cipherText)
  let ciphertext ← lift (base64.decode encodedText)
  let info := JsString.utf8Encode (ECDH_HKDF_INFO_PREFIX ++ curve)
  let outcome ← onToken options fun mechanisms =>
    ForgeDeno.ecdhDecode options mechanisms uri peerPoint info nonce ciphertext
  match outcome with
  | .plaintext bytes => pure (JsString.utf8Decode bytes)
  | .shared secret =>
    let plaintext ← software (.finishEcdh secret curve info nonce ciphertext)
    pure (JsString.utf8Decode plaintext)

def ecdhDecode (privateKey cipherText : JsString) : ProviderProgram JsString :=
  if routesToToken options privateKey then ecdhDecodeOnToken base64 options privateKey cipherText
  else software (.ecdhDecode privateKey cipherText)

def rotateKey (id : Bytes) (now : Nat) (keyId : JsString) (uid : Option JsString) : ProviderProgram KeyData :=
  onToken options fun mechanisms => ForgeDeno.rotateKey base64 options mechanisms id now keyId uid

def getKey (keyId : JsString) : ProviderProgram KeyData := do
  let resolved ← onToken options fun _ => describeKey options keyId
  let publicKey ← (fetchPublicKey base64 options resolved).handle fun _ => some (pure [])
  lift (keyDataFor resolved publicKey)

def deactivateKey (keyId : JsString) : ProviderProgram Unit :=
  onToken options fun _ => ForgeDeno.deactivateKey options keyId

def hmac (secretKey message : JsString) : ProviderProgram JsString :=
  if routesToToken options secretKey then
    onToken options fun mechanisms => ForgeDeno.hmac base64 options mechanisms secretKey message
  else software (.hmac secretKey message)

def sha256Hex (message : JsString) : ProviderProgram JsString := software (.sha256Hex message)

def blake3 (message : JsString) : ProviderProgram JsString := software (.blake3 message)

def generateEd25519Keys (id : Bytes) (now : Nat) : ProviderProgram KeyData :=
  onToken options fun mechanisms => ForgeDeno.generateEd25519Keys base64 mechanisms id
    (newObjectLabel now KeyLabelPrefix.Ed25519 none)

def signWithToken (reference message : JsString) (plan : List Nat → Except TokenFailure SignPlan) :
    ProviderProgram JsString :=
  onToken options fun mechanisms =>
    ForgeDeno.signWithToken base64 options reference message (plan mechanisms)

def signEd25519 (privateKey text : JsString) : ProviderProgram JsString :=
  if routesToToken options privateKey then
    signWithToken base64 options privateKey text planEd25519
  else software (.signEd25519 privateKey text)

def verifyEd25519 (publicKey text signature : JsString) : ProviderProgram Unit :=
  if routesToToken options publicKey then do
    let fetched ← fetchVerificationKey base64 options publicKey
    software (.verifyEd25519 fetched text signature)
  else software (.verifyEd25519 publicKey text signature)

def signRSAPSS (privateKey text : JsString) : ProviderProgram JsString :=
  if routesToToken options privateKey then
    signWithToken base64 options privateKey text (planRsaPss sha256)
  else software (.signRSAPSS privateKey text)

def verifyRSAPSS (publicKey text signature : JsString) : ProviderProgram Unit :=
  if routesToToken options publicKey then do
    let fetched ← fetchVerificationKey base64 options publicKey
    software (.verifyRSAPSS fetched text signature)
  else software (.verifyRSAPSS publicKey text signature)

def signRSAPKCS1v15SHA256 (privateKey data : JsString) : ProviderProgram JsString :=
  if routesToToken options privateKey then
    signWithToken base64 options privateKey data (planRsaPkcs1v15 sha256)
  else software (.signRSAPKCS1v15SHA256 privateKey data)

def verifyRSAPKCS1v15SHA256 (data publicKey signature : JsString) : ProviderProgram Unit :=
  if routesToToken options publicKey then do
    let fetched ← fetchVerificationKey base64 options publicKey
    software (.verifyRSAPKCS1v15SHA256 data fetched signature)
  else software (.verifyRSAPKCS1v15SHA256 data publicKey signature)

end provider

end Pkcs11Provider

inductive ProviderOperation where
  | generateSymmetricKeys (id : Bytes) (now : Nat) (uid : Option JsString) (size : Nat)
  | encryptAES (nonce : Bytes) (secretKey : JsString) (additional : Option JsString) (value : JsString)
  | decryptAES (secretKey cipherValue : JsString) (additional : Option JsString)
  | generateRSAKeys (id : Bytes) (now : Nat) (uid : Option JsString) (size : Nat)
  | generateECDHCurveKeys (id : Bytes) (now : Nat) (uid : Option JsString) (curve : Nat)
  | rsaOaepEncode (publicKey text : JsString)
  | rsaOaepDecode (privateKey cipherText : JsString)
  | ecdhEncode (publicKey text : JsString)
  | ecdhDecode (privateKey cipherText : JsString)
  | rotateKey (id : Bytes) (now : Nat) (keyId : JsString) (uid : Option JsString)
  | getKey (keyId : JsString)
  | deactivateKey (keyId : JsString)
  | hmac (secretKey message : JsString)
  | sha256Hex (message : JsString)
  | blake3 (message : JsString)
  | generateEd25519Keys (id : Bytes) (now : Nat)
  | signEd25519 (privateKey text : JsString)
  | verifyEd25519 (publicKey text signature : JsString)
  | signRSAPSS (privateKey text : JsString)
  | verifyRSAPSS (publicKey text signature : JsString)
  | signRSAPKCS1v15SHA256 (privateKey data : JsString)
  | verifyRSAPKCS1v15SHA256 (data publicKey signature : JsString)

def ProviderOperation.Result : ProviderOperation → Type
  | .generateSymmetricKeys _ _ _ _ | .generateRSAKeys _ _ _ _ | .generateECDHCurveKeys _ _ _ _
  | .generateEd25519Keys _ _ | .rotateKey _ _ _ _ | .getKey _ => KeyData
  | .deactivateKey _ | .verifyEd25519 _ _ _ | .verifyRSAPSS _ _ _ | .verifyRSAPKCS1v15SHA256 _ _ _ =>
    Unit
  | _ => JsString

def ProviderOperation.program (base64 : Base64) (sha256 : Bytes → Bytes) (options : ResolvedOptions) :
    (operation : ProviderOperation) → ProviderProgram operation.Result
  | .generateSymmetricKeys id now uid size => Pkcs11Provider.generateSymmetricKeys options id now uid size
  | .encryptAES nonce secretKey additional value =>
    Pkcs11Provider.encryptAES base64 options nonce secretKey additional value
  | .decryptAES secretKey cipherValue additional =>
    Pkcs11Provider.decryptAES base64 options secretKey cipherValue additional
  | .generateRSAKeys id now uid size => Pkcs11Provider.generateRSAKeys base64 options id now uid size
  | .generateECDHCurveKeys id now uid curve =>
    Pkcs11Provider.generateECDHCurveKeys base64 options id now uid curve
  | .rsaOaepEncode publicKey text => Pkcs11Provider.rsaOaepEncode base64 options publicKey text
  | .rsaOaepDecode privateKey cipherText =>
    Pkcs11Provider.rsaOaepDecode base64 options privateKey cipherText
  | .ecdhEncode publicKey text => Pkcs11Provider.ecdhEncode base64 options publicKey text
  | .ecdhDecode privateKey cipherText => Pkcs11Provider.ecdhDecode base64 options privateKey cipherText
  | .rotateKey id now keyId uid => Pkcs11Provider.rotateKey base64 options id now keyId uid
  | .getKey keyId => Pkcs11Provider.getKey base64 options keyId
  | .deactivateKey keyId => Pkcs11Provider.deactivateKey options keyId
  | .hmac secretKey message => Pkcs11Provider.hmac base64 options secretKey message
  | .sha256Hex message => Pkcs11Provider.sha256Hex message
  | .blake3 message => Pkcs11Provider.blake3 message
  | .generateEd25519Keys id now => Pkcs11Provider.generateEd25519Keys base64 options id now
  | .signEd25519 privateKey text => Pkcs11Provider.signEd25519 base64 options privateKey text
  | .verifyEd25519 publicKey text signature =>
    Pkcs11Provider.verifyEd25519 base64 options publicKey text signature
  | .signRSAPSS privateKey text => Pkcs11Provider.signRSAPSS base64 sha256 options privateKey text
  | .verifyRSAPSS publicKey text signature =>
    Pkcs11Provider.verifyRSAPSS base64 options publicKey text signature
  | .signRSAPKCS1v15SHA256 privateKey data =>
    Pkcs11Provider.signRSAPKCS1v15SHA256 base64 sha256 options privateKey data
  | .verifyRSAPKCS1v15SHA256 data publicKey signature =>
    Pkcs11Provider.verifyRSAPKCS1v15SHA256 base64 options data publicKey signature

end ForgeDeno
