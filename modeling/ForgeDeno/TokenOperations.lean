import ForgeDeno.TokenObjects

namespace ForgeDeno

def PROVIDER : JsString := js "pkcs11"

namespace KeyLabelPrefix

def Symmetric : JsString := js "GoForge-symmetric"
def Rsa : JsString := js "GoForge-rsa"
def Ecdh : JsString := js "GoForge-ecdh"
def Ed25519 : JsString := js "GoForge-ed25519"
def Hmac : JsString := js "GoForge-hmac"

def values : List JsString := [Symmetric, Rsa, Ecdh, Ed25519, Hmac]

end KeyLabelPrefix

/-- `injected` tells whether a module was supplied and `pin` whether a PIN provider was. -/
structure ResolvedOptions where
  modulePath : JsString
  tokenLabel : JsString
  slotId : Option Nat
  keyUri : JsString
  pin : Bool
  allowSecretExtraction : Bool
  deactivateDestroys : Bool
  rotateDisablesPrevious : Bool
  injected : Bool

structure KeyData where
  publicKey : JsString
  keyId : JsString
  keyRef : JsString
  provider : JsString
deriving DecidableEq

def resolveKeyUri (options : ResolvedOptions) (reference : JsString) : Except TokenFailure KeyUri :=
  let trimmed := reference.trim
  if trimmed ≠ [] then parseKeyUri trimmed
  else if options.keyUri ≠ [] then parseKeyUri options.keyUri
  else .error { name := js "Pkcs11KeyUriRequiredError", message := js "pkcs11: key uri is required" }

def unsupportedMechanism (mechanism : JsString) : TokenFailure :=
  { name := js "Pkcs11UnsupportedMechanismError",
    message := js "pkcs11: token does not support mechanism " ++ mechanism }

def oaepHashUnsupported : TokenFailure :=
  { name := js "Pkcs11OaepHashUnsupportedError",
    message := js ("pkcs11: token does not accept RSA-OAEP with SHA-256; the parameters are fixed for " ++
      "cross-backend compatibility") }

def secretNotExtractable : TokenFailure :=
  { name := js "Pkcs11SecretNotExtractableError",
    message := js ("pkcs11: token policy forbids extracting the derived secret; ECDH is unavailable on " ++
      "this token") }

def requireMechanism (mechanisms : List Nat) (mechanism : Nat) : TokenProgram Unit :=
  if mechanism ∈ mechanisms then pure () else .fail (unsupportedMechanism (mechanismName mechanism))

def RSA_PUBLIC_EXPONENT : Bytes := [0x01, 0x00, 0x01]
def SHA256_BYTES : Nat := 32

/-- The usage flags that `deactivateKey` clears. -/
def DEACTIVATABLE_ATTRIBUTES : List Nat :=
  [AttributeType.Encrypt, AttributeType.Decrypt, AttributeType.Sign, AttributeType.Verify,
    AttributeType.Wrap, AttributeType.Unwrap, AttributeType.Derive]

def newObjectLabel (now : Nat) (labelPrefix : JsString) (uid : Option JsString) : JsString :=
  match uid.filter fun uid => uid ≠ [] with
  | some uid => labelPrefix ++ js "-" ++ uid
  | none => labelPrefix ++ js "-" ++ JsonText.naturalText now

def tokenKeyTemplate (label : JsString) (id : Bytes) : List Attribute :=
  [boolAttribute AttributeType.Token true, boolAttribute AttributeType.Private true,
    boolAttribute AttributeType.Sensitive true, boolAttribute AttributeType.Extractable false,
    textAttribute AttributeType.Label label, bytesAttribute AttributeType.Id id]

def publicKeyTemplate (label : JsString) (id : Bytes) : List Attribute :=
  [boolAttribute AttributeType.Token true, boolAttribute AttributeType.Private false,
    textAttribute AttributeType.Label label, bytesAttribute AttributeType.Id id]

def aesValueLen (size : Nat) : Except TokenFailure Nat :=
  if size = 16 ∨ size = 32 then .ok size
  else .error (pkcs11Error
    (js "pkcs11: unsupported symmetric key size: " ++ JsonText.naturalText size))

def rsaModulusBits (size : Nat) : Except TokenFailure Nat :=
  if size = 2048 ∨ size = 3072 ∨ size = 4096 then .ok size
  else .error (pkcs11Error (js "pkcs11: unsupported rsa key size: " ++ JsonText.naturalText size))

def curveName (curve : Nat) : JsString :=
  if curve = 256 then js "P-256"
  else if curve = 384 then js "P-384"
  else if curve = 521 then js "P-521"
  else js "unknown"

def ecParamsForCurve (curve : Nat) : Except TokenFailure Bytes :=
  match EC_PARAMS.lookup (curveName curve) with
  | some params => .ok params
  | none => .error (pkcs11Error (js "pkcs11: unsupported ecc curve: " ++ JsonText.naturalText curve))

def keyDataFor (uri : KeyUri) (publicKey : JsString) : Except TokenFailure KeyData := do
  let keyRef ← formatKeyUri uri
  return { publicKey, keyId := keyUriHexId uri, keyRef, provider := PROVIDER }

/-- `additional ? bytesOf(additional) : new Uint8Array(0)` -/
def gcm (iv : Bytes) (additional : Option JsString) : MechanismParams :=
  .gcm iv (JsString.utf8Encode (additional.getD [])) GCM_TAG_BITS

def isMechanismParamError (failure : TokenFailure) : Bool :=
  failure.code = some ReturnValue.MechanismParamInvalid || failure.code = some ReturnValue.ArgumentsBad

structure SignPlan where
  mechanism : Nat
  params : Option MechanismParams := none
  retryParams : Option MechanismParams := none
  prepare : JsString → Bytes

def supportsInHardwareEcdh (mechanisms : List Nat) : Bool :=
  Mechanism.Ecdh1Derive ∈ mechanisms && Mechanism.HkdfDerive ∈ mechanisms && Mechanism.AesGcm ∈ mechanisms

def ecdhParams (peerPoint : Bytes) : MechanismParams := .ecdh1 CKD_NULL [] peerPoint

inductive EcdhOutcome where
  | plaintext (bytes : Bytes)
  | shared (secret : Bytes)

def sharedSecretTemplate : List Attribute :=
  [ulongAttribute AttributeType.Class 0x00000004, ulongAttribute AttributeType.KeyType KeyType.GenericSecret,
    boolAttribute AttributeType.Token false, boolAttribute AttributeType.Sensitive true,
    boolAttribute AttributeType.Extractable false, boolAttribute AttributeType.Derive true]

def derivedAesTemplate : List Attribute :=
  [ulongAttribute AttributeType.Class 0x00000004, ulongAttribute AttributeType.KeyType KeyType.Aes,
    ulongAttribute AttributeType.ValueLen 32, boolAttribute AttributeType.Token false,
    boolAttribute AttributeType.Sensitive true, boolAttribute AttributeType.Extractable false,
    boolAttribute AttributeType.Decrypt true]

def extractableTemplate : List Attribute :=
  [ulongAttribute AttributeType.Class 0x00000004, ulongAttribute AttributeType.KeyType KeyType.GenericSecret,
    boolAttribute AttributeType.Token false, boolAttribute AttributeType.Sensitive false,
    boolAttribute AttributeType.Extractable true]

def hkdfParams (info : Bytes) : MechanismParams :=
  .hkdf true true Mechanism.Sha256 CKF_HKDF_SALT_NULL info

/-- `module.destroyObject(session, handle).catch(() => {})`: what the call itself throws passes. -/
def destroyQuietly (handle : Nat) : TokenProgram Unit :=
  (Token.destroyObject handle).handle fun failure => if failure.rejected then some (pure ()) else none

/-- What a `finally` block that destroys an object makes of an outcome. -/
def destroyed {α : Type} (outcome : Except TokenFailure α) : Except TokenFailure Unit → Except TokenFailure α
  | .ok _ => outcome
  | .error failure => if failure.rejected then outcome else .error failure

theorem destroyed_rejected {α : Type} {outcome : Except TokenFailure α} {failure : TokenFailure}
    (h : failure.rejected = true) : destroyed outcome (.error failure) = outcome := if_pos h

theorem destroyed_thrown {α : Type} {outcome : Except TokenFailure α} {failure : TokenFailure}
    (h : failure.rejected = false) : destroyed outcome (.error failure) = .error failure :=
  if_neg fun rejected => Bool.false_ne_true (h.symm.trans rejected)

theorem destroyQuietly_bind {α : Type} (handle : Nat) (outcome : Except TokenFailure α) :
    (destroyQuietly handle).bind (fun _ => .done outcome) =
      .call (.destroyObject handle) TokenFailure.rejected fun reply => .done (destroyed outcome reply) := by
  show CallProgram.call _ _ _ = _
  congr 1
  · funext failure
    cases thrown : failure.rejected <;> simp [thrown]
  · funext reply
    cases reply with
    | ok done => rfl
    | error failure =>
      cases thrown : failure.rejected with
      | false => simp [CallProgram.handle, CallProgram.bind, destroyed, thrown]
      | true =>
        simp [CallProgram.handle, destroyed, thrown]
        rfl

def decryptWithDerived (secretHandle : Nat) (info nonce ciphertext : Bytes) : TokenProgram Bytes := do
  let aesHandle ← Token.deriveKey Mechanism.HkdfDerive (hkdfParams info) secretHandle derivedAesTemplate
  (Token.decrypt Mechanism.AesGcm (gcm nonce none) aesHandle ciphertext).andFinally (destroyQuietly aesHandle)

def decryptEcdhInHardware (privateKey : Nat) (peerPoint info nonce ciphertext : Bytes) :
    TokenProgram Bytes := do
  let secretHandle ← Token.deriveKey Mechanism.Ecdh1Derive (ecdhParams peerPoint) privateKey
    sharedSecretTemplate
  (decryptWithDerived secretHandle info nonce ciphertext).andFinally (destroyQuietly secretHandle)

def readSecret (handle : Nat) : TokenProgram Bytes := do
  let attributes ← Token.getAttributes handle [AttributeType.Value]
  match (findAttribute attributes AttributeType.Value).filter fun secret => secret ≠ [] with
  | none => .fail secretNotExtractable
  | some secret => pure secret

def deriveExtractableSecret (privateKey : Nat) (peerPoint : Bytes) : TokenProgram Bytes := do
  let handle ← Token.deriveKey Mechanism.Ecdh1Derive (ecdhParams peerPoint) privateKey
    extractableTemplate
  (readSecret handle).andFinally (destroyQuietly handle)

def disableObject (handle : Nat) : TokenProgram Unit := do
  let present ← Token.getAttributes handle DEACTIVATABLE_ATTRIBUTES
  let template := (DEACTIVATABLE_ATTRIBUTES.filter fun type => hasAttribute present type).map fun type =>
    boolAttribute type false
  if template = [] then
    .fail (pkcs11Error (js "pkcs11: object carries no usage attribute to clear"))
  else Token.setAttributes handle template

def rotationLabelBase (attributes : List Attribute) (uri : KeyUri) : JsString :=
  let label := match (findAttribute attributes AttributeType.Label).filter fun raw => raw ≠ [] with
    | some raw => JsString.utf8Decode raw
    | none => uri.object.getD []
  (KeyLabelPrefix.values.find? fun known => known.isPrefixOf label).getD label

/-- `raw ? ulongValue(raw) : undefined`, with the default for what is no positive number. -/
def sizeOr (raw : Option Bytes) (default : Nat) : Nat :=
  match raw.bind ulongValue with
  | some parsed => if 0 < parsed then parsed else default
  | none => default

section bodies

variable (base64 : Base64) (sha256 : Bytes → Bytes) (options : ResolvedOptions)
  (mechanisms : List Nat)

def planRsaPkcs1v15 : Except TokenFailure SignPlan :=
  if Mechanism.Sha256RsaPkcs ∈ mechanisms then
    .ok { mechanism := Mechanism.Sha256RsaPkcs, prepare := JsString.utf8Encode }
  else if Mechanism.RsaPkcs ∈ mechanisms then
    .ok
      { mechanism := Mechanism.RsaPkcs,
        prepare := fun message => SHA256_DIGEST_INFO_PREFIX ++ sha256 (JsString.utf8Encode message) }
  else .error (unsupportedMechanism (mechanismName Mechanism.Sha256RsaPkcs))

def planRsaPss : Except TokenFailure SignPlan :=
  let params : MechanismParams := .pss Mechanism.Sha256 CKG_MGF1_SHA256 SHA256_BYTES
  if Mechanism.Sha256RsaPkcsPss ∈ mechanisms then
    .ok
      { mechanism := Mechanism.Sha256RsaPkcsPss, params := some params, prepare := JsString.utf8Encode }
  else if Mechanism.RsaPkcsPss ∈ mechanisms then
    .ok
      { mechanism := Mechanism.RsaPkcsPss, params := some params,
        prepare := fun message => sha256 (JsString.utf8Encode message) }
  else .error (unsupportedMechanism (mechanismName Mechanism.Sha256RsaPkcsPss))

def planEd25519 : Except TokenFailure SignPlan :=
  if Mechanism.EdDsa ∈ mechanisms then
    .ok
      { mechanism := Mechanism.EdDsa, retryParams := some (.eddsa false), prepare := JsString.utf8Encode }
  else .error (unsupportedMechanism (mechanismName Mechanism.EdDsa))

def fetchPublicKey (uri : KeyUri) : TokenProgram JsString := do
  let (handle, objectClass) ← publicObjectFor uri
  if objectClass = .certificate then
    let attributes ← Token.getAttributes handle [AttributeType.Value]
    Token.lift (certificatePublicKey base64 attributes)
  else
    let attributes ← Token.getAttributes handle [AttributeType.KeyType, AttributeType.Modulus,
      AttributeType.PublicExponent, AttributeType.EcPoint, AttributeType.EcParams]
    Token.lift (publicKeyFromAttributes base64 attributes)

def aesKeyTemplate (label : JsString) (id : Bytes) (valueLen : Nat) : List Attribute :=
  tokenKeyTemplate label id ++
    [ulongAttribute AttributeType.KeyType KeyType.Aes, ulongAttribute AttributeType.Class 0x00000004,
      ulongAttribute AttributeType.ValueLen valueLen, boolAttribute AttributeType.Encrypt true,
      boolAttribute AttributeType.Decrypt true]

def generateSymmetricKeys (id : Bytes) (label : JsString) (size : Nat) : TokenProgram KeyData := do
  let valueLen ← Token.lift (aesValueLen size)
  requireMechanism mechanisms Mechanism.AesKeyGen
  let _ ← Token.generateKey Mechanism.AesKeyGen (aesKeyTemplate label id valueLen)
  Token.lift (keyDataFor { object := some label, id := some id, objectClass := some .secretKey } [])

def encryptAES (reference : JsString) (nonce : Bytes) (additional : Option JsString)
    (value : JsString) : TokenProgram JsString := do
  let uri ← Token.lift (resolveKeyUri options reference)
  requireMechanism mechanisms Mechanism.AesGcm
  let handle ← resolveObject uri .secretKey
  let ciphertext ← Token.encrypt Mechanism.AesGcm (gcm nonce additional) handle
    (JsString.utf8Encode value)
  return base64.encode (nonce ++ ciphertext)

def decryptAES (reference : JsString) (cipherValue : JsString) (additional : Option JsString) :
    TokenProgram JsString := do
  let uri ← Token.lift (resolveKeyUri options reference)
  requireMechanism mechanisms Mechanism.AesGcm
  let raw ← Token.lift (base64.decode cipherValue)
  if raw.length ≤ GCM_NONCE_BYTES then
    .fail (pkcs11Error (js "pkcs11: ciphertext is shorter than the nonce"))
  else
    let handle ← resolveObject uri .secretKey
    let plaintext ← Token.decrypt Mechanism.AesGcm (gcm (raw.take GCM_NONCE_BYTES) additional) handle
      (raw.drop GCM_NONCE_BYTES)
    return JsString.utf8Decode plaintext

def describePair (label : JsString) (id : Bytes) (publicHandle : Nat) (types : List Nat)
    (publicKeyFrom : List Attribute → Except TokenFailure JsString) : TokenProgram KeyData := do
  let attributes ← Token.getAttributes publicHandle types
  let publicKey ← Token.lift (publicKeyFrom attributes)
  Token.lift (keyDataFor { object := some label, id := some id, objectClass := some .privateKey } publicKey)

def generateRSAKeys (id : Bytes) (label : JsString) (size : Nat) : TokenProgram KeyData := do
  let modulusBits ← Token.lift (rsaModulusBits size)
  requireMechanism mechanisms Mechanism.RsaPkcsKeyPairGen
  let (publicHandle, _) ← Token.generateKeyPair Mechanism.RsaPkcsKeyPairGen
    (publicKeyTemplate label id ++
      [ulongAttribute AttributeType.ModulusBits modulusBits,
        bytesAttribute AttributeType.PublicExponent RSA_PUBLIC_EXPONENT,
        boolAttribute AttributeType.Encrypt true, boolAttribute AttributeType.Verify true,
        boolAttribute AttributeType.Wrap true])
    (tokenKeyTemplate label id ++
      [boolAttribute AttributeType.Decrypt true, boolAttribute AttributeType.Sign true,
        boolAttribute AttributeType.Unwrap true])
  describePair label id publicHandle [AttributeType.Modulus, AttributeType.PublicExponent]
    (rsaPublicKeyFrom base64)

def generateECDHCurveKeys (id : Bytes) (label : JsString) (curve : Nat) : TokenProgram KeyData := do
  let ecParams ← Token.lift (ecParamsForCurve curve)
  requireMechanism mechanisms Mechanism.EcKeyPairGen
  let (publicHandle, _) ← Token.generateKeyPair Mechanism.EcKeyPairGen
    (publicKeyTemplate label id ++ [bytesAttribute AttributeType.EcParams ecParams])
    (tokenKeyTemplate label id ++ [boolAttribute AttributeType.Derive true])
  describePair label id publicHandle [AttributeType.EcPoint, AttributeType.EcParams] (ecdhPublicKeyFrom base64)

def generateEd25519Keys (id : Bytes) (label : JsString) : TokenProgram KeyData := do
  requireMechanism mechanisms Mechanism.EcEdwardsKeyPairGen
  let (publicHandle, _) ← Token.generateKeyPair Mechanism.EcEdwardsKeyPairGen
    (publicKeyTemplate label id ++
      [bytesAttribute AttributeType.EcParams ((EC_PARAMS.lookup (js "Ed25519")).getD []),
        boolAttribute AttributeType.Verify true])
    (tokenKeyTemplate label id ++ [boolAttribute AttributeType.Sign true])
  describePair label id publicHandle [AttributeType.EcPoint] (ed25519PublicKeyFrom base64)

def rsaOaepDecode (reference cipherText : JsString) : TokenProgram JsString := do
  let uri ← Token.lift (resolveKeyUri options reference)
  requireMechanism mechanisms Mechanism.RsaPkcsOaep
  let handle ← resolveObject uri .privateKey
  let decrypted : TokenProgram JsString := do
    let ciphertext ← Token.lift (base64.decode cipherText)
    let plaintext ← Token.decrypt Mechanism.RsaPkcsOaep
      (.oaep Mechanism.Sha256 CKG_MGF1_SHA256 CKZ_DATA_SPECIFIED) handle ciphertext
    return JsString.utf8Decode plaintext
  decrypted.handle fun cause =>
    if isMechanismParamError cause then some (.fail oaepHashUnsupported) else none

def ecdhDecode (uri : KeyUri) (peerPoint info nonce ciphertext : Bytes) :
    TokenProgram EcdhOutcome := do
  requireMechanism mechanisms Mechanism.Ecdh1Derive
  let privateKey ← resolveObject uri .privateKey
  let extracted : TokenProgram EcdhOutcome := do
    let secret ← deriveExtractableSecret privateKey peerPoint
    return .shared secret
  if supportsInHardwareEcdh mechanisms then
    let inHardware : TokenProgram EcdhOutcome := do
      let plaintext ← decryptEcdhInHardware privateKey peerPoint info nonce ciphertext
      return .plaintext plaintext
    inHardware.handle fun _ => if options.allowSecretExtraction then some extracted else none
  else if options.allowSecretExtraction then extracted
  else .fail secretNotExtractable

def replaceAes (attributes : List Attribute) (label : JsString) (id : Bytes) :
    TokenProgram KeyData := do
  let valueLen := sizeOr (findAttribute attributes AttributeType.ValueLen) 32
  requireMechanism mechanisms Mechanism.AesKeyGen
  let _ ← Token.generateKey Mechanism.AesKeyGen (aesKeyTemplate label id valueLen)
  Token.lift (keyDataFor { object := some label, id := some id, objectClass := some .secretKey } [])

def replaceRsa (attributes : List Attribute) (label : JsString) (id : Bytes) :
    TokenProgram KeyData := do
  let modulusBits := sizeOr (findAttribute attributes AttributeType.ModulusBits) 2048
  requireMechanism mechanisms Mechanism.RsaPkcsKeyPairGen
  let (publicHandle, _) ← Token.generateKeyPair Mechanism.RsaPkcsKeyPairGen
    (publicKeyTemplate label id ++
      [ulongAttribute AttributeType.ModulusBits modulusBits,
        bytesAttribute AttributeType.PublicExponent RSA_PUBLIC_EXPONENT,
        boolAttribute AttributeType.Encrypt true, boolAttribute AttributeType.Verify true])
    (tokenKeyTemplate label id ++
      [boolAttribute AttributeType.Decrypt true, boolAttribute AttributeType.Sign true])
  describePair label id publicHandle [AttributeType.Modulus, AttributeType.PublicExponent]
    (rsaPublicKeyFrom base64)

def replaceEc (attributes : List Attribute) (label : JsString) (id : Bytes) (edwards : Bool) :
    TokenProgram KeyData := do
  let ecParams ← Token.lift (attributeOr attributes AttributeType.EcParams
    (js "pkcs11: cannot rotate an ec key without CKA_EC_PARAMS"))
  let mechanism := if edwards then Mechanism.EcEdwardsKeyPairGen else Mechanism.EcKeyPairGen
  requireMechanism mechanisms mechanism
  let (publicHandle, _) ← Token.generateKeyPair mechanism
    (publicKeyTemplate label id ++ [bytesAttribute AttributeType.EcParams ecParams])
    (tokenKeyTemplate label id ++
      [boolAttribute AttributeType.Derive (!edwards), boolAttribute AttributeType.Sign edwards])
  describePair label id publicHandle [AttributeType.EcPoint, AttributeType.EcParams]
    (if edwards then ed25519PublicKeyFrom base64 else ecdhPublicKeyFrom base64)

def generateReplacement (attributes : List Attribute) (label : JsString) (id : Bytes) :
    TokenProgram KeyData := do
  let rawType ← Token.lift (attributeOr attributes AttributeType.KeyType
    (js "pkcs11: cannot rotate an object without CKA_KEY_TYPE"))
  match ulongValue rawType with
  | none => .fail (pkcs11Error (js "pkcs11: CKA_KEY_TYPE is not a CK_ULONG"))
  | some decoded =>
    if decoded = KeyType.Aes then replaceAes mechanisms attributes label id
    else if decoded = KeyType.Rsa then replaceRsa base64 mechanisms attributes label id
    else if decoded = KeyType.Ec ∨ decoded = KeyType.EcEdwards then
      replaceEc base64 mechanisms attributes label id (decoded = KeyType.EcEdwards)
    else .fail (pkcs11Error
      (js "pkcs11: cannot rotate key type " ++ JsonText.numberText (.ofInt decoded)))

def rotateKey (id : Bytes) (now : Nat) (keyId : JsString) (uid : Option JsString) :
    TokenProgram KeyData := do
  let uri ← Token.lift (resolveKeyUri options keyId)
  let handle ← resolveObject uri .privateKey
  let attributes ← Token.getAttributes handle [AttributeType.Class, AttributeType.KeyType,
    AttributeType.Label, AttributeType.ValueLen, AttributeType.ModulusBits, AttributeType.EcParams]
  let label := newObjectLabel now (rotationLabelBase attributes uri) uid
  let rotated ← generateReplacement base64 mechanisms attributes label id
  if options.rotateDisablesPrevious then disableObject handle
  return rotated

def describedLabel (attributes : List Attribute) (uri : KeyUri) : Option JsString :=
  match (findAttribute attributes AttributeType.Label).filter fun label => label ≠ [] with
  | some label => some (JsString.utf8Decode label)
  | none => uri.object

def describedId (attributes : List Attribute) (uri : KeyUri) : Option Bytes :=
  match (findAttribute attributes AttributeType.Id).filter fun id => id ≠ [] with
  | some id => some id
  | none => uri.id

def describeKey (keyId : JsString) : TokenProgram KeyUri := do
  let uri ← Token.lift (resolveKeyUri options keyId)
  let handle ← resolveObject uri .privateKey
  let attributes ← Token.getAttributes handle [AttributeType.Label, AttributeType.Id,
    AttributeType.Class]
  return { uri with object := describedLabel attributes uri, id := describedId attributes uri }

def deactivateKey (keyId : JsString) : TokenProgram Unit := do
  let uri ← Token.lift (resolveKeyUri options keyId)
  let handle ← resolveObject uri .privateKey
  (disableObject handle).handle fun _ =>
    if options.deactivateDestroys then some (Token.destroyObject handle) else none

def hmac (secretKey message : JsString) : TokenProgram JsString := do
  let uri ← Token.lift (resolveKeyUri options secretKey)
  requireMechanism mechanisms Mechanism.Sha256Hmac
  let handle ← resolveObject uri .secretKey
  let mac ← Token.sign Mechanism.Sha256Hmac none handle (JsString.utf8Encode message)
  return base64.encode mac

def signWithToken (reference message : JsString) (plan : Except TokenFailure SignPlan) :
    TokenProgram JsString := do
  let uri ← Token.lift (resolveKeyUri options reference)
  let chosen ← Token.lift plan
  let handle ← resolveObject uri .privateKey
  let payload := chosen.prepare message
  let signed (params : Option MechanismParams) : TokenProgram JsString := do
    let signature ← Token.sign chosen.mechanism params handle payload
    return base64.encode signature
  (signed chosen.params).handle fun failure =>
    match chosen.retryParams with
    | none => none
    | some retry => if isMechanismParamError failure then some (signed (some retry)) else none

end bodies

end ForgeDeno
