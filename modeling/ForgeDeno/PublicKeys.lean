import ForgeDeno.KeyUris

namespace ForgeDeno

structure Base64 where
  encode : Bytes → JsString
  decode : JsString → Except TokenFailure Bytes

def ED25519_PUBLIC_KEY_BYTES : Nat := 32

def OID_RSA_ENCRYPTION : Bytes :=
  [0x06, 0x09, 0x2a, 0x86, 0x48, 0x86, 0xf7, 0x0d, 0x01, 0x01, 0x01]

def OID_EC_PUBLIC_KEY : Bytes := [0x06, 0x07, 0x2a, 0x86, 0x48, 0xce, 0x3d, 0x02, 0x01]

def DER_NULL : Bytes := [0x05, 0x00]

/-- The bytes that the loop of `derLength` puts in front; `value >>>= 8` keeps 32 bits. -/
def lengthBytes (value : Nat) : Bytes :=
  if value = 0 then [] else lengthBytes (value % 2 ^ 32 / 256) ++ [(value % 256).toUInt8]
termination_by value
decreasing_by omega

def derLength (length : Nat) : Bytes :=
  if length < 0x80 then [length.toUInt8]
  else (0x80 + (lengthBytes length).length).toUInt8 :: lengthBytes length

def tagged (tag : UInt8) (content : Bytes) : Bytes := tag :: derLength content.length ++ content

def sequence (content : Bytes) : Bytes := tagged 0x30 content

def bitString (content : Bytes) : Bytes := tagged 0x03 (0x00 :: content)

def trimZeros : Bytes → Bytes
  | 0x00 :: b :: rest => trimZeros (b :: rest)
  | bytes => bytes

def derInteger (magnitude : Bytes) : Bytes :=
  let trimmed := trimZeros magnitude
  tagged 0x02 (if trimmed.headD 0 &&& 0x80 ≠ 0 then 0x00 :: trimmed else trimmed)

/-- A position in a byte array as the code computes it; `none` is `NaN`. -/
abbrev Position := Option Int

def byteAt (bytes : Bytes) (position : Position) : Option UInt8 :=
  position.bind fun i => if 0 ≤ i then bytes[i.toNat]? else none

structure DerElement where
  tag : Option UInt8
  start : Position
  finish : Position

def exceeds (position : Position) (bound : Nat) : Bool :=
  match position with
  | some i => (bound : Int) < i
  | none => false

def advance (position : Position) (n : Int) : Position := position.map (· + n)

def shiftIn (bytes : Bytes) : Int :=
  bytes.foldl (fun length b => Int.bmod (length * 256 + b.toNat) (2 ^ 32)) 0

def readElement (bytes : Bytes) (offset : Position) : Option DerElement :=
  if exceeds (advance offset 2) bytes.length then none
  else
    let tag := byteAt bytes offset
    let cursor := advance offset 2
    match offset, byteAt bytes (advance offset 1) with
    | some i, some first =>
      if first &&& 0x80 ≠ 0 then
        let count := (first &&& 0x7f).toNat
        if count = 0 ∨ 4 < count ∨ exceeds (advance cursor count) bytes.length then none
        else
          let length := shiftIn ((bytes.drop (i + 2).toNat).take count)
          let start := advance cursor count
          if exceeds (advance start length) bytes.length then none
          else some ⟨tag, start, advance start length⟩
      else if exceeds (advance cursor first.toNat) bytes.length then none
      else some ⟨tag, cursor, advance cursor first.toNat⟩
    -- a length that is not there makes the end `NaN`
    | _, _ => some ⟨tag, cursor, none⟩

def readOctetString (value : Bytes) : Option Bytes :=
  match readElement value (some 0) with
  | some ⟨some 0x04, some start, some finish⟩ =>
    if finish = value.length then some ((value.take finish.toNat).drop start.toNat) else none
  | _ => none

def isPlausibleEcPoint (value : Bytes) : Bool :=
  value.length = ED25519_PUBLIC_KEY_BYTES ||
    (1 < value.length && value.head? = some 0x04 && (value.length - 1) % 2 = 0)

def decodeEcPoint (value : Bytes) : Except TokenFailure Bytes :=
  if value = [] then .error (pkcs11Error (js "pkcs11: empty CKA_EC_POINT"))
  else match (readOctetString value).filter fun unwrapped => isPlausibleEcPoint unwrapped with
    | some unwrapped => .ok unwrapped
    | none =>
      if isPlausibleEcPoint value then .ok value
      else .error (pkcs11Error (js "pkcs11: CKA_EC_POINT is neither a wrapped nor a bare point"))

def attributeOr (attributes : List Attribute) (type : Nat) (message : JsString) : Except TokenFailure Bytes :=
  match findAttribute attributes type with
  | some value => .ok value
  | none => .error (pkcs11Error message)

def ecPointFrom (attributes : List Attribute) : Except TokenFailure Bytes := do
  let raw ← attributeOr attributes AttributeType.EcPoint (js "pkcs11: object has no CKA_EC_POINT")
  decodeEcPoint raw

def curveFromEcParams (params : Bytes) : Except TokenFailure JsString :=
  match [js "P-256", js "P-384", js "P-521"].find? fun name => EC_PARAMS.lookup name = some params with
  | some name => .ok name
  | none => .error (pkcs11Error (js "pkcs11: unsupported curve in CKA_EC_PARAMS"))

def isZero (value : Bytes) : Bool := value.all fun byte => byte = 0

section base64

variable (base64 : Base64)

def rsaPublicKeyFrom (attributes : List Attribute) : Except TokenFailure JsString := do
  let modulus ← attributeOr attributes AttributeType.Modulus (js "pkcs11: object has no CKA_MODULUS")
  let exponent ← attributeOr attributes AttributeType.PublicExponent
    (js "pkcs11: object has no CKA_PUBLIC_EXPONENT")
  if isZero modulus || isZero exponent then
    throw (pkcs11Error (js "pkcs11: object has an unusable rsa public key"))
  let algorithm := sequence (OID_RSA_ENCRYPTION ++ DER_NULL)
  let key := sequence (derInteger modulus ++ derInteger exponent)
  return base64.encode (sequence (algorithm ++ bitString key))

def ecdhPublicKeyFrom (attributes : List Attribute) : Except TokenFailure JsString := do
  let point ← ecPointFrom attributes
  let params ← attributeOr attributes AttributeType.EcParams (js "pkcs11: object has no CKA_EC_PARAMS")
  let _ ← curveFromEcParams params
  let algorithm := sequence (OID_EC_PUBLIC_KEY ++ params)
  return base64.encode (sequence (algorithm ++ bitString point))

def ed25519PublicKeyFrom (attributes : List Attribute) : Except TokenFailure JsString := do
  let point ← ecPointFrom attributes
  if point.length ≠ ED25519_PUBLIC_KEY_BYTES then
    throw (pkcs11Error (js "pkcs11: ed25519 public key has " ++ JsonText.naturalText point.length ++
      js " bytes, want " ++ JsonText.naturalText ED25519_PUBLIC_KEY_BYTES))
  return base64.encode (sequence (sequence ((EC_PARAMS.lookup (js "Ed25519")).getD []) ++ bitString point))

def certificateError (detail : JsString) : TokenFailure :=
  pkcs11Error (js "pkcs11: parse certificate: " ++ detail)

def skipElements (certificate : Bytes) : Nat → Position → Except TokenFailure Position
  | 0, cursor => .ok cursor
  | n + 1, cursor =>
    match readElement certificate cursor with
    | none => .error (certificateError (js "truncated tbsCertificate"))
    | some element => skipElements certificate n element.finish

/-- `bytes.slice(start, finish)`: a negative end counts from the end of the array. -/
def sliceBytes (bytes : Bytes) (start finish : Position) : Bytes :=
  let place (position : Position) : Nat :=
    match position with
    | none => 0
    | some i => if i < 0 then (bytes.length + i).toNat else i.toNat
  (bytes.take (place finish)).drop (place start)

def subjectPublicKeyInfo (certificate : Bytes) : Except TokenFailure Bytes :=
  match readElement certificate (some 0) with
  | some ⟨some 0x30, outer, _⟩ =>
    match readElement certificate outer with
    | some ⟨some 0x30, tbs, _⟩ =>
      match readElement certificate tbs with
      | none => .error (certificateError (js "truncated tbsCertificate"))
      | some first => do
        -- `[0] EXPLICIT version` is optional
        let versioned := first.tag = some 0xa0
        let cursor ← skipElements certificate (if versioned then 5 else 4)
          (if versioned then first.finish else tbs)
        match readElement certificate cursor with
        | some ⟨some 0x30, _, finish⟩ => .ok (sliceBytes certificate cursor finish)
        | _ => .error (certificateError (js "no subjectPublicKeyInfo"))
    | _ => .error (certificateError (js "no tbsCertificate"))
  | _ => .error (certificateError (js "not a DER SEQUENCE"))

def certificatePublicKey (attributes : List Attribute) : Except TokenFailure JsString := do
  let der ← attributeOr attributes AttributeType.Value
    (js "pkcs11: certificate object has no CKA_VALUE")
  let info ← subjectPublicKeyInfo der
  return base64.encode info

def publicKeyFromAttributes (attributes : List Attribute) : Except TokenFailure JsString := do
  let rawType ← attributeOr attributes AttributeType.KeyType (js "pkcs11: object has no CKA_KEY_TYPE")
  match ulongValue rawType with
  | none => throw (pkcs11Error (js "pkcs11: CKA_KEY_TYPE is not a CK_ULONG"))
  | some decoded =>
    if decoded = KeyType.Rsa then rsaPublicKeyFrom base64 attributes
    else if decoded = KeyType.Ec then ecdhPublicKeyFrom base64 attributes
    else if decoded = KeyType.EcEdwards then ed25519PublicKeyFrom base64 attributes
    else throw (pkcs11Error (js "pkcs11: unsupported key type " ++ JsonText.numberText (.ofInt decoded)))

end base64

end ForgeDeno
