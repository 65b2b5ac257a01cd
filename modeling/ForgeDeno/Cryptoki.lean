import ForgeDeno.CallPrograms
import ForgeDeno.JsNumber
import ForgeDeno.JsString

namespace ForgeDeno

namespace Mechanism

def RsaPkcsKeyPairGen : Nat := 0x00000000
def RsaPkcs : Nat := 0x00000001
def RsaPkcsOaep : Nat := 0x00000009
def RsaPkcsPss : Nat := 0x0000000d
def Sha256RsaPkcs : Nat := 0x00000040
def Sha256RsaPkcsPss : Nat := 0x00000043
def Sha256 : Nat := 0x00000250
def Sha256Hmac : Nat := 0x00000251
def GenericSecretKeyGen : Nat := 0x00000350
def EcKeyPairGen : Nat := 0x00001040
def Ecdh1Derive : Nat := 0x00001050
def EcEdwardsKeyPairGen : Nat := 0x00001055
def EdDsa : Nat := 0x00001057
def AesKeyGen : Nat := 0x00001080
def AesGcm : Nat := 0x00001087
def HkdfDerive : Nat := 0x0000402a

end Mechanism

def MECHANISM_NAMES : List (Nat × JsString) :=
  [(Mechanism.RsaPkcsKeyPairGen, js "CKM_RSA_PKCS_KEY_PAIR_GEN"),
    (Mechanism.RsaPkcs, js "CKM_RSA_PKCS"),
    (Mechanism.RsaPkcsOaep, js "CKM_RSA_PKCS_OAEP"),
    (Mechanism.RsaPkcsPss, js "CKM_RSA_PKCS_PSS"),
    (Mechanism.Sha256RsaPkcs, js "CKM_SHA256_RSA_PKCS"),
    (Mechanism.Sha256RsaPkcsPss, js "CKM_SHA256_RSA_PKCS_PSS"),
    (Mechanism.Sha256, js "CKM_SHA256"),
    (Mechanism.Sha256Hmac, js "CKM_SHA256_HMAC"),
    (Mechanism.GenericSecretKeyGen, js "CKM_GENERIC_SECRET_KEY_GEN"),
    (Mechanism.EcKeyPairGen, js "CKM_EC_KEY_PAIR_GEN"),
    (Mechanism.Ecdh1Derive, js "CKM_ECDH1_DERIVE"),
    (Mechanism.EcEdwardsKeyPairGen, js "CKM_EC_EDWARDS_KEY_PAIR_GEN"),
    (Mechanism.EdDsa, js "CKM_EDDSA"),
    (Mechanism.AesKeyGen, js "CKM_AES_KEY_GEN"),
    (Mechanism.AesGcm, js "CKM_AES_GCM"),
    (Mechanism.HkdfDerive, js "CKM_HKDF_DERIVE")]

def digitsOf (base fuel n : Nat) (letter : Nat) : JsString :=
  let unit : UInt16 :=
    if n % base < 10 then (0x30 + n % base).toUInt16 else (letter + (n % base - 10)).toUInt16
  match fuel with
  | 0 => [unit]
  | fuel + 1 => if n < base then [unit] else digitsOf base fuel (n / base) letter ++ [unit]

def upperHex8 (value : Nat) : JsString :=
  let digits := digitsOf 16 value value 0x41
  List.replicate (8 - digits.length) 0x30 ++ digits

def mechanismName (value : Nat) : JsString :=
  match MECHANISM_NAMES.find? fun entry => entry.1 = value with
  | some (_, name) => name
  | none => js "CKM_0x" ++ upperHex8 value

namespace AttributeType

def Class : Nat := 0x00000000
def Token : Nat := 0x00000001
def Private : Nat := 0x00000002
def Label : Nat := 0x00000003
def Value : Nat := 0x00000011
def KeyType : Nat := 0x00000100
def Id : Nat := 0x00000102
def Sensitive : Nat := 0x00000103
def Encrypt : Nat := 0x00000104
def Decrypt : Nat := 0x00000105
def Wrap : Nat := 0x00000106
def Unwrap : Nat := 0x00000107
def Sign : Nat := 0x00000108
def Verify : Nat := 0x0000010a
def Derive : Nat := 0x0000010c
def Modulus : Nat := 0x00000120
def ModulusBits : Nat := 0x00000121
def PublicExponent : Nat := 0x00000122
def ValueLen : Nat := 0x00000161
def Extractable : Nat := 0x00000162
def EcParams : Nat := 0x00000180
def EcPoint : Nat := 0x00000181

end AttributeType

namespace KeyType

def Rsa : Nat := 0x00000000
def Ec : Nat := 0x00000003
def GenericSecret : Nat := 0x00000010
def Aes : Nat := 0x0000001f
def EcEdwards : Nat := 0x00000040

end KeyType

def CKG_MGF1_SHA256 : Nat := 0x00000002
def CKZ_DATA_SPECIFIED : Nat := 0x00000001
def CKD_NULL : Nat := 0x00000001
def CKF_HKDF_SALT_NULL : Nat := 0x00000001
def GCM_NONCE_BYTES : Nat := 12
def GCM_TAG_BITS : Nat := 128

abbrev Bytes := List UInt8

def SHA256_DIGEST_INFO_PREFIX : Bytes :=
  [0x30, 0x31, 0x30, 0x0d, 0x06, 0x09, 0x60, 0x86, 0x48, 0x01, 0x65, 0x03, 0x04, 0x02, 0x01, 0x05,
    0x00, 0x04, 0x20]

def EC_PARAMS : List (JsString × Bytes) :=
  [(js "P-256", [0x06, 0x08, 0x2a, 0x86, 0x48, 0xce, 0x3d, 0x03, 0x01, 0x07]),
    (js "P-384", [0x06, 0x05, 0x2b, 0x81, 0x04, 0x00, 0x22]),
    (js "P-521", [0x06, 0x05, 0x2b, 0x81, 0x04, 0x00, 0x23]),
    (js "Ed25519", [0x06, 0x03, 0x2b, 0x65, 0x70])]

/-- One type and value pair; `present` is only read on what `getAttributes` returns. -/
structure Attribute where
  type : Nat
  value : Bytes
  present : Bool
deriving DecidableEq

def boolAttribute (type : Nat) (value : Bool) : Attribute :=
  { type, value := [if value then 1 else 0], present := true }

/-- The `width` lowest bytes of a number, lowest first. -/
def littleEndian : Nat → Nat → Bytes
  | 0, _ => []
  | width + 1, n => (n % 256).toUInt8 :: littleEndian width (n / 256)

def ulongAttribute (type : Nat) (value : Nat) : Attribute :=
  { type, value := littleEndian 8 value, present := true }

def bytesAttribute (type : Nat) (value : Bytes) : Attribute := { type, value, present := true }

def textAttribute (type : Nat) (value : JsString) : Attribute :=
  { type, value := JsString.utf8Encode value, present := true }

def ofLittleEndian : Bytes → Nat
  | [] => 0
  | b :: rest => b.toNat + 256 * ofLittleEndian rest

/-- `Number(value)` of a non-negative `bigint`, as the whole number the double is. -/
def numberOfBigint (value : Nat) : Nat := ((JsNumber.ofInt value).integer?.getD 0).toNat

def ulongValue (value : Bytes) : Option Nat :=
  if value.length ≠ 8 then none else some (numberOfBigint (ofLittleEndian value))

def findAttribute (attributes : List Attribute) (type : Nat) : Option Bytes :=
  (attributes.find? fun candidate => candidate.type = type && candidate.present).map Attribute.value

def hasAttribute (attributes : List Attribute) (type : Nat) : Bool :=
  (findAttribute attributes type).isSome

namespace ReturnValue

def ArgumentsBad : Nat := 0x00000007
def MechanismParamInvalid : Nat := 0x00000071

end ReturnValue

/-- What the provider reads of a thrown value; `code` and `ckr` are set on the errors of a token.
`rejected` tells that the promise of the call was rejected, rather than that the call threw, as those
of `FfiModule` do. -/
structure TokenFailure where
  name : JsString
  message : JsString
  code : Option Nat := none
  ckr : Option JsString := none
  rejected : Bool := false
deriving DecidableEq

inductive MechanismParams where
  | gcm (iv aad : Bytes) (tagBits : Nat)
  | oaep (hashAlg mgf source : Nat)
  | pss (hashAlg mgf saltLen : Nat)
  | ecdh1 (kdf : Nat) (sharedData publicData : Bytes)
  | hkdf (extract expand : Bool) (prf saltType : Nat) (info : Bytes)
  | eddsa (phFlag : Bool)
deriving DecidableEq

/-- The calls of `Pkcs11Module` that an operation makes on the session it was given. -/
inductive TokenCall where
  | findObjects (template : List Attribute)
  | getAttributes (object : Nat) (types : List Nat)
  | setAttributes (object : Nat) (template : List Attribute)
  | destroyObject (object : Nat)
  | generateKey (mechanism : Nat) (template : List Attribute)
  | generateKeyPair (mechanism : Nat) (publicTemplate privateTemplate : List Attribute)
  | deriveKey (mechanism : Nat) (params : Option MechanismParams) (base : Nat) (template : List Attribute)
  | encrypt (mechanism : Nat) (params : Option MechanismParams) (key : Nat) (plaintext : Bytes)
  | decrypt (mechanism : Nat) (params : Option MechanismParams) (key : Nat) (ciphertext : Bytes)
  | sign (mechanism : Nat) (params : Option MechanismParams) (key : Nat) (message : Bytes)
deriving DecidableEq

def TokenCall.Reply : TokenCall → Type
  | .findObjects _ => List Nat
  | .getAttributes _ _ => List Attribute
  | .setAttributes _ _ => Unit
  | .destroyObject _ => Unit
  | .generateKey _ _ => Nat
  | .generateKeyPair _ _ _ => Nat × Nat
  | .deriveKey _ _ _ _ => Nat
  | .encrypt _ _ _ _ => Bytes
  | .decrypt _ _ _ _ => Bytes
  | .sign _ _ _ _ => Bytes

/-- The body of a token operation: the calls it makes on its session and what it does with their
answers. -/
abbrev TokenProgram (α : Type) := CallProgram TokenCall TokenCall.Reply TokenFailure α

end ForgeDeno
