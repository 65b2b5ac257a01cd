import ForgeDeno.Cryptoki
import ForgeDeno.JsonText
import ForgeDeno.Utf8

namespace ForgeDeno

def pkcs11Error (message : JsString) : TokenFailure := { name := js "Pkcs11Error", message }

def URI_SCHEME : JsString := js "pkcs11:"

/-- The object classes; `inherited` is what `TYPE_TO_CLASS` has from `Object.prototype` under a name. -/
inductive ObjectClass where
  | data
  | certificate
  | publicKey
  | privateKey
  | secretKey
  | inherited (name : JsString)
deriving DecidableEq

namespace ObjectClass

/-- The `CKO_` value; a value that is no number has none. -/
def value? : ObjectClass → Option Nat
  | .data => some 0x00000000
  | .certificate => some 0x00000001
  | .publicKey => some 0x00000002
  | .privateKey => some 0x00000003
  | .secretKey => some 0x00000004
  | .inherited _ => none

end ObjectClass

structure KeyUri where
  token : Option JsString := none
  object : Option JsString := none
  id : Option Bytes := none
  objectClass : Option ObjectClass := none
deriving DecidableEq

def TYPE_TO_CLASS : List (JsString × ObjectClass) :=
  [(js "private", .privateKey), (js "public", .publicKey), (js "secret-key", .secretKey),
    (js "cert", .certificate), (js "data", .data)]

/-- The names of `Object.prototype`; Deno deletes its `__proto__` accessor. -/
def OBJECT_PROTOTYPE_NAMES : List JsString :=
  [js "constructor", js "__defineGetter__", js "__defineSetter__", js "hasOwnProperty",
    js "__lookupGetter__", js "__lookupSetter__", js "isPrototypeOf", js "propertyIsEnumerable",
    js "toString", js "valueOf", js "toLocaleString"]

/-- `String(value)` of what `Object.prototype` has under a name. -/
def inheritedText (name : JsString) : JsString :=
  if name = js "constructor" then js "function Object() \x7b [native code] \x7d"
  else js "function " ++ name ++ js "() \x7b [native code] \x7d"

def isKeyUri (reference : JsString) : Bool := URI_SCHEME.isPrefixOf reference.trim

def classFromType (value : JsString) : Except TokenFailure ObjectClass :=
  match TYPE_TO_CLASS.find? fun entry => entry.1 = value with
  | some (_, found) => .ok found
  | none =>
    if value ∈ OBJECT_PROTOTYPE_NAMES then .ok (.inherited value)
    else .error (pkcs11Error
      (js "pkcs11: unsupported object type " ++ JsonText.quote value ++ js " in key uri"))

def typeFromClass : ObjectClass → Except TokenFailure JsString
  | .privateKey => .ok (js "private")
  | .publicKey => .ok (js "public")
  | .secretKey => .ok (js "secret-key")
  | .certificate => .ok (js "cert")
  | .data => .ok (js "data")
  | .inherited name =>
    .error (pkcs11Error (js "pkcs11: unsupported object class " ++ inheritedText name))

def rejectPinAttributes (query : JsString) : Except TokenFailure Unit :=
  let names := (query.split 0x26).map fun segment => (segment.split 0x3D).headD []
  match names.find? fun name => name = js "pin-value" || name = js "pin-source" with
  | some name => .error (pkcs11Error (js "pkcs11: key uri must not carry " ++ JsonText.quote name ++
      js "; supply the pin with the pin option"))
  | none => .ok ()

def hexValue? (u : UInt16) : Option Nat :=
  if 0x30 ≤ u ∧ u ≤ 0x39 then some (u.toNat - 0x30)
  else if 0x41 ≤ u ∧ u ≤ 0x46 then some (u.toNat - 0x37)
  else if 0x61 ≤ u ∧ u ≤ 0x66 then some (u.toNat - 0x57)
  else none

def invalidEscape (name escape : JsString) : TokenFailure :=
  pkcs11Error (js "pkcs11: decode attribute " ++ JsonText.quote name ++
    js " in key uri: invalid escape " ++ JsonText.quote escape)

/-- The bytes of an attribute value; a unit without an escape is encoded on its own. -/
def unescapeAttribute (name : JsString) : JsString → Except TokenFailure Bytes
  | [] => .ok []
  | [u] => if u ≠ 0x25 then .ok (JsString.utf8Encode [u]) else .error (invalidEscape name [u])
  | [u, v] =>
    if u ≠ 0x25 then (unescapeAttribute name [v]).map (JsString.utf8Encode [u] ++ ·)
    else .error (invalidEscape name [u, v])
  | u :: v :: w :: rest =>
    if u ≠ 0x25 then (unescapeAttribute name (v :: w :: rest)).map (JsString.utf8Encode [u] ++ ·)
    else match hexValue? v, hexValue? w with
      | some high, some low => (unescapeAttribute name rest).map ((high * 16 + low).toUInt8 :: ·)
      | _, _ => .error (invalidEscape name [u, v, w])

/-- The text before the first `separator`, and what follows it when there is one. -/
def splitFirst (separator : UInt16) : JsString → JsString × Option JsString
  | [] => ([], none)
  | u :: rest =>
    if u = separator then ([], some rest)
    else ((u :: (splitFirst separator rest).1), (splitFirst separator rest).2)

def parseAttribute (parsed : KeyUri) (segment : JsString) : Except TokenFailure KeyUri :=
  if segment = [] then .ok parsed
  else match splitFirst 0x3D segment with
    | (_, none) => .error (pkcs11Error
        (js "pkcs11: malformed attribute " ++ JsonText.quote segment ++ js " in key uri"))
    | (name, some raw) => do
      let value ← unescapeAttribute name raw
      if name = js "token" then .ok { parsed with token := some (JsString.utf8Decode value) }
      else if name = js "object" then .ok { parsed with object := some (JsString.utf8Decode value) }
      else if name = js "id" then .ok { parsed with id := some value }
      else if name = js "type" then
        (classFromType (JsString.utf8Decode value)).map fun found =>
          { parsed with objectClass := some found }
      else .ok parsed

/-- `uri.object` when it is there and not empty. -/
def KeyUri.label? (uri : KeyUri) : Option JsString := uri.object.filter fun object => object ≠ []

/-- `uri.id` when it is there and not empty. -/
def KeyUri.id? (uri : KeyUri) : Option Bytes := uri.id.filter fun id => id ≠ []

def parseKeyUri (reference : JsString) : Except TokenFailure KeyUri := do
  let trimmed := reference.trim
  if ¬isKeyUri trimmed then
    throw (pkcs11Error (js "pkcs11: " ++ JsonText.quote trimmed ++ js " is not a pkcs11 uri"))
  let (body, query) := splitFirst 0x3F (trimmed.drop URI_SCHEME.length)
  rejectPinAttributes (query.getD [])
  if body = [] then
    throw (pkcs11Error (js "pkcs11: key uri " ++ JsonText.quote trimmed ++ js " has no attributes"))
  let parsed ← (body.split 0x3B).foldlM parseAttribute {}
  if parsed.label? = none ∧ parsed.id? = none then
    throw (pkcs11Error
      (js "pkcs11: key uri " ++ JsonText.quote trimmed ++ js " must set object or id"))
  return parsed

def unreservedAttributeByte (byte : UInt8) : Bool :=
  (0x41 ≤ byte && byte ≤ 0x5A) || (0x61 ≤ byte && byte ≤ 0x7A) || (0x30 ≤ byte && byte ≤ 0x39) ||
    byte.toNat.toUInt16 ∈ js "-._~:[]@!$'()*+,"

def hexDigit (letter n : Nat) : UInt16 :=
  if n < 10 then (0x30 + n).toUInt16 else (letter + (n - 10)).toUInt16

def escapeByte (byte : UInt8) : JsString :=
  if unreservedAttributeByte byte then [byte.toNat.toUInt16]
  else [0x25, hexDigit 0x41 (byte.toNat / 16), hexDigit 0x41 (byte.toNat % 16)]

def escapeAttribute (value : Bytes) : JsString := value.flatMap escapeByte

def joinParts : List JsString → JsString
  | [] => []
  | [part] => part
  | part :: other :: parts => part ++ 0x3B :: joinParts (other :: parts)

def formatKeyUri (uri : KeyUri) : Except TokenFailure JsString := do
  let type ← uri.objectClass.mapM typeFromClass
  let token := uri.token.filter fun token => token ≠ []
  let parts :=
    (token.map fun token => js "token=" ++ escapeAttribute (JsString.utf8Encode token)).toList ++
    (uri.label?.map fun object => js "object=" ++ escapeAttribute (JsString.utf8Encode object)).toList ++
    (uri.id?.map fun id => js "id=" ++ escapeAttribute id).toList ++
    (type.map fun type => js "type=" ++ type).toList
  return URI_SCHEME ++ joinParts parts

def keyUriHexId (uri : KeyUri) : JsString :=
  (uri.id.getD []).flatMap fun byte =>
    [hexDigit 0x61 (byte.toNat / 16), hexDigit 0x61 (byte.toNat % 16)]

end ForgeDeno
