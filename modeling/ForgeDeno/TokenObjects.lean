import ForgeDeno.PublicKeys

namespace ForgeDeno

namespace Token

def request (c : TokenCall) : TokenProgram c.Reply := CallProgram.ask c

def findObjects (template : List Attribute) : TokenProgram (List Nat) := request (.findObjects template)

def getAttributes (object : Nat) (types : List Nat) : TokenProgram (List Attribute) :=
  request (.getAttributes object types)

def setAttributes (object : Nat) (template : List Attribute) : TokenProgram Unit :=
  request (.setAttributes object template)

def destroyObject (object : Nat) : TokenProgram Unit := request (.destroyObject object)

def generateKey (mechanism : Nat) (template : List Attribute) : TokenProgram Nat :=
  request (.generateKey mechanism template)

def generateKeyPair (mechanism : Nat) (publicTemplate privateTemplate : List Attribute) :
    TokenProgram (Nat × Nat) :=
  request (.generateKeyPair mechanism publicTemplate privateTemplate)

def deriveKey (mechanism : Nat) (params : MechanismParams) (base : Nat) (template : List Attribute) :
    TokenProgram Nat :=
  request (.deriveKey mechanism (some params) base template)

def encrypt (mechanism : Nat) (params : MechanismParams) (key : Nat) (plaintext : Bytes) : TokenProgram Bytes :=
  request (.encrypt mechanism (some params) key plaintext)

def decrypt (mechanism : Nat) (params : MechanismParams) (key : Nat) (ciphertext : Bytes) : TokenProgram Bytes :=
  request (.decrypt mechanism (some params) key ciphertext)

def sign (mechanism : Nat) (params : Option MechanismParams) (key : Nat) (message : Bytes) : TokenProgram Bytes :=
  request (.sign mechanism params key message)

def lift {α : Type} (x : Except TokenFailure α) : TokenProgram α := .done x

end Token

/-- `new Pkcs11KeyNotFoundError(formatKeyUri(uri), detail)`; the text of the URI may fail first. -/
def keyNotFound (uri : KeyUri) (detail : JsString) : TokenFailure :=
  match formatKeyUri uri with
  | .ok text =>
    { name := js "Pkcs11KeyNotFoundError",
      message := js "pkcs11: no object matches the key uri: " ++
        (if detail = [] then text else detail ++ js ": " ++ text) }
  | .error failure => failure

/-- `ulongAttribute(AttributeType.Class, objectClass)`; `BigInt` of what is no number throws. -/
def classAttribute (objectClass : ObjectClass) : Except TokenFailure Attribute :=
  match objectClass with
  | .inherited name =>
    .error
      { name := js "SyntaxError",
        message := js "Cannot convert " ++ inheritedText name ++ js " to a BigInt" }
  | objectClass => .ok (ulongAttribute AttributeType.Class (objectClass.value?.getD 0))

def searchTemplate (uri : KeyUri) (objectClass : Option ObjectClass) :
    Except TokenFailure (List Attribute) := do
  let classTerm ← objectClass.mapM classAttribute
  return classTerm.toList ++
    (uri.label?.map fun label => textAttribute AttributeType.Label label).toList ++
    (uri.id?.map fun id => bytesAttribute AttributeType.Id id).toList

def firstHandle (uri : KeyUri) (handles : List Nat) : Except TokenFailure Nat :=
  match handles with
  | [] => .error (keyNotFound uri [])
  | handle :: _ => .ok handle

def findObject (uri : KeyUri) (objectClass : Option ObjectClass) : TokenProgram Nat := do
  let template ← Token.lift (searchTemplate uri objectClass)
  let handles ← Token.findObjects template
  Token.lift (firstHandle uri handles)

def resolveObject (uri : KeyUri) (fallback : ObjectClass) : TokenProgram Nat :=
  match uri.objectClass with
  | some objectClass => findObject uri (some objectClass)
  | none => (findObject uri (some fallback)).handle fun _ => some (findObject uri none)

def attemptObject (candidate : KeyUri) (objectClass : ObjectClass) : TokenProgram (Option Nat) :=
  (do let handle ← findObject candidate (some objectClass); pure (some handle) : TokenProgram _).handle
    fun _ => some (pure none)

def certificateFor (uri : KeyUri) : TokenProgram (Nat × ObjectClass) := do
  match ← attemptObject uri .certificate with
  | some handle => pure (handle, .certificate)
  | none => .fail (keyNotFound uri (js "no public key or certificate"))

def publicObjectFor (uri : KeyUri) : TokenProgram (Nat × ObjectClass) := do
  match ← attemptObject uri .publicKey with
  | some direct => pure (direct, .publicKey)
  | none =>
    match uri.id? with
    | none => certificateFor uri
    | some id =>
      let byId : KeyUri := { token := uri.token, id := some id }
      match ← attemptObject byId .publicKey with
      | some publicById => pure (publicById, .publicKey)
      | none =>
        match ← attemptObject byId .certificate with
        | some certificateById => pure (certificateById, .certificate)
        | none => certificateFor uri

end ForgeDeno
