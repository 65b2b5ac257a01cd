import ForgeDeno.Base64Url
import ForgeDeno.ExceptRules
import ForgeDeno.JsonUtf8

namespace ForgeDeno

open ExceptRules

/-- What `JSON.stringify` meets in a claims object, with every `toJSON` applied. -/
inductive ClaimValue where
  | null
  | bool (value : Bool)
  | number (value : JsNumber)
  | string (value : JsString)
  | array (items : List ClaimValue)
  | object (members : List (JsString × ClaimValue))
  /-- `undefined`, a function or a symbol -/
  | omitted
  /-- a bigint, a reference to an enclosing object, or a getter or `toJSON` that throws -/
  | throwing

/-- What a JWT service throws: a `JWTError`, a `TypeError`, a `SyntaxError`, what `decodeBase64Url` throws,
and what comes from outside (a strategy, a validator, a `toJSON`). -/
inductive JwtThrown where
  | jwtError (message : JsString)
  | typeError (message : JsString)
  | syntaxError
  | codec
  | foreign
deriving DecidableEq

namespace ClaimValue

mutual

def Ordered : ClaimValue → Prop
  | .array items => ItemsOrdered items
  | .object members =>
    (members.map Prod.fst).Pairwise (fun a b => precedes a b = true) ∧ MembersOrdered members
  | _ => True

def ItemsOrdered : List ClaimValue → Prop
  | [] => True
  | item :: items => item.Ordered ∧ ItemsOrdered items

def MembersOrdered : List (JsString × ClaimValue) → Prop
  | [] => True
  | member :: members => MemberOrdered member ∧ MembersOrdered members

def MemberOrdered : JsString × ClaimValue → Prop
  | (_, item) => item.Ordered

end

mutual

/-- The value whose text `JSON.stringify` writes; `none` where the result is `undefined`. -/
def serialize : ClaimValue → Except JwtThrown (Option JsonValue)
  | .null => .ok (some .null)
  | .bool b => .ok (some (.bool b))
  | .number n => .ok (some (if n.isFinite then .number n else .null))
  | .string s => .ok (some (.string s))
  | .array items => (serializeItems items).map fun items => some (.array items)
  | .object members => (serializeMembers members).map fun members => some (.object members)
  | .omitted => .ok none
  | .throwing => .error .foreign

def serializeItems : List ClaimValue → Except JwtThrown (List JsonValue)
  | [] => .ok []
  | item :: items => do
    let first ← serialize item
    let rest ← serializeItems items
    return first.getD .null :: rest

def serializeMembers : List (JsString × ClaimValue) → Except JwtThrown (List (JsString × JsonValue))
  | [] => .ok []
  | member :: members => do
    let first ← serializeMember member
    let rest ← serializeMembers members
    return first.toList ++ rest

def serializeMember : JsString × ClaimValue → Except JwtThrown (Option (JsString × JsonValue))
  | (key, item) => (serialize item).map fun value => value.map fun value => (key, value)

end

theorem serializeMembers_keys {members : List (JsString × ClaimValue)}
    {written : List (JsString × JsonValue)} (h : serializeMembers members = .ok written) :
    (written.map Prod.fst).Sublist (members.map Prod.fst) := by
  induction members generalizing written with
  | nil => cases h; exact .refl []
  | cons member members ih =>
    obtain ⟨first, one, h⟩ := bind_ok.mp h
    obtain ⟨rest, others, h⟩ := bind_ok.mp h
    cases h
    obtain ⟨key, item⟩ := member
    obtain ⟨value, _, rfl⟩ := map_ok one
    cases value with
    | none => exact (ih others).cons _
    | some value => exact (ih others).cons_cons _

mutual

theorem serialize_wellFormed : ∀ (value : ClaimValue) (v : JsonValue), value.Ordered →
    value.serialize = .ok (some v) → v.WellFormed
  | .null, v, _, h => by cases h; trivial
  | .bool _, v, _, h => by cases h; trivial
  | .string _, v, _, h => by cases h; trivial
  | .number n, v, _, h => by
    have same := Option.some.inj (Except.ok.inj h)
    subst same
    split
    next finite => exact finite
    next => trivial
  | .array items, v, ordered, h => by
    obtain ⟨written, parts, same⟩ := map_ok h
    cases same
    exact serializeItems_wellFormed items written ordered parts
  | .object members, v, ordered, h => by
    obtain ⟨written, parts, same⟩ := map_ok h
    cases same
    exact ⟨ordered.1.sublist (serializeMembers_keys parts),
      serializeMembers_wellFormed members written ordered.2 parts⟩
  | .omitted, v, _, h => by cases h
  | .throwing, v, _, h => by cases h

theorem serializeItems_wellFormed : ∀ (items : List ClaimValue) (written : List JsonValue),
    ItemsOrdered items → serializeItems items = .ok written → JsonValue.ItemsWellFormed written
  | [], written, _, h => by cases h; trivial
  | item :: items, written, ordered, h => by
    obtain ⟨first, one, h⟩ := bind_ok.mp h
    obtain ⟨rest, others, h⟩ := bind_ok.mp h
    cases h
    refine ⟨?_, serializeItems_wellFormed items rest ordered.2 others⟩
    cases first with
    | none => trivial
    | some v => exact serialize_wellFormed item v ordered.1 one

theorem serializeMembers_wellFormed : ∀ (members : List (JsString × ClaimValue))
    (written : List (JsString × JsonValue)), MembersOrdered members →
    serializeMembers members = .ok written → JsonValue.MembersWellFormed written
  | [], written, _, h => by cases h; trivial
  | (key, item) :: members, written, ordered, h => by
    obtain ⟨first, one, h⟩ := bind_ok.mp h
    obtain ⟨rest, others, h⟩ := bind_ok.mp h
    cases h
    have later := serializeMembers_wellFormed members rest ordered.2 others
    obtain ⟨value, done, rfl⟩ := map_ok one
    cases value with
    | none => exact later
    | some v => exact ⟨serialize_wellFormed item v ordered.1 done, later⟩

end

end ClaimValue

structure Claims where
  value : ClaimValue
  ordered : value.Ordered

structure Strategy where
  algorithm : JsString
  sign : (signingInput : Bytes) → Except JwtThrown Bytes
  verify : (signingInput signature : Bytes) → Except JwtThrown Bool

abbrev Validator := JsonValue → Except JwtThrown JsonValue

structure Service where
  strategy : Strategy
  validators : List Validator

structure Token where
  raw : JsString
  header : JsonValue
  claims : JsonValue
  signature : Bytes

/-- The call of `strategy.verify` with its answer. -/
structure StrategyCall where
  signingInput : Bytes
  signature : Bytes
  answer : Except JwtThrown Bool

/-- A run of `Service.verify`: its call of the strategy, the claims that its validators were given, and
its result. -/
structure Verification where
  call : Option StrategyCall
  validated : List JsonValue
  result : Except JwtThrown Token

mutual

def templateText : JsonValue → Option JsString
  | .null => some (js "null")
  | .bool b => some (if b then js "true" else js "false")
  | .number n => some (JsonText.numberText n)
  | .string s => some s
  | .array items => (templateItems items).map fun texts => (js ",").intercalate texts
  -- an own `toString` is no function, and `valueOf` gives no primitive value
  | .object members =>
    if (lookupMember members (js "toString")).isSome then none else some (js "[object Object]")

def templateItems : List JsonValue → Option (List JsString)
  | [] => some []
  -- a null is empty in `join`
  | .null :: items => (templateItems items).map fun rest => [] :: rest
  | item :: items => do
    let first ← templateText item
    let rest ← templateItems items
    return first :: rest

end

namespace Service

def algOf : JsonValue → Except JwtThrown (Option JsonValue)
  | .null => .error (.typeError (js "Cannot read properties of null (reading 'alg')"))
  | .object members => .ok (lookupMember members (js "alg"))
  | _ => .ok none

def sameAlg : Option JsonValue → JsString → Bool
  | some (.string text), algorithm => text == algorithm
  | _, _ => false

def algText : Option JsonValue → Option JsString
  | none => some (js "undefined")
  | some value => templateText value

def rejectAlg (alg : Option JsonValue) : Except JwtThrown JsonValue :=
  match algText alg with
  | some text => .error (.jwtError (js "jwt: algorithm mismatch: " ++ text))
  | none => .error (.typeError (js "Cannot convert object to primitive value"))

section codec

variable (base64url : Base64Url)

/-- `encodeBase64Url(bytes(text))`, where the text is `undefined` or a string -/
def b64 (text : Option JsString) : JsString := base64url.encode (JsString.utf8Encode (text.getD []))

def decodeJSON (part : JsString) : Except JwtThrown JsonValue :=
  match base64url.decode part with
  | none => .error .codec
  | some bytes =>
    match JsonText.parse (JsString.utf8Decode bytes) with
    | none => .error .syntaxError
    | some value => .ok value

def header (algorithm : JsString) : JsonValue :=
  .object [(js "typ", .string (js "JWT")), (js "alg", .string algorithm)]

def sign (service : Service) (claims : Claims) : Except JwtThrown JsString := do
  let headerPart := b64 base64url (some (header service.strategy.algorithm).text)
  let serialized ← claims.value.serialize
  let claimsPart := b64 base64url (serialized.map JsonValue.text)
  let signingInput := headerPart ++ 0x2E :: claimsPart
  let signature ← service.strategy.sign (JsString.utf8Encode signingInput)
  return signingInput ++ 0x2E :: base64url.encode signature

def checkHeader (algorithm headerPart : JsString) : Except JwtThrown JsonValue := do
  let header ← decodeJSON base64url headerPart
  let alg ← algOf header
  if sameAlg alg algorithm then return header else rejectAlg alg

def readSignature (signaturePart : JsString) : Except JwtThrown Bytes :=
  match base64url.decode signaturePart with
  | some signature => .ok signature
  | none => .error .codec

def runValidators : List Validator → JsonValue → List JsonValue × Except JwtThrown JsonValue
  | [], claims => ([], .ok claims)
  | validate :: rest, claims =>
    match validate claims with
    | .error thrown => ([claims], .error thrown)
    | .ok left =>
      let (given, result) := runValidators rest left
      (claims :: given, result)

/-- `verify` of a token with three parts, once its header and its signature are read. -/
def verifyParts (service : Service) (token : JsString) (extra : List Validator)
    (headerPart claimsPart : JsString) (header : JsonValue) (signature : Bytes) : Verification :=
  let signingInput := JsString.utf8Encode (headerPart ++ 0x2E :: claimsPart)
  let answer := service.strategy.verify signingInput signature
  let call := some ⟨signingInput, signature, answer⟩
  match answer with
  | .error thrown => ⟨call, [], .error thrown⟩
  | .ok false => ⟨call, [], .error (.jwtError (js "jwt: signature verification failed"))⟩
  | .ok true =>
    match decodeJSON base64url claimsPart with
    | .error thrown => ⟨call, [], .error thrown⟩
    | .ok claims =>
      let (given, result) := runValidators (service.validators ++ extra) claims
      ⟨call, given, result.map fun left => ⟨token, header, left, signature⟩⟩

def verify (service : Service) (token : JsString) (extra : List Validator) : Verification :=
  match token.split 0x2E with
  | [headerPart, claimsPart, signaturePart] =>
    match checkHeader base64url service.strategy.algorithm headerPart with
    | .error thrown => ⟨none, [], .error thrown⟩
    | .ok header =>
      match readSignature base64url signaturePart with
      | .error thrown => ⟨none, [], .error thrown⟩
      | .ok signature => verifyParts base64url service token extra headerPart claimsPart header signature
  | _ => ⟨none, [], .error (.jwtError (js "jwt: malformed token"))⟩

end codec

end Service

end ForgeDeno
