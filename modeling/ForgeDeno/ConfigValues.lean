import ForgeDeno.JsonText

namespace JsString

def startsWith (s : JsString) (u : UInt16) : Bool := s.head? = some u

def endsWith (s : JsString) (u : UInt16) : Bool := s.getLast? = some u

def join (separator : JsString) : List JsString → JsString
  | [] => []
  | [s] => s
  | s :: t :: rest => s ++ separator ++ join separator (t :: rest)

end JsString

namespace ForgeDeno

open JsonText

inductive ConfigValue where
  | null
  | bool (value : Bool)
  | number (value : JsNumber)
  | string (value : JsString)
  | list (items : List ConfigValue)
  | record (members : List (JsString × ConfigValue))

abbrev Settings := List (JsString × ConfigValue)

/-- The host's `toLowerCase` and `toUpperCase` of strings. -/
structure Casing where
  toLowerCase : JsString → JsString
  toUpperCase : JsString → JsString

namespace ConfigValue

mutual

def ofJson : JsonValue → ConfigValue
  | .null => .null
  | .bool b => .bool b
  | .number n => .number n
  | .string s => .string s
  | .array items => .list (itemsOfJson items)
  | .object members => .record (membersOfJson members)

def itemsOfJson : List JsonValue → List ConfigValue
  | [] => []
  | item :: items => ofJson item :: itemsOfJson items

def membersOfJson : List (JsString × JsonValue) → Settings
  | [] => []
  | member :: members => memberOfJson member :: membersOfJson members

def memberOfJson : JsString × JsonValue → JsString × ConfigValue
  | (key, item) => (key, ofJson item)

end

mutual

/-- `String(value)`; an object that has a `toString` of its own, which is no function, throws. -/
def toText : ConfigValue → Option JsString
  | .null => some (js "null")
  | .bool b => some (if b then js "true" else js "false")
  | .number n => some (numberText n)
  | .string s => some s
  | .list items => (itemTexts items).map (JsString.join (js ","))
  | .record members => if (lookupMember members (js "toString")).isSome then none else some (js "[object Object]")

def itemTexts : List ConfigValue → Option (List JsString)
  | [] => some []
  | item :: items => do
    let text ← match item with
      | .null => some []
      | other => toText other
    let rest ← itemTexts items
    some (text :: rest)

end

def isRecord : ConfigValue → Bool
  | .record _ => true
  | _ => false

def isString : ConfigValue → Bool
  | .string _ => true
  | _ => false

end ConfigValue

/-- A literal of the form `[+-]?(\d+\.?\d*|\.\d+)(e[+-]?\d+)?` and the number it denotes. -/
def decimal? (s : JsString) : Option JsNumber :=
  let (negative, body) : Bool × JsString := match s with
    | 0x2D :: rest => (true, rest)
    | 0x2B :: rest => (false, rest)
    | _ => (false, s)
  let whole := body.takeWhile isDigit
  let (fraction, rest) : JsString × JsString := match body.dropWhile isDigit with
    | 0x2E :: rest => (rest.takeWhile isDigit, rest.dropWhile isDigit)
    | rest => ([], rest)
  if whole = [] ∧ fraction = [] then none
  else match parseExponent rest with
    | some (exponent, []) =>
      let value := (digitsValue (whole ++ fraction) : ℚ) * pow10 (exponent - fraction.length)
      some (JsNumber.ofRat (if negative then -value else value) negative)
    | _ => none

def radixValue? (base : Nat) (s : JsString) : Option Nat :=
  if s = [] then none
  else s.foldlM (fun n u => (hexDigit? u).bind fun d => if d < base then some (base * n + d) else none) 0

def toNumber (value : JsString) : JsNumber :=
  match value.trim with
  | [] => 0
  | 0x30 :: u :: digits =>
    let base := if u = 0x78 ∨ u = 0x58 then 16 else if u = 0x6F ∨ u = 0x4F then 8
      else if u = 0x62 ∨ u = 0x42 then 2 else 0
    if base = 0 then (decimal? (0x30 :: u :: digits)).getD .nan
    else ((radixValue? base digits).map fun n => JsNumber.ofRat n false).getD .nan
  | s =>
    if s = js "Infinity" ∨ s = js "+Infinity" then .infinity false
    else if s = js "-Infinity" then .infinity true
    else (decimal? s).getD .nan

def splitCommaSeparated (raw : JsString) : List JsString :=
  if raw = [] then []
  else ((raw.split 0x2C).map JsString.trim).filter fun part => part ≠ []

section casing

variable (casing : Casing)

def parseBoolean (value : JsString) : Option Bool :=
  let value := casing.toLowerCase value.trim
  if value = js "1" ∨ value = js "t" ∨ value = js "true" then some true
  else if value = js "0" ∨ value = js "f" ∨ value = js "false" then some false
  else none

def inferScalar (raw : JsString) : ConfigValue :=
  let value := raw.trim
  if value = [] then .string []
  else
    let lower := casing.toLowerCase value
    if lower = js "true" then .bool true
    else if lower = js "false" then .bool false
    else match decimal? value with
      | some parsed => if parsed.isFinite then .number parsed else .string value
      | none => .string value

def inner (value : JsString) : JsString := value.tail.dropLast

def bareList (value : JsString) (stringsOnly : Bool) : List ConfigValue :=
  (splitCommaSeparated value).map fun item => if stringsOnly then .string item else inferScalar casing item

def decodedList (value : JsString) (stringsOnly : Bool) : Option (List ConfigValue) :=
  match JsonText.parse value with
  | some (.array items) =>
    let items := ConfigValue.itemsOfJson items
    if stringsOnly then (items.mapM ConfigValue.toText).map fun texts => texts.map ConfigValue.string
    else some items
  | _ => none

def parseList (value : JsString) (stringsOnly : Bool) : List ConfigValue :=
  if value.startsWith 0x5B then
    match decodedList value stringsOnly with
    | some items => items
    | none =>
      if value.endsWith 0x5D then bareList casing (inner value) stringsOnly
      else bareList casing value stringsOnly
  else bareList casing value stringsOnly

def parseEnvValue (raw : JsString) (template : ConfigValue) : ConfigValue :=
  let value := raw.trim
  match template with
  | .bool _ => match parseBoolean casing value with
    | some parsed => .bool parsed
    | none => .string value
  | .number _ =>
    let parsed := toNumber value
    if parsed.isFinite then .number parsed else .string value
  | .list items => .list (parseList casing value (items.all ConfigValue.isString))
  | _ => .string value

def envNameFromPath (path : List JsString) : JsString :=
  JsString.join (js "_")
    (((path.map JsString.trim).filter fun part => part ≠ []).map casing.toUpperCase)

def splitKey (key : JsString) : List JsString :=
  ((key.split 0x2E).map fun part => casing.toLowerCase part.trim).filter fun part => part ≠ []

end casing

def readPath (node : ConfigValue) : List JsString → Option ConfigValue
  | [] => some node
  | part :: path =>
    match node with
    | .record members => (lookupMember members part).bind fun child => readPath child path
    | _ => none

def writePath (settings : Settings) : List JsString → ConfigValue → Settings
  | [], _ => settings
  | [part], value => setMember settings part value
  | part :: next :: path, value =>
    let child := match lookupMember settings part with
      | some (.record members) => members
      | _ => []
    setMember settings part (.record (writePath child (next :: path) value))

mutual

def merged (existing : Option ConfigValue) : ConfigValue → ConfigValue
  | .record source =>
    match existing with
    | some (.record target) => .record (mergeSettings target source)
    | _ => .record source
  | value => value

def mergeMember (target : Settings) : JsString × ConfigValue → Settings
  | (key, value) => setMember target key (merged (lookupMember target key) value)

def mergeSettings (target : Settings) : Settings → Settings
  | [] => target
  | member :: source => mergeSettings (mergeMember target member) source

end

mutual

def insensitive (casing : Casing) : ConfigValue → ConfigValue
  | .list items => .list (insensitiveItems casing items)
  | .record members => .record (insensitiveMembers casing [] members)
  | value => value

def insensitiveItems (casing : Casing) : List ConfigValue → List ConfigValue
  | [] => []
  | item :: items => insensitive casing item :: insensitiveItems casing items

def insensitiveMembers (casing : Casing) (result : Settings) : Settings → Settings
  | [] => result
  | member :: members =>
    insensitiveMembers casing (insensitiveMember casing result member) members

def insensitiveMember (casing : Casing) (result : Settings) : JsString × ConfigValue → Settings
  | (key, nested) => setMember result (casing.toLowerCase key) (insensitive casing nested)

end

mutual

/-- `forEachLeaf` with a visit that may write another value at the leaf's own path. -/
def mapLeaves (visit : List JsString → ConfigValue → ConfigValue) (path : List JsString) : Settings → Settings
  | [] => []
  | member :: members => mapMember visit path member :: mapLeaves visit path members

def mapMember (visit : List JsString → ConfigValue → ConfigValue) (path : List JsString) :
    JsString × ConfigValue → JsString × ConfigValue
  | (key, value) => (key, mapLeaf visit (path ++ [key]) value)

def mapLeaf (visit : List JsString → ConfigValue → ConfigValue) (path : List JsString) : ConfigValue → ConfigValue
  | .record members => .record (mapLeaves visit path members)
  | value => visit path value

end

end ForgeDeno
