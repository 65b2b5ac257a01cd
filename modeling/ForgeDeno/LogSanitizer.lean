import ForgeDeno.JsonOrder

namespace ForgeDeno

/-- A value of a log record; `headers` is an instance of `Headers`, by its entries. -/
inductive LogValue where
  | null
  | bool (value : Bool)
  | number (value : JsNumber)
  | string (value : JsString)
  | array (items : List LogValue)
  | record (members : List (JsString × LogValue))
  | headers (entries : List (JsString × JsString))

namespace LogValue

mutual

/-- The value `JSON.parse` builds, as a log value. -/
def ofJson : JsonValue → LogValue
  | .null => .null
  | .bool b => .bool b
  | .number n => .number n
  | .string s => .string s
  | .array items => .array (itemsOfJson items)
  | .object members => .record (membersOfJson members)

def itemsOfJson : List JsonValue → List LogValue
  | [] => []
  | item :: items => ofJson item :: itemsOfJson items

def membersOfJson : List (JsString × JsonValue) → List (JsString × LogValue)
  | [] => []
  | member :: members => memberOfJson member :: membersOfJson members

def memberOfJson : JsString × JsonValue → JsString × LogValue
  | (key, item) => (key, ofJson item)

end

mutual

/-- The value `JSON.stringify` writes: a number that is not finite is `null`, and a `Headers` has no
enumerable property of its own. -/
def toJson : LogValue → JsonValue
  | .null => .null
  | .bool b => .bool b
  | .number n => if n.isFinite then .number n else .null
  | .string s => .string s
  | .array items => .array (itemsToJson items)
  | .record members => .object (membersToJson members)
  | .headers _ => .object []

def itemsToJson : List LogValue → List JsonValue
  | [] => []
  | item :: items => toJson item :: itemsToJson items

def membersToJson : List (JsString × LogValue) → List (JsString × JsonValue)
  | [] => []
  | member :: members => memberToJson member :: membersToJson members

def memberToJson : JsString × LogValue → JsString × JsonValue
  | (key, item) => (key, toJson item)

end

def stringify (value : LogValue) : Option JsString := JsonText.stringify value.toJson.toJs

end LogValue

def REDACTED : JsString := js "[REDACTED]"

def MAX_DEPTH : Nat := 32

def normalizeSensitiveKeys (toLowerCase : JsString → JsString) (sensitiveKeys : List JsString) : List JsString :=
  ((sensitiveKeys.map fun key => toLowerCase key.trim).filter fun value => value ≠ []).eraseDups

structure Sanitizer where
  toLowerCase : JsString → JsString
  keys : List JsString

def document? (value : JsString) : Option JsonValue :=
  match value.trim with
  | 0x7B :: rest => JsonText.parse (0x7B :: rest)
  | 0x5B :: rest => JsonText.parse (0x5B :: rest)
  | _ => none

/-- `headers` of a sanitizer with this test. -/
def redactHeaders (isSensitive : JsString → Bool) (entries : List (JsString × JsString)) :
    List (JsString × LogValue) :=
  entries.map fun entry => (entry.1, .string (if isSensitive entry.1 then REDACTED else entry.2))

/-- `#redact`, with the levels left instead of the depth; members are assigned in property order. Deno has
no accessor `__proto__`, so that this name is one like others. -/
def redact (isSensitive : JsString → Bool) : Nat → LogValue → LogValue
  | 0, value => value
  | left + 1, value =>
    match value with
    | .headers entries => .record (redactHeaders isSensitive entries)
    | .array items => .array (items.map (redact isSensitive left))
    | .string s =>
      match document? s with
      | some document => .string (((redact isSensitive left (.ofJson document)).stringify).getD s)
      | none => .string s
    | .record members =>
      .record (members.map fun member =>
        (member.1, if isSensitive member.1 then .string REDACTED else redact isSensitive left member.2))
    | other => other

namespace Sanitizer

def new (toLowerCase : JsString → JsString) (sensitiveKeys : List JsString) : Sanitizer :=
  { toLowerCase, keys := normalizeSensitiveKeys toLowerCase sensitiveKeys }

def isSensitive (s : Sanitizer) (key : JsString) : Bool :=
  s.keys.any fun sensitive => decide (sensitive <:+: s.toLowerCase key)

def value (s : Sanitizer) (value : LogValue) : LogValue := redact s.isSensitive MAX_DEPTH value

end Sanitizer

inductive Reaches (isSensitive : JsString → Bool) : Nat → LogValue → Nat → LogValue → Prop
  | here (left : Nat) (value : LogValue) : Reaches isSensitive left value left value
  | item {left rest : Nat} {items : List LogValue} {item below : LogValue} :
    item ∈ items → Reaches isSensitive left item rest below →
      Reaches isSensitive (left + 1) (.array items) rest below
  | member {left rest : Nat} {members : List (JsString × LogValue)} {key : JsString}
      {item below : LogValue} :
    (key, item) ∈ members → isSensitive key = false →
      Reaches isSensitive left item rest below → Reaches isSensitive (left + 1) (.record members) rest below
  | text {left rest : Nat} {s : JsString} {document : JsonValue} {below : LogValue} :
    document? s = some document → Reaches isSensitive left (.ofJson document) rest below →
      Reaches isSensitive (left + 1) (.string s) rest below

end ForgeDeno
