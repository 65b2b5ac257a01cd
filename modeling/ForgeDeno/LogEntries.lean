import ForgeDeno.CanonicalJson
import ForgeDeno.SanitizerIdentity
import ForgeDeno.LogMiddleware

namespace ForgeDeno

/-- What the formatter asks of the values in a log entry. -/
class EntryValue (V : Type) where
  string : JsString → V
  number : JsNumber → V
  record : Details V → V
  array : List V → V
  /-- `!!value` -/
  truthy : V → Bool
  /-- `value == null` -/
  nullish : V → Bool
  /-- `value !== null && typeof value === "object"` -/
  isObject : V → Bool
  /-- a value that is a number -/
  number? : V → Option JsNumber
  /-- the items of an array -/
  items? : V → Option (List V)
  /-- `Object.entries(value)`, of any value that is not `null` or `undefined` -/
  entries : V → Details V
  truthy_string : ∀ s, truthy (string s) = decide (s ≠ [])
  truthy_number : ∀ n, truthy (number n) = (!n.eq 0 && n.eq n)
  not_nullish : ∀ v, truthy v = true → nullish v = false

def indexed {V : Type} (items : List V) : Details V :=
  items.zipIdx.map fun item => (JsonText.naturalText item.2, item.1)

instance : EntryValue JsonValue where
  string := .string
  number := .number
  record := .object
  array := .array
  truthy
    | .null => false
    | .bool b => b
    | .number n => !n.eq 0 && n.eq n
    | .string s => decide (s ≠ [])
    | .array _ | .object _ => true
  nullish
    | .null => true
    | _ => false
  isObject
    | .array _ | .object _ => true
    | _ => false
  number?
    | .number n => some n
    | _ => none
  items?
    | .array items => some items
    | _ => none
  entries
    | .string s => indexed (s.map fun u => .string [u])
    | .array items => indexed items
    | .object members => members
    | _ => []
  truthy_string _ := rfl
  truthy_number _ := rfl
  not_nullish v truthy := by
    cases v with
    | null => cases truthy
    | _ => rfl

structure LogFormat (V : Type) where
  level : JsString
  timestamp : JsString
  traceID : JsString
  spanID : Option JsString
  message : JsString
  details : V
  process : List V
  method : JsString
  line : V
  latency : V

section marshalling

variable {V : Type} [EntryValue V]

open EntryValue

inductive FieldRule where
  /-- `if (s.key) out.key = s.key` -/
  | truthy
  /-- `if (s.key != null) out.key = s.key` -/
  | present
  /-- `if (s.key && Object.keys(s.key).length > 0) out.key = s.key` -/
  | keyed
  /-- `out.key = s.key ?? ""` -/
  | filled
  /-- `out.key = normalizeLatency(s.key)` -/
  | latency
  /-- the same, if that is above zero -/
  | positiveLatency
deriving DecidableEq

def orElse (field : Option V) (fallback : V) : V := (field.filter fun value => !nullish value).getD fallback

def latencyOf (field : Option V) : JsNumber := normalizeLatency (field.bind number?)

def FieldRule.emit : FieldRule → Option V → Option V
  | .truthy, field => field.filter fun value => EntryValue.truthy value
  | .present, field => field.filter fun value => !nullish value
  | .keyed, field => field.filter fun value => EntryValue.truthy value && !(entries value).isEmpty
  | .filled, field => some (orElse field (string []))
  | .latency, field => some (number (latencyOf field))
  | .positiveLatency, field => if (0 : JsNumber).lt (latencyOf field) then some (number (latencyOf field)) else none

def writeFields (rules : Details FieldRule) (s : Details V) : Details V :=
  rules.foldl (fun out rule => setMember? out rule.1 (rule.2.emit (lookupMember s rule.1))) []

def DETAIL_SLOTS : List JsString :=
  [js "system", js "client", js "protocol", js "method", js "path", js "headers", js "request", js "response"]

def detailExtras (d : Details V) : Details V := d.filter fun member => decide (member.1 ∉ DETAIL_SLOTS)

variable (protoAccessor : Bool)

/-- `for (const [key, value] of entries) out[key] = value`. -/
def assignAll (out entries : Details V) : Details V :=
  entries.foldl
    (fun out member => if assigns protoAccessor member.1 then setMember out member.1 member.2 else out) out

def sortKeys (obj : Details V) : Details V := assignAll protoAccessor [] (sortEntries obj)

/-- The fields that `buildDetails` and `marshalDetails` write alike. -/
def detailFields : Details FieldRule := [
  (js "system", .filled), (js "client", .truthy), (js "protocol", .truthy), (js "method", .truthy),
  (js "path", .truthy), (js "headers", .keyed), (js "request", .present), (js "response", .present)]

/-- Normalizes `details` into a plain map, dropping empty optional fields. -/
def buildDetails (d : Details V) : Details V :=
  sortKeys protoAccessor (assignAll protoAccessor (writeFields detailFields d) (detailExtras d))

def marshalDetails (d : Details V) : Details V :=
  assignAll protoAccessor (writeFields detailFields d) (detailExtras d)

def serviceFields : Details FieldRule := [
  (js "traceID", .truthy), (js "spanID", .truthy), (js "system", .truthy), (js "process", .truthy),
  (js "server", .truthy), (js "protocol", .truthy), (js "method", .truthy), (js "path", .truthy),
  (js "code", .truthy), (js "request", .present), (js "response", .present), (js "status", .truthy),
  (js "latency", .positiveLatency)]

def buildService (s : Details V) : Details V := sortKeys protoAccessor (writeFields serviceFields s)

/-- Normalizes the `process` array into plain maps, dropping empty fields. -/
def buildServices (items : List (Details V)) : List (Details V) := items.map (buildService protoAccessor)

def processFields : Details FieldRule := [
  (js "traceID", .truthy), (js "spanID", .truthy), (js "system", .filled), (js "process", .filled),
  (js "server", .truthy), (js "headers", .present), (js "protocol", .truthy), (js "method", .truthy),
  (js "code", .truthy), (js "path", .truthy), (js "request", .present), (js "response", .present),
  (js "status", .filled), (js "latency", .latency)]

def marshalProcess (s : Details V) : Details V := writeFields processFields s

def normalizeProcessLatency (item : V) : V :=
  if isObject item then
    match lookupMember (entries item) (js "latency") with
    | none => item
    | some latency => record (setMember (entries item) (js "latency") (number (latencyOf (some latency))))
  else item

def normalizeLog (log : LogFormat V) : LogFormat V :=
  { log with
    latency := number (latencyOf (some log.latency))
    process := log.process.map normalizeProcessLatency }

/-- A row of an entry; `none` where there is no object to read a field of. -/
def marshalRow (item : V) : Option V :=
  if nullish item then none else some (record (marshalProcess (entries item)))

/-- The object that an entry is written as; `none` where `marshalEntry` throws before. -/
def entryObject (log : LogFormat V) : Option V := do
  let process ← log.process.mapM marshalRow
  some (record (
    [(js "level", string log.level), (js "timestamp", string log.timestamp), (js "traceID", string log.traceID)] ++
    ((nonempty log.spanID).map fun spanID => (js "spanID", string spanID)).toList ++
    [(js "message", string log.message),
      (js "details", record (marshalDetails protoAccessor
        (entries (orElse (some log.details) (record [(js "system", string [])])))))] ++
    (if process = [] then [] else [(js "process", array process)]) ++
    [(js "method", string log.method), (js "line", orElse (some log.line) (number 0)),
      (js "latency", number (latencyOf (some log.latency)))]))

end marshalling

/-- What the layouts ask of the values in a log entry, beyond the marshalling. A text is `none` where the
conversion throws. -/
class EntryText (V : Type) extends EntryValue V where
  /-- a value that `JSON.parse` builds -/
  ofJson : JsonValue → V
  /-- a value that is a string -/
  string? : V → Option JsString
  /-- `JSON.stringify(value)`, with `none` inside for `undefined` -/
  stringify : V → Option (Option JsString)
  /-- `String(value)` -/
  toText : V → Option JsString
  /-- a value inside a template literal -/
  template : V → Option JsString

section layouts

variable {V : Type} [EntryText V]

open EntryValue EntryText

def toJSON (v : V) : Option JsString :=
  if nullish v then some []
  else do
    let out ← stringify v
    match out with
    | some text => some text
    | none => toText v

def textValue (v : V) : Option JsString :=
  if nullish v then some []
  else
    match string? v with
    | some text => some text
    | none => toJSON v

variable (protoAccessor : Bool)

def marshalEntry (log : LogFormat V) : Option JsString := do
  let object ← entryObject protoAccessor log
  let text ← stringify object
  text

/-- Renders the canonical JSON layout; `none` where it throws. -/
def formatJSON (log : LogFormat V) : Option JsString := marshalEntry protoAccessor (normalizeLog log)

inductive TextForm where
  | raw
  | json
  | milliseconds
deriving DecidableEq

def TextForm.render : TextForm → V → Option JsString
  | .raw, v => template v
  | .json, v => toJSON v
  | .milliseconds, v => (template v).map (· ++ js "ms")

def detailTexts : Details (FieldRule × TextForm) := [
  (js "system", .truthy, .raw), (js "client", .truthy, .raw), (js "protocol", .truthy, .raw),
  (js "method", .truthy, .raw), (js "path", .truthy, .raw), (js "headers", .keyed, .json),
  (js "request", .present, .json), (js "response", .present, .json)]

def processTexts : Details (FieldRule × TextForm) := [
  (js "traceID", .truthy, .raw), (js "spanID", .truthy, .raw), (js "system", .truthy, .raw),
  (js "process", .truthy, .raw), (js "server", .truthy, .raw), (js "protocol", .truthy, .raw),
  (js "method", .truthy, .raw), (js "path", .truthy, .raw), (js "code", .truthy, .raw),
  (js "request", .present, .json), (js "response", .present, .json), (js "status", .truthy, .raw),
  (js "latency", .truthy, .milliseconds)]

def joinFields (parts : List JsString) : JsString := (js ", ").intercalate parts

def showField (key : JsString) (text : Option JsString) : Option JsString := text.map (key ++ 0x3D :: ·)

def showFields (rules : Details (FieldRule × TextForm)) (s : Details V) : Option (List JsString) :=
  (rules.filterMap fun rule => (rule.2.1.emit (lookupMember s rule.1)).map fun value =>
    showField rule.1 (rule.2.2.render value)).mapM id

def showRow (item : V) : Option JsString :=
  if nullish item then none
  else do
    let fields ← showFields processTexts (entries item)
    some (js "\x7b" ++ joinFields fields ++ js "\x7d")

def showDetails (d : Details V) : Option (List JsString) := do
  let fields ← showFields detailTexts d
  let extras ← (detailExtras d).mapM fun extra => showField extra.1 (textValue extra.2)
  some (fields ++ extras)

/-- Renders the `[ts] [level] [traceID] method:line - message ...` text layout; `none` where it throws. -/
def formatText (log : LogFormat V) : Option JsString := do
  let latency := latencyOf (some log.latency)
  let log := normalizeLog log
  let line ← template log.line
  let out := js "[" ++ log.timestamp ++ js "] [" ++ log.level ++ js "] [" ++ log.traceID ++ js "] " ++
    log.method ++ js ":" ++ line ++ js " - " ++ log.message
  let out := if (0 : JsNumber).lt latency then out ++ js " latency=" ++ JsonText.numberText latency ++ js "ms"
    else out
  -- there are details exactly where one of these fields is shown
  let fields ← showDetails (entries (orElse (some log.details) (record [(js "system", string [])])))
  let out := if fields = [] then out
    else out ++ js " | details=\x7b" ++ joinFields fields ++ js "\x7d"
  let rows ← log.process.mapM showRow
  if rows = [] then some out else some (out ++ js " | process=[" ++ joinFields rows ++ js "]")

end layouts

end ForgeDeno
