import ForgeDeno.LogEntries

namespace ForgeDeno

open EntryValue EntryText

mutual

/-- A JSON value inside a template literal; an object with a property `toString` has no text. -/
def jsonTemplate : JsonValue → Option JsString
  | .null => some (js "null")
  | .bool b => some (if b then js "true" else js "false")
  | .number n => some (JsonText.numberText n)
  | .string s => some s
  | .array items => (jsonTemplates items).map fun texts => (js ",").intercalate texts
  | .object members =>
    if (lookupMember members (js "toString")).isSome then none else some (js "[object Object]")

def jsonTemplates : List JsonValue → Option (List JsString)
  | [] => some []
  | .null :: items => (jsonTemplates items).map ([] :: ·)
  | item :: items => do
    let text ← jsonTemplate item
    let texts ← jsonTemplates items
    some (text :: texts)

end

instance : EntryText JsonValue where
  ofJson := id
  string?
    | .string s => some s
    | _ => none
  stringify v := some (some v.text)
  toText := jsonTemplate
  template := jsonTemplate

inductive TemplateError where
  | typeError
  | message (text : JsString)

inductive TemplateValue (V : Type) where
  /-- the entry itself -/
  | entry
  | undefined
  | value (value : V)
  /-- a function that an object inherits, with its `String` -/
  | inherited (text : JsString)

structure TemplateHost (V : Type) where
  toLowerCase : JsString → JsString
  /-- `key in object` and `object[key]`, for what is found on the prototypes of an object -/
  inherited : TemplateValue V → JsString → Option (TemplateValue V)
  /-- a function that the table of template functions inherits from `Object.prototype` -/
  inheritedFunction : JsString → Option (TemplateValue V → Except TemplateError (TemplateValue V))

section templates

variable {V : Type} [EntryText V] (host : TemplateHost V) (protoAccessor : Bool) (log : LogFormat V)

def LogFormat.members : Details V :=
  [(js "level", string log.level), (js "timestamp", string log.timestamp), (js "traceID", string log.traceID)] ++
  (log.spanID.map fun spanID => (js "spanID", string spanID)).toList ++
  [(js "message", string log.message), (js "details", log.details), (js "process", array log.process),
    (js "method", string log.method), (js "line", log.line), (js "latency", log.latency)]

def orTypeError {α : Type} : Option α → Except TemplateError α
  | some a => .ok a
  | none => .error .typeError

def TemplateValue.record? : TemplateValue V → Option (Details V)
  | .entry => some log.members
  | .value v => if isObject v then some (entries v) else none
  | _ => none

def KNOWN_ZERO : Details (TemplateValue V) :=
  let text : TemplateValue V := .value (string [])
  let zero : TemplateValue V := .value (number 0)
  [(js "Timestamp", text), (js "TraceID", text), (js "Level", text), (js "Message", text), (js "Method", text),
    (js "Line", zero), (js "Latency", zero), (js "Details", .value (record [])),
    (js "Process", .value (array [])), (js "System", text), (js "Client", text), (js "Protocol", text),
    (js "Path", text), (js "Headers", .undefined), (js "Request", .undefined), (js "Response", .undefined),
    (js "SpanID", text), (js "Server", text), (js "Code", zero), (js "Status", text)]

def readField (current : TemplateValue V) (members : Details V) (segment : JsString) : Option (TemplateValue V) :=
  ((lookupMember members segment).map TemplateValue.value).or (host.inherited current segment)

def resolveSegment (current : TemplateValue V) (segment : JsString) : Except TemplateError (TemplateValue V) :=
  match current.record? log with
  | none =>
    .error (.message (js "template: can't evaluate field " ++ segment ++ js " in non-object value"))
  | some members =>
    let lower := host.toLowerCase (segment.take 1) ++ segment.drop 1
    let alias_ : Option (TemplateValue V) := match current with
      | .entry => if segment = js "Process" then (lookupMember members (js "process")).map .value else none
      | _ => none
    match (readField host current members segment).or ((readField host current members lower).or
        (alias_.or (lookupMember KNOWN_ZERO segment))) with
    | some next => .ok next
    | none => .error (.message (js "template: can't evaluate field " ++ segment))

def resolveField (path : JsString) : Except TemplateError (TemplateValue V) :=
  if path = js "." then .ok .entry
  else (JsString.split 0x2E (path.drop 1)).foldlM (resolveSegment host log) .entry

def tokenize (action : JsString) : Except TemplateError (List JsString) :=
  let unbalanced : TemplateError :=
    .message (js "template: unbalanced parenthesis in " ++ JsonText.quote action)
  let rec loop : JsString → Nat → JsString → Except TemplateError (List JsString)
    | [], depth, current =>
      if depth ≠ 0 then .error unbalanced else .ok (if current = [] then [] else [current])
    | char :: rest, depth, current =>
      if char = 0x29 ∧ depth = 0 then .error unbalanced
      else
        let depth := if char = 0x28 then depth + 1 else if char = 0x29 then depth - 1 else depth
        if char = 0x20 ∧ depth = 0 then
          (loop rest depth []).map fun tokens => if current = [] then tokens else current :: tokens
        else loop rest depth (current ++ [char])
  loop action 0 []

/-- An argument that is `null` or `undefined` is replaced. -/
def TemplateValue.orValue (fallback : V) : TemplateValue V → TemplateValue V
  | .undefined => .value fallback
  | .value v => .value (if nullish v then fallback else v)
  | other => other

def templateFunction (name : JsString) : Option (TemplateValue V → Except TemplateError (TemplateValue V)) :=
  if name = js "json" then some fun value =>
    match value with
    | .entry => (orTypeError (marshalEntry protoAccessor log)).map fun text => .value (string text)
    | .undefined => .ok (.value (string []))
    | .value v => (orTypeError (toJSON v)).map fun text => .value (string text)
    | .inherited text => .ok (.value (string text))
  else if name = js "buildDetails" then some fun value =>
    match value.orValue (record [(js "system", string [])]) with
    | .entry => .ok (.value (record (buildDetails protoAccessor log.members)))
    | .value v => .ok (.value (record (buildDetails protoAccessor (entries v))))
    | _ => .ok (.value (record (buildDetails protoAccessor [])))
  else if name = js "buildServices" then some fun value =>
    match value.orValue (array []) with
    | .value v => do
      let items ← orTypeError (items? v)
      let items ← orTypeError (items.mapM fun item => if nullish item then none else some (entries item))
      .ok (.value (array ((buildServices protoAccessor items).map record)))
    | _ => .error .typeError
  else host.inheritedFunction name

/-- `evalTokens` and `evalArg`; the first argument bounds the parentheses in parentheses. -/
def evalTokens : Nat → List JsString → Except TemplateError (TemplateValue V)
  | 0, _ => .error .typeError
  | _, [] => .error .typeError
  | depth + 1, head :: args =>
    if head.head? = some 0x2E then
      if args ≠ [] then .error (.message (js "template: unexpected arguments after " ++ head))
      else resolveField host log head
    else
      match templateFunction host protoAccessor log head with
      | none => .error (.message (js "template: function " ++ JsonText.quote head ++ js " not defined"))
      | some fn =>
        match args with
        | [arg] => do
          let value ←
            if arg.head? = some 0x28 ∧ arg.getLast? = some 0x29 then do
              let tokens ← tokenize (JsString.trim (arg.drop 1).dropLast)
              evalTokens depth tokens
            else if arg.head? = some 0x2E then resolveField host log arg
            else .error (.message (js "template: unexpected argument " ++ JsonText.quote arg))
          fn value
        | _ => .error (.message (js "template: " ++ head ++ js " expects exactly one argument"))

def evalAction (action : JsString) : Except TemplateError (TemplateValue V) := do
  let tokens ← tokenize action
  if tokens = [] then .error (.message (js "template: empty action"))
  else evalTokens host protoAccessor log (action.length + 1) tokens

def stringifyResult : TemplateValue V → Except TemplateError JsString
  | .entry => (orTypeError (stringify (record log.members))).map fun text => text.getD []
  | .undefined => .ok []
  | .inherited text => .ok text
  | .value v =>
    if nullish v then .ok []
    else
      match string? v with
      | some text => .ok text
      | none => orTypeError (if isObject v then toJSON v else toText v)

def cutAt (unit : UInt16) : JsString → Option (JsString × JsString)
  | u :: v :: rest =>
    if u = unit ∧ v = unit then some ([], rest)
    else (cutAt unit (v :: rest)).map fun cut => (u :: cut.1, cut.2)
  | _ => none

/-- `renderTemplate`, from here on in the template; the first argument bounds the actions. -/
def renderFrom (tpl : JsString) : Nat → JsString → Except TemplateError JsString
  | 0, _ => .ok []
  | actions + 1, rest =>
    match cutAt 0x7B rest with
    | none => .ok rest
    | some (before, opened) =>
      match cutAt 0x7D opened with
      | none => .error (.message (js "template: unclosed action in " ++ JsonText.quote tpl))
      | some (action, behind) => do
        let value ← evalAction host protoAccessor log action.trim
        let text ← stringifyResult log value
        let tail ← renderFrom tpl actions behind
        .ok (before ++ text ++ tail)

def renderTemplate (tpl : JsString) : Except TemplateError JsString :=
  renderFrom host protoAccessor log tpl (tpl.length + 1) tpl

def coerceText (parsed : Details V) (key : JsString) : JsString :=
  ((lookupMember parsed key).bind string?).getD []

def coerceEntry (parsed : Details V) : LogFormat V where
  level := coerceText parsed (js "level")
  timestamp := coerceText parsed (js "timestamp")
  traceID := coerceText parsed (js "traceID")
  spanID := nonempty ((lookupMember parsed (js "spanID")).bind string?)
  message := coerceText parsed (js "message")
  details := ((lookupMember parsed (js "details")).filter fun details =>
    isObject details && (items? details).isNone).getD (record [(js "system", string [])])
  process := ((lookupMember parsed (js "process")).bind items?).getD []
  method := coerceText parsed (js "method")
  line := number (((lookupMember parsed (js "line")).bind number?).getD 0)
  latency := number (latencyOf (lookupMember parsed (js "latency")))

/-- Renders a template, and brings an output that is a JSON object back into the canonical entry keys. -/
def executeTemplate (tpl : JsString) : Except TemplateError JsString := do
  let rendered ← renderTemplate host protoAccessor log tpl
  match JsonText.parse rendered.trim with
  | some (.object members) =>
    .ok ((marshalEntry protoAccessor (coerceEntry (entries (ofJson (.object members) : V)))).getD rendered.trim)
  | _ => .ok rendered.trim

def formatTemplate (tpl : JsString) : Except TemplateError JsString :=
  executeTemplate host protoAccessor (normalizeLog log) tpl

def format (tpl : JsString) : Except TemplateError JsString :=
  let name := host.toLowerCase tpl.trim
  if name = js "json" then orTypeError (formatJSON protoAccessor log)
  else if name = js "text" ∨ name = js "txt" ∨ name = [] then orTypeError (formatText log)
  else formatTemplate host protoAccessor log tpl

end templates

end ForgeDeno
