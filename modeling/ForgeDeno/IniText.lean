import ForgeDeno.ConfigValues

namespace ForgeDeno

open JsonText

structure IniError where
  source : Option JsString
  line : Nat
  message : JsString

def IniError.text (error : IniError) : JsString :=
  let place := js "line " ++ naturalText error.line
  let place := match error.source with
    | none => place
    | some source => source ++ js ": " ++ place
  place ++ js ": " ++ error.message

def splitLines (content : JsString) : List JsString :=
  let chop (line : JsString) : JsString := if line.endsWith 0x0D then line.dropLast else line
  let lines := content.split 0x0A
  lines.dropLast.map chop ++ lines.getLast?.toList

def cut? (u : UInt16) (s : JsString) : Option (JsString × JsString) :=
  if u ∈ s then some (s.takeWhile (· ≠ u), (s.dropWhile (· ≠ u)).tail) else none

/-- `stripComment`, given the unit before the rest. -/
def stripCommentFrom (previous : UInt16) : JsString → JsString
  | [] => []
  | u :: rest =>
    if (u = 0x3B ∨ u = 0x23) ∧ (previous = 0x20 ∨ previous = 0x09) then []
    else u :: stripCommentFrom u rest

def stripComment : JsString → JsString
  | [] => []
  | u :: rest => u :: stripCommentFrom u rest

/-- `trimIniValue`; the flag tells that the value was quoted. -/
def trimIniValue (raw : JsString) : JsString × Bool :=
  match raw.trim with
  | [] => ([], false)
  | quote :: rest =>
    let plain : JsString × Bool := ((stripComment (quote :: rest)).trim, false)
    if quote = 0x22 ∨ quote = 0x27 then
      match cut? quote rest with
      | some (inside, _) => (inside, true)
      | none => plain
    else plain

section casing

variable (casing : Casing)

def parseIniValue (raw : JsString) (template : Option ConfigValue) : ConfigValue :=
  let (value, quoted) := trimIniValue raw
  if quoted then .string value
  else if value.startsWith 0x5B && value.endsWith 0x5D then .list (parseList casing value false)
  else match template with
    | none | some .null => inferScalar casing value
    | some template => parseEnvValue casing value template

def parseSection (text : JsString) : Except JsString (List JsString) :=
  match cut? 0x5D text with
  | none => .error (js "unterminated section header " ++ quote text)
  | some (header, rest) =>
    let rest := rest.trim
    if rest ≠ [] ∧ !rest.startsWith 0x3B ∧ !rest.startsWith 0x23 then
      .error (js "unexpected " ++ quote rest ++ js " after section header")
    else .ok (splitKey casing header.tail)

def asList : ConfigValue → List ConfigValue
  | .list items => items
  | value => [value]

def setIniValue (settings : Settings) (path : List JsString) (value : ConfigValue) : Settings :=
  match readPath (.record settings) path with
  | none => writePath settings path value
  | some existing => writePath settings path (.list (asList existing ++ asList value))

def parseIniLines (declared : JsString → Option ConfigValue) :
    List JsString → Nat → List JsString → Settings → Except (Nat × JsString) Settings
  | [], _, _, settings => .ok settings
  | line :: lines, index, path, settings =>
    let text := line.trim
    let fail (message : JsString) : Except (Nat × JsString) Settings := .error (index + 1, message)
    if text = [] ∨ text.startsWith 0x3B ∨ text.startsWith 0x23 then
      parseIniLines declared lines (index + 1) path settings
    else if text.startsWith 0x5B then
      match parseSection casing text with
      | .ok path => parseIniLines declared lines (index + 1) path settings
      | .error message => fail message
    else match cut? 0x3D text with
      | none => fail (js "expected [section] or key = value, got " ++ quote text)
      | some (key, raw) =>
        let leaf := splitKey casing key
        if leaf = [] then fail (js "missing key name in " ++ quote text)
        else
          let value := parseIniValue casing raw (declared (JsString.join (js ".") (path ++ leaf)))
          parseIniLines declared lines (index + 1) path (setIniValue settings (path ++ leaf) value)

def parseIni (content : JsString) (declared : JsString → Option ConfigValue)
    (source : Option JsString) : Except IniError Settings :=
  match parseIniLines casing declared (splitLines content) 0 [] [] with
  | .ok settings => .ok settings
  | .error (line, message) => .error { source, line, message }

end casing

end ForgeDeno
