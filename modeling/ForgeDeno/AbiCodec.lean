import ForgeDeno.JsonText
import ForgeDeno.TextPattern
import ForgeDeno.WasmContracts
import ForgeDeno.WasmErrors
import Mathlib.Data.List.Sort

namespace ForgeDeno

def MAX_REQUEST_BYTES : Nat := 2 ^ 20

def MAX_RESPONSE_BYTES : Nat := 2 ^ 20

def MAX_ID_BYTES : Nat := 128

def MAX_CANCELLATION_TOKEN_BYTES : Nat := 256

def MAX_REQUIRED_CAPABILITIES : Nat := 32

def MAX_JSON_DEPTH : Nat := 32

section patterns

open TextPattern

def codecCapabilityPattern : TextPattern UInt16 := plus (among ".-" [lower, digit])

def errorCodePattern : TextPattern UInt16 :=
  seq (among "" [lower]) (seq (star (among "" [lower, digit]))
    (star (seq (text "_") (plus (among "" [lower, digit])))))

end patterns

structure GoforgeAbiErrorDefinitionV1 where
  message : JsString
  retryable : Bool

def GOFORGE_ABI_ERROR_CATALOG : List (JsString × GoforgeAbiErrorDefinitionV1) :=
  [(js "invalid_json", ⟨js "JSON is malformed or not canonical ABI input", false⟩),
    (js "unknown_field", ⟨js "JSON contains an unknown field", false⟩),
    (js "duplicate_field", ⟨js "JSON contains a duplicate object field", false⟩),
    (js "request_too_large", ⟨js "request exceeds the configured byte limit", false⟩),
    (js "response_too_large", ⟨js "response exceeds the configured byte limit", false⟩),
    (js "invalid_abi", ⟨js "request ABI version is unsupported", false⟩),
    (js "invalid_request", ⟨js "request does not satisfy the ABI contract", false⟩),
    (js "unknown_operation", ⟨js "operation is unsupported", false⟩),
    (js "capability_unavailable", ⟨js "required capability is unavailable", false⟩),
    (js "execution_state_required", ⟨js "host did not provide checked execution state", false⟩),
    (js "deadline_exceeded", ⟨js "request deadline has been exceeded", true⟩),
    (js "cancellation_requested", ⟨js "request cancellation was requested", false⟩),
    (js "invalid_base64", ⟨js "value is not canonical standard padded Base64", false⟩),
    (js "invalid_utf8", ⟨js "value is not valid UTF-8", false⟩),
    (js "input_too_large", ⟨js "operation input exceeds the configured byte limit", false⟩),
    (js "invalid_key", ⟨js "cryptographic key has an invalid length", false⟩),
    (js "invalid_nonce", ⟨js "AES-GCM nonce must be exactly 12 bytes", false⟩),
    (js "authentication_failed", ⟨js "AES-GCM authentication failed", false⟩),
    (js "internal", ⟨js "portable operation failed without a safe public detail", false⟩)]

/-- `GOFORGE_ABI_ERROR_CATALOG[code]`: the `message` and `retryable` it shows, when it is not
`undefined`; what the catalogue inherits has neither. -/
def catalogEntry (code : JsString) : Option (Option JsString × Option Bool) :=
  match lookupMember GOFORGE_ABI_ERROR_CATALOG code with
  | some definition => some (some definition.message, some definition.retryable)
  | none => if code ∈ inheritedNames then some (none, none) else none

def isControl (u : UInt16) : Bool := u ≤ 0x1F || (0x7F ≤ u && u ≤ 0x9F)

/-- A non-empty control-free string of at most `limit` UTF-8 bytes. -/
def isBoundedText (s : JsString) (limit : Nat) : Bool :=
  s ≠ [] && s.utf8Encode.length ≤ limit && !s.any isControl

def assertIdentifier (value path : JsString) : Except Thrown Unit :=
  if isBoundedText value MAX_ID_BYTES then .ok ()
  else .error (wasmCodecError (path ++
    js " must be a non-empty control-free UTF-8 string of at most 128 bytes"))

def assertToken (value : JsString) : Except Thrown Unit :=
  if isBoundedText value MAX_CANCELLATION_TOKEN_BYTES then .ok ()
  else .error (wasmCodecError (js "metadata.cancellation_token is invalid"))

def assertErrorField (value : JsValue) : Except Thrown JsString :=
  match value with
  | .string s =>
    if isBoundedText s 512 then .ok s
    else .error (wasmCodecError (js "response.error.field is invalid"))
  | _ => .error (wasmCodecError (js "response.error.field is invalid"))

def requireRecord (value : JsValue) (path : JsString) : Except Thrown (List (JsString × JsValue)) :=
  match value with
  | .record members => .ok members
  | .exotic _ => .error (wasmCodecError (path ++ js " must be a plain object"))
  | .binary => .error (wasmCodecError (path ++ js " must be a plain object"))
  | _ => .error (wasmCodecError (path ++ js " must be an object"))

def sortedNames (names : List JsString) : List JsString :=
  names.insertionSort fun s t => JsString.unitsLe s t

def requireExactKeys (members : List (JsString × JsValue)) (expected : List JsString)
    (path : JsString) : Except Thrown Unit :=
  if sortedNames (members.map Prod.fst) = sortedNames expected then .ok ()
  else .error (wasmCodecError (path ++ js " has unsupported or missing fields"))

def reservedKeys : List JsString := [js "__proto__", js "constructor", js "prototype"]

def atDepth {α : Type} (depth : Nat) (copy : Except Thrown α) : Except Thrown α :=
  if MAX_JSON_DEPTH < depth then
    .error (wasmCodecError (js "ABI data exceeds maximum nesting depth 32"))
  else copy

mutual

def copyAbiValue (path : JsString) (depth : Nat) : JsValue → Except Thrown JsValue
  | .null => atDepth depth (.ok .null)
  | .string s => atDepth depth (.ok (.string s))
  | .bool b => atDepth depth (.ok (.bool b))
  | .number n => atDepth depth
      (if n.isFinite then .ok (.number n)
      else .error (wasmCodecError (path ++ js " is not a finite number")))
  | .undefined => atDepth depth
      (.error (wasmCodecError (path ++ js " contains unsupported undefined data")))
  | .hole => atDepth depth
      (.error (wasmCodecError (path ++ js " contains unsupported undefined data")))
  | .unsupported typeName => atDepth depth
      (.error (wasmCodecError (path ++ js " contains unsupported " ++ typeName ++ js " data")))
  | .binary => atDepth depth (.error (wasmCodecError (path ++
      js " contains binary data; encode its contract field as Base64")))
  | .ancestor _ => atDepth depth
      (.error (wasmCodecError (path ++ js " contains a reference cycle")))
  | .exotic _ => atDepth depth
      (.error (wasmCodecError (path ++ js " must contain only plain records")))
  | .array items => atDepth depth ((copyItems path (depth + 1) 0 items).map .array)
  | .record members => atDepth depth ((copyMembers path (depth + 1) members).map .record)

/-- `value.map(...)`: a missing element stays missing. -/
def copyItems (path : JsString) (depth index : Nat) : List JsValue → Except Thrown (List JsValue)
  | [] => .ok []
  | .hole :: items => do
    let copies ← copyItems path depth (index + 1) items
    .ok (.hole :: copies)
  | item :: items => do
    let copy ← copyAbiValue (path ++ js "[" ++ JsonText.naturalText index ++ js "]") depth item
    let copies ← copyItems path depth (index + 1) items
    .ok (copy :: copies)

def copyMembers (path : JsString) (depth : Nat) :
    List (JsString × JsValue) → Except Thrown (List (JsString × JsValue))
  | [] => .ok []
  | member :: members => do
    let copy ← copyMember path depth member
    let copies ← copyMembers path depth members
    .ok (copy :: copies)

def copyMember (path : JsString) (depth : Nat) : JsString × JsValue → Except Thrown (JsString × JsValue)
  | (key, item) =>
    if key ∈ reservedKeys then
      .error (wasmCodecError (path ++ js " contains a reserved object key"))
    else do
      let copy ← copyAbiValue (path ++ js "." ++ key) depth item
      .ok (key, copy)

end

def encodeAbiValue (value : JsValue) : Except Thrown JsValue := copyAbiValue (js "$") 0 value

def knownCapabilities : List JsString :=
  GOFORGE_ABI_V1_OPERATION_CAPABILITIES.map Prod.snd ++
    [js "control.deadline", js "control.cancellation"]

/-- The `map` callback over `required_capabilities`, with the names seen so far. -/
def checkCapabilities (seen : List JsString) : List JsString → Except Thrown Unit
  | [] => .ok ()
  | capability :: rest =>
    if !codecCapabilityPattern.test capability || seen.contains capability then
      .error (wasmCodecError (js "metadata.required_capabilities is invalid or duplicated"))
    else if !knownCapabilities.contains capability then
      .error (wasmCodecError (js "required capability " ++ JsonText.quote capability ++
        js " is unavailable"))
    else checkCapabilities (capability :: seen) rest

/-- The metadata type admits no field besides the three, so none is unknown. -/
def normalizeMetadata (value : AbiRequestMetadataV1) : Except Thrown AbiRequestMetadataV1 := do
  match value.deadlineUnixMs with
  | some deadline =>
    if !deadline.isSafeInteger || deadline.le 0 then
      throw (wasmCodecError (js "metadata.deadline_unix_ms must be a positive safe integer"))
  | none => pure ()
  match value.cancellationToken with
  | some token => assertToken token
  | none => pure ()
  match value.requiredCapabilities with
  | some capabilities =>
    if MAX_REQUIRED_CAPABILITIES < capabilities.length then
      throw (wasmCodecError (js "metadata.required_capabilities exceeds the ABI limit"))
    checkCapabilities [] capabilities
  | none => pure ()
  return value

def createAbiRequest (id operation : JsString) (payload : JsValue)
    (metadata : Option AbiRequestMetadataV1) : Except Thrown AbiRequestV1 := do
  assertIdentifier id (js "id")
  if !GOFORGE_ABI_V1_OPERATIONS.contains operation then
    throw (wasmCodecError (js "unsupported ABI operation " ++ JsonText.quote operation))
  let metadata ← metadata.mapM normalizeMetadata
  let payload ← encodeAbiValue payload
  return { id, operation, metadata, payload }

def validateRequestEnvelope (request : AbiRequestV1) : Except Thrown Unit := do
  assertIdentifier request.id (js "id")
  if !GOFORGE_ABI_V1_OPERATIONS.contains request.operation then
    throw (wasmCodecError (js "request operation is unsupported"))
  let _ ← request.metadata.mapM normalizeMetadata
  let _ ← encodeAbiValue request.payload

def AbiRequestMetadataV1.toJs (metadata : AbiRequestMetadataV1) : JsValue :=
  .record ((metadata.deadlineUnixMs.toList.map fun n => (js "deadline_unix_ms", .number n)) ++
    (metadata.cancellationToken.toList.map fun s => (js "cancellation_token", .string s)) ++
    (metadata.requiredCapabilities.toList.map fun names =>
      (js "required_capabilities", .array (names.map .string))))

def AbiRequestV1.toJs (request : AbiRequestV1) : JsValue :=
  .record ([(js "abi", .string GOFORGE_ABI_V1), (js "id", .string request.id),
    (js "operation", .string request.operation)] ++
    (request.metadata.toList.map fun metadata => (js "metadata", metadata.toJs)) ++
    [(js "payload", request.payload)])

def serializeAbiRequest (request : AbiRequestV1) : Except Thrown JsString := do
  validateRequestEnvelope request
  let json := (JsonText.stringify request.toJs).getD []
  if MAX_REQUEST_BYTES < json.utf8Encode.length then
    throw (wasmCodecError (js "request exceeds the ABI byte limit"))
  return json

/-- `actual !== expected`, the expected string or boolean possibly `undefined`. -/
def differs (actual : Option JsValue) (expected : Option JsValue) : Bool :=
  match actual.getD .undefined, expected.getD .undefined with
  | .undefined, .undefined => false
  | .string s, .string t => s ≠ t
  | .bool s, .bool t => s ≠ t
  | _, _ => true

def validateAbiError (members : List (JsString × JsValue)) : Except Thrown AbiErrorV1 := do
  let field := lookupMember members (js "field")
  requireExactKeys members
    ([js "code", js "message", js "retryable"] ++ if field.isSome then [js "field"] else [])
    (js "response.error")
  match lookupMember members (js "code") with
  | some (.string code) =>
    if !errorCodePattern.test code then
      throw (wasmCodecError (js "response.error.code must be lowercase snake_case"))
    match catalogEntry code with
    | none => throw (wasmCodecError (js "response.error.code " ++ code ++ js " is not in ABI v1"))
    | some (message, retryable) =>
      if differs (lookupMember members (js "message")) (message.map .string) then
        throw (wasmCodecError (js "response.error.message does not match the ABI v1 catalog"))
      if differs (lookupMember members (js "retryable")) (retryable.map .bool) then
        throw (wasmCodecError (js "response.error.retryable does not match the ABI v1 catalog"))
      let field ← field.mapM assertErrorField
      return { code, message, retryable, field }
  | _ => throw (wasmCodecError (js "response.error.code must be lowercase snake_case"))

def validateAbiResponse (value : JsValue) (expectedId : JsString) : Except Thrown AbiResponseV1 := do
  assertIdentifier expectedId (js "id")
  let object ← requireRecord value (js "response")
  let ok := lookupMember object (js "ok")
  let payload := if differs ok (some (.bool true)) then js "error" else js "result"
  requireExactKeys object [js "abi", js "id", js "ok", payload] (js "response")
  if differs (lookupMember object (js "abi")) (some (.string GOFORGE_ABI_V1)) then
    throw (wasmCodecError (js "unsupported response ABI " ++
      ((lookupMember object (js "abi")).bind JsonText.stringify).getD (js "undefined")))
  if differs (lookupMember object (js "id")) (some (.string expectedId)) then
    throw (wasmCodecError (js "component response id does not match the request"))
  if !differs ok (some (.bool true)) then
    let result ← encodeAbiValue ((lookupMember object (js "result")).getD .undefined)
    return .success expectedId result
  if differs ok (some (.bool false)) then
    throw (wasmCodecError (js "response.ok must be a boolean discriminator"))
  -- an error that is the response object itself reads as that object
  let error := match lookupMember object (js "error") with
    | some (.ancestor _) => .record object
    | other => other.getD .undefined
  let error ← validateAbiError (← requireRecord error (js "response.error"))
  return .failure expectedId error

/-- The units a literal token skips: everything up to `/[\s,}\]]/`. -/
def endsLiteral (u : UInt16) : Bool :=
  (0x09 ≤ u && u ≤ 0x0D) || u = 0x20 || u = 0xA0 || u = 0x1680 || (0x2000 ≤ u && u ≤ 0x200A) ||
    u = 0x2028 || u = 0x2029 || u = 0x202F || u = 0x205F || u = 0x3000 || u = 0xFEFF ||
    u = 0x2C || u = 0x7D || u = 0x5D

/-- The loop of `stringToken` after its first unit: the units up to the closing quote. -/
def tokenUnits : JsString → Option (JsString × JsString)
  | [] => none
  | 0x5C :: [] => none
  | 0x5C :: u :: rest => (tokenUnits rest).map fun (units, rest) => (0x5C :: u :: units, rest)
  | 0x22 :: rest => some ([0x22], rest)
  | u :: rest => (tokenUnits rest).map fun (units, rest) => (u :: units, rest)

/-- `stringToken`: whatever unit stands first is taken for the opening quote. -/
def stringToken (rest : JsString) : Except Thrown (JsString × JsString) :=
  match tokenUnits (rest.drop 1) with
  | none => .error (wasmCodecError (js "component response contains an unterminated string"))
  | some (units, after) =>
    match JsonText.parse (rest.take 1 ++ units) with
    | some (.string key) => .ok (key, after)
    | _ => .error .syntaxError

mutual

/-- The closures of `assertUniqueAbiJsonObjectFields`, on the text from `index` on. -/
def scanValue : Nat → Nat → JsString → Except Thrown JsString
  | 0, _, _ => .error .syntaxError
  | fuel + 1, depth, rest =>
    if MAX_JSON_DEPTH < depth then
      .error (wasmCodecError (js "response exceeds maximum JSON depth 32"))
    else match JsonText.skipSpace rest with
      | 0x7B :: rest =>
        match JsonText.skipSpace rest with
        | 0x7D :: rest => .ok rest
        | rest => scanMembers fuel (depth + 1) [] rest
      | 0x5B :: rest =>
        match JsonText.skipSpace rest with
        | 0x5D :: rest => .ok rest
        | rest => scanItems fuel (depth + 1) rest
      | 0x22 :: rest => (stringToken (0x22 :: rest)).map Prod.snd
      | rest => .ok (rest.dropWhile fun u => !endsLiteral u)

def scanMembers : Nat → Nat → List JsString → JsString → Except Thrown JsString
  | 0, _, _, _ => .error .syntaxError
  | _, _, _, [] => .ok []
  | fuel + 1, depth, fields, rest => do
    let (key, rest) ← stringToken (JsonText.skipSpace rest)
    if fields.contains key then
      throw (wasmCodecError (js "component response contains a duplicate object field"))
    let rest ← scanValue fuel depth ((JsonText.skipSpace rest).drop 1)
    match JsonText.skipSpace rest with
    | 0x7D :: rest => return rest
    | rest => scanMembers fuel depth (key :: fields) (rest.drop 1)

def scanItems : Nat → Nat → JsString → Except Thrown JsString
  | 0, _, _ => .error .syntaxError
  | _, _, [] => .ok []
  | fuel + 1, depth, rest => do
    let rest ← scanValue fuel depth rest
    match JsonText.skipSpace rest with
    | 0x5D :: rest => return rest
    | rest => scanItems fuel depth (rest.drop 1)

end

def assertUniqueAbiJsonObjectFields (json : JsString) : Except Thrown Unit := do
  let _ ← scanValue (2 * json.length + 2) 0 json

def parseAbiResponse (json expectedId : JsString) : Except Thrown AbiResponseV1 := do
  if MAX_RESPONSE_BYTES < json.utf8Encode.length then
    throw (wasmCodecError (js "component response exceeds the ABI byte limit"))
  let invalid (cause : Thrown) : Thrown :=
    .caused (WasmErrorClass.codec.error (js "component response is not valid JSON")) cause
  match JsonText.parse json with
  | none => throw (invalid .syntaxError)
  | some value =>
    match assertUniqueAbiJsonObjectFields json with
    | .error cause =>
      match cause.runtime? with
      | some error => if error.cls = .codec then throw cause else throw (invalid cause)
      | none => throw (invalid cause)
    | .ok () => validateAbiResponse value.toJs expectedId

end ForgeDeno
