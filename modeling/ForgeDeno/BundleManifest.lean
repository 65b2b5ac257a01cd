import ForgeDeno.AbiCodec

namespace ForgeDeno

section patterns

open TextPattern

def sha256Pattern : TextPattern UInt16 := times (among "" [(0x61, 0x66), digit]) 64

def numericIdentifier : TextPattern UInt16 :=
  alt (text "0") (seq (among "" [(0x31, 0x39)]) (star (among "" [digit])))

def versionTriple : TextPattern UInt16 :=
  seq numericIdentifier (seq (text ".") (seq numericIdentifier (seq (text ".") numericIdentifier)))

def versionPattern : TextPattern UInt16 :=
  let rest := plus (among ".-" [digit, upper, lower])
  seq versionTriple (seq (opt (seq (text "-") rest)) (opt (seq (text "+") rest)))

def witPattern : TextPattern UInt16 :=
  let name := seq (among "" [lower]) (star (among "-" [lower, digit]))
  seq name (seq (text ":") (seq name (seq (text "@") versionTriple)))

def operationPattern : TextPattern UInt16 :=
  seq (among "" [lower]) (seq (star (among "" [lower, digit]))
    (star (seq (among "._/-" []) (plus (among "" [lower, digit])))))

def capabilityPattern : TextPattern UInt16 := operationPattern

end patterns

def assertRelativeArtifactPath (value path : JsString) : Except Thrown Unit := do
  if value.isEmpty || (js "/").isPrefixOf value || (js "\\").isPrefixOf value ||
      value.contains 0x3A || value.contains 0x3F || value.contains 0x23 || value.contains 0x25 ||
      value.contains 0x5C then
    throw (wasmManifestError (path ++ js " must be a package-relative path"))
  if (JsString.split 0x2F value).any fun segment =>
      segment = [] || segment = js "." || segment = js ".." then
    throw (wasmManifestError (path ++ js " contains an invalid path segment"))

def assertSha256 (value path : JsString) : Except Thrown Unit :=
  if sha256Pattern.test value then .ok ()
  else .error (wasmManifestError (path ++ js " must be a lowercase SHA-256 digest"))

def validateDescriptor (descriptor : WasmArtifactDescriptor) (path : JsString) :
    Except Thrown Unit := do
  assertRelativeArtifactPath descriptor.path (path ++ js ".path")
  assertSha256 descriptor.sha256 (path ++ js ".sha256")

namespace BundleManifest

abbrev Members := List (JsString × JsonValue)

def requireRecord (value : JsonValue) (path : JsString) : Except Thrown Members :=
  match value with
  | .object members => .ok members
  | _ => .error (wasmManifestError (path ++ js " must be an object"))

def requireExactKeys (members : Members) (expected : List JsString) (path : JsString) : Except Thrown Unit :=
  if sortedNames (members.map Prod.fst) = sortedNames expected then .ok ()
  else .error (wasmManifestError (path ++ js " has unsupported or missing fields"))

/-- A field that `requireExactKeys` has found; `null` stands for one that is absent. -/
def field (members : Members) (name : String) : JsonValue :=
  (lookupMember members (js name)).getD .null

def stringified (value : JsonValue) : JsString := (JsonText.stringify value.toJs).getD []

/-- The loop of `parseUniqueStrings`, with the names seen so far. -/
def uniqueStrings (pattern : TextPattern UInt16) (path : JsString) (seen : List JsString) :
    List JsonValue → Except Thrown (List JsString)
  | [] => .ok []
  | .string value :: values => do
    if !pattern.test value then throw (wasmManifestError (path ++ js " contains an invalid name"))
    if seen.contains value then
      throw (wasmManifestError (path ++ js " contains duplicate " ++ value))
    let rest ← uniqueStrings pattern path (value :: seen) values
    return value :: rest
  | _ :: _ => .error (wasmManifestError (path ++ js " contains an invalid name"))

def parseUniqueStrings (values : List JsonValue) (pattern : TextPattern UInt16) (path : JsString) :
    Except Thrown (List JsString) :=
  uniqueStrings pattern path [] values

def parseDescriptor (value : JsonValue) (path : JsString) :
    Except Thrown WasmArtifactDescriptor := do
  let descriptor ← requireRecord value path
  requireExactKeys descriptor [js "path", js "sha256"] path
  match field descriptor "path", field descriptor "sha256" with
  | .string location, .string sha256 =>
    let result : WasmArtifactDescriptor := ⟨location, sha256⟩
    validateDescriptor result path
    return result
  | _, _ => throw (wasmManifestError (path ++ js " path and sha256 must be strings"))

def parseOperationContract (value : JsonValue) (path : JsString) :
    Except Thrown WasmOperationContract := do
  let contract ← requireRecord value path
  let nativeAdapters := lookupMember contract (js "nativeAdapters")
  requireExactKeys contract ([js "capability", js "retrySafe", js "securitySensitive"] ++
    if nativeAdapters.isSome then [js "nativeAdapters"] else []) path
  match field contract "capability", field contract "retrySafe",
      field contract "securitySensitive" with
  | .string capability, .bool retrySafe, .bool securitySensitive =>
    if !capabilityPattern.test capability then
      throw (wasmManifestError (path ++ js " capability or flags are invalid"))
    match nativeAdapters with
    | none => return ⟨capability, retrySafe, securitySensitive, none⟩
    | some (.array names) =>
      let names ← parseUniqueStrings names operationPattern (path ++ js ".nativeAdapters")
      return ⟨capability, retrySafe, securitySensitive, some names⟩
    | some _ => throw (wasmManifestError (path ++ js ".nativeAdapters must be an array"))
  | _, _, _ => throw (wasmManifestError (path ++ js " capability or flags are invalid"))

def parseCoreModules : Members → Except Thrown (List (JsString × WasmArtifactDescriptor))
  | [] => .ok []
  | (name, descriptor) :: rest => do
    if !(js ".wasm").isSuffixOf name || name.contains 0x2F || name.contains 0x5C then
      throw (wasmManifestError (js "invalid generated core module name " ++ JsonText.quote name))
    let parsed ← parseDescriptor descriptor (js "coreModules." ++ name)
    let others ← parseCoreModules rest
    return (name, parsed) :: others

def expectedCapability (name : JsString) : JsString :=
  (lookupMember GOFORGE_ABI_V1_OPERATION_CAPABILITIES name).getD []

def parseOperations (record : Members) (capabilities : List JsString) :
    List JsString → Except Thrown (List (JsString × WasmOperationContract))
  | [] => .ok []
  | name :: names => do
    let path := js "operations." ++ name
    let contract ← parseOperationContract ((lookupMember record name).getD .null) path
    if contract.capability ≠ expectedCapability name then
      throw (wasmManifestError (path ++ js ".capability must be " ++
        JsonText.quote (expectedCapability name)))
    if !capabilities.contains contract.capability then
      throw (wasmManifestError (path ++ js ".capability is absent from capabilities"))
    let others ← parseOperations record capabilities names
    return (name, contract) :: others

def decodeManifest (bytes : List UInt8) : Except Thrown JsonValue := do
  let invalid (cause : Thrown) : Thrown := .caused
    (WasmErrorClass.manifest.error (js "component manifest is not valid UTF-8 JSON")) cause
  match JsString.utf8DecodeFatal bytes with
  | none => throw (invalid (.typeError (js "The encoded data is not valid")))
  | some text =>
    match assertUniqueAbiJsonObjectFields text, JsonText.parse text with
    | .error cause, _ => throw (invalid cause)
    | .ok (), none => throw (invalid .syntaxError)
    | .ok (), some value => return value

def parseManifest (bytes : List UInt8) : Except Thrown WasmBundleManifestV1 := do
  let value ← decodeManifest bytes
  let root ← requireRecord value (js "manifest")
  requireExactKeys root [js "schema", js "abi", js "componentVersion", js "witPackage", js "source",
    js "glue", js "coreModules", js "capabilities", js "operations"] (js "manifest")
  match field root "schema" with
  | .string schema =>
    if schema ≠ GOFORGE_BUNDLE_MANIFEST_SCHEMA_V1 then
      throw (wasmCompatibilityError (js "unsupported release-bundle schema " ++
        stringified (field root "schema")))
  | other =>
    throw (wasmCompatibilityError (js "unsupported release-bundle schema " ++ stringified other))
  match field root "abi" with
  | .string abi =>
    if abi ≠ GOFORGE_ABI_V1 then
      throw (wasmCompatibilityError (js "unsupported portable ABI " ++
        stringified (field root "abi")))
  | other => throw (wasmCompatibilityError (js "unsupported portable ABI " ++ stringified other))
  let componentVersion ← match field root "componentVersion" with
    | .string version =>
      if versionPattern.test version then .ok version
      else .error (wasmManifestError (js "componentVersion must be a semantic version"))
    | _ => .error (wasmManifestError (js "componentVersion must be a semantic version"))
  let witPackage ← match field root "witPackage" with
    | .string package =>
      if witPattern.test package then .ok package
      else .error (wasmManifestError
        (js "witPackage must be a versioned namespace:name@x.y.z package"))
    | _ => .error (wasmManifestError
        (js "witPackage must be a versioned namespace:name@x.y.z package"))
  let source ← parseDescriptor (field root "source") (js "source")
  let glue ← parseDescriptor (field root "glue") (js "glue")
  let coreRecord ← requireRecord (field root "coreModules") (js "coreModules")
  if coreRecord.isEmpty then
    throw (wasmManifestError (js "coreModules must contain at least one module"))
  let coreModules ← parseCoreModules coreRecord
  let capabilities ← match field root "capabilities" with
    | .array (value :: values) =>
      parseUniqueStrings (value :: values) capabilityPattern (js "capabilities")
    | _ => .error (wasmManifestError (js "capabilities must be a non-empty array"))
  let operationRecord ← requireRecord (field root "operations") (js "operations")
  if sortedNames (operationRecord.map Prod.fst) ≠ sortedNames GOFORGE_ABI_V1_OPERATIONS then
    throw (wasmManifestError
      (js "operations must describe every canonical GoForge ABI v1 operation"))
  let operations ← parseOperations operationRecord capabilities GOFORGE_ABI_V1_OPERATIONS
  return {
    schema := GOFORGE_BUNDLE_MANIFEST_SCHEMA_V1, abi := GOFORGE_ABI_V1, componentVersion,
    witPackage, source, glue, coreModules, capabilities, operations }

def supportedSchema (compatibility : WasmCompatibility) : JsString :=
  (compatibility.bundleSchema.or compatibility.schemaVersion).getD GOFORGE_BUNDLE_MANIFEST_SCHEMA_V1

def supportedAbi (compatibility : WasmCompatibility) : JsString :=
  (compatibility.abi.or compatibility.abiVersion).getD GOFORGE_ABI_V1

def validateCompatibility (manifest : WasmBundleManifestV1) (compatibility : WasmCompatibility) :
    Except Thrown Unit := do
  if manifest.schema ≠ supportedSchema compatibility then
    throw (wasmCompatibilityError (js "release-bundle schema " ++ manifest.schema ++
      js " does not match host schema " ++ supportedSchema compatibility))
  if manifest.abi ≠ supportedAbi compatibility then
    throw (wasmCompatibilityError (js "component ABI " ++ manifest.abi ++
      js " does not match host ABI " ++ supportedAbi compatibility))
  if manifest.componentVersion ≠ compatibility.componentVersion then
    throw (wasmCompatibilityError (js "component " ++ manifest.componentVersion ++
      js " does not match host " ++ compatibility.componentVersion))
  if manifest.witPackage ≠ compatibility.witPackage then
    throw (wasmCompatibilityError (js "WIT package " ++ manifest.witPackage ++
      js " does not match host " ++ compatibility.witPackage))

end BundleManifest

end ForgeDeno
