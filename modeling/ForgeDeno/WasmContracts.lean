import ForgeDeno.JsValue

namespace ForgeDeno

def GOFORGE_ABI_V1 : JsString := js "goforge.abi.v1"

def GOFORGE_BUNDLE_MANIFEST_SCHEMA_V1 : JsString := js "goforge.bundle-manifest.v1"

def GOFORGE_ABI_V1_OPERATIONS : List JsString :=
  [js "text.normalize", js "text.validate", js "crypto.sha256", js "crypto.hmac-sha256",
    js "crypto.aes-gcm.encrypt", js "crypto.aes-gcm.decrypt", js "encoding.base64.encode",
    js "encoding.base64.decode"]

def GOFORGE_ABI_V1_OPERATION_CAPABILITIES : List (JsString × JsString) :=
  [(js "text.normalize", js "portable.normalize"),
    (js "text.validate", js "portable.validate"),
    (js "crypto.sha256", js "crypto.sha256"),
    (js "crypto.hmac-sha256", js "crypto.hmac-sha256"),
    (js "crypto.aes-gcm.encrypt", js "crypto.aes-gcm"),
    (js "crypto.aes-gcm.decrypt", js "crypto.aes-gcm"),
    (js "encoding.base64.encode", js "encoding.base64"),
    (js "encoding.base64.decode", js "encoding.base64")]

structure WasmArtifactDescriptor where
  path : JsString
  sha256 : JsString
deriving DecidableEq

structure WasmOperationContract where
  capability : JsString
  retrySafe : Bool
  securitySensitive : Bool
  nativeAdapters : Option (List JsString)

structure WasmBundleManifestV1 where
  schema : JsString
  abi : JsString
  componentVersion : JsString
  witPackage : JsString
  source : WasmArtifactDescriptor
  glue : WasmArtifactDescriptor
  coreModules : List (JsString × WasmArtifactDescriptor)
  capabilities : List JsString
  operations : List (JsString × WasmOperationContract)

structure WasmCompatibility where
  componentVersion : JsString
  witPackage : JsString
  abi : Option JsString
  bundleSchema : Option JsString
  abiVersion : Option JsString
  schemaVersion : Option JsString

structure WasmBundleLocator where
  manifestPath : JsString
  manifestSha256 : JsString

structure AbiRequestMetadataV1 where
  deadlineUnixMs : Option JsNumber
  cancellationToken : Option JsString
  requiredCapabilities : Option (List JsString)

structure AbiRequestV1 where
  id : JsString
  operation : JsString
  metadata : Option AbiRequestMetadataV1
  payload : JsValue

structure AbiExecutionStateV1 where
  clockChecked : Bool
  nowUnixMilliseconds : JsNumber
  cancellationChecked : Bool
  cancellationToken : JsString
  cancellationRequested : Bool

/-- The message and the flag may be `undefined` when the catalog entry has none. -/
structure AbiErrorV1 where
  code : JsString
  message : Option JsString
  retryable : Option Bool
  field : Option JsString

inductive AbiResponseV1 where
  | success (id : JsString) (result : JsValue)
  | failure (id : JsString) (error : AbiErrorV1)

inductive WasmExecutionTarget where
  | component
  | native (adapter : JsString)
deriving DecidableEq

/-- Per-call options. `signal` names the caller's abort signal; a `Date` deadline is given by its
time value. -/
structure WasmCallOptions where
  signal : Option Nat
  timeoutMs : Option JsNumber
  deadline : Option JsNumber
  target : Option WasmExecutionTarget
  requestId : Option JsString
  cancellationToken : Option JsString
  requiredCapabilities : Option (List JsString)
  allowRetry : Bool

inductive WasmRuntimeState where
  | idle
  | loading
  | ready
  | degraded
  | closing
  | closed
deriving DecidableEq

inductive WasmRuntimeEventType where
  | loadStart
  | loadSuccess
  | loadFailure
  | callQueued
  | callStart
  | callSuccess
  | callFailure
  | callRetry
  | runtimeClose
deriving DecidableEq

structure WasmRuntimeEvent where
  type : WasmRuntimeEventType
  timestamp : JsNumber
  requestId : Option JsString := none
  operation : Option JsString := none
  target : Option JsString := none
  attempt : Option Nat := none
  durationMs : Option JsNumber := none
  errorCode : Option JsString := none

end ForgeDeno
