import ForgeDeno.AbiCodec
import ForgeDeno.AdapterRegistry
import ForgeDeno.PoolCore

namespace ForgeDeno

/-- A policy that `normalizeRetryPolicy` has accepted. -/
structure WasmRetryPolicy where
  maxAttempts : Nat
  initialDelayMs : JsNumber
  maxDelayMs : JsNumber
  transientCodes : List JsString
  bounded : 1 ≤ maxAttempts ∧ maxAttempts ≤ 10

structure RetryPolicyOptions where
  maxAttempts : Option JsNumber
  initialDelayMs : Option JsNumber
  maxDelayMs : Option JsNumber
  transientCodes : Option (List JsString)

def requireInteger (value : JsNumber) (name : JsString) (minimum maximum : Nat) :
    Except Thrown { n : Nat // minimum ≤ n ∧ n ≤ maximum } :=
  let message := name ++ js s!" must be an integer from {minimum} through {maximum}"
  match value.integer? with
  | some n =>
    if h : minimum ≤ n.toNat ∧ n.toNat ≤ maximum ∧ 0 ≤ n then .ok ⟨n.toNat, h.1, h.2.1⟩
    else .error (.rangeError message)
  | none => .error (.rangeError message)

/-- `requireFinite(value, name, minimum)`; `bound` is how the message spells the minimum. -/
def requireFinite (value : JsNumber) (name : JsString) (minimum : JsNumber) (bound : JsString) :
    Except Thrown Unit :=
  if !value.isFinite || value.lt minimum then
    .error (.rangeError (name ++ js " must be a finite number greater than or equal to " ++ bound))
  else .ok ()

def normalizeRetryPolicy (value : RetryPolicyOptions) : Except Thrown WasmRetryPolicy := do
  let initialDelayMs := value.initialDelayMs.getD 25
  let maxDelayMs := value.maxDelayMs.getD 250
  let transientCodes := value.transientCodes.getD []
  let maxAttempts ← requireInteger (value.maxAttempts.getD 2) (js "retryPolicy.maxAttempts") 1 10
  requireFinite initialDelayMs (js "retryPolicy.initialDelayMs") 0 (js "0")
  requireFinite maxDelayMs (js "retryPolicy.maxDelayMs") initialDelayMs
    (JsonText.numberText initialDelayMs)
  if transientCodes.any fun code => !errorCodePattern.test code then
    throw (.typeError
      (js "retryPolicy.transientCodes must contain lowercase snake_case error codes"))
  return { maxAttempts := maxAttempts.val, initialDelayMs, maxDelayMs,
           transientCodes := transientCodes.eraseDups, bounded := maxAttempts.property }

/-- `WasmRuntimeObserver`, by what it throws when it is told an event after others. -/
abbrev WasmRuntimeObserver := List WasmRuntimeEvent → WasmRuntimeEvent → Option Thrown

/-- The options the constructor checks, with the clock, what `now` shows in each turn, and the observer. -/
structure GoforgeWasmRuntimeOptions where
  poolSize : Option JsNumber
  defaultTimeoutMs : Option JsNumber
  retryPolicy : RetryPolicyOptions
  adapters : NativeAdapterRegistry
  now : Nat → JsNumber
  observer : Option WasmRuntimeObserver := none

structure AbortScope where
  reason : Option WasmRuntimeError
  timer : Option JsNumber
  disposed : Bool

structure CallPlan where
  request : AbiRequestV1
  nativeAdapters : List JsString
  retrySafe : Bool
  maxAttempts : Nat

/-- A call waiting for its lease; `foundIdle` tells whether an instance was idle when it asked. -/
structure LeaseRequest where
  ticket : Nat
  requestJson : JsString
  state : AbiExecutionStateV1
  readAt : Nat
  foundIdle : Bool

inductive CallKind where
  | invoke
  | preload
deriving DecidableEq

/-- Where a call stands. The phases with a result have been resolved or rejected and wait for
their continuation to run. -/
inductive CallPhase where
  /-- `#assertOpen` threw -/
  | refused
  /-- something threw between `#activeCalls++` and the `try` -/
  | thrown (cause : Thrown)
  /-- inside the `try`, before its first `await` -/
  | entered
  | loading
  | loaded (result : Except Thrown WasmBundleManifestV1)
  /-- at the start of an attempt -/
  | starting
  | leasing (lease : LeaseRequest)
  /-- the lease came but the dispatch did not, and the instance is being discarded -/
  | undispatched (entry : Nat) (awaitsClose : Bool) (cause : Thrown)
  | dispatched (dispatch : Nat)
  | adapting (execution : Nat)
  | adapted (result : Except Thrown JsValue)
  /-- the promise of `#invokeComponent` or `#invokeAdapter` has settled -/
  | returned (result : Except Thrown AbiResponseV1)
  | sleeping (delay : JsNumber)
  | slept (result : Except Thrown Unit)
  | settled (outcome : Except Thrown JsValue)

structure Call where
  kind : CallKind
  operation : JsString
  payload : JsValue
  options : WasmCallOptions
  requestId : JsString
  deadline : Option JsNumber
  scope : AbortScope
  plan : Option CallPlan
  attempt : Nat
  attemptStartedAt : JsNumber
  /-- the errors after which another attempt was decided, newest first -/
  retried : List Thrown
  phase : CallPhase

inductive Verdict where
  | aborted (reason : WasmRuntimeError)
  | rejected (cause : Thrown)
  | malformed (cause : Thrown)
  | wellFormed (response : AbiResponseV1)

inductive DispatchPhase where
  /-- `dispatch()` threw before it returned a promise -/
  | threw (cause : Thrown)
  | running
  | releasing (verdict : Verdict) (awaitsClose : Bool)
  | finished (verdict : Verdict) (result : Except Thrown AbiResponseV1)

/-- One call of `instance.dispatch`, with the lease it runs under. -/
structure Dispatch where
  call : Nat
  attempt : Nat
  requestId : JsString
  lease : LeaseRequest
  entry : Nat
  grantedAt : Nat
  phase : DispatchPhase

inductive ExecutionPhase where
  | scheduled
  | running
  | finished (result : Except Thrown JsValue)

/-- One selected adapter object; its `invoke` is reached when it leaves `scheduled`. -/
structure Execution where
  call : Nat
  attempt : Nat
  adapter : Nat
  request : AbiRequestV1
  phase : ExecutionPhase

/-- `#loadPromise`: its two handlers run one after the other. -/
inductive BundleLoad where
  | idle
  | verifying (startedAt : JsNumber)
  | failing (startedAt : JsNumber) (cause : Thrown)
  | loaded (manifest : WasmBundleManifestV1)
  | failed (cause : Thrown)

/-- What the async body of `close()` awaits. -/
inductive ClosePhase where
  | open
  | calls (released : Bool)
  | load
  /-- the dispatches and executions that were in `#background` -/
  | background (dispatches executions : Nat)
  | pool
  | adapters (poolFailed awaitsAdapters : Bool)
  | finished (rejected : Bool)
deriving DecidableEq

inductive NowSite where
  | preload
  | loadStart
  | loadSuccess
  | loadSuccessDuration
  | loadFailure
  | loadFailureDuration
  | invoke
  | attempt
  | executionState
  | callQueued
  | callSuccess
  | callSuccessDuration
  | callFailure
  | callFailureDuration
  | callRetry
  | runtimeClose
deriving DecidableEq

structure Seams where
  /-- what `now()` throws, by the place that calls it -/
  now : NowSite → Option Thrown
  requestId : Except Thrown JsString
  /-- what `sleep(delay)` throws before it returns a promise -/
  sleep : Option Thrown
  /-- what `dispatch()` throws before it returns a promise -/
  dispatch : Option Thrown

structure GoforgeWasmRuntime where
  poolSize : PoolSize
  defaultTimeoutMs : Option JsNumber
  retry : WasmRetryPolicy
  clock : Nat → JsNumber
  state : WasmRuntimeState
  lastErrorCode : Option JsString
  shutdown : Bool
  load : BundleLoad
  pool : Option InstancePool
  closing : ClosePhase
  activeCalls : Nat
  calls : List Call
  dispatches : List Dispatch
  executions : List Execution
  adapters : NativeAdapterRegistry
  observer : Option WasmRuntimeObserver
  /-- what the observer has been told -/
  events : List WasmRuntimeEvent
  /-- the caller signals that have been aborted -/
  abortedSignals : List Nat
  turn : Nat

def GoforgeWasmRuntime.new (options : GoforgeWasmRuntimeOptions) :
    Except Thrown GoforgeWasmRuntime := do
  let poolSize ← requireInteger (options.poolSize.getD 4) (js "poolSize") 1 64
  match options.defaultTimeoutMs with
  | some timeout => requireFinite timeout (js "defaultTimeoutMs") 0 (js "0")
  | none => pure ()
  let retry ← normalizeRetryPolicy options.retryPolicy
  return {
    poolSize, defaultTimeoutMs := options.defaultTimeoutMs, retry, clock := options.now,
    state := .idle, lastErrorCode := none, shutdown := false, load := .idle, pool := none,
    closing := .open, activeCalls := 0, calls := [], dispatches := [], executions := [],
    adapters := options.adapters, observer := options.observer, events := [], abortedSignals := [], turn := 0 }

def resolveDeadline (options : WasmCallOptions) (defaultTimeoutMs : Option JsNumber)
    (now : JsNumber) : Except Thrown (Option JsNumber) := do
  let deadline ← match options.timeoutMs.or defaultTimeoutMs with
    | some relative => do
      requireFinite relative (js "timeoutMs") 0 (js "0")
      pure (some (now.add relative).floor)
    | none => pure none
  match options.deadline with
  | some explicit =>
    requireFinite explicit (js "deadline") 0 (js "0")
    let normalized := explicit.floor
    return some (match deadline with
      | none => normalized
      | some deadline => deadline.min normalized)
  | none => return deadline

def requestMetadata (options : WasmCallOptions) (deadlineUnixMs : Option JsNumber) :
    Option AbiRequestMetadataV1 :=
  if deadlineUnixMs.isNone && options.cancellationToken.isNone &&
      options.requiredCapabilities.isNone then none
  else some ⟨deadlineUnixMs, options.cancellationToken, options.requiredCapabilities⟩

def executionState (metadata : Option AbiRequestMetadataV1) (nowUnixMilliseconds : JsNumber)
    (aborted : Bool) : AbiExecutionStateV1 :=
  let cancellationToken := (metadata.bind AbiRequestMetadataV1.cancellationToken).getD []
  { clockChecked := (metadata.bind AbiRequestMetadataV1.deadlineUnixMs).isSome
    nowUnixMilliseconds := nowUnixMilliseconds.floor
    cancellationChecked := cancellationToken ≠ []
    cancellationToken
    cancellationRequested := cancellationToken ≠ [] && aborted }

/-- `createAbortScope`; the flags say which of the forwarded signals are already aborted. -/
def createAbortScope (callerAborted shutdown : Bool) (deadlineUnixMs : Option JsNumber)
    (now : JsNumber) : AbortScope :=
  if callerAborted then ⟨some wasmCancelledError, none, false⟩
  else if shutdown then ⟨some wasmClosedError, none, false⟩
  else match deadlineUnixMs with
  | none => ⟨none, none, false⟩
  | some deadline =>
    if deadline.le now then ⟨some wasmDeadlineExceededError, none, false⟩
    else ⟨none, some (deadline.sub now), false⟩

def WasmCallOptions.route (options : WasmCallOptions) : WasmExecutionTarget :=
  options.target.getD .component

def targetName : WasmExecutionTarget → JsString
  | .component => js "component"
  | .native adapter => js "native:" ++ adapter

/-- `bundle.manifest.operations[operation]`; an inherited name yields an object that has none of
the contract's fields. -/
def operationContract (manifest : WasmBundleManifestV1) (operation : JsString) : Option WasmOperationContract :=
  match lookupMember manifest.operations operation with
  | some contract => some contract
  | none => if inheritedNames.contains operation then some ⟨[], false, false, none⟩ else none

/-- The part of `invoke` between the verified bundle and the first attempt. -/
def planCall (retry : WasmRetryPolicy) (call : Call) (manifest : WasmBundleManifestV1) :
    Except Thrown CallPlan := do
  match operationContract manifest call.operation with
  | none => throw (wasmCompatibilityError (js "operation " ++ JsonText.quote call.operation ++
      js " is not declared by the verified manifest"))
  | some contract =>
    let metadata := requestMetadata call.options call.deadline
    let request ← createAbiRequest call.requestId call.operation call.payload metadata
    return {
      request
      nativeAdapters := contract.nativeAdapters.getD []
      retrySafe := contract.retrySafe
      maxAttempts := if call.options.allowRetry && contract.retrySafe then retry.maxAttempts else 1 }

/-- `normalizeLoadError`, an error that is one of the runtime's. -/
def normalizeLoadError (cause : Thrown) : Thrown :=
  match cause.runtime? with
  | some _ => cause
  | none => .caused (wasmInvocationError (js "component bundle verification failed")) cause

def invocationFailure (cause : Thrown) : Thrown :=
  .caused (wasmInvocationError (js "component invocation failed")) cause

def normalizeCallError (cause : Thrown) (target : WasmExecutionTarget)
    (reason : Option WasmRuntimeError) : Thrown :=
  match reason, cause.runtime?, target with
  | some reason, _, _ => .wasm reason
  | none, some _, _ => cause
  | none, none, .native _ =>
    .caused (wasmAdapterError (js "native adapter invocation failed")) cause
  | none, none, .component => invocationFailure cause

/-- What the factory wrapper of `#ensureLoaded` makes of a failed creation; `cleanup` is the
failure of the unusable instance's own `close()`. -/
def instanceCreationError (cause : Thrown) (cleanup : Option Thrown) : Thrown :=
  match cleanup, cause.runtime? with
  | some _, _ =>
    .caused (wasmPoolError (js "invalid component instance also failed to close")) cause
  | none, some _ => cause
  | none, none => .caused (wasmPoolError (js "component instance creation failed")) cause

def WasmRetryPolicy.isSafeTransient (retry : WasmRetryPolicy) (error : Thrown) : Bool :=
  match error.runtime? with
  | some error => error.cls = .guest && error.code ≠ js "deadline_exceeded" &&
      error.code ≠ js "cancellation_requested" && error.retryable &&
      retry.transientCodes.contains error.code
  | none => false

def WasmRetryPolicy.delay (retry : WasmRetryPolicy) (attempt : Nat) : JsNumber :=
  retry.maxDelayMs.min (retry.initialDelayMs.shift (attempt - 1))

end ForgeDeno
