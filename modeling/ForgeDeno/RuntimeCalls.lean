import ForgeDeno.RuntimeCore

namespace ForgeDeno

def CallPhase.interrupted (reason : WasmRuntimeError) : CallPhase → CallPhase
  | .loading => .loaded (.error (.wasm reason))
  | .dispatched _ => .returned (.error (.wasm reason))
  | .adapting _ => .adapted (.error (.wasm reason))
  | .sleeping _ => .slept (.error (.wasm reason))
  | phase => phase

namespace GoforgeWasmRuntime

def signals (r : GoforgeWasmRuntime) : Signals := fun c =>
  (r.calls[c]?).bind fun call => call.scope.reason.map .wasm

def isOpen (r : GoforgeWasmRuntime) : Bool := r.state ≠ .closing && r.state ≠ .closed

def now (seams : Seams) (site : NowSite) (r : GoforgeWasmRuntime) : Except Thrown JsNumber :=
  match seams.now site with
  | some fault => .error fault
  | none => .ok (r.clock r.turn)

def timed (seams : Seams) (timestamp duration : NowSite) (startedAt : JsNumber)
    (r : GoforgeWasmRuntime) : Except Thrown (JsNumber × JsNumber) := do
  let timestamp ← r.now seams timestamp
  let finishedAt ← r.now seams duration
  return (timestamp, JsNumber.max 0 (finishedAt.sub startedAt))

/-- What an observer has been told after `#emit(event)`; what it throws is caught and dropped. -/
def emitTo (observer : Option WasmRuntimeObserver) (told : List WasmRuntimeEvent)
    (event : WasmRuntimeEvent) : List WasmRuntimeEvent :=
  match observer with
  | none => told
  | some observer =>
    match observer told event with
    | some _ => told ++ [event]
    | none => told ++ [event]

def emit (event : WasmRuntimeEvent) (r : GoforgeWasmRuntime) : GoforgeWasmRuntime :=
  { r with events := emitTo r.observer r.events event }

theorem emitTo_heard {observer : Option WasmRuntimeObserver} (heard : observer.isSome = true)
    (told : List WasmRuntimeEvent) (event : WasmRuntimeEvent) : emitTo observer told event = told ++ [event] := by
  obtain ⟨observer, rfl⟩ := Option.isSome_iff_exists.mp heard
  unfold emitTo
  dsimp only
  split <;> rfl

def addCall (call : Call) (r : GoforgeWasmRuntime) : GoforgeWasmRuntime :=
  { r with calls := r.calls ++ [call] }

def putCall (c : Nat) (call : Call) (r : GoforgeWasmRuntime) : GoforgeWasmRuntime :=
  { r with calls := r.calls.set c call }

def setPhase (c : Nat) (call : Call) (phase : CallPhase) (r : GoforgeWasmRuntime) : GoforgeWasmRuntime :=
  r.putCall c { call with phase }

def addDispatch (dispatch : Dispatch) (r : GoforgeWasmRuntime) : GoforgeWasmRuntime :=
  { r with dispatches := r.dispatches ++ [dispatch] }

def addExecution (execution : Execution) (r : GoforgeWasmRuntime) : GoforgeWasmRuntime :=
  { r with executions := r.executions ++ [execution] }

/-- `#activeCalls--` and the resolvers it wakes. -/
def endCall (r : GoforgeWasmRuntime) : GoforgeWasmRuntime :=
  { r with
    activeCalls := r.activeCalls - 1
    closing := if r.activeCalls = 1 ∧ r.closing = .calls false then .calls true else r.closing }

/-- The `finally` of a call, whose promise settles with it. -/
def finish (c : Nat) (call : Call) (outcome : Except Thrown JsValue) (r : GoforgeWasmRuntime) :
    GoforgeWasmRuntime :=
  let r := r.putCall c
    { call with phase := .settled outcome, scope := { call.scope with disposed := true } }
  if call.kind = .invoke then r.endCall else r

def ensureLoaded (seams : Seams) (r : GoforgeWasmRuntime) : GoforgeWasmRuntime × Option Thrown :=
  match r.load with
  | .idle =>
    if !r.isOpen then (r, some (.wasm wasmClosedError))
    else
      let r := { r with state := .loading }
      match r.now seams .loadStart with
      | .error fault => (r, some fault)
      | .ok startedAt =>
        ({ r with load := .verifying startedAt }.emit { type := .loadStart, timestamp := startedAt }, none)
  | _ => (r, none)

/-- What `invoke` computes between `#activeCalls++` and its `try`. -/
def invokeArguments (options : WasmCallOptions) (seams : Seams) (r : GoforgeWasmRuntime) :
    Except Thrown (JsNumber × JsString × Option JsNumber) := do
  let startedAt ← r.now seams .invoke
  let requestId ← match options.requestId with
    | some requestId => pure requestId
    | none => seams.requestId
  let deadline ← resolveDeadline options r.defaultTimeoutMs startedAt
  return (startedAt, requestId, deadline)

def callerAborted (options : WasmCallOptions) (r : GoforgeWasmRuntime) : Bool :=
  options.signal.any fun signal => r.abortedSignals.contains signal

def newCall (kind : CallKind) (operation : JsString) (payload : JsValue)
    (options : WasmCallOptions) (phase : CallPhase) : Call :=
  { kind, operation, payload, options, requestId := [], deadline := none,
    scope := ⟨none, none, true⟩, plan := none, attempt := 0, attemptStartedAt := 0,
    retried := [], phase }

/-- The `try` of `invoke` up to its first `await`. -/
def enterInvoke (c : Nat) (call : Call) (seams : Seams) (r : GoforgeWasmRuntime) : GoforgeWasmRuntime :=
  match call.scope.reason with
  | some reason => r.finish c call (.error (.wasm reason))
  | none =>
    match r.ensureLoaded seams with
    | (r, some fault) => r.finish c call (.error fault)
    | (r, none) => r.setPhase c call .loading

def invoke (operation : JsString) (payload : JsValue) (options : WasmCallOptions) (seams : Seams)
    (r : GoforgeWasmRuntime) : GoforgeWasmRuntime :=
  let call := newCall .invoke operation payload options
  if !r.isOpen then r.addCall (call .refused)
  else match r.invokeArguments options seams with
  | .error cause => { r with activeCalls := r.activeCalls + 1 }.addCall (call (.thrown cause))
  | .ok (startedAt, requestId, deadline) =>
    let scope := createAbortScope (r.callerAborted options) r.shutdown deadline startedAt
    let call := { call .entered with requestId, deadline, scope }
    ({ r with activeCalls := r.activeCalls + 1 }.addCall call).enterInvoke r.calls.length call seams

/-- The `try` of `preload` up to its first `await`. -/
def enterPreload (c : Nat) (call : Call) (seams : Seams) (r : GoforgeWasmRuntime) : GoforgeWasmRuntime :=
  match r.ensureLoaded seams with
  | (r, some fault) => r.finish c call (.error fault)
  | (r, none) =>
    match call.scope.reason with
    | some reason => r.finish c call (.error (.wasm reason))
    | none => r.setPhase c call .loading

def preload (signal : Option Nat) (seams : Seams) (r : GoforgeWasmRuntime) : GoforgeWasmRuntime :=
  let options : WasmCallOptions := ⟨signal, none, none, none, none, none, none, false⟩
  let call := newCall .preload [] .undefined options
  if !r.isOpen then r.addCall (call .refused)
  else match r.now seams .preload with
  | .error fault => r.addCall (call (.settled (.error fault)))
  | .ok now =>
    let scope := createAbortScope (r.callerAborted options) r.shutdown none now
    let call := { call .entered with scope }
    (r.addCall call).enterPreload r.calls.length call seams

def backOff (c : Nat) (call : Call) (error : Thrown) (r : GoforgeWasmRuntime) : GoforgeWasmRuntime :=
  r.putCall c { call with
    retried := error :: call.retried
    phase := match call.scope.reason with
      | some reason => .slept (.error (.wasm reason))
      | none => .sleeping (r.retry.delay call.attempt) }

def attemptFailed (c : Nat) (call : Call) (plan : CallPlan) (cause : Thrown) (seams : Seams)
    (r : GoforgeWasmRuntime) : GoforgeWasmRuntime :=
  let target := call.options.route
  let error := normalizeCallError cause target call.scope.reason
  let code := error.runtime?.map WasmRuntimeError.code
  let canRetry := call.attempt < plan.maxAttempts && r.retry.isSafeTransient error
  let r := { r with lastErrorCode := code }
  match r.timed seams .callFailure .callFailureDuration call.attemptStartedAt with
  | .error fault => r.finish c call (.error fault)
  | .ok (timestamp, durationMs) =>
    let r := r.emit { type := .callFailure, timestamp, requestId := some call.requestId,
                      operation := some call.operation, target := some (targetName target),
                      attempt := some call.attempt, durationMs := some durationMs,
                      errorCode := code }
    if !canRetry then r.finish c call (.error error)
    else match r.now seams .callRetry with
    | .error fault => r.finish c call (.error fault)
    | .ok timestamp =>
      let r := r.emit { type := .callRetry, timestamp, requestId := some call.requestId,
                        operation := some call.operation, target := some (targetName target),
                        attempt := some (call.attempt + 1) }
      match seams.sleep with
      | some fault => r.finish c call (.error fault)
      | none => r.backOff c call error

def attemptSucceeded (c : Nat) (call : Call) (plan : CallPlan) (result : JsValue) (seams : Seams)
    (r : GoforgeWasmRuntime) : GoforgeWasmRuntime :=
  let r := { r with state := .ready, lastErrorCode := none }
  match r.timed seams .callSuccess .callSuccessDuration call.attemptStartedAt with
  | .error fault => r.attemptFailed c call plan fault seams
  | .ok (timestamp, durationMs) =>
    let r := r.emit { type := .callSuccess, timestamp, requestId := some call.requestId,
                      operation := some call.operation,
                      target := some (targetName call.options.route),
                      attempt := some call.attempt, durationMs := some durationMs }
    r.finish c call (.ok result)

def acquireLease (c : Nat) (call : Call) (pool : InstancePool) (requestJson : JsString)
    (state : AbiExecutionStateV1) (r : GoforgeWasmRuntime) : GoforgeWasmRuntime :=
  let foundIdle := pool.entries.any fun e => !e.busy
  let lease : LeaseRequest := ⟨pool.tickets, requestJson, state, r.turn, foundIdle⟩
  { r with pool := some (pool.acquire r.signals c) }.setPhase c call (.leasing lease)

def invokeComponent (c : Nat) (call : Call) (requestJson : JsString)
    (state : AbiExecutionStateV1) (seams : Seams) (r : GoforgeWasmRuntime) : GoforgeWasmRuntime :=
  match r.pool with
  | none => r.setPhase c call (.returned (.error
      (.wasm (wasmPoolError (js "component instance pool is not initialized")))))
  | some pool =>
    if pool.totalCount ≤ pool.activeCount && r.poolSize ≤ pool.totalCount then
      match r.now seams .callQueued with
      | .error fault => r.setPhase c call (.returned (.error fault))
      | .ok timestamp =>
        (r.emit { type := .callQueued, timestamp, requestId := some call.requestId }).acquireLease
          c call pool requestJson state
    else r.acquireLease c call pool requestJson state

/-- The adapter error that `#invokeAdapter` raises for a foreign cause. -/
def adapterFailure (message : JsString) (cause : Thrown) : Thrown :=
  .caused (wasmAdapterError message) cause

def invokeAdapter (c : Nat) (call : Call) (plan : CallPlan) (adapterName : JsString)
    (r : GoforgeWasmRuntime) : GoforgeWasmRuntime :=
  match r.adapters.resolve adapterName plan.request.operation plan.nativeAdapters with
  | .error cause =>
    let error := match cause.runtime? with
      | some error => if error.cls = .adapter then cause
        else adapterFailure (js "native adapter selection failed") cause
      | none => adapterFailure (js "native adapter selection failed") cause
    r.setPhase c call (.returned (.error error))
  | .ok adapter =>
    let execution : Execution := ⟨c, call.attempt, adapter, plan.request, .scheduled⟩
    (r.addExecution execution).setPhase c call (match call.scope.reason with
      | some reason => .adapted (.error (.wasm reason))
      | none => .adapting r.executions.length)

/-- One turn of the attempt loop up to its first `await`. -/
def startAttempt (c : Nat) (call : Call) (plan : CallPlan) (seams : Seams)
    (r : GoforgeWasmRuntime) : GoforgeWasmRuntime :=
  match r.now seams .attempt with
  | .error fault => r.finish c call (.error fault)
  | .ok attemptStartedAt =>
    let call := { call with plan := some plan, attempt := call.attempt + 1, attemptStartedAt,
                            phase := .starting }
    let r := (r.putCall c call).emit
      { type := .callStart, timestamp := attemptStartedAt, requestId := some call.requestId,
        operation := some call.operation, target := some (targetName call.options.route),
        attempt := some call.attempt }
    match call.options.route with
    | .component =>
      match serializeAbiRequest plan.request with
      | .error cause => r.attemptFailed c call plan cause seams
      | .ok requestJson =>
        match r.now seams .executionState with
        | .error fault => r.attemptFailed c call plan fault seams
        | .ok reading =>
          let metadata := requestMetadata call.options call.deadline
          let state := executionState metadata reading call.scope.reason.isSome
          r.invokeComponent c call requestJson state seams
    | .native adapter => r.invokeAdapter c call plan adapter

/-- The continuation of `raceWithSignal(this.#ensureLoaded(), scope.signal)`. -/
def resumeLoaded (c : Nat) (call : Call) (result : Except Thrown WasmBundleManifestV1)
    (seams : Seams) (r : GoforgeWasmRuntime) : GoforgeWasmRuntime :=
  match result, call.kind with
  | .error cause, _ => r.finish c call (.error cause)
  | .ok _, .preload => r.finish c call (.ok .undefined)
  | .ok manifest, .invoke =>
    match planCall r.retry call manifest with
    | .error cause => r.finish c call (.error cause)
    | .ok plan => r.startAttempt c call plan seams

/-- `lease.release(true)` of a lease whose dispatch could not be started. -/
def undispatch (c : Nat) (call : Call) (pool : InstancePool) (lease : InstanceLease)
    (cause : Thrown) (r : GoforgeWasmRuntime) : GoforgeWasmRuntime :=
  let awaitsClose := decide (lease.entry ∈ pool.entryIds)
  { r with pool := some (pool.release r.signals lease.ticket true) }.setPhase c call
    (.undispatched lease.entry awaitsClose cause)

/-- The continuation of `await pool.acquire(signal)`; `none` while the promise is pending. -/
def resumeLeasing (c : Nat) (call : Call) (request : LeaseRequest) (seams : Seams)
    (r : GoforgeWasmRuntime) : Option GoforgeWasmRuntime := do
  let pool ← r.pool
  match pool.held.find? fun l => l.ticket = request.ticket with
  | some lease =>
    match call.scope.reason with
    | some reason => return r.undispatch c call pool lease (.wasm reason)
    | none =>
      let dispatch (phase : DispatchPhase) : Dispatch :=
        ⟨c, call.attempt, call.requestId, request, lease.entry, lease.grantedAt, phase⟩
      match seams.dispatch with
      | some fault =>
        return (r.addDispatch (dispatch (.threw fault))).undispatch c call pool lease fault
      | none =>
        return (r.addDispatch (dispatch .running)).setPhase c call (.dispatched r.dispatches.length)
  | none =>
    match pool.log.find? fun record => record.settles request.ticket with
    | some (.rejected _ cause) => return r.setPhase c call (.returned (.error cause))
    | _ => none

/-- How the `close()` of an instance ended, once it has. -/
def closeOutcome (entry : Nat) (r : GoforgeWasmRuntime) : Option (Option Thrown) := do
  let pool ← r.pool
  let record ← pool.settledCloses.find? fun record => record.id = entry
  return record.failure

/-- How `lease.release(...)` ended, once it has: with the failure of the instance's `close()`, if
there was one. -/
def releaseOutcome (entry : Nat) (awaitsClose : Bool) (r : GoforgeWasmRuntime) : Option (Option Thrown) :=
  if awaitsClose then r.closeOutcome entry else some none

/-- The continuation of `await lease.release(true)` before the throw that follows it. -/
def resumeUndispatched (c : Nat) (call : Call) (entry : Nat) (awaitsClose : Bool) (cause : Thrown)
    (r : GoforgeWasmRuntime) : Option GoforgeWasmRuntime := do
  let failure ← r.releaseOutcome entry awaitsClose
  return r.setPhase c call (.returned (.error (failure.getD (invocationFailure cause))))

/-- The continuation of the race in `#invokeAdapter`. -/
def resumeAdapted (c : Nat) (call : Call) (result : Except Thrown JsValue)
    (r : GoforgeWasmRuntime) : GoforgeWasmRuntime :=
  r.setPhase c call (.returned (match result with
    | .ok response => validateAbiResponse response call.requestId
    | .error cause =>
      match call.scope.reason, cause.runtime? with
      | some reason, _ => .error (.wasm reason)
      | none, some _ => .error cause
      | none, none => .error (adapterFailure (js "native adapter invocation failed") cause)))

/-- What `invoke` does with what the attempt's promise settled with. -/
def resumeReturned (c : Nat) (call : Call) (plan : CallPlan)
    (result : Except Thrown AbiResponseV1) (seams : Seams) (r : GoforgeWasmRuntime) : GoforgeWasmRuntime :=
  match result with
  | .ok (.success _ value) => r.attemptSucceeded c call plan value seams
  | .ok (.failure _ error) =>
    let guest := wasmGuestError error.code error.message error.retryable error.field
    r.attemptFailed c call plan (.wasm guest) seams
  | .error cause => r.attemptFailed c call plan cause seams

def resumeSlept (c : Nat) (call : Call) (plan : CallPlan) (result : Except Thrown Unit)
    (seams : Seams) (r : GoforgeWasmRuntime) : GoforgeWasmRuntime :=
  match result with
  | .error cause => r.finish c call (.error cause)
  | .ok () =>
    if call.attempt < plan.maxAttempts then r.startAttempt c call plan seams
    else r.finish c call (.error
      (.wasm (wasmInvocationError (js "component retry loop ended unexpectedly"))))

def resume (c : Nat) (seams : Seams) (r : GoforgeWasmRuntime) : Option GoforgeWasmRuntime := do
  let call ← r.calls[c]?
  match call.phase, call.plan with
  | .loaded result, _ => return r.resumeLoaded c call result seams
  | .leasing request, _ => r.resumeLeasing c call request seams
  | .undispatched entry awaitsClose cause, _ =>
    r.resumeUndispatched c call entry awaitsClose cause
  | .adapted result, _ => return r.resumeAdapted c call result
  | .returned result, some plan => return r.resumeReturned c call plan result seams
  | .slept result, some plan => return r.resumeSlept c call plan result seams
  | _, _ => none

/-- The reaction of `raceWithSignal` to the promise it races, when that has settled first. -/
def deliver (c : Nat) (r : GoforgeWasmRuntime) : Option GoforgeWasmRuntime := do
  let call ← r.calls[c]?
  match call.phase with
  | .loading =>
    match r.load with
    | .loaded manifest => return r.setPhase c call (.loaded (.ok manifest))
    | .failed cause => return r.setPhase c call (.loaded (.error cause))
    | _ => none
  | .dispatched d =>
    match (r.dispatches[d]?).map Dispatch.phase with
    | some (.finished _ result) => return r.setPhase c call (.returned result)
    | _ => none
  | .adapting x =>
    match (r.executions[x]?).map Execution.phase with
    | some (.finished result) => return r.setPhase c call (.adapted result)
    | _ => none
  | _ => none

/-- The promise of `sleep(delay)` settles before the call is aborted. -/
def wake (c : Nat) (result : Except Thrown Unit) (r : GoforgeWasmRuntime) :
    Option GoforgeWasmRuntime := do
  let call ← r.calls[c]?
  match call.phase with
  | .sleeping _ => return r.setPhase c call (.slept result)
  | _ => none

/-- `controller.abort(reason)` of one call's scope, with everything that listens to it. -/
def abortCall (c : Nat) (reason : WasmRuntimeError) (r : GoforgeWasmRuntime) : GoforgeWasmRuntime :=
  match r.calls[c]? with
  | some call =>
    if call.scope.disposed || call.scope.reason.isSome then r
    else
      let r := r.putCall c { call with
        scope := { call.scope with reason := some reason }
        phase := call.phase.interrupted reason }
      { r with pool := r.pool.map fun pool => pool.abort r.signals c (.wasm reason) }
  | none => r

end GoforgeWasmRuntime

end ForgeDeno
