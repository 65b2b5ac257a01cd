import ForgeDeno.LabelledMachine
import ForgeDeno.RuntimeCalls

namespace ForgeDeno

/-- The handlers of `raw.then` up to their first `await`: the verdict, then the release. -/
def Dispatch.verdict (d : Dispatch) (outcome : Except Thrown JsString)
    (reason : Option WasmRuntimeError) : Verdict :=
  match outcome, reason with
  | .error cause, _ => .rejected cause
  | .ok _, some reason => .aborted reason
  | .ok responseJson, none =>
    match parseAbiResponse responseJson d.requestId with
    | .error cause => .malformed cause
    | .ok response => .wellFormed response

/-- Whether the lease is released with `discard`. -/
def Verdict.discards : Verdict → Bool
  | .wellFormed _ => false
  | _ => true

def Verdict.result (reason : Option WasmRuntimeError) : Verdict → Except Thrown AbiResponseV1
  | .aborted reason => .error (.wasm reason)
  | .rejected cause =>
    match reason with
    | some reason => .error (.wasm reason)
    | none => .error (invocationFailure cause)
  | .malformed cause => .error cause
  | .wellFormed response => .ok response

def Verdict.outcome (failure : Option Thrown) (reason : Option WasmRuntimeError)
    (verdict : Verdict) : Except Thrown AbiResponseV1 :=
  match failure with
  | some failure => .error failure
  | none => verdict.result reason

def DispatchPhase.done : DispatchPhase → Bool
  | .threw _ | .finished _ _ => true
  | _ => false

def ExecutionPhase.done : ExecutionPhase → Bool
  | .finished _ => true
  | _ => false

namespace GoforgeWasmRuntime

def reasonOf (c : Nat) (r : GoforgeWasmRuntime) : Option WasmRuntimeError :=
  (r.calls[c]?).bind fun call => call.scope.reason

def putDispatch (d : Nat) (dispatch : Dispatch) (r : GoforgeWasmRuntime) : GoforgeWasmRuntime :=
  { r with dispatches := r.dispatches.set d dispatch }

def settleDispatch (d : Nat) (dispatch : Dispatch) (pool : InstancePool) (verdict : Verdict)
    (r : GoforgeWasmRuntime) : GoforgeWasmRuntime :=
  let awaitsClose := decide (dispatch.entry ∈ pool.entryIds) && (verdict.discards || pool.closed)
  let pool := pool.release r.signals dispatch.lease.ticket verdict.discards
  { r with pool := some pool }.putDispatch d { dispatch with phase := .releasing verdict awaitsClose }

def dispatchSettles (d : Nat) (outcome : Except Thrown JsString) (r : GoforgeWasmRuntime) :
    Option GoforgeWasmRuntime := do
  let dispatch ← r.dispatches[d]?
  let pool ← r.pool
  match dispatch.phase with
  | .running =>
    return r.settleDispatch d dispatch pool (dispatch.verdict outcome (r.reasonOf dispatch.call))
  | _ => none

/-- The continuation of `await lease.release(...)` in the handlers of a dispatch. -/
def dispatchReleased (d : Nat) (r : GoforgeWasmRuntime) : Option GoforgeWasmRuntime := do
  let dispatch ← r.dispatches[d]?
  match dispatch.phase with
  | .releasing verdict awaitsClose =>
    let failure ← r.releaseOutcome dispatch.entry awaitsClose
    let result := verdict.outcome failure (r.reasonOf dispatch.call)
    return r.putDispatch d { dispatch with phase := .finished verdict result }
  | _ => none

def putExecution (x : Nat) (execution : Execution) (r : GoforgeWasmRuntime) : GoforgeWasmRuntime :=
  { r with executions := r.executions.set x execution }

/-- `adapter.invoke(request, context)` is reached; it may throw before it returns a promise. -/
def adapterEnters (x : Nat) (thrown : Option Thrown) (r : GoforgeWasmRuntime) :
    Option GoforgeWasmRuntime := do
  let execution ← r.executions[x]?
  match execution.phase with
  | .scheduled =>
    let phase := match thrown with
      | some cause => .finished (.error cause)
      | none => .running
    return r.putExecution x { execution with phase }
  | _ => none

def adapterSettles (x : Nat) (result : Except Thrown JsValue) (r : GoforgeWasmRuntime) :
    Option GoforgeWasmRuntime := do
  let execution ← r.executions[x]?
  match execution.phase with
  | .running => return r.putExecution x { execution with phase := .finished result }
  | _ => none

/-- The fulfilment handler of `verifyWasmBundle` in `#ensureLoaded`, or its rejection. -/
def loadThen (result : Except Thrown WasmBundleManifestV1) (seams : Seams)
    (r : GoforgeWasmRuntime) : Option GoforgeWasmRuntime :=
  match r.load, result with
  | .verifying startedAt, .error cause => some { r with load := .failing startedAt cause }
  | .verifying startedAt, .ok manifest =>
    if r.shutdown then some { r with load := .failing startedAt (.wasm wasmClosedError) }
    else
      let r := { r with pool := some (.new r.poolSize r.turn), state := .ready }
      match r.timed seams .loadSuccess .loadSuccessDuration startedAt with
      | .error fault => some { r with load := .failing startedAt fault }
      | .ok (timestamp, durationMs) =>
        some ({ r with load := .loaded manifest }.emit
          { type := .loadSuccess, timestamp, durationMs := some durationMs })
  | _, _ => none

def loadCatch (seams : Seams) (r : GoforgeWasmRuntime) : Option GoforgeWasmRuntime :=
  match r.load with
  | .failing startedAt cause =>
    let error := normalizeLoadError cause
    let code := error.runtime?.map WasmRuntimeError.code
    let r := { r with state := if r.isOpen then .degraded else r.state, lastErrorCode := code }
    match r.timed seams .loadFailure .loadFailureDuration startedAt with
    | .error fault => some { r with load := .failed fault }
    | .ok (timestamp, durationMs) =>
      some ({ r with load := .failed error }.emit
        { type := .loadFailure, timestamp, durationMs := some durationMs, errorCode := code })
  | _ => none

def abortAll (listens : Call → Bool) (reason : WasmRuntimeError) (r : GoforgeWasmRuntime) : GoforgeWasmRuntime :=
  (List.range r.calls.length).foldl (fun r c => if (r.calls[c]?).any listens then r.abortCall c reason else r) r

def abortSignal (signal : Nat) (r : GoforgeWasmRuntime) : GoforgeWasmRuntime :=
  if r.abortedSignals.contains signal then r
  else { r with abortedSignals := signal :: r.abortedSignals }.abortAll
    (fun call => call.options.signal = some signal) wasmCancelledError

def deadlineFires (c : Nat) (r : GoforgeWasmRuntime) : Option GoforgeWasmRuntime := do
  let call ← r.calls[c]?
  if call.scope.timer.isSome && !call.scope.disposed then
    return r.abortCall c wasmDeadlineExceededError
  else none

def awaitBackground (r : GoforgeWasmRuntime) : GoforgeWasmRuntime :=
  { r with closing := .background r.dispatches.length r.executions.length }

/-- The body of `close()` behind the wait for active calls. -/
def afterCalls (r : GoforgeWasmRuntime) : GoforgeWasmRuntime :=
  match r.load with
  | .idle => r.awaitBackground
  | _ => { r with closing := .load }

/-- The new state and `this.#shutdown.abort(new WasmClosedError())`. -/
def shut (r : GoforgeWasmRuntime) : GoforgeWasmRuntime :=
  if r.shutdown then { r with state := .closing }
  else { r with state := .closing, shutdown := true }.abortAll (fun _ => true) wasmClosedError

/-- `close()` up to its first `await`. When the clock throws, no promise is kept. -/
def close (seams : Seams) (r : GoforgeWasmRuntime) : GoforgeWasmRuntime :=
  if r.closing = .open then
    let r := r.shut
    match r.now seams .runtimeClose with
    | .error _ => r
    | .ok timestamp =>
      let r := r.emit { type := .runtimeClose, timestamp }
      if 0 < r.activeCalls then { r with closing := .calls false } else r.afterCalls
  else r

/-- The continuation of the `await` the body of `close()` has come to; `adaptersFailed` is how
the adapters' own closing ends. -/
def resumeClose (adaptersFailed : Bool) (r : GoforgeWasmRuntime) : Option GoforgeWasmRuntime :=
  match r.closing with
  | .calls true => some r.afterCalls
  | .load =>
    match r.load with
    | .loaded _ | .failed _ => some r.awaitBackground
    | _ => none
  | .background n m =>
    if (r.dispatches.take n).all (fun d => d.phase.done) &&
        (r.executions.take m).all (fun x => x.phase.done) then
      some { r with pool := r.pool.map InstancePool.close, closing := .pool }
    else none
  | .pool =>
    let result := match r.pool with
      | none => some []
      | some pool => pool.closeResult
    result.map fun failures =>
      { r with adapters := r.adapters.startClose
               closing := .adapters (failures ≠ []) (!r.adapters.closed) }
  | .adapters poolFailed awaitsAdapters =>
    let adapters := if awaitsAdapters then r.adapters.clear else r.adapters
    some { r with adapters, state := .closed,
                  closing := .finished (poolFailed || (awaitsAdapters && adaptersFailed)) }
  | _ => none

def withPool (step : PoolSystem → Option PoolSystem) (r : GoforgeWasmRuntime) :
    Option GoforgeWasmRuntime := do
  let pool ← r.pool
  let system ← step ⟨pool, r.signals⟩
  return { r with pool := some system.pool }

end GoforgeWasmRuntime

inductive RuntimeEvent where
  | invoke (operation : JsString) (payload : JsValue) (options : WasmCallOptions) (seams : Seams)
  | preload (signal : Option Nat) (seams : Seams)
  | abortSignal (signal : Nat)
  | deadlineFires (call : Nat)
  | loadThen (result : Except Thrown WasmBundleManifestV1) (seams : Seams)
  | loadCatch (seams : Seams)
  | deliver (call : Nat)
  | wake (call : Nat) (result : Except Thrown Unit)
  | resume (call : Nat) (seams : Seams)
  | instanceCreated (id : Nat)
  | instanceFailed (id : Nat) (cause : Thrown) (cleanup : Option Thrown)
  | instanceClosed (id : Nat) (failure : Option Thrown)
  | poolClosed
  | dispatchSettles (dispatch : Nat) (outcome : Except Thrown JsString)
  | dispatchReleased (dispatch : Nat)
  | adapterEnters (execution : Nat) (thrown : Option Thrown)
  | adapterSettles (execution : Nat) (result : Except Thrown JsValue)
  | adapters (op : AdapterOp)
  | close (seams : Seams)
  | resumeClose (adaptersFailed : Bool)

namespace GoforgeWasmRuntime

def perform (r : GoforgeWasmRuntime) : RuntimeEvent → Option GoforgeWasmRuntime
  | .invoke operation payload options seams => some (r.invoke operation payload options seams)
  | .preload signal seams => some (r.preload signal seams)
  | .abortSignal signal => some (r.abortSignal signal)
  | .deadlineFires c => r.deadlineFires c
  | .loadThen result seams => r.loadThen result seams
  | .loadCatch seams => r.loadCatch seams
  | .deliver c => r.deliver c
  | .wake c result => r.wake c result
  | .resume c seams => r.resume c seams
  | .instanceCreated id => r.withPool fun s => s.step (.created id)
  | .instanceFailed id cause cleanup =>
    r.withPool fun s => s.step (.createFailed id (instanceCreationError cause cleanup))
  | .instanceClosed id failure => r.withPool fun s => s.step (.instanceClosed id failure)
  | .poolClosed => r.withPool fun s => s.step .finishClose
  | .dispatchSettles d outcome => r.dispatchSettles d outcome
  | .dispatchReleased d => r.dispatchReleased d
  | .adapterEnters x thrown => r.adapterEnters x thrown
  | .adapterSettles x result => r.adapterSettles x result
  | .adapters op => some { r with adapters := r.adapters.apply op }
  | .close seams => some (r.close seams)
  | .resumeClose adaptersFailed => r.resumeClose adaptersFailed

def nextTurn (r : GoforgeWasmRuntime) : GoforgeWasmRuntime :=
  { r with turn := r.turn + 1, pool := r.pool.map fun p => { p with turn := p.turn + 1 } }

def step (r : GoforgeWasmRuntime) (e : RuntimeEvent) : Option GoforgeWasmRuntime :=
  (r.perform e).map nextTurn

end GoforgeWasmRuntime

def runtimeMachine : LabelledMachine GoforgeWasmRuntime RuntimeEvent where
  start r := ∃ options, GoforgeWasmRuntime.new options = .ok r
  step := GoforgeWasmRuntime.step

/-- Whether the constructor accepts the options, with a runtime that satisfies `P`. -/
def GoforgeWasmRuntimeOptions.builds (options : GoforgeWasmRuntimeOptions)
    (P : GoforgeWasmRuntime → Bool) : Bool :=
  match GoforgeWasmRuntime.new options with
  | .ok r => P r
  | .error _ => false

theorem new_of_builds {options : GoforgeWasmRuntimeOptions} {P : GoforgeWasmRuntime → Bool}
    (h : options.builds P = true) : ∃ r, GoforgeWasmRuntime.new options = .ok r ∧ P r = true := by
  unfold GoforgeWasmRuntimeOptions.builds at h
  split at h
  · next r constructed => exact ⟨r, constructed, h⟩
  · cases h

/-- Whether the options build a runtime that can go through the events, to a state that satisfies
`P`. -/
def GoforgeWasmRuntimeOptions.shows (options : GoforgeWasmRuntimeOptions)
    (es : List RuntimeEvent) (P : GoforgeWasmRuntime → Bool) : Bool :=
  options.builds fun r => (runtimeMachine.run r es).any P

theorem run_of_shows {options : GoforgeWasmRuntimeOptions} {es : List RuntimeEvent}
    {P : GoforgeWasmRuntime → Bool} (h : options.shows es P = true) :
    ∃ r t, GoforgeWasmRuntime.new options = .ok r ∧ runtimeMachine.run r es = some t ∧ P t = true := by
  obtain ⟨r, constructed, reaches⟩ := new_of_builds h
  obtain ⟨t, reached, holds⟩ := (Option.any_eq_true P _).mp reaches
  exact ⟨r, t, constructed, reached, holds⟩

def Seams.calm : Seams := ⟨fun _ => none, .ok (js "req-1"), none, none⟩

def WasmCallOptions.empty : WasmCallOptions := ⟨none, none, none, none, none, none, none, false⟩

def GoforgeWasmRuntimeOptions.defaults (now : Nat → JsNumber) : GoforgeWasmRuntimeOptions :=
  { poolSize := none, defaultTimeoutMs := none, retryPolicy := ⟨none, none, none, none⟩,
    adapters := ⟨fun _ => ⟨[], none, .undefined, false⟩, [], [], false⟩, now }

def WasmBundleManifestV1.offering (operation : JsString) (retrySafe : Bool) : WasmBundleManifestV1 :=
  ⟨[], [], [], [], ⟨[], []⟩, ⟨[], []⟩, [], [], [(operation, ⟨operation, true, retrySafe, none⟩)]⟩

def successResponse (id : JsString) : JsString :=
  js "\x7b\"abi\":\"goforge.abi.v1\",\"id\":\"" ++ id ++ js "\",\"ok\":true,\"result\":null\x7d"

end ForgeDeno
