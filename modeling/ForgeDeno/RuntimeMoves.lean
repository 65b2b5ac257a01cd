import ForgeDeno.PoolMoves
import ForgeDeno.RuntimeMachine

namespace ForgeDeno

open Option

def CallPhase.live : CallPhase → Bool
  | .refused | .thrown _ | .settled _ => false
  | _ => true

def CallPhase.runs : CallPhase → Bool
  | .entered | .loaded _ | .starting | .returned _ | .slept _ => true
  | _ => false

theorem CallPhase.live_of_runs {phase : CallPhase} (h : phase.runs = true) : phase.live = true := by
  cases phase <;> first | rfl | cases h

def CallPhase.failure? : CallPhase → Option Thrown
  | .settled (.error error) => some error
  | _ => none

theorem CallPhase.failure?_eq {phase : CallPhase} {error : Thrown} :
    phase.failure? = some error ↔ phase = .settled (.error error) := by
  constructor
  · intro failed
    unfold failure? at failed
    split at failed
    · rw [some.inj failed]
    · cases failed
  · intro settled
    rw [settled]
    rfl

def CallPhase.leadsTo (before after : CallPhase) : Prop :=
  after = before ∨ (before.live = true ∧ (after.live = true ∨ ∃ outcome, after = .settled outcome))

structure Call.Same (call after : Call) : Prop where
  kind : after.kind = call.kind
  operation : after.operation = call.operation
  payload : after.payload = call.payload
  options : after.options = call.options
  requestId : after.requestId = call.requestId
  deadline : after.deadline = call.deadline

def Call.succeeded (call : Call) : Bool :=
  match call.phase with
  | .returned (.ok (.success _ _)) => true
  | _ => false

inductive FailureOrigin (seams : Seams) : CallPhase → Thrown → Prop where
  | starting (cause : Thrown) : FailureOrigin seams .starting cause
  | returned (cause : Thrown) : FailureOrigin seams (.returned (.error cause)) cause
  | guest (id : JsString) (error : AbiErrorV1) :
      FailureOrigin seams (.returned (.ok (.failure id error)))
        (.wasm (wasmGuestError error.code error.message error.retryable error.field))
  | fault (id : JsString) (value : JsValue) (site : NowSite) (cause : Thrown)
      (thrown : seams.now site = some cause) :
      FailureOrigin seams (.returned (.ok (.success id value))) cause

/-- What may come before an attempt: the verified bundle, or the pause after the last one. -/
inductive BeginsAfter (retry : WasmRetryPolicy) (call : Call) (plan : CallPlan) : Prop where
  | loaded (manifest : WasmBundleManifestV1) (phase : call.phase = .loaded (.ok manifest))
      (kind : call.kind = .invoke) (planned : planCall retry call manifest = .ok plan)
  | slept (phase : call.phase = .slept (.ok ())) (planned : call.plan = some plan)
      (more : call.attempt < plan.maxAttempts)

open GoforgeWasmRuntime in
inductive CallMove (c : Nat) (seams : Seams) (r : GoforgeWasmRuntime) : GoforgeWasmRuntime → Prop where
  | note (events : List WasmRuntimeEvent) (lastErrorCode : Option JsString) :
      CallMove c seams r { r with events, lastErrorCode }
  | begin (call : Call) (plan : CallPlan) (attemptStartedAt : JsNumber)
      (here : r.calls[c]? = some call) (after : BeginsAfter r.retry call plan) :
      CallMove c seams r (r.putCall c { call with
        plan := some plan, attempt := call.attempt + 1, attemptStartedAt, phase := .starting })
  | reject (call : Call) (cause : Thrown) (here : r.calls[c]? = some call)
      (phase : call.phase = .starting) : CallMove c seams r (r.setPhase c call (.returned (.error cause)))
  | acquire (call : Call) (plan : CallPlan) (pool : InstancePool) (requestJson : JsString)
      (state : AbiExecutionStateV1) (here : r.calls[c]? = some call)
      (phase : call.phase = .starting) (component : call.options.route = .component)
      (planned : call.plan = some plan) (some_pool : r.pool = some pool)
      (serialized : serializeAbiRequest plan.request = .ok requestJson)
      (reading : state.nowUnixMilliseconds = (r.clock r.turn).floor) :
      CallMove c seams r (r.acquireLease c call pool requestJson state)
  | select (call : Call) (plan : CallPlan) (name : JsString) (adapter : Nat)
      (here : r.calls[c]? = some call) (phase : call.phase = .starting)
      (native : call.options.route = .native name) (planned : call.plan = some plan)
      (resolved : r.adapters.resolve name plan.request.operation plan.nativeAdapters = .ok adapter) :
      CallMove c seams r
        ((r.addExecution ⟨c, call.attempt, adapter, plan.request, .scheduled⟩).setPhase c call
          (match call.scope.reason with
            | some reason => .adapted (.error (.wasm reason))
            | none => .adapting r.executions.length))
  | refuseLease (call : Call) (request : LeaseRequest) (pool : InstancePool) (w : PoolWaiter)
      (cause : Thrown) (here : r.calls[c]? = some call) (phase : call.phase = .leasing request)
      (some_pool : r.pool = some pool) (rejected : .rejected w cause ∈ pool.log)
      (ticket : w.ticket = request.ticket) :
      CallMove c seams r (r.setPhase c call (.returned (.error cause)))
  | undispatch (call : Call) (request : LeaseRequest) (pool : InstancePool) (lease : InstanceLease)
      (reason : WasmRuntimeError) (here : r.calls[c]? = some call)
      (phase : call.phase = .leasing request) (some_pool : r.pool = some pool)
      (found : pool.held.find? (fun l => l.ticket = request.ticket) = some lease)
      (aborted : call.scope.reason = some reason) :
      CallMove c seams r (r.undispatch c call pool lease (.wasm reason))
  | threw (call : Call) (request : LeaseRequest) (pool : InstancePool) (lease : InstanceLease)
      (fault : Thrown) (here : r.calls[c]? = some call) (phase : call.phase = .leasing request)
      (some_pool : r.pool = some pool)
      (found : pool.held.find? (fun l => l.ticket = request.ticket) = some lease)
      (live : call.scope.reason = none) :
      CallMove c seams r ((r.addDispatch ⟨c, call.attempt, call.requestId, request, lease.entry,
        lease.grantedAt, .threw fault⟩).undispatch c call pool lease fault)
  | dispatch (call : Call) (request : LeaseRequest) (pool : InstancePool) (lease : InstanceLease)
      (here : r.calls[c]? = some call) (phase : call.phase = .leasing request)
      (some_pool : r.pool = some pool)
      (found : pool.held.find? (fun l => l.ticket = request.ticket) = some lease)
      (live : call.scope.reason = none) :
      CallMove c seams r ((r.addDispatch ⟨c, call.attempt, call.requestId, request, lease.entry,
        lease.grantedAt, .running⟩).setPhase c call (.dispatched r.dispatches.length))
  | released (call : Call) (entry : Nat) (awaitsClose : Bool) (cause : Thrown)
      (failure : Option Thrown) (here : r.calls[c]? = some call)
      (phase : call.phase = .undispatched entry awaitsClose cause)
      (outcome : r.releaseOutcome entry awaitsClose = some failure) :
      CallMove c seams r (r.setPhase c call (.returned (.error (failure.getD (invocationFailure cause)))))
  | adapted (call : Call) (result : Except Thrown JsValue) (response : Except Thrown AbiResponseV1)
      (here : r.calls[c]? = some call) (phase : call.phase = .adapted result) :
      CallMove c seams r (r.setPhase c call (.returned response))
  | backOff (call : Call) (plan : CallPlan) (cause : Thrown) (here : r.calls[c]? = some call)
      (planned : call.plan = some plan) (origin : FailureOrigin seams call.phase cause)
      (more : call.attempt < plan.maxAttempts)
      (safe : r.retry.isSafeTransient (normalizeCallError cause call.options.route call.scope.reason) = true) :
      CallMove c seams r (r.backOff c call (normalizeCallError cause call.options.route call.scope.reason))
  | finish (call : Call) (outcome : Except Thrown JsValue) (here : r.calls[c]? = some call)
      (runs : call.phase.runs = true) : CallMove c seams r (r.finish c call outcome)

abbrev CallMoves (c : Nat) (seams : Seams) := Relation.ReflTransGen (CallMove c seams)

theorem CallMoves.invariant {I : GoforgeWasmRuntime → Prop} {c : Nat} {seams : Seams}
    {r t : GoforgeWasmRuntime} (keep : ∀ r t, I r → CallMove c seams r t → I t)
    (h : CallMoves c seams r t) (hi : I r) : I t := by
  induction h with
  | refl => exact hi
  | tail _ move ih => exact keep _ _ ih move

namespace GoforgeWasmRuntime

variable {r t : GoforgeWasmRuntime} {c : Nat} {call : Call} {seams : Seams}

@[simp] theorem putCall_here (here : r.calls[c]? = some call) (after : Call) :
    (r.putCall c after).calls[c]? = some after := by
  obtain ⟨bound, _⟩ := List.getElem?_eq_some_iff.mp here
  simp [putCall, bound]

theorem emit_move (event : WasmRuntimeEvent) : CallMove c seams r (r.emit event) :=
  .note _ r.lastErrorCode

theorem origin_runs {phase : CallPhase} {cause : Thrown} (h : FailureOrigin seams phase cause) :
    phase.runs = true := by
  cases h <;> rfl

variable {plan : CallPlan}

theorem begins_runs (h : BeginsAfter r.retry call plan) : call.phase.runs = true := by
  cases h with
  | loaded manifest phase => rw [phase]; rfl
  | slept phase => rw [phase]; rfl

theorem attemptFailed_moves {cause : Thrown} (here : r.calls[c]? = some call)
    (planned : call.plan = some plan) (origin : FailureOrigin seams call.phase cause) :
    CallMoves c seams r (r.attemptFailed c call plan cause seams) := by
  have runs := origin_runs origin
  unfold attemptFailed
  simp only
  split
  · exact .head (.note _ _) (.single (.finish call _ here runs))
  · split_ifs with last
    · exact .head (.note r.events _) (.head (.note _ _) (.single (.finish call _ here runs)))
    · split
      · exact .head (.note r.events _) (.head (.note _ _) (.single (.finish call _ here runs)))
      · split
        · exact .head (.note r.events _) (.head (.note _ _) (.head (.note _ _)
            (.single (.finish call _ here runs))))
        · simp only [Bool.not_eq_true', Bool.not_eq_false, Bool.and_eq_true,
            decide_eq_true_eq] at last
          exact .head (.note r.events _) (.head (.note _ _) (.head (.note _ _)
            (.single (.backOff call plan cause here planned origin last.1 last.2))))

theorem now_ok {site : NowSite} {reading : JsNumber} (h : r.now seams site = .ok reading) :
    reading = r.clock r.turn := by
  unfold now at h
  split at h
  · cases h
  · exact (Except.ok.inj h).symm

theorem now_error {site : NowSite} {fault : Thrown} (h : r.now seams site = .error fault) :
    seams.now site = some fault := by
  unfold now at h
  split at h
  · next thrown =>
    cases h
    exact thrown
  · cases h

theorem invokeComponent_moves {requestJson : JsString}
    {state : AbiExecutionStateV1} (here : r.calls[c]? = some call)
    (phase : call.phase = .starting) (component : call.options.route = .component)
    (planned : call.plan = some plan) (serialized : serializeAbiRequest plan.request = .ok requestJson)
    (reading : state.nowUnixMilliseconds = (r.clock r.turn).floor) :
    CallMoves c seams r (r.invokeComponent c call requestJson state seams) := by
  unfold invokeComponent
  split
  · exact .single (.reject call _ here phase)
  · next pool some_pool =>
    split_ifs
    · split
      · exact .single (.reject call _ here phase)
      · exact .head (.note _ r.lastErrorCode) (.single (.acquire call plan pool requestJson state
          here phase component planned some_pool serialized reading))
    · exact .single (.acquire call plan pool requestJson state here phase component planned
        some_pool serialized reading)

theorem invokeAdapter_moves {name : JsString} (here : r.calls[c]? = some call)
    (phase : call.phase = .starting) (native : call.options.route = .native name)
    (planned : call.plan = some plan) : CallMoves c seams r (r.invokeAdapter c call plan name) := by
  unfold invokeAdapter
  split
  · exact .single (.reject call _ here phase)
  · next adapter resolved =>
    exact .single (.select call plan name adapter here phase native planned resolved)

theorem startAttempt_moves (here : r.calls[c]? = some call)
    (after : BeginsAfter r.retry call plan) : CallMoves c seams r (r.startAttempt c call plan seams) := by
  have runs := begins_runs after
  unfold startAttempt
  split
  · exact .single (.finish call _ here runs)
  · next attemptStartedAt _ =>
    refine .head (.begin call plan attemptStartedAt here after) (.head (emit_move
      { type := .callStart, timestamp := attemptStartedAt, requestId := some call.requestId,
        operation := some call.operation, target := some (targetName call.options.route),
        attempt := some (call.attempt + 1) }) ?_)
    simp only
    split
    · next component =>
      split
      · next cause _ => exact attemptFailed_moves (putCall_here here _) rfl (.starting cause)
      · next requestJson serialized =>
        split
        · next fault _ => exact attemptFailed_moves (putCall_here here _) rfl (.starting fault)
        · next reading shown =>
          have taken := now_ok shown
          refine invokeComponent_moves (putCall_here here _) rfl component rfl serialized ?_
          rw [executionState, taken]
    · next name native => exact invokeAdapter_moves (putCall_here here _) rfl native rfl

theorem resumeLoaded_moves {result : Except Thrown WasmBundleManifestV1}
    (here : r.calls[c]? = some call) (phase : call.phase = .loaded result) :
    CallMoves c seams r (r.resumeLoaded c call result seams) := by
  have runs : call.phase.runs = true := by rw [phase]; rfl
  unfold resumeLoaded
  split
  · exact .single (.finish call _ here runs)
  · exact .single (.finish call _ here runs)
  · next manifest kind =>
    split
    · exact .single (.finish call _ here runs)
    · next plan planned => exact startAttempt_moves here (.loaded manifest phase kind planned)

theorem resumeLeasing_moves {request : LeaseRequest} (here : r.calls[c]? = some call)
    (phase : call.phase = .leasing request) (h : r.resumeLeasing c call request seams = some t) :
    CallMove c seams r t := by
  unfold resumeLeasing at h
  obtain ⟨pool, some_pool, h⟩ := bind_eq_some_iff.mp h
  split at h
  · next lease found =>
    split at h
    · next reason aborted =>
      cases h
      exact .undispatch call request pool lease reason here phase some_pool found aborted
    · next live =>
      simp only at h
      split at h
      · next fault _ =>
        cases h
        exact .threw call request pool lease fault here phase some_pool found live
      · cases h
        exact .dispatch call request pool lease here phase some_pool found live
  · split at h
    · next w cause found =>
      cases h
      have settles := List.find?_some found
      exact .refuseLease call request pool w cause here phase some_pool
        (List.mem_of_find?_eq_some found) (by simpa [PoolRecord.settles] using settles)
    · cases h

theorem resumeUndispatched_moves {entry : Nat} {awaitsClose : Bool} {cause : Thrown}
    (here : r.calls[c]? = some call) (phase : call.phase = .undispatched entry awaitsClose cause)
    (h : r.resumeUndispatched c call entry awaitsClose cause = some t) : CallMove c seams r t := by
  unfold resumeUndispatched at h
  obtain ⟨failure, outcome, h⟩ := bind_eq_some_iff.mp h
  have eq : r.setPhase c call (.returned (.error (failure.getD (invocationFailure cause)))) = t :=
    some.inj h
  rw [← eq]
  exact .released call entry awaitsClose cause failure here phase outcome

theorem resumeSlept_moves {result : Except Thrown Unit}
    (here : r.calls[c]? = some call) (phase : call.phase = .slept result) (planned : call.plan = some plan) :
    CallMoves c seams r (r.resumeSlept c call plan result seams) := by
  have runs : call.phase.runs = true := by rw [phase]; rfl
  unfold resumeSlept
  split
  · exact .single (.finish call _ here runs)
  · split_ifs with more
    · exact startAttempt_moves here (.slept phase planned more)
    · exact .single (.finish call _ here runs)

theorem attemptSucceeded_moves {id : JsString} {value : JsValue}
    (here : r.calls[c]? = some call) (phase : call.phase = .returned (.ok (.success id value)))
    (planned : call.plan = some plan) : CallMoves c seams { r with state := .ready, lastErrorCode := none }
      (r.attemptSucceeded c call plan value seams) := by
  have runs : call.phase.runs = true := by rw [phase]; rfl
  unfold attemptSucceeded
  simp only
  split
  · next fault faulted =>
    have thrown : ∃ site, seams.now site = some fault := by
      unfold timed at faulted
      cases first : now seams .callSuccess { r with state := .ready, lastErrorCode := none } with
      | error e =>
        rw [first] at faulted
        cases faulted
        exact ⟨_, now_error first⟩
      | ok timestamp =>
        cases second : now seams .callSuccessDuration { r with state := .ready, lastErrorCode := none } with
        | error e =>
          rw [first, second] at faulted
          cases faulted
          exact ⟨_, now_error second⟩
        | ok finishedAt =>
          rw [first, second] at faulted
          cases faulted
    obtain ⟨site, thrown⟩ := thrown
    refine attemptFailed_moves here planned ?_
    rw [phase]
    exact .fault id value site fault thrown
  · exact .head (.note _ none) (.single (.finish call _ here runs))

theorem resumeReturned_moves {result : Except Thrown AbiResponseV1}
    (here : r.calls[c]? = some call) (phase : call.phase = .returned result)
    (planned : call.plan = some plan) (failed : ∀ id value, result ≠ .ok (.success id value)) :
    CallMoves c seams r (r.resumeReturned c call plan result seams) := by
  unfold resumeReturned
  split
  · next id value => exact absurd rfl (failed id value)
  · next id error =>
    refine attemptFailed_moves here planned ?_
    rw [phase]
    exact .guest id error
  · next cause =>
    refine attemptFailed_moves here planned ?_
    rw [phase]
    exact .returned cause

theorem resume_cases (h : r.resume c seams = some t) : (∃ call plan id value, r.calls[c]? = some call ∧
      call.phase = .returned (.ok (.success id value)) ∧ call.plan = some plan ∧
      t = r.attemptSucceeded c call plan value seams) ∨
    ((∀ call, r.calls[c]? = some call → call.succeeded = false) ∧ CallMoves c seams r t) := by
  unfold resume at h
  obtain ⟨call, here, h⟩ := bind_eq_some_iff.mp h
  have only (p : call.succeeded = false) : ∀ other, r.calls[c]? = some other →
      other.succeeded = false := fun other there => by
    cases here.symm.trans there
    exact p
  split at h
  · next result phase =>
    cases h
    exact .inr ⟨only (by simp [Call.succeeded, phase]), resumeLoaded_moves here phase⟩
  · next request phase =>
    exact .inr ⟨only (by simp [Call.succeeded, phase]), .single (resumeLeasing_moves here phase h)⟩
  · next entry awaitsClose cause phase =>
    exact .inr ⟨only (by simp [Call.succeeded, phase]), .single (resumeUndispatched_moves here phase h)⟩
  · next result phase =>
    cases h
    exact .inr ⟨only (by simp [Call.succeeded, phase]), .single (.adapted call result _ here phase)⟩
  · next result plan phase planned =>
    cases h
    by_cases success : ∃ id value, result = .ok (.success id value)
    · obtain ⟨id, value, rfl⟩ := success
      exact .inl ⟨call, plan, id, value, here, phase, planned, rfl⟩
    · have failed : ∀ id value, result ≠ .ok (.success id value) :=
        fun id value eq => success ⟨id, value, eq⟩
      refine .inr ⟨only ?_, resumeReturned_moves here phase planned failed⟩
      unfold Call.succeeded
      split
      · next id value eq => exact absurd (CallPhase.returned.inj (phase.symm.trans eq)) (failed id value)
      · rfl
  · next result plan phase planned =>
    cases h
    exact .inr ⟨only (by simp [Call.succeeded, phase]), resumeSlept_moves here phase planned⟩
  · cases h

@[simp] theorem finish_calls (c : Nat) (call : Call) (outcome : Except Thrown JsValue) :
    (r.finish c call outcome).calls = r.calls.set c
      { call with phase := .settled outcome, scope := { call.scope with disposed := true } } := by
  unfold finish
  simp only
  split_ifs <;> rfl

theorem callMove_calls (move : CallMove c seams r t) :
    t.calls = r.calls ∨ ∃ call after, r.calls[c]? = some call ∧ t.calls = r.calls.set c after ∧
      call.Same after ∧ after.scope.reason = call.scope.reason ∧ call.phase.live = true ∧
      (after.phase.live = true ∨ ∃ outcome, after.phase = .settled outcome) := by
  cases move with
  | note => exact .inl rfl
  | reject call _ here phase | acquire call _ _ _ _ here phase
  | refuseLease call _ _ _ _ here phase | undispatch call _ _ _ _ here phase
  | threw call _ _ _ _ here phase | dispatch call _ _ _ here phase
  | released call _ _ _ _ here phase | adapted call _ _ here phase =>
    exact .inr ⟨call, _, here, rfl, ⟨rfl, rfl, rfl, rfl, rfl, rfl⟩, rfl, by rw [phase]; rfl, .inl rfl⟩
  | select call plan name adapter here phase =>
    refine .inr ⟨call, _, here, rfl, ⟨rfl, rfl, rfl, rfl, rfl, rfl⟩, rfl, by rw [phase]; rfl, .inl ?_⟩
    cases call.scope.reason <;> rfl
  | begin call plan started here after =>
    exact .inr ⟨call, _, here, rfl, ⟨rfl, rfl, rfl, rfl, rfl, rfl⟩, rfl,
      CallPhase.live_of_runs (begins_runs after),
      .inl rfl⟩
  | backOff call plan cause here planned origin =>
    refine .inr ⟨call, _, here, rfl, ⟨rfl, rfl, rfl, rfl, rfl, rfl⟩, rfl,
      CallPhase.live_of_runs (origin_runs origin),
      .inl ?_⟩
    cases call.scope.reason <;> rfl
  | finish call outcome here runs =>
    exact .inr ⟨call, _, here, finish_calls c call outcome, ⟨rfl, rfl, rfl, rfl, rfl, rfl⟩, rfl,
      CallPhase.live_of_runs runs, .inr ⟨outcome, rfl⟩⟩

end GoforgeWasmRuntime

end ForgeDeno
