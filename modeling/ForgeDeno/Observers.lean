import ForgeDeno.EventTraces
import ForgeDeno.RuntimeRetry

namespace ForgeDeno

namespace GoforgeWasmRuntime

open GoforgeWasmRuntime

/-- The second runtime differs from the first in nothing but that it has no observer, which has been told
nothing. -/
abbrev Alike (r s : GoforgeWasmRuntime) : Prop := s = { r with observer := none, events := [] }

inductive AlikeNext : Option GoforgeWasmRuntime → Option GoforgeWasmRuntime → Prop where
  | none : AlikeNext none none
  | some {t u : GoforgeWasmRuntime} (alike : t.Alike u) : AlikeNext (some t) (some u)

theorem AlikeNext.bind {α : Type} {x : Option α} {f g : α → Option GoforgeWasmRuntime}
    (next : ∀ a, AlikeNext (f a) (g a)) : AlikeNext (x.bind f) (x.bind g) := by
  cases x with
  | none => exact .none
  | some a => exact next a

variable {r s t : GoforgeWasmRuntime} {c : Nat} {call : Call} {seams : Seams} (h : r.Alike s)

include h

theorem Alike.emit (event : WasmRuntimeEvent) : (r.emit event).Alike (s.emit event) := by
  obtain rfl := h
  rfl

theorem Alike.finish (outcome : Except Thrown JsValue) :
    (r.finish c call outcome).Alike (s.finish c call outcome) := by
  obtain rfl := h
  unfold finish
  split_ifs <;> rfl

theorem Alike.setPhase (phase : CallPhase) :
    (r.setPhase c call phase).Alike (s.setPhase c call phase) := by
  obtain rfl := h
  rfl

theorem Alike.timed (timestamp duration : NowSite) (startedAt : JsNumber) :
    s.timed seams timestamp duration startedAt = r.timed seams timestamp duration startedAt := by
  obtain rfl := h
  rfl

theorem Alike.now (site : NowSite) : s.now seams site = r.now seams site := by
  obtain rfl := h
  rfl

theorem Alike.coded (lastErrorCode : Option JsString) :
    Alike { r with lastErrorCode } { s with lastErrorCode } := by
  obtain rfl := h
  rfl

theorem Alike.retry : s.retry = r.retry := by
  obtain rfl := h
  rfl

theorem Alike.attemptFailed (plan : CallPlan) (cause : Thrown) :
    (r.attemptFailed c call plan cause seams).Alike (s.attemptFailed c call plan cause seams) := by
  unfold GoforgeWasmRuntime.attemptFailed
  simp only
  have coded := h.coded ((normalizeCallError cause call.options.route
    call.scope.reason).runtime?.map WasmRuntimeError.code)
  have safe : s.retry.isSafeTransient = r.retry.isSafeTransient := by rw [h.retry]
  rw [coded.timed, safe]
  split
  · exact coded.finish _
  · next timestamp durationMs _ =>
    split_ifs
    · exact (coded.emit _).finish _
    · rw [(coded.emit _).now]
      split
      · exact (coded.emit _).finish _
      · split
        · exact ((coded.emit _).emit _).finish _
        · obtain rfl := h
          rfl

theorem Alike.attemptSucceeded (plan : CallPlan) (value : JsValue) :
    (r.attemptSucceeded c call plan value seams).Alike (s.attemptSucceeded c call plan value seams) := by
  have ready : Alike { r with state := .ready, lastErrorCode := none }
      { s with state := .ready, lastErrorCode := none } := by
    obtain rfl := h
    rfl
  unfold GoforgeWasmRuntime.attemptSucceeded
  simp only
  rw [ready.timed]
  split
  · exact ready.attemptFailed plan _
  · exact (ready.emit _).finish _

theorem Alike.acquireLease (pool : InstancePool) (requestJson : JsString)
    (state : AbiExecutionStateV1) : (r.acquireLease c call pool requestJson state).Alike
      (s.acquireLease c call pool requestJson state) := by
  obtain rfl := h
  rfl

theorem Alike.pool : s.pool = r.pool := by
  obtain rfl := h
  rfl

theorem Alike.poolSize : s.poolSize = r.poolSize := by
  obtain rfl := h
  rfl

theorem Alike.invokeComponent (requestJson : JsString) (state : AbiExecutionStateV1) :
    (r.invokeComponent c call requestJson state seams).Alike
      (s.invokeComponent c call requestJson state seams) := by
  unfold GoforgeWasmRuntime.invokeComponent
  rw [h.pool, h.poolSize, h.now]
  split
  · exact h.setPhase _
  · split_ifs
    · split
      · exact h.setPhase _
      · exact (h.emit _).acquireLease _ _ _
    · exact h.acquireLease _ _ _

theorem Alike.invokeAdapter (plan : CallPlan) (name : JsString) :
    (r.invokeAdapter c call plan name).Alike (s.invokeAdapter c call plan name) := by
  obtain rfl := h
  unfold invokeAdapter
  simp only
  split
  · rfl
  · rfl

theorem Alike.putCall (after : Call) : (r.putCall c after).Alike (s.putCall c after) := by
  obtain rfl := h
  rfl

theorem Alike.startAttempt (plan : CallPlan) :
    (r.startAttempt c call plan seams).Alike (s.startAttempt c call plan seams) := by
  unfold GoforgeWasmRuntime.startAttempt
  rw [h.now]
  split
  · exact h.finish _
  · next startedAt _ =>
    simp only
    have begun := (h.putCall (c := c) { call with
      plan := some plan, attempt := call.attempt + 1, attemptStartedAt := startedAt
      phase := .starting }).emit
      { type := .callStart, timestamp := startedAt, requestId := some call.requestId,
        operation := some call.operation, target := some (targetName call.options.route),
        attempt := some (call.attempt + 1) }
    split
    · split
      · exact begun.attemptFailed plan _
      · rw [begun.now]
        split
        · exact begun.attemptFailed plan _
        · exact begun.invokeComponent _ _
    · exact begun.invokeAdapter plan _

theorem Alike.resumeLoaded (result : Except Thrown WasmBundleManifestV1) :
    (r.resumeLoaded c call result seams).Alike (s.resumeLoaded c call result seams) := by
  unfold GoforgeWasmRuntime.resumeLoaded
  rw [h.retry]
  split
  · exact h.finish _
  · exact h.finish _
  · split
    · exact h.finish _
    · exact h.startAttempt _

theorem Alike.resumeLeasing (request : LeaseRequest) :
    AlikeNext (r.resumeLeasing c call request seams) (s.resumeLeasing c call request seams) := by
  unfold GoforgeWasmRuntime.resumeLeasing
  rw [h.pool]
  obtain rfl := h
  refine .bind fun pool => ?_
  split
  · split
    · exact .some rfl
    · simp only
      split
      · exact .some rfl
      · exact .some rfl
  · split
    · exact .some rfl
    · exact .none

theorem Alike.releaseOutcome (entry : Nat) (awaitsClose : Bool) :
    s.releaseOutcome entry awaitsClose = r.releaseOutcome entry awaitsClose := by
  obtain rfl := h
  rfl

theorem Alike.resumeUndispatched (entry : Nat) (awaitsClose : Bool) (cause : Thrown) :
    AlikeNext (r.resumeUndispatched c call entry awaitsClose cause)
      (s.resumeUndispatched c call entry awaitsClose cause) := by
  unfold GoforgeWasmRuntime.resumeUndispatched
  rw [h.releaseOutcome]
  exact .bind fun failure => .some (h.setPhase _)

theorem Alike.resumeReturned (plan : CallPlan) (result : Except Thrown AbiResponseV1) :
    (r.resumeReturned c call plan result seams).Alike (s.resumeReturned c call plan result seams) := by
  unfold GoforgeWasmRuntime.resumeReturned
  split
  · exact h.attemptSucceeded plan _
  · exact h.attemptFailed plan _
  · exact h.attemptFailed plan _

theorem Alike.resumeSlept (plan : CallPlan) (result : Except Thrown Unit) :
    (r.resumeSlept c call plan result seams).Alike (s.resumeSlept c call plan result seams) := by
  unfold GoforgeWasmRuntime.resumeSlept
  split
  · exact h.finish _
  · split_ifs
    · exact h.startAttempt plan
    · exact h.finish _

theorem Alike.calls : s.calls = r.calls := by
  obtain rfl := h
  rfl

theorem Alike.resume (c : Nat) (seams : Seams) :
    AlikeNext (r.resume c seams) (s.resume c seams) := by
  unfold GoforgeWasmRuntime.resume
  rw [h.calls]
  refine .bind fun call => ?_
  split
  · exact .some (h.resumeLoaded _)
  · exact h.resumeLeasing _
  · exact h.resumeUndispatched _ _ _
  · exact .some (h.setPhase _)
  · exact .some (h.resumeReturned _ _)
  · exact .some (h.resumeSlept _ _)
  · exact .none

theorem Alike.load : s.load = r.load := by
  obtain rfl := h
  rfl

theorem Alike.dispatches : s.dispatches = r.dispatches := by
  obtain rfl := h
  rfl

theorem Alike.executions : s.executions = r.executions := by
  obtain rfl := h
  rfl

theorem Alike.deliver (c : Nat) : AlikeNext (r.deliver c) (s.deliver c) := by
  unfold GoforgeWasmRuntime.deliver
  rw [h.calls, h.load, h.dispatches, h.executions]
  refine .bind fun call => ?_
  split
  · split
    · exact .some (h.setPhase _)
    · exact .some (h.setPhase _)
    · exact .none
  · split
    · exact .some (h.setPhase _)
    · exact .none
  · split
    · exact .some (h.setPhase _)
    · exact .none
  · exact .none

theorem Alike.wake (c : Nat) (result : Except Thrown Unit) :
    AlikeNext (r.wake c result) (s.wake c result) := by
  unfold GoforgeWasmRuntime.wake
  rw [h.calls]
  refine .bind fun call => ?_
  split
  · exact .some (h.setPhase _)
  · exact .none

theorem Alike.abortCall (c : Nat) (reason : WasmRuntimeError) :
    (r.abortCall c reason).Alike (s.abortCall c reason) := by
  unfold GoforgeWasmRuntime.abortCall
  rw [h.calls]
  split
  · split_ifs
    · exact h
    · obtain rfl := h
      rfl
  · exact h

theorem Alike.abortAll (listens : Call → Bool) (reason : WasmRuntimeError) :
    (r.abortAll listens reason).Alike (s.abortAll listens reason) := by
  unfold GoforgeWasmRuntime.abortAll
  rw [h.calls]
  generalize List.range r.calls.length = cs
  induction cs generalizing r s with
  | nil => exact h
  | cons c cs ih =>
    simp only [List.foldl_cons]
    rw [h.calls]
    split_ifs
    · exact ih (h.abortCall c reason)
    · exact ih h

theorem Alike.abortSignal (signal : Nat) :
    (r.abortSignal signal).Alike (s.abortSignal signal) := by
  have heard : Alike { r with abortedSignals := signal :: r.abortedSignals }
      { s with abortedSignals := signal :: s.abortedSignals } := by
    obtain rfl := h
    rfl
  have same : s.abortedSignals.contains signal = r.abortedSignals.contains signal := by
    obtain rfl := h
    rfl
  unfold GoforgeWasmRuntime.abortSignal
  rw [same]
  split_ifs
  · exact h
  · exact heard.abortAll _ _

theorem Alike.deadlineFires (c : Nat) : AlikeNext (r.deadlineFires c) (s.deadlineFires c) := by
  unfold GoforgeWasmRuntime.deadlineFires
  rw [h.calls]
  refine .bind fun call => ?_
  split_ifs
  · exact .some (h.abortCall c _)
  · exact .none

theorem Alike.dispatchSettles (d : Nat) (outcome : Except Thrown JsString) :
    AlikeNext (r.dispatchSettles d outcome) (s.dispatchSettles d outcome) := by
  unfold GoforgeWasmRuntime.dispatchSettles
  rw [h.dispatches, h.pool]
  refine .bind fun dispatch => .bind fun pool => ?_
  obtain rfl := h
  split
  · exact .some rfl
  · exact .none

theorem Alike.dispatchReleased (d : Nat) :
    AlikeNext (r.dispatchReleased d) (s.dispatchReleased d) := by
  unfold GoforgeWasmRuntime.dispatchReleased
  rw [h.dispatches]
  refine .bind fun dispatch => ?_
  split
  · rw [h.releaseOutcome]
    refine .bind fun failure => ?_
    obtain rfl := h
    exact .some rfl
  · exact .none

theorem Alike.adapterEnters (x : Nat) (thrown : Option Thrown) :
    AlikeNext (r.adapterEnters x thrown) (s.adapterEnters x thrown) := by
  unfold GoforgeWasmRuntime.adapterEnters
  rw [h.executions]
  refine .bind fun execution => ?_
  obtain rfl := h
  split
  · exact .some rfl
  · exact .none

theorem Alike.adapterSettles (x : Nat) (result : Except Thrown JsValue) :
    AlikeNext (r.adapterSettles x result) (s.adapterSettles x result) := by
  unfold GoforgeWasmRuntime.adapterSettles
  rw [h.executions]
  refine .bind fun execution => ?_
  obtain rfl := h
  split
  · exact .some rfl
  · exact .none

theorem Alike.isOpen : s.isOpen = r.isOpen := by
  obtain rfl := h
  rfl

theorem Alike.shutdown : s.shutdown = r.shutdown := by
  obtain rfl := h
  rfl

theorem Alike.ensureLoaded (seams : Seams) :
    (r.ensureLoaded seams).1.Alike (s.ensureLoaded seams).1 ∧
      (s.ensureLoaded seams).2 = (r.ensureLoaded seams).2 := by
  obtain rfl := h
  have alike : r.Alike { r with observer := none, events := [] } := rfl
  unfold ensureLoaded
  rw [alike.isOpen]
  simp only
  split
  · split_ifs
    · exact ⟨alike, rfl⟩
    · rw [Alike.now (r := { r with state := .loading }) rfl]
      split
      · exact ⟨rfl, rfl⟩
      · exact ⟨rfl, rfl⟩
  · exact ⟨alike, rfl⟩

theorem Alike.enterInvoke : (r.enterInvoke c call seams).Alike (s.enterInvoke c call seams) := by
  obtain ⟨loaded, same⟩ := h.ensureLoaded seams
  unfold GoforgeWasmRuntime.enterInvoke
  revert loaded same
  cases r.ensureLoaded seams with
  | mk t fault =>
    cases s.ensureLoaded seams with
    | mk u other =>
      rintro loaded rfl
      split
      · exact h.finish _
      · cases other with
        | some fault => exact loaded.finish _
        | none => exact loaded.setPhase _

theorem Alike.enterPreload :
    (r.enterPreload c call seams).Alike (s.enterPreload c call seams) := by
  obtain ⟨loaded, same⟩ := h.ensureLoaded seams
  unfold GoforgeWasmRuntime.enterPreload
  revert loaded same
  cases r.ensureLoaded seams with
  | mk t fault =>
    cases s.ensureLoaded seams with
    | mk u other =>
      rintro loaded rfl
      cases other with
      | some fault => exact loaded.finish _
      | none =>
        simp only
        split
        · exact loaded.finish _
        · exact loaded.setPhase _

theorem Alike.addCall (call : Call) : (r.addCall call).Alike (s.addCall call) := by
  obtain rfl := h
  rfl

theorem Alike.counted :
    Alike { r with activeCalls := r.activeCalls + 1 } { s with activeCalls := s.activeCalls + 1 } := by
  obtain rfl := h
  rfl

theorem Alike.scoped (options : WasmCallOptions) :
    createAbortScope (s.callerAborted options) s.shutdown =
      createAbortScope (r.callerAborted options) r.shutdown := by
  obtain rfl := h
  rfl

theorem Alike.invoke (operation : JsString) (payload : JsValue)
    (options : WasmCallOptions) (seams : Seams) :
    (r.invoke operation payload options seams).Alike (s.invoke operation payload options seams) := by
  have arguments : s.invokeArguments options seams = r.invokeArguments options seams := by
    obtain rfl := h
    rfl
  have length : s.calls.length = r.calls.length := by rw [h.calls]
  unfold GoforgeWasmRuntime.invoke
  simp only
  rw [h.isOpen, arguments, h.scoped, length]
  split_ifs
  · exact h.addCall _
  · split
    · exact h.counted.addCall _
    · exact (h.counted.addCall _).enterInvoke

theorem Alike.preload (signal : Option Nat) (seams : Seams) :
    (r.preload signal seams).Alike (s.preload signal seams) := by
  have length : s.calls.length = r.calls.length := by rw [h.calls]
  unfold GoforgeWasmRuntime.preload
  simp only
  rw [h.isOpen, h.now, h.scoped, length]
  split_ifs
  · exact h.addCall _
  · split
    · exact h.addCall _
    · exact (h.addCall _).enterPreload

theorem Alike.loadThen (result : Except Thrown WasmBundleManifestV1)
    (seams : Seams) : AlikeNext (r.loadThen result seams) (s.loadThen result seams) := by
  obtain rfl := h
  unfold loadThen
  simp only
  split
  · exact .some rfl
  · split_ifs
    · exact .some rfl
    · rw [Alike.timed (r := { r with pool := some (.new r.poolSize r.turn), state := .ready })
        rfl]
      split
      · exact .some rfl
      · exact .some rfl
  · exact .none

theorem Alike.loadCatch (seams : Seams) : AlikeNext (r.loadCatch seams) (s.loadCatch seams) := by
  obtain rfl := h
  unfold GoforgeWasmRuntime.loadCatch
  simp only
  split
  · simp only [GoforgeWasmRuntime.timed, GoforgeWasmRuntime.now]
    split
    · exact .some rfl
    · exact .some rfl
  · exact .none

theorem Alike.shut : r.shut.Alike s.shut := by
  unfold GoforgeWasmRuntime.shut
  rw [h.shutdown]
  split_ifs
  · obtain rfl := h
    rfl
  · refine Alike.abortAll ?_ _ _
    obtain rfl := h
    rfl

theorem Alike.awaitBackground : r.awaitBackground.Alike s.awaitBackground := by
  obtain rfl := h
  rfl

theorem Alike.afterCalls : r.afterCalls.Alike s.afterCalls := by
  unfold GoforgeWasmRuntime.afterCalls
  rw [h.load]
  split
  · exact h.awaitBackground
  · obtain rfl := h
    rfl

theorem Alike.close (seams : Seams) : (r.close seams).Alike (s.close seams) := by
  have closing : s.closing = r.closing := by
    obtain rfl := h
    rfl
  have active (event : WasmRuntimeEvent) :
      (s.shut.emit event).activeCalls = (r.shut.emit event).activeCalls := by
    have eq := h.shut
    rw [eq]
    rfl
  unfold GoforgeWasmRuntime.close
  rw [closing]
  split_ifs
  · simp only
    rw [h.shut.now]
    split
    · exact h.shut
    · rw [active]
      split_ifs
      · have eq := h.shut
        rw [eq]
        rfl
      · exact (h.shut.emit _).afterCalls
  · exact h

theorem Alike.resumeClose (adaptersFailed : Bool) :
    AlikeNext (r.resumeClose adaptersFailed) (s.resumeClose adaptersFailed) := by
  have closing : s.closing = r.closing := by
    obtain rfl := h
    rfl
  unfold GoforgeWasmRuntime.resumeClose
  rw [closing, h.load, h.dispatches, h.executions, h.pool]
  split
  · exact .some h.afterCalls
  · split
    · exact .some h.awaitBackground
    · exact .some h.awaitBackground
    · exact .none
  · obtain rfl := h
    split_ifs
    · exact .some rfl
    · exact .none
  · simp only [Option.map_eq_bind]
    refine .bind fun failures => ?_
    obtain rfl := h
    exact .some rfl
  · obtain rfl := h
    exact .some rfl
  · exact .none

theorem Alike.withPool (step : PoolSystem → Option PoolSystem) :
    AlikeNext (r.withPool step) (s.withPool step) := by
  have signals : s.signals = r.signals := by
    obtain rfl := h
    rfl
  unfold GoforgeWasmRuntime.withPool
  rw [h.pool, signals]
  refine .bind fun pool => .bind fun system => ?_
  obtain rfl := h
  exact .some rfl

theorem Alike.perform (e : RuntimeEvent) : AlikeNext (r.perform e) (s.perform e) := by
  cases e with
  | invoke operation payload options seams => exact .some (h.invoke _ _ _ _)
  | preload signal seams => exact .some (h.preload _ _)
  | abortSignal signal => exact .some (h.abortSignal _)
  | deadlineFires c => exact h.deadlineFires c
  | loadThen result seams => exact h.loadThen _ _
  | loadCatch seams => exact h.loadCatch _
  | deliver c => exact h.deliver c
  | wake c result => exact h.wake c result
  | resume c seams => exact h.resume c seams
  | instanceCreated id => exact h.withPool fun s => s.step (.created id)
  | instanceFailed id cause cleanup =>
    exact h.withPool fun s => s.step (.createFailed id (instanceCreationError cause cleanup))
  | instanceClosed id failure => exact h.withPool fun s => s.step (.instanceClosed id failure)
  | poolClosed => exact h.withPool fun s => s.step .finishClose
  | dispatchSettles d outcome => exact h.dispatchSettles d outcome
  | dispatchReleased d => exact h.dispatchReleased d
  | adapterEnters x thrown => exact h.adapterEnters x thrown
  | adapterSettles x result => exact h.adapterSettles x result
  | adapters op =>
    obtain rfl := h
    exact .some rfl
  | close seams => exact .some (h.close _)
  | resumeClose adaptersFailed => exact h.resumeClose _

theorem Alike.step {e : RuntimeEvent} (stepped : r.step e = some t) :
    ∃ u, s.step e = some u ∧ t.Alike u := by
  obtain ⟨q, performed, rfl⟩ := Option.map_eq_some_iff.mp stepped
  have next := h.perform e
  rw [performed] at next
  generalize other : s.perform e = o at next
  cases next with
  | some alike =>
    refine ⟨_, congrArg (Option.map nextTurn) other, ?_⟩
    obtain rfl := alike
    rfl

end GoforgeWasmRuntime

section

variable {r s t : GoforgeWasmRuntime} {es : List RuntimeEvent}

theorem unobserved_run (alike : r.Alike s) (reached : runtimeMachine.run r es = some t) :
    ∃ u, runtimeMachine.run s es = some u ∧ t.Alike u := by
  induction es generalizing r s with
  | nil =>
    cases reached
    exact ⟨s, rfl, alike⟩
  | cons e es ih =>
    obtain ⟨next, stepped, reached⟩ := LabelledMachine.run_cons_some reached
    obtain ⟨other, took, still⟩ := alike.step stepped
    obtain ⟨u, run, same⟩ := ih still reached
    refine ⟨u, ?_, same⟩
    rw [LabelledMachine.run_cons, show runtimeMachine.step s e = some other from took]
    exact run

end

/-- The events of a call fit where the call stands, whatever its observer does with them, and
without an observer everything is the same. `Told` lists the shapes of the trace. -/
theorem call_events_told {observer : WasmRuntimeObserver} {r t : GoforgeWasmRuntime}
    {es : List RuntimeEvent} (start : runtimeMachine.start r) (observed : r.observer = some observer)
    (reached : runtimeMachine.run r es = some t)
    (steady : ∀ e ∈ es, e.Steady) {c : Nat} {call : Call} (here : t.calls[c]? = some call)
    {id : JsString} (own : call.phase.begun = true → call.requestId = id)
    (unique : ∀ (k : Nat) (other : Call), t.calls[k]? = some other → other.Bears id → k = c)
    (invoked : call.kind = .invoke) : call.Told (traceOf id t.events) ∧
      ∃ u, runtimeMachine.run { r with observer := none } es = some u ∧ u.calls = t.calls ∧
        t.Alike u ∧ u.events = [] := by
  obtain ⟨options, constructed⟩ := start
  have heard : r.observer.isSome = true := by
    rw [observed]
    rfl
  have fresh : r.Invoked ∧ r.Recorded id := GoforgeWasmRuntime.recorded_new constructed
  obtain ⟨onlyInvoked, recorded⟩ := fresh
  have alone : t.Alone id := by
    intro i k first second at_i at_k bears others
    rw [unique i first at_i bears, unique k second at_k others]
  have record := GoforgeWasmRuntime.run_recorded heard steady reached onlyInvoked (fun _ => recorded) alone
  constructor
  · by_cases begun : call.phase.begun = true
    · exact record.told c call here ⟨invoked, begun, own begun⟩
    · have silent : traceOf id t.events = [] := by
        refine record.silent fun k other at_k bears => ?_
        have same := unique k other at_k bears
        subst same
        cases here.symm.trans at_k
        exact begun bears.begun
      have early : call.phase.early = true := by
        revert begun
        cases call.phase <;> simp [CallPhase.begun, CallPhase.early]
      have reachable : runtimeMachine.Reachable t := ⟨r, es, ⟨options, constructed⟩, reached⟩
      have tracked := (runtime_traced reachable).calls c call here
      exact .unstarted (tracked.unused (tracked.early early)).1 silent (Or.inl early)
  · have untold : r.Alike { r with observer := none } := by
      show GoforgeWasmRuntime.mk .. = GoforgeWasmRuntime.mk ..
      rw [(GoforgeWasmRuntime.new_silent constructed).2.1]
    obtain ⟨u, silentRun, alike⟩ := unobserved_run untold reached
    exact ⟨u, silentRun, alike.calls, alike, congrArg GoforgeWasmRuntime.events alike⟩

def loudObserver : WasmRuntimeObserver := fun _ _ => some (.foreign 0)

def retriedCallRun : List RuntimeEvent :=
  [.invoke (js "crypto.sha256") .null { WasmCallOptions.empty with allowRetry := true } .calm,
    .loadThen (.ok (.offering (js "crypto.sha256") true)) .calm, .deliver 0, .resume 0 .calm,
    .instanceCreated 1, .resume 0 .calm, .dispatchSettles 0 (.ok (js "pong")),
    .instanceClosed 1 (some (.wasm (wasmGuestError (js "busy") none (some true) none))),
    .dispatchReleased 0, .deliver 0, .resume 0 .calm, .wake 0 (.ok ()), .resume 0 .calm,
    .instanceCreated 2, .resume 0 .calm, .dispatchSettles 1 (.ok (successResponse (js "req-1"))),
    .dispatchReleased 1, .deliver 0, .resume 0 .calm]

/-- A call that succeeds at its second attempt. -/
theorem retried_call_told :
    ∃ r t u call, r.observer = some loudObserver ∧ runtimeMachine.run r retriedCallRun = some t ∧
      runtimeMachine.run { r with observer := none } retriedCallRun = some u ∧ u.calls = t.calls ∧
      t.calls[0]? = some call ∧ call.Told (traceOf (js "req-1") t.events) ∧
      traceOf (js "req-1") t.events =
        [(.callStart, some 1), (.callFailure, some 1), (.callRetry, some 2), (.callStart, some 2),
          (.callSuccess, some 2)] := by
  have shows : GoforgeWasmRuntimeOptions.builds { busyRetryOptions with observer := some loudObserver } (fun r =>
      (runtimeMachine.run r retriedCallRun).any fun t =>
        t.calls.length = 1 &&
        (t.calls[0]?).any (fun call => call.kind = .invoke && call.requestId = js "req-1") &&
        traceOf (js "req-1") t.events =
          [(.callStart, some 1), (.callFailure, some 1), (.callRetry, some 2),
            (.callStart, some 2), (.callSuccess, some 2)]) = true := by decide +kernel
  obtain ⟨r, constructed, shown⟩ := new_of_builds shows
  have observed : r.observer = some loudObserver := (GoforgeWasmRuntime.new_silent constructed).2.2
  obtain ⟨t, reached, shown⟩ := (Option.any_eq_true _ _).mp shown
  simp only [Bool.and_eq_true, decide_eq_true_eq, Option.any_eq_true] at shown
  obtain ⟨⟨single, call, here, invoked, named⟩, trace⟩ := shown
  have unique : ∀ (k : Nat) (other : Call), t.calls[k]? = some other →
      other.Bears (js "req-1") → k = 0 := by
    intro k other at_k _
    have bound := (List.getElem?_eq_some_iff.mp at_k).1
    omega
  have steady : ∀ e ∈ retriedCallRun, e.Steady := by
    have calm : Seams.calm.Steady := ⟨fun _ => rfl, rfl⟩
    intro e mem
    simp only [retriedCallRun, List.mem_cons, List.not_mem_nil, or_false] at mem
    constructor
    · rintro c seams rfl
      simp only [reduceCtorEq, RuntimeEvent.resume.injEq, false_or] at mem
      obtain ⟨_, rfl⟩ : c = 0 ∧ seams = .calm := by tauto
      exact calm
    · rintro c result rfl
      simp only [reduceCtorEq, RuntimeEvent.wake.injEq, false_or, or_false] at mem
      exact mem.2
  obtain ⟨told, u, silent, same, _, _⟩ :=
    call_events_told ⟨_, constructed⟩ observed reached steady here (fun _ => named) unique invoked
  exact ⟨r, t, u, call, observed, reached, silent, same, here, told, trace⟩

end ForgeDeno
