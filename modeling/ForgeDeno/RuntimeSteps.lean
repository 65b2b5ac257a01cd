import ForgeDeno.JsRounding
import ForgeDeno.RuntimeMoves

namespace ForgeDeno

open ExceptRules Option JsNumber List

/-- The reason a signal has been aborted for, if it has, is not an error of the guest. -/
def AbortScope.Host (scope : AbortScope) : Prop :=
  ∀ reason, scope.reason = some reason → reason.cls ≠ .guest

structure Call.Unused (call : Call) : Prop where
  planless : call.plan = none
  attempt : call.attempt = 0
  retried : call.retried = []
  whole : ∀ deadline, call.deadline = some deadline → deadline.Whole
  host : call.scope.Host

/-- A call that has just entered its `try`. -/
structure Call.Fresh (call : Call) : Prop where
  phase : call.phase = .entered
  unused : call.Unused

/-- A call that was over as soon as it began and has no part in `#activeCalls`. -/
structure Call.Inert (call : Call) : Prop where
  past : call.phase = .refused ∨ (call.kind = .preload ∧ ∃ outcome, call.phase = .settled outcome)
  silent : call.scope.reason = none ∧ call.scope.disposed = true
  unused : call.Unused

def Anonymous (before after : List WasmRuntimeEvent) : Prop :=
  ∃ told, after = before ++ told ∧ ∀ event ∈ told, event.requestId = none

theorem Anonymous.refl (events : List WasmRuntimeEvent) : Anonymous events events :=
  ⟨[], (append_nil events).symm, by simp⟩

theorem Anonymous.emit {observer : Option WasmRuntimeObserver} {events : List WasmRuntimeEvent}
    {event : WasmRuntimeEvent} (unnamed : event.requestId = none) :
    Anonymous events (GoforgeWasmRuntime.emitTo observer events event) := by
  cases observer with
  | none => exact .refl events
  | some observer =>
    rw [GoforgeWasmRuntime.emitTo_heard rfl]
    exact ⟨[event], rfl, by simpa using unnamed⟩

theorem Anonymous.trans {first second third : List WasmRuntimeEvent} (early : Anonymous first second)
    (late : Anonymous second third) : Anonymous first third := by
  obtain ⟨told, rfl, unnamed⟩ := early
  obtain ⟨more, rfl, others⟩ := late
  refine ⟨told ++ more, append_assoc _ _ _, fun event mem => ?_⟩
  rcases mem_append.mp mem with old | new
  · exact unnamed event old
  · exact others event new

open GoforgeWasmRuntime in
inductive RuntimeMove (e : RuntimeEvent) (r : GoforgeWasmRuntime) : GoforgeWasmRuntime → Prop where
  | call {t : GoforgeWasmRuntime} (c : Nat) (seams : Seams) (event : e = .resume c seams)
      (move : CallMove c seams r t) : RuntimeMove e r t
  | wait (c : Nat) (call : Call) (here : r.calls[c]? = some call)
      (entered : call.phase = .entered) : RuntimeMove e r (r.setPhase c call .loading)
  | giveUp (c : Nat) (call : Call) (outcome : Except Thrown JsValue)
      (here : r.calls[c]? = some call) (entered : call.phase = .entered)
      (rejects : ∃ error, outcome = .error error) : RuntimeMove e r (r.finish c call outcome)
  | note (events : List WasmRuntimeEvent) (anonymous : Anonymous r.events events) :
      RuntimeMove e r { r with events }
  | inert (call : Call) (inert : call.Inert) : RuntimeMove e r (r.addCall call)
  | leak (operation : JsString) (payload : JsValue) (options : WasmCallOptions) (seams : Seams)
      (cause : Thrown) (event : e = .invoke operation payload options seams)
      (isOpen : r.isOpen = true) (failed : r.invokeArguments options seams = .error cause) :
      RuntimeMove e r ({ r with activeCalls := r.activeCalls + 1 }.addCall
        (newCall .invoke operation payload options (.thrown cause)))
  | enter (call : Call) (kind : call.kind = .invoke) (fresh : call.Fresh)
      (isOpen : r.isOpen = true) :
      RuntimeMove e r ({ r with activeCalls := r.activeCalls + 1 }.addCall call)
  | enterPreload (call : Call) (kind : call.kind = .preload) (fresh : call.Fresh)
      (isOpen : r.isOpen = true) : RuntimeMove e r (r.addCall call)
  | startLoad (load : BundleLoad) (events : List WasmRuntimeEvent) (idle : r.load = .idle)
      (isOpen : r.isOpen = true)
      (first : load = .idle ∨ ∃ startedAt, load = .verifying startedAt)
      (anonymous : Anonymous r.events events) :
      RuntimeMove e r { r with state := .loading, load, events }
  | succeed (c : Nat) (seams : Seams) (call : Call) (id : JsString) (value : JsValue)
      (event : e = .resume c seams) (here : r.calls[c]? = some call)
      (phase : call.phase = .returned (.ok (.success id value))) :
      RuntimeMove e r { r with state := .ready, lastErrorCode := none }
  | verifyFails (startedAt : JsNumber) (cause : Thrown) (verifying : r.load = .verifying startedAt) :
      RuntimeMove e r { r with load := .failing startedAt cause }
  | poolReady (startedAt : JsNumber) (load : BundleLoad) (events : List WasmRuntimeEvent)
      (verifying : r.load = .verifying startedAt) (live : r.shutdown = false)
      (next : (∃ manifest, load = .loaded manifest) ∨ ∃ fault, load = .failing startedAt fault)
      (anonymous : Anonymous r.events events) :
      RuntimeMove e r { r with pool := some (.new r.poolSize r.turn), state := .ready, load, events }
  | loadFails (startedAt : JsNumber) (cause error : Thrown) (code : Option JsString)
      (events : List WasmRuntimeEvent) (failing : r.load = .failing startedAt cause)
      (anonymous : Anonymous r.events events) :
      RuntimeMove e r { r with
        state := if r.isOpen then .degraded else r.state, lastErrorCode := code,
        load := .failed error, events }
  | deliverLoad (c : Nat) (call : Call) (result : Except Thrown WasmBundleManifestV1)
      (here : r.calls[c]? = some call) (phase : call.phase = .loading)
      (source : ∀ manifest, result = .ok manifest → r.load = .loaded manifest) :
      RuntimeMove e r (r.setPhase c call (.loaded result))
  | deliverDispatch (c : Nat) (call : Call) (d : Nat) (dispatch : Dispatch) (verdict : Verdict)
      (result : Except Thrown AbiResponseV1) (here : r.calls[c]? = some call)
      (phase : call.phase = .dispatched d) (there : r.dispatches[d]? = some dispatch)
      (finished : dispatch.phase = .finished verdict result) :
      RuntimeMove e r (r.setPhase c call (.returned result))
  | deliverExecution (c : Nat) (call : Call) (x : Nat) (result : Except Thrown JsValue)
      (here : r.calls[c]? = some call) (phase : call.phase = .adapting x) :
      RuntimeMove e r (r.setPhase c call (.adapted result))
  | wake (c : Nat) (call : Call) (delay : JsNumber) (result : Except Thrown Unit)
      (here : r.calls[c]? = some call) (phase : call.phase = .sleeping delay)
      (event : e = .wake c result) :
      RuntimeMove e r (r.setPhase c call (.slept result))
  | interrupt (c : Nat) (call : Call) (reason : WasmRuntimeError)
      (here : r.calls[c]? = some call) (listening : call.scope.disposed = false)
      (first : call.scope.reason = none) (host : reason.cls ≠ .guest) :
      RuntimeMove e r (r.abortCall c reason)
  | settleDispatch (d : Nat) (dispatch : Dispatch) (pool : InstancePool)
      (outcome : Except Thrown JsString) (event : e = .dispatchSettles d outcome)
      (there : r.dispatches[d]? = some dispatch) (some_pool : r.pool = some pool)
      (running : dispatch.phase = .running) :
      RuntimeMove e r (r.settleDispatch d dispatch pool (dispatch.verdict outcome (r.reasonOf dispatch.call)))
  | releaseDispatch (d : Nat) (dispatch : Dispatch) (verdict : Verdict) (awaitsClose : Bool)
      (failure : Option Thrown) (there : r.dispatches[d]? = some dispatch)
      (phase : dispatch.phase = .releasing verdict awaitsClose)
      (outcome : r.releaseOutcome dispatch.entry awaitsClose = some failure) :
      RuntimeMove e r (r.putDispatch d { dispatch with
        phase := .finished verdict (verdict.outcome failure (r.reasonOf dispatch.call)) })
  | execution (x : Nat) (execution : Execution) (phase : ExecutionPhase)
      (there : r.executions[x]? = some execution) :
      RuntimeMove e r (r.putExecution x { execution with phase })
  | environment (step : PoolEvent) (pool : InstancePool) (system : PoolSystem)
      (flow : step.isFlow = true) (some_pool : r.pool = some pool)
      (stepped : (PoolSystem.mk pool r.signals).step step = some system)
      (same : system.signals = r.signals) (begun : step = .close → r.closing ≠ .open)
      (closes : ∀ id failure, step = .instanceClosed id failure → e = .instanceClosed id failure) :
      RuntimeMove e r { r with pool := some system.pool }
  | shut (seams : Seams) (event : e = .close seams) (first : r.closing = .open) :
      RuntimeMove e r { r with state := .closing, shutdown := true }
  | awaitCalls (active : 0 < r.activeCalls) (first : r.closing = .open)
      (shut : r.shutdown = true) : RuntimeMove e r { r with closing := .calls false }
  | await (closing : ClosePhase) (later : ∀ released, closing ≠ .calls released)
      (unfinished : ∀ rejected, closing ≠ .finished rejected ∧ r.closing ≠ .finished rejected)
      (begun : closing ≠ .open) (shut : r.closing = .open → r.shutdown = true) :
      RuntimeMove e r { r with closing }
  | closed (adaptersFailed poolFailed awaitsAdapters rejected : Bool)
      (event : e = .resumeClose adaptersFailed)
      (last : r.closing = .adapters poolFailed awaitsAdapters) :
      RuntimeMove e r { r with state := .closed, closing := .finished rejected }
  | adapters (op : AdapterOp) (awake : ∀ c seams, e ≠ .resume c seams) :
      RuntimeMove e r { r with adapters := r.adapters.apply op }
  | clearAdapters (awake : ∀ c seams, e ≠ .resume c seams) :
      RuntimeMove e r { r with adapters := r.adapters.clear }
  | signal (signal : Nat) : RuntimeMove e r { r with abortedSignals := signal :: r.abortedSignals }
  | turn : RuntimeMove e r r.nextTurn

abbrev RuntimeMoves (e : RuntimeEvent) := Relation.ReflTransGen (RuntimeMove e)

theorem RuntimeMoves.invariant {I : GoforgeWasmRuntime → Prop} {e : RuntimeEvent}
    {r t : GoforgeWasmRuntime} (keep : ∀ r t, I r → RuntimeMove e r t → I t)
    (h : RuntimeMoves e r t) (hi : I r) : I t := by
  induction h with
  | refl => exact hi
  | tail _ move ih => exact keep _ _ ih move

theorem CallMoves.moves {c : Nat} {seams : Seams} {r t : GoforgeWasmRuntime}
    (h : CallMoves c seams r t) : RuntimeMoves (.resume c seams) r t := by
  induction h with
  | refl => exact .refl
  | tail _ move ih => exact .tail ih (.call c seams rfl move)

structure Call.Begins (e : RuntimeEvent) (call : Call) : Prop where
  phase : call.phase = .entered ∨ call.Inert ∨
    ∃ operation payload options seams cause, e = .invoke operation payload options seams ∧
      call = GoforgeWasmRuntime.newCall .invoke operation payload options (.thrown cause)
  unused : call.Unused

theorem interrupted_leads (reason : WasmRuntimeError) (phase : CallPhase) :
    phase.leadsTo (phase.interrupted reason) := by
  unfold CallPhase.interrupted
  split <;> first | exact .inl rfl | exact .inr ⟨rfl, .inl rfl⟩

namespace GoforgeWasmRuntime

variable {e : RuntimeEvent} {r t : GoforgeWasmRuntime} {c : Nat} {call : Call} {seams : Seams}

theorem newCall_unused (kind : CallKind) (operation : JsString) (payload : JsValue)
    (options : WasmCallOptions) (phase : CallPhase) : (newCall kind operation payload options phase).Unused :=
  ⟨rfl, rfl, rfl, fun _ dated => (by cases dated), fun _ aborted => by cases aborted⟩

theorem createAbortScope_host (callerAborted shutdown : Bool) (deadline : Option JsNumber)
    (now : JsNumber) : (createAbortScope callerAborted shutdown deadline now).Host := by
  intro reason aborted
  unfold createAbortScope at aborted
  split_ifs at aborted
  · cases aborted
    decide
  · cases aborted
    decide
  · split at aborted
    · cases aborted
    · split_ifs at aborted
      cases aborted
      decide

theorem resolveDeadline_whole {options : WasmCallOptions} {defaultTimeoutMs : Option JsNumber}
    {now deadline : JsNumber} (resolved : resolveDeadline options defaultTimeoutMs now = .ok (some deadline)) :
    deadline.Whole := by
  unfold resolveDeadline at resolved
  cases relative : options.timeoutMs.or defaultTimeoutMs with
  | none =>
    cases explicit : options.deadline with
    | none =>
      simp only [relative, explicit] at resolved
      cases resolved
    | some given =>
      simp only [relative, explicit, bind_ok, pure_ok] at resolved
      obtain ⟨_, rfl, _, _, resolved⟩ := resolved
      cases resolved
      exact whole_floor given
  | some timeout =>
    cases explicit : options.deadline with
    | none =>
      simp only [relative, explicit, bind_ok, pure_ok] at resolved
      obtain ⟨_, _, _, rfl, resolved⟩ := resolved
      cases resolved
      exact whole_floor _
    | some given =>
      simp only [relative, explicit, bind_ok, pure_ok] at resolved
      obtain ⟨_, _, _, rfl, _, _, resolved⟩ := resolved
      cases resolved
      exact whole_min (whole_floor _) (whole_floor given)

theorem invokeArguments_whole {options : WasmCallOptions} {startedAt : JsNumber}
    {requestId : JsString} {deadline : Option JsNumber}
    (accepted : r.invokeArguments options seams = .ok (startedAt, requestId, deadline))
    (d : JsNumber) (dated : deadline = some d) : d.Whole := by
  unfold invokeArguments at accepted
  obtain ⟨_, _, accepted⟩ := bind_ok.mp accepted
  have resolved : ∃ now, resolveDeadline options r.defaultTimeoutMs now = .ok deadline := by
    cases given : options.requestId with
    | some id =>
      simp only [given, bind_ok] at accepted
      obtain ⟨_, _, _, resolved, accepted⟩ := accepted
      cases accepted
      exact ⟨_, resolved⟩
    | none =>
      simp only [given, bind_ok] at accepted
      obtain ⟨_, _, _, resolved, accepted⟩ := accepted
      cases accepted
      exact ⟨_, resolved⟩
  obtain ⟨_, resolved⟩ := resolved
  rw [dated] at resolved
  exact resolveDeadline_whole resolved

theorem runtimeMove_calls (move : RuntimeMove e r t) : t.calls = r.calls ∨
      (∃ c call after, r.calls[c]? = some call ∧ t.calls = r.calls.set c after ∧
        call.Same after ∧ call.phase.leadsTo after.phase) ∨
      ∃ call, t.calls = r.calls ++ [call] ∧ call.Begins e := by
  cases move with
  | call c seams event move =>
    rcases callMove_calls move with same | ⟨call, after, here, eq, same, _, live, next⟩
    · exact .inl same
    · exact .inr (.inl ⟨c, call, after, here, eq, same, .inr ⟨live, next⟩⟩)
  | inert call inert =>
    exact .inr (.inr ⟨call, rfl, .inr (.inl inert), inert.unused⟩)
  | leak operation payload options seams cause event =>
    exact .inr (.inr ⟨_, rfl, .inr (.inr ⟨_, _, _, _, cause, event, rfl⟩), newCall_unused _ _ _ _ _⟩)
  | enter call kind fresh | enterPreload call kind fresh =>
    exact .inr (.inr ⟨call, rfl, .inl fresh.phase, fresh.unused⟩)
  | giveUp c call outcome here entered =>
    exact .inr (.inl ⟨c, call, _, here, finish_calls c call outcome,
      ⟨rfl, rfl, rfl, rfl, rfl, rfl⟩, .inr ⟨by rw [entered]; rfl, .inr ⟨outcome, rfl⟩⟩⟩)
  | wait c call here phase | deliverLoad c call _ here phase
  | deliverDispatch c call _ _ _ _ here phase | deliverExecution c call _ _ here phase | wake c call _ _ here phase =>
    exact .inr (.inl ⟨c, call, _, here, rfl, ⟨rfl, rfl, rfl, rfl, rfl, rfl⟩,
      .inr ⟨by rw [phase]; rfl, .inl rfl⟩⟩)
  | interrupt c call reason here listening first =>
    refine .inr (.inl ⟨c, call, { call with
      scope := { call.scope with reason := some reason }
      phase := call.phase.interrupted reason }, here, ?_, ⟨rfl, rfl, rfl, rfl, rfl, rfl⟩,
      interrupted_leads reason call.phase⟩)
    simp [abortCall, here, listening, first, putCall]
  | note | startLoad | succeed | verifyFails | poolReady | loadFails | settleDispatch
  | releaseDispatch | execution | environment | shut | awaitCalls | await | closed | adapters
  | clearAdapters | signal | turn => exact .inl rfl

theorem addCall_here (call : Call) : (r.addCall call).calls[r.calls.length]? = some call := by
  simp [addCall]

theorem ensureLoaded_moves {fault : Option Thrown} (h : r.ensureLoaded seams = (t, fault)) :
    t = r ∨ ∃ load events, r.load = .idle ∧ r.isOpen = true ∧
      (load = .idle ∨ ∃ startedAt, load = .verifying startedAt) ∧ Anonymous r.events events ∧
      t = { r with state := .loading, load, events } := by
  unfold ensureLoaded at h
  split at h
  · next idle =>
    split_ifs at h with closed
    · exact .inl (Prod.mk.inj h).1.symm
    · have isOpen : r.isOpen = true := by simpa using closed
      simp only at h
      split at h
      · exact .inr ⟨.idle, r.events, idle, isOpen, .inl rfl, .refl r.events, by
          rw [← (Prod.mk.inj h).1, ← idle]⟩
      · next startedAt _ =>
        exact .inr ⟨_, _, idle, isOpen, .inr ⟨startedAt, rfl⟩, .emit rfl, (Prod.mk.inj h).1.symm⟩
  · exact .inl (Prod.mk.inj h).1.symm

theorem ensureLoaded_calls {fault : Option Thrown} (h : r.ensureLoaded seams = (t, fault)) :
    t.calls = r.calls := by
  rcases ensureLoaded_moves h with rfl | ⟨load, events, _, _, _, _, rfl⟩
  · rfl
  · rfl

theorem ensureLoaded_chain {fault : Option Thrown} (h : r.ensureLoaded seams = (t, fault)) :
    RuntimeMoves e r t := by
  rcases ensureLoaded_moves h with rfl | ⟨load, events, idle, isOpen, first, anonymous, rfl⟩
  · exact .refl
  · exact .single (.startLoad load events idle isOpen first anonymous)

theorem enterInvoke_moves (here : r.calls[c]? = some call) (entered : call.phase = .entered) :
    RuntimeMoves e r (r.enterInvoke c call seams) := by
  unfold enterInvoke
  split
  · exact .single (.giveUp c call _ here entered ⟨_, rfl⟩)
  · split
    · next loaded =>
      rw [← ensureLoaded_calls loaded] at here
      exact (ensureLoaded_chain loaded).tail (.giveUp c call _ here entered ⟨_, rfl⟩)
    · next loaded =>
      rw [← ensureLoaded_calls loaded] at here
      exact (ensureLoaded_chain loaded).tail (.wait c call here entered)

theorem enterPreload_moves (here : r.calls[c]? = some call) (entered : call.phase = .entered) :
    RuntimeMoves e r (r.enterPreload c call seams) := by
  unfold enterPreload
  split
  · next loaded =>
    rw [← ensureLoaded_calls loaded] at here
    exact (ensureLoaded_chain loaded).tail (.giveUp c call _ here entered ⟨_, rfl⟩)
  · next loaded =>
    rw [← ensureLoaded_calls loaded] at here
    split
    · exact (ensureLoaded_chain loaded).tail (.giveUp c call _ here entered ⟨_, rfl⟩)
    · exact (ensureLoaded_chain loaded).tail (.wait c call here entered)

theorem invoke_moves (operation : JsString) (payload : JsValue) (options : WasmCallOptions)
    (seams : Seams) : RuntimeMoves (.invoke operation payload options seams) r
      (r.invoke operation payload options seams) := by
  unfold invoke
  simp only
  split_ifs with closed
  · exact .single (.inert _ ⟨.inl rfl, ⟨rfl, rfl⟩, newCall_unused _ _ _ _ _⟩)
  · have isOpen : r.isOpen = true := by simpa using closed
    split
    · next cause failed =>
      exact .single (.leak operation payload options seams cause rfl isOpen failed)
    · next startedAt requestId deadline accepted =>
      exact .head (.enter _ rfl ⟨rfl, rfl, rfl, rfl, invokeArguments_whole accepted,
        createAbortScope_host _ _ _ _⟩ isOpen)
        (enterInvoke_moves (addCall_here _) rfl)

theorem preload_moves (signal : Option Nat) (seams : Seams) :
    RuntimeMoves (.preload signal seams) r (r.preload signal seams) := by
  unfold preload
  simp only
  split_ifs with closed
  · exact .single (.inert _ ⟨.inl rfl, ⟨rfl, rfl⟩, newCall_unused _ _ _ _ _⟩)
  · have isOpen : r.isOpen = true := by simpa using closed
    split
    · next fault _ =>
      exact .single (.inert _ ⟨.inr ⟨rfl, _, rfl⟩, ⟨rfl, rfl⟩, newCall_unused _ _ _ _ _⟩)
    · exact .head (.enterPreload _ rfl ⟨rfl, rfl, rfl, rfl, fun _ dated => (by cases dated),
        createAbortScope_host _ _ _ _⟩ isOpen)
        (enterPreload_moves (addCall_here _) rfl)

theorem resume_moves (h : r.resume c seams = some t) : RuntimeMoves (.resume c seams) r t := by
  rcases resume_cases h with ⟨call, plan, id, value, here, phase, planned, rfl⟩ | ⟨_, chain⟩
  · exact .head (.succeed c seams call id value rfl here phase) (attemptSucceeded_moves here phase planned).moves
  · exact chain.moves

theorem abortCall_moves (c : Nat) {reason : WasmRuntimeError} (host : reason.cls ≠ .guest) :
    RuntimeMoves e r (r.abortCall c reason) := by
  cases here : r.calls[c]? with
  | none =>
    have same : r.abortCall c reason = r := by simp [abortCall, here]
    rw [same]
  | some call =>
    by_cases listening : call.scope.disposed = true ∨ call.scope.reason.isSome = true
    · have same : r.abortCall c reason = r := by
        simp only [abortCall, here]
        exact if_pos (by simpa using listening)
      rw [same]
    · simp only [not_or, Bool.not_eq_true, isSome_eq_false_iff, isNone_iff_eq_none] at listening
      exact .single (.interrupt c call reason here listening.1 listening.2 host)

theorem abortAll_moves (listens : Call → Bool) {reason : WasmRuntimeError}
    (host : reason.cls ≠ .guest) : RuntimeMoves e r (r.abortAll listens reason) := by
  unfold abortAll
  generalize range r.calls.length = cs
  induction cs generalizing r with
  | nil => exact .refl
  | cons c cs ih =>
    simp only [foldl_cons]
    split_ifs
    · exact (abortCall_moves c host).trans ih
    · exact ih

theorem loadThen_moves {result : Except Thrown WasmBundleManifestV1}
    (h : r.loadThen result seams = some t) : RuntimeMoves e r t := by
  unfold loadThen at h
  split at h
  · next startedAt cause verifying =>
    cases h
    exact .single (.verifyFails startedAt cause verifying)
  · next startedAt manifest verifying =>
    split_ifs at h with shut
    · cases h
      exact .single (.verifyFails startedAt _ verifying)
    · have live : r.shutdown = false := by simpa using shut
      simp only at h
      split at h
      · next fault _ =>
        cases h
        exact .single (.poolReady startedAt _ r.events verifying live (.inr ⟨fault, rfl⟩) (.refl r.events))
      · cases h
        exact .single (.poolReady startedAt _ _ verifying live (.inl ⟨manifest, rfl⟩) (.emit rfl))
  · cases h

theorem loadCatch_moves (h : r.loadCatch seams = some t) : RuntimeMoves e r t := by
  unfold loadCatch at h
  split at h
  · next startedAt cause failing =>
    simp only at h
    split at h
    · next fault _ =>
      cases h
      exact .single (.loadFails startedAt cause fault _ r.events failing (.refl r.events))
    · cases h
      exact .single (.loadFails startedAt cause _ _ _ failing (.emit rfl))
  · cases h

theorem deliver_moves (h : r.deliver c = some t) : RuntimeMoves e r t := by
  unfold deliver at h
  obtain ⟨call, here, h⟩ := bind_eq_some_iff.mp h
  split at h
  · next phase =>
    split at h
    · next manifest loaded =>
      cases h
      exact .single (.deliverLoad c call _ here phase fun _ eq => Except.ok.inj eq ▸ loaded)
    · cases h
      exact .single (.deliverLoad c call _ here phase nofun)
    · cases h
  · next d phase =>
    split at h
    · next verdict result finished =>
      obtain ⟨dispatch, there, eq⟩ := map_eq_some_iff.mp finished
      cases h
      exact .single (.deliverDispatch c call d dispatch verdict result here phase there eq)
    · cases h
  · next x phase =>
    split at h
    · cases h
      exact .single (.deliverExecution c call x _ here phase)
    · cases h
  · cases h

theorem wake_moves {result : Except Thrown Unit} (h : r.wake c result = some t) :
    RuntimeMoves (.wake c result) r t := by
  unfold wake at h
  obtain ⟨call, here, h⟩ := bind_eq_some_iff.mp h
  split at h
  · next delay phase =>
    cases h
    exact .single (.wake c call delay result here phase rfl)
  · cases h

theorem dispatchSettles_moves {d : Nat} {outcome : Except Thrown JsString}
    (h : r.dispatchSettles d outcome = some t) : RuntimeMoves (.dispatchSettles d outcome) r t := by
  unfold dispatchSettles at h
  obtain ⟨dispatch, there, h⟩ := bind_eq_some_iff.mp h
  obtain ⟨pool, some_pool, h⟩ := bind_eq_some_iff.mp h
  split at h
  · next running =>
    cases h
    exact .single (.settleDispatch d dispatch pool outcome rfl there some_pool running)
  · cases h

theorem dispatchReleased_moves {d : Nat} (h : r.dispatchReleased d = some t) : RuntimeMoves e r t := by
  unfold dispatchReleased at h
  obtain ⟨dispatch, there, h⟩ := bind_eq_some_iff.mp h
  split at h
  · next verdict awaitsClose phase =>
    obtain ⟨failure, outcome, h⟩ := bind_eq_some_iff.mp h
    cases h
    exact .single (.releaseDispatch d dispatch verdict awaitsClose failure there phase outcome)
  · cases h

theorem adapterEnters_moves {x : Nat} {thrown : Option Thrown}
    (h : r.adapterEnters x thrown = some t) : RuntimeMoves e r t := by
  unfold adapterEnters at h
  obtain ⟨execution, there, h⟩ := bind_eq_some_iff.mp h
  split at h
  · cases h
    exact .single (.execution x execution _ there)
  · cases h

theorem adapterSettles_moves {x : Nat} {result : Except Thrown JsValue}
    (h : r.adapterSettles x result = some t) : RuntimeMoves e r t := by
  unfold adapterSettles at h
  obtain ⟨execution, there, h⟩ := bind_eq_some_iff.mp h
  split at h
  · cases h
    exact .single (.execution x execution _ there)
  · cases h

theorem withPool_moves (step : PoolEvent) (flow : step.isFlow = true) (other : step ≠ .close)
    (same : ∀ s u : PoolSystem, s.step step = some u → u.signals = s.signals)
    (closes : ∀ id failure, step = .instanceClosed id failure → e = .instanceClosed id failure)
    (h : r.withPool (fun s => s.step step) = some t) : RuntimeMoves e r t := by
  unfold withPool at h
  obtain ⟨pool, some_pool, h⟩ := bind_eq_some_iff.mp h
  obtain ⟨system, stepped, h⟩ := bind_eq_some_iff.mp h
  cases h
  exact .single (.environment step pool system flow some_pool stepped (same _ _ stepped)
    (fun close => absurd close other) closes)

theorem awaitBackground_moves (unfinished : ∀ rejected, r.closing ≠ .finished rejected)
    (shut : r.closing = .open → r.shutdown = true) : RuntimeMoves e r r.awaitBackground :=
  .single (.await _ (by simp) (fun rejected => ⟨by simp, unfinished rejected⟩) (by simp) shut)

theorem afterCalls_moves (unfinished : ∀ rejected, r.closing ≠ .finished rejected)
    (shut : r.closing = .open → r.shutdown = true) : RuntimeMoves e r r.afterCalls := by
  unfold afterCalls
  split
  · exact awaitBackground_moves unfinished shut
  · exact .single (.await _ (by simp) (fun rejected => ⟨by simp, unfinished rejected⟩) (by simp) shut)

theorem abortAll_frame (listens : Call → Bool) (reason : WasmRuntimeError) :
    (r.abortAll listens reason).closing = r.closing ∧ (r.abortAll listens reason).shutdown = r.shutdown := by
  unfold abortAll
  generalize range r.calls.length = cs
  induction cs generalizing r with
  | nil => exact ⟨rfl, rfl⟩
  | cons c cs ih =>
    simp only [foldl_cons]
    split_ifs
    · refine ⟨ih.1.trans ?_, ih.2.trans ?_⟩ <;> unfold abortCall
      all_goals
        split
        · split_ifs <;> rfl
        · rfl
    · exact ih

theorem shut_moves (seams : Seams) (first : r.closing = .open) : RuntimeMoves (.close seams) r r.shut := by
  unfold shut
  split_ifs with before
  · have same : ({ r with state := .closing } : GoforgeWasmRuntime) =
        { r with state := .closing, shutdown := true } := by rw [← before]
    rw [same]
    exact .single (.shut seams rfl first)
  · exact .head (.shut seams rfl first) (abortAll_moves _ (by decide))

theorem shut_closing : r.shut.closing = r.closing := by
  unfold shut
  split_ifs
  · rfl
  · exact (abortAll_frame _ _).1

theorem shut_shutdown : r.shut.shutdown = true := by
  unfold shut
  split_ifs with before
  · exact before
  · exact (abortAll_frame _ _).2

theorem close_moves (seams : Seams) : RuntimeMoves (.close seams) r (r.close seams) := by
  unfold close
  split_ifs with first
  · simp only
    split
    · exact shut_moves seams first
    · next timestamp _ =>
      have still : (r.shut.emit { type := .runtimeClose, timestamp }).closing = .open :=
        shut_closing.trans first
      have noted := (shut_moves seams first).tail
        (.note (emitTo r.shut.observer r.shut.events { type := .runtimeClose, timestamp }) (.emit rfl))
      have shutdown : (r.shut.emit { type := .runtimeClose, timestamp }).shutdown = true :=
        shut_shutdown
      split_ifs with active
      · exact noted.tail (.awaitCalls active still shutdown)
      · refine noted.trans (afterCalls_moves (fun rejected done => ?_) fun _ => shutdown)
        cases still.symm.trans done
  · exact .refl

theorem resumeClose_moves {adaptersFailed : Bool} (h : r.resumeClose adaptersFailed = some t) :
    RuntimeMoves (.resumeClose adaptersFailed) r t := by
  unfold resumeClose at h
  split at h
  · next phase =>
    cases h
    exact afterCalls_moves (by simp [phase]) (by simp [phase])
  · next phase =>
    split at h
    · cases h
      exact awaitBackground_moves (by simp [phase]) (by simp [phase])
    · cases h
      exact awaitBackground_moves (by simp [phase]) (by simp [phase])
    · cases h
  · next n m phase =>
    split_ifs at h
    cases h
    cases some_pool : r.pool with
    | none =>
      have same : ({ r with pool := none, closing := .pool } : GoforgeWasmRuntime) =
          { r with closing := .pool } := by rw [← some_pool]
      simp only [map_none, same]
      exact .single (.await _ (by simp) (by simp [phase]) (by simp) (by simp [phase]))
    | some pool =>
      exact .head (.environment .close pool ⟨pool.close, r.signals⟩ rfl some_pool rfl rfl
        (by simp [phase]) (by simp))
        (.single (.await .pool (by simp) (by simp [phase]) (by simp) (by simp [phase])))
  · next phase =>
    obtain ⟨failures, _, rfl⟩ := map_eq_some_iff.mp h
    exact .head (.adapters .close (by simp))
      (.single (.await _ (by simp) (by simp [phase]) (by simp) (by simp [phase])))
  · next poolFailed awaitsAdapters last =>
    cases h
    cases awaitsAdapters with
    | true => exact .head (.clearAdapters (by simp)) (.single (.closed _ poolFailed true _ rfl last))
    | false => exact .single (.closed _ poolFailed false _ rfl last)
  · cases h

theorem abortSignal_moves (signal : Nat) : RuntimeMoves e r (r.abortSignal signal) := by
  unfold abortSignal
  split_ifs
  · exact .refl
  · exact .head (.signal signal) (abortAll_moves _ (by decide))

theorem deadlineFires_moves (h : r.deadlineFires c = some t) : RuntimeMoves e r t := by
  unfold deadlineFires at h
  obtain ⟨call, here, h⟩ := bind_eq_some_iff.mp h
  split_ifs at h
  cases h
  exact abortCall_moves c (by decide)

theorem perform_moves (h : r.perform e = some t) : RuntimeMoves e r t := by
  cases e with
  | invoke operation payload options seams =>
    cases h
    exact invoke_moves operation payload options seams
  | preload signal seams =>
    cases h
    exact preload_moves signal seams
  | abortSignal signal =>
    cases h
    exact abortSignal_moves signal
  | deadlineFires c => exact deadlineFires_moves h
  | loadThen result seams => exact loadThen_moves h
  | loadCatch seams => exact loadCatch_moves h
  | deliver c => exact deliver_moves h
  | wake c result => exact wake_moves h
  | resume c seams => exact resume_moves h
  | instanceCreated id =>
    refine withPool_moves (.created id) rfl (by simp) (fun s u hs => ?_) (by simp) h
    simp only [PoolSystem.step] at hs
    split_ifs at hs
    cases hs; rfl
  | instanceFailed id cause cleanup =>
    refine withPool_moves (.createFailed id _) rfl (by simp) (fun s u hs => ?_) (by simp) h
    simp only [PoolSystem.step] at hs
    split_ifs at hs
    cases hs; rfl
  | instanceClosed id failure =>
    refine withPool_moves (.instanceClosed id failure) rfl (by simp) (fun s u hs => ?_) (by simp) h
    simp only [PoolSystem.step] at hs
    split at hs
    · cases hs; rfl
    · cases hs
  | poolClosed =>
    refine withPool_moves .finishClose rfl (by simp) (fun s u hs => ?_) (by simp) h
    simp only [PoolSystem.step] at hs
    split_ifs at hs
    cases hs; rfl
  | dispatchSettles d outcome => exact dispatchSettles_moves h
  | dispatchReleased d => exact dispatchReleased_moves h
  | adapterEnters x thrown => exact adapterEnters_moves h
  | adapterSettles x result => exact adapterSettles_moves h
  | adapters op =>
    cases h
    exact .single (.adapters op (by simp))
  | close seams =>
    cases h
    exact close_moves seams
  | resumeClose adaptersFailed => exact resumeClose_moves h

theorem step_moves (h : r.step e = some t) : RuntimeMoves e r t := by
  obtain ⟨q, done, rfl⟩ := map_eq_some_iff.mp h
  exact (perform_moves done).tail .turn

structure Fresh (r : GoforgeWasmRuntime) : Prop where
  state : r.state = .idle
  shutdown : r.shutdown = false
  load : r.load = .idle
  pool : r.pool = none
  closing : r.closing = .open
  activeCalls : r.activeCalls = 0
  calls : r.calls = []
  dispatches : r.dispatches = []
  executions : r.executions = []

theorem new_silent {options : GoforgeWasmRuntimeOptions} (h : new options = .ok r) :
    r.Fresh ∧ r.events = [] ∧ r.observer = options.observer := by
  unfold new at h
  obtain ⟨poolSize, _, h⟩ := bind_ok.mp h
  simp only at h
  split at h
  · obtain ⟨_, _, h⟩ := bind_ok.mp h
    obtain ⟨retry, _, h⟩ := bind_ok.mp h
    cases pure_ok.mp h
    exact ⟨⟨rfl, rfl, rfl, rfl, rfl, rfl, rfl, rfl, rfl⟩, rfl, rfl⟩
  · obtain ⟨retry, _, h⟩ := bind_ok.mp h
    cases pure_ok.mp h
    exact ⟨⟨rfl, rfl, rfl, rfl, rfl, rfl, rfl, rfl, rfl⟩, rfl, rfl⟩

theorem new_fresh {options : GoforgeWasmRuntimeOptions} (h : new options = .ok r) : r.Fresh := (new_silent h).1

end GoforgeWasmRuntime

end ForgeDeno
