import ForgeDeno.ListRules
import ForgeDeno.RuntimePlans
import ForgeDeno.RuntimeSteps

namespace ForgeDeno

open ListRules CallPhase GoforgeWasmRuntime

def CallPhase.early : CallPhase → Bool
  | .refused | .thrown _ | .entered | .loading | .loaded _ => true
  | _ => false

def CallPhase.paused : CallPhase → Bool
  | .sleeping _ | .slept _ => true
  | _ => false

/-- The call is in an attempt that has not reached its component or its adapter. -/
def CallPhase.unsent : CallPhase → Bool
  | .starting | .leasing _ => true
  | _ => false

def CallPhase.sending : CallPhase → Bool
  | .undispatched _ _ _ | .dispatched _ => true
  | _ => false

def Call.Sends (requestJson : JsString) (call : Call) : Prop :=
  call.options.route = .component ∧
    ∃ plan, call.plan = some plan ∧ serializeAbiRequest plan.request = .ok requestJson

def Call.Requests (request : AbiRequestV1) (call : Call) : Prop :=
  (∃ name, call.options.route = .native name) ∧ ∃ plan, call.plan = some plan ∧ plan.request = request

inductive Call.Goes (retry : WasmRetryPolicy) (load : BundleLoad) (call : Call) : Call → Prop where
  | on (phase : CallPhase) (scope : AbortScope)
      (loaded : ∀ manifest, phase = .loaded (.ok manifest) →
        call.phase = .loaded (.ok manifest) ∨ load = .loaded manifest)
      (early : phase.early = true → call.phase.early = true)
      (paused : phase.paused = true → call.phase.paused = true)
      (unsent : phase.unsent = true → call.phase.unsent = true)
      (leasing : ∀ request, phase = .leasing request →
        call.phase = .leasing request ∨ call.Sends request.requestJson)
      (host : call.scope.Host → scope.Host) : Goes retry load call { call with phase, scope }
  | begin (plan : CallPlan) (attemptStartedAt : JsNumber) (after : BeginsAfter retry call plan) :
      Goes retry load call { call with
        plan := some plan, attempt := call.attempt + 1, attemptStartedAt, phase := .starting }
  | backOff (plan : CallPlan) (error : Thrown) (phase : CallPhase) (planned : call.plan = some plan)
      (more : call.attempt < plan.maxAttempts) (safe : retry.isSafeTransient error = true)
      (paused : phase.paused = true) :
      Goes retry load call { call with retried := error :: call.retried, phase }

structure Call.Tracked (retry : WasmRetryPolicy) (load : BundleLoad) (call : Call) : Prop where
  loaded : ∀ manifest, call.phase = .loaded (.ok manifest) → load = .loaded manifest
  early : call.phase.early = true → call.plan = none
  unused : call.plan = none → call.attempt = 0 ∧ call.retried = []
  planned : ∀ plan, call.plan = some plan → 1 ≤ call.attempt ∧ call.attempt ≤ plan.maxAttempts ∧
    ∃ manifest, load = .loaded manifest ∧ planCall retry call manifest = .ok plan
  counted : call.attempt ≤ call.retried.length + 1
  paused : call.phase.paused = true → call.attempt ≤ call.retried.length
  safe : ∀ error ∈ call.retried, retry.isSafeTransient error = true
  more : ∀ plan, call.plan = some plan → call.retried ≠ [] → 1 < plan.maxAttempts
  whole : ∀ deadline, call.deadline = some deadline → deadline.Whole
  host : call.scope.Host

structure Call.Follows (call after : Call) : Prop where
  same : call.Same after
  plan : ∀ plan, call.plan = some plan → after.plan = some plan

variable {retry : WasmRetryPolicy} {load : BundleLoad} {call after : Call}

theorem planCall_same (same : call.Same after) (manifest : WasmBundleManifestV1) :
    planCall retry after manifest = planCall retry call manifest := by
  unfold planCall
  rw [same.operation, same.payload, same.options, same.requestId, same.deadline]

theorem Call.Goes.same (goes : call.Goes retry load after) : call.Same after := by
  cases goes <;> exact ⟨rfl, rfl, rfl, rfl, rfl, rfl⟩

theorem Call.Tracked.early_of_loaded (h : call.Tracked retry load) {manifest : WasmBundleManifestV1}
    (phase : call.phase = .loaded (.ok manifest)) : call.plan = none :=
  h.early (by rw [phase]; rfl)

theorem Call.Tracked.follows (h : call.Tracked retry load) (goes : call.Goes retry load after) :
    call.Follows after := by
  refine ⟨goes.same, fun plan planned => ?_⟩
  cases goes with
  | on => exact planned
  | backOff => exact planned
  | begin next _ begins =>
    cases begins with
    | loaded manifest phase =>
      have none_yet := h.early_of_loaded phase
      cases planned.symm.trans none_yet
    | slept phase before => exact before.symm.trans planned

theorem Call.Tracked.goes (h : call.Tracked retry load) (goes : call.Goes retry load after) :
    after.Tracked retry load := by
  have same := goes.same
  cases goes with
  | on phase scope loaded early paused unsent leasing host =>
    refine ⟨fun manifest eq => ?_, fun first => h.early (early first), h.unused, fun plan planned => ?_,
      h.counted, fun waits => h.paused (paused waits), h.safe, h.more, h.whole, host h.host⟩
    · rcases loaded manifest eq with before | known
      · exact h.loaded manifest before
      · exact known
    · obtain ⟨some_attempt, few, manifest, known, from_manifest⟩ := h.planned plan planned
      exact ⟨some_attempt, few, manifest, known, (planCall_same same manifest).trans from_manifest⟩
  | begin plan startedAt begins =>
    have next : call.attempt + 1 ≤ plan.maxAttempts ∧ call.attempt + 1 ≤ call.retried.length + 1 ∧
        (call.retried ≠ [] → 1 < plan.maxAttempts) ∧
        ∃ manifest, load = .loaded manifest ∧ planCall retry call manifest = .ok plan := by
      cases begins with
      | loaded manifest phase kind planned =>
        obtain ⟨none_yet, clean⟩ := h.unused (h.early_of_loaded phase)
        have some_attempt := planCall_attempts planned
        exact ⟨by omega, by omega, fun dirty => absurd clean dirty, manifest, h.loaded manifest phase, planned⟩
      | slept phase planned more =>
        have waited := h.paused (by rw [phase]; rfl)
        exact ⟨more, by omega, h.more plan planned, (h.planned plan planned).2.2⟩
    obtain ⟨few, counted, more, manifest, known, planned⟩ := next
    refine ⟨nofun, nofun, nofun,
      fun other eq => ?_, counted, nofun, h.safe, fun other eq => ?_, h.whole, h.host⟩
    · cases eq
      exact ⟨Nat.succ_le_succ (Nat.zero_le _), few, manifest, known, (planCall_same same manifest).trans planned⟩
    · cases eq
      exact more
  | backOff plan error phase planned more safe paused =>
    obtain ⟨some_attempt, few, manifest, known, from_manifest⟩ := h.planned plan planned
    refine ⟨fun manifest eq => ?_, fun first => ?_, fun none_yet => ?_, fun other eq => ?_, ?_,
      fun _ => h.counted, fun e mem => ?_, fun other eq _ => ?_, h.whole, h.host⟩
    · rw [show phase = _ from eq] at paused
      cases paused
    · revert first paused
      cases phase <;> simp [CallPhase.early, CallPhase.paused]
    · rw [show call.plan = none from none_yet] at planned
      cases planned
    · cases planned.symm.trans eq
      exact ⟨some_attempt, few, manifest, known, (planCall_same same manifest).trans from_manifest⟩
    · exact Nat.le_succ_of_le h.counted
    · rcases List.mem_cons.mp mem with rfl | old
      · exact safe
      · exact h.safe e old
    · cases planned.symm.trans eq
      omega

theorem Call.Begins.tracked {e : RuntimeEvent} (begins : call.Begins e) : call.Tracked retry load := by
  have fresh := begins.unused
  have quiet : (∀ manifest, call.phase ≠ .loaded (.ok manifest)) ∧ call.phase.paused = false := by
    rcases begins.phase with entered | inert | ⟨_, _, _, _, _, _, rfl⟩
    · rw [entered]
      exact ⟨fun _ => by simp, rfl⟩
    · rcases inert.past with refused | ⟨_, outcome, settled⟩
      · rw [refused]
        exact ⟨fun _ => by simp, rfl⟩
      · rw [settled]
        exact ⟨fun _ => by simp, rfl⟩
    · exact ⟨fun _ => by simp [newCall], rfl⟩
  refine ⟨fun manifest eq => absurd eq (quiet.1 manifest), fun _ => fresh.planless,
    fun _ => ⟨fresh.attempt, fresh.retried⟩, fun plan eq => ?_, ?_, fun waits => ?_, fun e mem => ?_,
    fun plan eq => ?_, fresh.whole, fresh.host⟩
  · rw [fresh.planless] at eq
    cases eq
  · rw [fresh.attempt]
    exact Nat.zero_le _
  · rw [quiet.2] at waits
    cases waits
  · rw [fresh.retried] at mem
    cases mem
  · rw [fresh.planless] at eq
    cases eq

theorem Call.Begins.not_leasing {e : RuntimeEvent} (begins : call.Begins e) (request : LeaseRequest) :
    call.phase ≠ .leasing request := by
  rcases begins.phase with entered | inert | ⟨_, _, _, _, _, _, rfl⟩
  · simp [entered]
  · rcases inert.past with refused | ⟨_, outcome, settled⟩
    · simp [refused]
    · simp [settled]
  · simp [newCall]

theorem Call.Tracked.of_load (h : call.Tracked retry load) {later : BundleLoad}
    (kept : ∀ manifest, load = .loaded manifest → later = .loaded manifest) : call.Tracked retry later := by
  refine ⟨fun manifest eq => kept manifest (h.loaded manifest eq), h.early, h.unused,
    fun plan planned => ?_, h.counted, h.paused, h.safe, h.more, h.whole, h.host⟩
  obtain ⟨some_attempt, few, manifest, known, from_manifest⟩ := h.planned plan planned
  exact ⟨some_attempt, few, manifest, kept manifest known, from_manifest⟩

theorem Call.Follows.sends (follows : call.Follows after) {requestJson : JsString}
    (h : call.Sends requestJson) : after.Sends requestJson := by
  obtain ⟨component, plan, planned, serialized⟩ := h
  refine ⟨?_, plan, follows.plan plan planned, serialized⟩
  rw [follows.same.options]
  exact component

theorem Call.Follows.requests (follows : call.Follows after) {request : AbiRequestV1}
    (h : call.Requests request) : after.Requests request := by
  obtain ⟨native, plan, planned, same⟩ := h
  refine ⟨?_, plan, follows.plan plan planned, same⟩
  rw [follows.same.options]
  exact native

theorem Call.Follows.refl (call : Call) : call.Follows call :=
  ⟨⟨rfl, rfl, rfl, rfl, rfl, rfl⟩, fun _ => id⟩

namespace GoforgeWasmRuntime

variable {r t : GoforgeWasmRuntime} {e : RuntimeEvent} {c : Nat} {seams : Seams}

structure SameHost (r t : GoforgeWasmRuntime) : Prop where
  retry : t.retry = r.retry
  clock : t.clock = r.clock
  observer : t.observer = r.observer

theorem finish_frame (c : Nat) (call : Call) (outcome : Except Thrown JsValue) :
    r.SameHost (r.finish c call outcome) ∧ (r.finish c call outcome).load = r.load ∧
      (r.finish c call outcome).turn = r.turn ∧ (r.finish c call outcome).adapters = r.adapters ∧
      (r.finish c call outcome).dispatches = r.dispatches ∧
      (r.finish c call outcome).executions = r.executions := by
  unfold finish
  simp only
  split_ifs <;> exact ⟨⟨rfl, rfl, rfl⟩, rfl, rfl, rfl, rfl, rfl⟩

theorem abortCall_frame (c : Nat) (reason : WasmRuntimeError) :
    r.SameHost (r.abortCall c reason) ∧ (r.abortCall c reason).load = r.load ∧
      (r.abortCall c reason).turn = r.turn ∧ (r.abortCall c reason).dispatches = r.dispatches ∧
      (r.abortCall c reason).executions = r.executions := by
  unfold abortCall
  split
  · split_ifs <;> exact ⟨⟨rfl, rfl, rfl⟩, rfl, rfl, rfl, rfl⟩
  · exact ⟨⟨rfl, rfl, rfl⟩, rfl, rfl, rfl, rfl⟩

theorem callMove_frame (move : CallMove c seams r t) :
    r.SameHost t ∧ t.load = r.load ∧ t.turn = r.turn ∧ t.adapters = r.adapters := by
  cases move with
  | finish call outcome =>
    obtain ⟨host, load, turn, adapters, _⟩ := finish_frame (r := r) c call outcome
    exact ⟨host, load, turn, adapters⟩
  | _ => exact ⟨⟨rfl, rfl, rfl⟩, rfl, rfl, rfl⟩

theorem move_sameHost (move : RuntimeMove e r t) : r.SameHost t := by
  cases move with
  | call c seams event move => exact (callMove_frame move).1
  | giveUp c call outcome => exact (finish_frame c call outcome).1
  | interrupt c call reason => exact (abortCall_frame c reason).1
  | _ => exact ⟨rfl, rfl, rfl⟩

theorem move_loaded (move : RuntimeMove e r t) {manifest : WasmBundleManifestV1}
    (known : r.load = .loaded manifest) : t.load = .loaded manifest := by
  cases move with
  | call c seams event move => exact (callMove_frame move).2.1.trans known
  | giveUp c call outcome => exact (finish_frame c call outcome).2.1.trans known
  | interrupt c call reason => exact (abortCall_frame c reason).2.1.trans known
  | startLoad load events idle =>
    cases known.symm.trans idle
  | verifyFails startedAt cause verifying =>
    cases known.symm.trans verifying
  | poolReady startedAt load events verifying =>
    cases known.symm.trans verifying
  | loadFails startedAt cause error code events failing =>
    cases known.symm.trans failing
  | _ => exact known

theorem callMove_goes (move : CallMove c seams r t) :
    t.calls = r.calls ∨ ∃ call after, r.calls[c]? = some call ∧ t.calls = r.calls.set c after ∧
      call.Goes r.retry r.load after := by
  have plain {call : Call} (phase : CallPhase) (scope : AbortScope) (early : phase.early = false)
      (paused : phase.paused = false) (unsent : phase.unsent = false)
      (host : call.scope.Host → scope.Host) :
      call.Goes r.retry r.load { call with phase, scope } := by
    refine .on phase scope (fun manifest eq => ?_) (fun first => ?_) (fun waits => ?_)
      (fun begun => ?_) (fun request eq => ?_) host
    · rw [eq] at early
      cases early
    · rw [early] at first
      cases first
    · rw [paused] at waits
      cases waits
    · rw [unsent] at begun
      cases begun
    · rw [eq] at unsent
      cases unsent
  cases move with
  | note => exact .inl rfl
  | begin call plan startedAt here after =>
    exact .inr ⟨call, _, here, rfl, .begin plan startedAt after⟩
  | acquire call plan pool requestJson state here phase component planned some_pool serialized =>
    refine .inr ⟨call, _, here, rfl, .on _ call.scope nofun
      nofun nofun (fun _ => by rw [phase]; rfl)
      (fun request eq => ?_) id⟩
    cases eq
    exact .inr ⟨component, plan, planned, serialized⟩
  | select call plan name adapter here phase =>
    refine .inr ⟨call, _, here, rfl, plain _ call.scope ?_ ?_ ?_ id⟩ <;>
      cases call.scope.reason <;> rfl
  | backOff call plan cause here planned origin more safe =>
    refine .inr ⟨call, _, here, rfl, .backOff plan _ _ planned more safe ?_⟩
    cases call.scope.reason <;> rfl
  | finish call outcome here =>
    exact .inr ⟨call, _, here, finish_calls c call outcome, plain _ _ rfl rfl rfl id⟩
  | reject call _ here | refuseLease call _ _ _ _ here | undispatch call _ _ _ _ here
  | threw call _ _ _ _ here | dispatch call _ _ _ here | released call _ _ _ _ here
  | adapted call _ _ here =>
    exact .inr ⟨call, _, here, rfl, plain _ call.scope rfl rfl rfl id⟩

theorem move_goes (move : RuntimeMove e r t) : t.calls = r.calls ∨
      (∃ c call after, r.calls[c]? = some call ∧ t.calls = r.calls.set c after ∧ call.Goes r.retry r.load after) ∨
      ∃ call, t.calls = r.calls ++ [call] ∧ call.Begins e := by
  have moved : (∃ c call after, r.calls[c]? = some call ∧ t.calls = r.calls.set c after ∧
      call.Goes r.retry r.load after) ∨ t.calls = r.calls ∨
      ∃ call, t.calls = r.calls ++ [call] ∧ call.Begins e := by
    cases move with
    | call c seams event move =>
      rcases callMove_goes move with same | ⟨call, after, here, eq, goes⟩
      · exact .inr (.inl same)
      · exact .inl ⟨c, call, after, here, eq, goes⟩
    | inert call inert =>
      exact .inr (.inr ⟨call, rfl, .inr (.inl inert), inert.unused⟩)
    | leak operation payload options seams cause event =>
      exact .inr (.inr ⟨_, rfl, .inr (.inr ⟨_, _, _, _, cause, event, rfl⟩), newCall_unused _ _ _ _ _⟩)
    | enter call kind fresh | enterPreload call kind fresh =>
      exact .inr (.inr ⟨call, rfl, .inl fresh.phase, fresh.unused⟩)
    | giveUp c call outcome here entered =>
      exact .inl ⟨c, call, _, here, finish_calls c call outcome, .on _ _ (fun _ eq => by cases eq)
        (fun eq => by cases eq) (fun eq => by cases eq) (fun eq => by cases eq)
        (fun _ eq => by cases eq) id⟩
    | wait c call here entered =>
      exact .inl ⟨c, call, _, here, rfl, .on _ call.scope (fun _ eq => by cases eq)
        (fun _ => by rw [entered]; rfl) (fun eq => by cases eq) (fun eq => by cases eq)
        (fun _ eq => by cases eq) id⟩
    | deliverLoad c call result here phase source =>
      refine .inl ⟨c, call, _, here, rfl, .on _ call.scope (fun manifest eq => ?_)
        (fun _ => by rw [phase]; rfl) (fun eq => by cases eq) (fun eq => by cases eq)
        (fun _ eq => by cases eq) id⟩
      exact .inr (source manifest (CallPhase.loaded.inj eq))
    | deliverDispatch c call _ _ _ _ here | deliverExecution c call _ _ here =>
      exact .inl ⟨c, call, _, here, rfl, .on _ call.scope (fun _ eq => by cases eq)
        (fun eq => by cases eq) (fun eq => by cases eq) (fun eq => by cases eq)
        (fun _ eq => by cases eq) id⟩
    | wake c call delay result here phase =>
      exact .inl ⟨c, call, _, here, rfl, .on _ call.scope (fun _ eq => by cases eq)
        (fun eq => by cases eq) (fun _ => by rw [phase]; rfl) (fun eq => by cases eq)
        (fun _ eq => by cases eq) id⟩
    | interrupt c call reason here listening first host =>
      refine .inl ⟨c, call, { call with
        scope := { call.scope with reason := some reason }
        phase := call.phase.interrupted reason }, here, ?_, .on _ _ (fun manifest eq => ?_)
          (fun early => ?_) (fun paused => ?_) (fun unsent => ?_) (fun request eq => ?_)
          (fun _ other eq => ?_)⟩
      · simp [abortCall, here, listening, first, putCall]
      · refine .inl ?_
        revert eq
        cases call.phase <;> simp [interrupted]
      · revert early
        cases call.phase <;> simp [interrupted, CallPhase.early]
      · revert paused
        cases call.phase <;> simp [interrupted, CallPhase.paused]
      · revert unsent
        cases call.phase <;> simp [interrupted, CallPhase.unsent]
      · refine .inl ?_
        revert eq
        cases call.phase <;> simp [interrupted]
      · cases eq
        exact host
    | note | startLoad | succeed | verifyFails | poolReady | loadFails | settleDispatch
    | releaseDispatch | execution | environment | shut | awaitCalls | await | closed | adapters
    | clearAdapters | signal | turn => exact .inr (.inl rfl)
  rcases moved with going | same | begun
  · exact .inr (.inl going)
  · exact .inl same
  · exact .inr (.inr begun)

theorem move_dispatches (move : RuntimeMove e r t) {d : Nat} {dispatch : Dispatch}
    (there : t.dispatches[d]? = some dispatch) : (∃ before, r.dispatches[d]? = some before ∧
      dispatch = { before with phase := dispatch.phase }) ∨
      ∃ c seams call request pool lease, e = .resume c seams ∧ r.calls[c]? = some call ∧
        call.phase = .leasing request ∧ r.pool = some pool ∧
        pool.held.find? (fun l => l.ticket = request.ticket) = some lease ∧
        d = r.dispatches.length ∧
        (∃ after : Call, t.calls[c]? = some after ∧ after.phase.sending = true) ∧
        dispatch = ⟨c, call.attempt, call.requestId, request, lease.entry, lease.grantedAt, dispatch.phase⟩ := by
  have kept (same : t.dispatches = r.dispatches) :
      ∃ before, r.dispatches[d]? = some before ∧ dispatch = { before with phase := dispatch.phase } :=
    ⟨dispatch, same ▸ there, rfl⟩
  have put {k : Nat} {other : Dispatch} {phase : DispatchPhase}
      (before : r.dispatches[k]? = some other)
      (eq : t.dispatches = r.dispatches.set k { other with phase }) :
      ∃ before, r.dispatches[d]? = some before ∧ dispatch = { before with phase := dispatch.phase } := by
    rw [eq] at there
    rcases (getElem?_set_iff before).mp there with ⟨rfl, rfl⟩ | ⟨_, old⟩
    · exact ⟨other, before, rfl⟩
    · exact ⟨dispatch, old, rfl⟩
  cases move with
  | call c seams event move =>
    cases move with
    | threw call request pool lease fault here phase some_pool found
    | dispatch call request pool lease here phase some_pool found =>
      rcases getElem?_concat_iff.mp there with old | ⟨last, rfl⟩
      · exact .inl ⟨dispatch, old, rfl⟩
      · exact .inr ⟨c, seams, call, request, pool, lease, event, here, phase, some_pool, found,
          last, ⟨_, putCall_here here _, rfl⟩, rfl⟩
    | finish call outcome => exact .inl (kept (finish_frame c call outcome).2.2.2.2.1)
    | _ => exact .inl (kept rfl)
  | giveUp c call outcome => exact .inl (kept (finish_frame c call outcome).2.2.2.2.1)
  | interrupt c call reason => exact .inl (kept (abortCall_frame c reason).2.2.2.1)
  | settleDispatch k other pool outcome event before => exact .inl (put before rfl)
  | releaseDispatch k other verdict awaitsClose failure before => exact .inl (put before rfl)
  | _ => exact .inl (kept rfl)

theorem move_executions (move : RuntimeMove e r t) {x : Nat} {execution : Execution}
    (there : t.executions[x]? = some execution) : (∃ before, r.executions[x]? = some before ∧
      execution = { before with phase := execution.phase }) ∨
      ∃ c seams call plan name adapter, e = .resume c seams ∧ r.calls[c]? = some call ∧
        call.options.route = .native name ∧ call.plan = some plan ∧
        r.adapters.resolve name plan.request.operation plan.nativeAdapters = .ok adapter ∧
        x = r.executions.length ∧ call.phase = .starting ∧
        (∃ after : Call, t.calls[c]? = some after ∧ after.phase.unsent = false) ∧
        execution = ⟨c, call.attempt, adapter, plan.request, .scheduled⟩ := by
  have kept (same : t.executions = r.executions) :
      ∃ before, r.executions[x]? = some before ∧ execution = { before with phase := execution.phase } :=
    ⟨execution, same ▸ there, rfl⟩
  cases move with
  | call c seams event move =>
    cases move with
    | select call plan name adapter here phase native planned resolved =>
      rcases getElem?_concat_iff.mp there with old | ⟨last, rfl⟩
      · exact .inl ⟨execution, old, rfl⟩
      · refine .inr ⟨c, seams, call, plan, name, adapter, event, here, native, planned, resolved,
          last, phase, ⟨_, putCall_here here _, ?_⟩, rfl⟩
        cases call.scope.reason <;> rfl
    | finish call outcome => exact .inl (kept (finish_frame c call outcome).2.2.2.2.2)
    | _ => exact .inl (kept rfl)
  | giveUp c call outcome => exact .inl (kept (finish_frame c call outcome).2.2.2.2.2)
  | interrupt c call reason => exact .inl (kept (abortCall_frame c reason).2.2.2.2)
  | execution k other phase before =>
    rcases (getElem?_set_iff before).mp there with ⟨rfl, rfl⟩ | ⟨_, old⟩
    · exact .inl ⟨other, before, rfl⟩
    · exact .inl ⟨execution, old, rfl⟩
  | _ => exact .inl (kept rfl)

structure Traced (r : GoforgeWasmRuntime) : Prop where
  calls : ∀ (c : Nat) (call : Call), r.calls[c]? = some call → call.Tracked r.retry r.load
  leasing : ∀ (c : Nat) (call : Call) (request : LeaseRequest), r.calls[c]? = some call →
    call.phase = .leasing request → call.Sends request.requestJson
  dispatches : ∀ (d : Nat) (dispatch : Dispatch), r.dispatches[d]? = some dispatch →
    ∃ call : Call, r.calls[dispatch.call]? = some call ∧ dispatch.requestId = call.requestId ∧
      call.Sends dispatch.lease.requestJson
  executions : ∀ (x : Nat) (execution : Execution), r.executions[x]? = some execution →
    ∃ call : Call, r.calls[execution.call]? = some call ∧ call.Requests execution.request

theorem move_follows (h : r.Traced) (move : RuntimeMove e r t) {k : Nat} {call : Call}
    (here : r.calls[k]? = some call) : ∃ after : Call, t.calls[k]? = some after ∧ call.Follows after := by
  rcases move_goes move with same | ⟨c, before, after, at_c, eq, goes⟩ | ⟨added, eq, _⟩
  · exact ⟨call, same ▸ here, .refl call⟩
  · rw [eq]
    by_cases at_k : k = c
    · subst at_k
      cases here.symm.trans at_c
      exact ⟨after, (getElem?_set_iff at_c).mpr (.inl ⟨rfl, rfl⟩), (h.calls k call here).follows goes⟩
    · exact ⟨call, (getElem?_set_iff at_c).mpr (.inr ⟨at_k, here⟩), .refl call⟩
  · rw [eq]
    exact ⟨call, getElem?_concat_iff.mpr (.inl here), .refl call⟩

theorem traced_move (h : r.Traced) (move : RuntimeMove e r t) : t.Traced := by
  have host := move_sameHost move
  have origin {k : Nat} {after : Call} (here : t.calls[k]? = some after) :
      (∃ call : Call, r.calls[k]? = some call ∧ (call = after ∨ call.Goes r.retry r.load after)) ∨
        after.Begins e := by
    rcases move_goes move with same | ⟨c, before, next, at_c, eq, goes⟩ | ⟨added, eq, begins⟩
    · exact .inl ⟨after, same ▸ here, .inl rfl⟩
    · rw [eq] at here
      rcases (getElem?_set_iff at_c).mp here with ⟨rfl, rfl⟩ | ⟨_, old⟩
      · exact .inl ⟨before, at_c, .inr goes⟩
      · exact .inl ⟨after, old, .inl rfl⟩
    · rw [eq] at here
      rcases getElem?_concat_iff.mp here with old | ⟨_, rfl⟩
      · exact .inl ⟨after, old, .inl rfl⟩
      · exact .inr begins
  refine ⟨fun k after here => ?_, fun k after request here phase => ?_, fun d dispatch there => ?_,
    fun x execution there => ?_⟩
  · rw [host.retry]
    have tracked : after.Tracked r.retry r.load := by
      rcases origin here with ⟨call, before, rfl | goes⟩ | begins
      · exact h.calls k call before
      · exact (h.calls k call before).goes goes
      · exact begins.tracked
    exact tracked.of_load fun manifest known => move_loaded move known
  · rcases origin here with ⟨call, before, rfl | goes⟩ | begins
    · exact h.leasing k call request before phase
    · have follows := (h.calls k call before).follows goes
      cases goes with
      | on next scope loaded early paused unsent leasing =>
        rcases leasing request phase with old | sends
        · exact follows.sends (h.leasing k call request before old)
        · exact follows.sends sends
      | begin => cases phase
      | backOff _ _ next _ _ _ paused =>
        rw [show next = _ from phase] at paused
        cases paused
    · exact absurd phase (begins.not_leasing request)
  · rcases move_dispatches move there with ⟨before, old, eq⟩ |
        ⟨c, seams, call, request, pool, lease, _, here, phase, _, _, _, _, eq⟩
    · obtain ⟨call, here, id, sends⟩ := h.dispatches d before old
      obtain ⟨after, later, follows⟩ := move_follows h move here
      rw [eq]
      exact ⟨after, later, id.trans follows.same.requestId.symm, follows.sends sends⟩
    · obtain ⟨after, later, follows⟩ := move_follows h move here
      rw [eq]
      exact ⟨after, later, follows.same.requestId.symm, follows.sends (h.leasing c call request here phase)⟩
  · rcases move_executions move there with ⟨before, old, eq⟩ |
        ⟨c, seams, call, plan, name, adapter, _, here, native, planned, _, _, _, _, eq⟩
    · obtain ⟨call, here, requests⟩ := h.executions x before old
      obtain ⟨after, later, follows⟩ := move_follows h move here
      rw [eq]
      exact ⟨after, later, follows.requests requests⟩
    · obtain ⟨after, later, follows⟩ := move_follows h move here
      rw [eq]
      exact ⟨after, later, follows.requests ⟨⟨name, native⟩, plan, planned, rfl⟩⟩

theorem traced_step (h : r.Traced) (stepped : r.step e = some t) : t.Traced :=
  (step_moves stepped).invariant (fun _ _ => traced_move) h

theorem traced_fresh (h : r.Fresh) : r.Traced := by
  refine ⟨fun c call here => ?_, fun c call request here => ?_, fun d dispatch there => ?_,
    fun x execution there => ?_⟩
  · simp [h.calls] at here
  · simp [h.calls] at here
  · simp [h.dispatches] at there
  · simp [h.executions] at there

end GoforgeWasmRuntime

theorem runtime_traced {r : GoforgeWasmRuntime} (h : runtimeMachine.Reachable r) : r.Traced := by
  refine h.invariant ?_ ?_
  · rintro r ⟨options, constructed⟩
    exact traced_fresh (new_fresh constructed)
  · intro r e t traced stepped
    exact traced_step traced stepped

end ForgeDeno
