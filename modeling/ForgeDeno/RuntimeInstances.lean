import ForgeDeno.RuntimeLeases
import ForgeDeno.RuntimeLifecycle

namespace ForgeDeno

namespace GoforgeWasmRuntime

open InstancePool List Option

variable {r t : GoforgeWasmRuntime} {e : RuntimeEvent} {c : Nat} {call after : Call}
  {seams : Seams} {p q : InstancePool}

theorem signals_putCall (here : r.calls[c]? = some call)
    (same : after.scope.reason = call.scope.reason) : (r.putCall c after).signals = r.signals := by
  funext k
  unfold signals
  obtain ⟨bound, _⟩ := List.getElem?_eq_some_iff.mp here
  by_cases at_c : k = c
  · subst at_c
    rw [here]
    simp [putCall, bound, same]
  · simp [putCall, getElem?_set_ne (Ne.symm at_c)]

theorem signals_of_calls (same : t.calls = r.calls) : t.signals = r.signals := by
  unfold signals
  rw [same]

/-- The pool of a runtime is the pool machine at some point of a run, with the runtime's calls for
its signals. -/
def PoolRuns (r : GoforgeWasmRuntime) : Prop :=
  ∀ p, r.pool = some p → poolMachine.Reachable ⟨p, r.signals⟩

theorem poolRuns_of_same (h : r.PoolRuns) (pool : t.pool = r.pool)
    (signals : t.signals = r.signals) : t.PoolRuns := by
  intro p some_pool
  rw [signals]
  exact h p (pool ▸ some_pool)

theorem poolRuns_setCall (after : Call) (h : r.PoolRuns) (here : r.calls[c]? = some call)
    (same : after.scope.reason = call.scope.reason) (pool : t.pool = r.pool)
    (calls : t.calls = r.calls.set c after) : t.PoolRuns := by
  refine poolRuns_of_same h pool ?_
  rw [← signals_putCall here same]
  exact signals_of_calls calls

theorem poolRuns_setPhase (h : r.PoolRuns) (here : r.calls[c]? = some call) (phase : CallPhase) :
    (r.setPhase c call phase).PoolRuns :=
  poolRuns_setCall { call with phase } h here rfl rfl rfl

theorem poolRuns_of_step (h : r.PoolRuns) (before : r.pool = some p) (event : PoolEvent)
    (stepped : (PoolSystem.mk p r.signals).step event = some ⟨q, t.signals⟩)
    (pool : t.pool = some q) : t.PoolRuns := by
  intro p' some_pool
  cases pool.symm.trans some_pool
  exact (h p before).next stepped

theorem poolRuns_addCall (h : r.PoolRuns) (leases : Leases r) : (r.addCall call).PoolRuns := by
  intro p some_pool
  obtain ⟨_, booked⟩ := leases.booked p some_pool
  have before : r.signals r.calls.length = none := by simp [signals]
  have deaf : p.waiters.filter (fun w => w.signal = r.calls.length) = [] := by
    rw [filter_eq_nil_iff]
    intro w waits listens
    obtain ⟨other, there, _⟩ := booked.queued w waits
    rw [of_decide_eq_true listens] at there
    simp at there
  cases aborted : call.scope.reason with
  | none =>
    have same : (r.addCall call).signals = r.signals := by
      funext k
      rcases Nat.lt_trichotomy k r.calls.length with less | rfl | more
      · simp [signals, addCall, getElem?_append_left less]
      · simp [signals, addCall, aborted]
      · have absent : (r.calls ++ [call])[k]? = none := getElem?_eq_none (by simp; omega)
        simp [signals, addCall, absent, getElem?_eq_none (Nat.le_of_lt more)]
    rw [same]
    exact h p some_pool
  | some reason =>
    refine (h p some_pool).next (e := .abort r.calls.length (.wasm reason)) ?_
    have same : (r.addCall call).signals =
        r.signals.abort r.calls.length (.wasm reason) := by
      funext k
      unfold Signals.abort
      rcases Nat.lt_trichotomy k r.calls.length with less | rfl | more
      · simp [signals, addCall, getElem?_append_left less, Nat.ne_of_lt less]
      · simp [signals, addCall, aborted]
      · have absent : (r.calls ++ [call])[k]? = none := getElem?_eq_none (by simp; omega)
        simp [signals, addCall, absent, getElem?_eq_none (Nat.le_of_lt more), Nat.ne_of_gt more]
    simp [poolMachine, PoolSystem.step, before, same, abort, deaf]

theorem callMove_pool (move : CallMove c seams r t) : t.pool = r.pool ∨
      (∃ p, r.pool = some p ∧ t.pool = some (p.acquire r.signals c)) ∨
      ∃ p ticket, r.pool = some p ∧ t.pool = some (p.release r.signals ticket true) := by
  cases move with
  | acquire call plan pool requestJson state here phase component planned some_pool =>
    exact .inr (.inl ⟨pool, some_pool, rfl⟩)
  | undispatch call request pool lease reason here phase some_pool =>
    exact .inr (.inr ⟨pool, lease.ticket, some_pool, rfl⟩)
  | threw call request pool lease fault here phase some_pool =>
    exact .inr (.inr ⟨pool, lease.ticket, some_pool, rfl⟩)
  | finish call outcome =>
    refine .inl ?_
    unfold finish
    simp only
    split_ifs <;> rfl
  | _ => exact .inl rfl

theorem callMove_signals (move : CallMove c seams r t) : t.signals = r.signals := by
  rcases callMove_calls move with same | ⟨call, after, here, eq, _, reason, _⟩
  · exact signals_of_calls same
  · rw [← signals_putCall here reason]
    exact signals_of_calls eq

theorem poolRuns_callMove (h : r.PoolRuns) (move : CallMove c seams r t) : t.PoolRuns := by
  have signals := callMove_signals move
  rcases callMove_pool move with same | ⟨p, some_pool, eq⟩ | ⟨p, ticket, some_pool, eq⟩
  · exact poolRuns_of_same h same signals
  · refine poolRuns_of_step h some_pool (.acquire c) ?_ eq
    rw [signals]
    rfl
  · refine poolRuns_of_step h some_pool (.release ticket true) ?_ eq
    rw [signals]
    rfl

theorem poolRuns_interrupt (h : r.PoolRuns) (here : r.calls[c]? = some call)
    (listening : call.scope.disposed = false) (first : call.scope.reason = none)
    (reason : WasmRuntimeError) : (r.abortCall c reason).PoolRuns := by
  let aborted : GoforgeWasmRuntime := r.putCall c { call with
    scope := { call.scope with reason := some reason }
    phase := call.phase.interrupted reason }
  have eq : r.abortCall c reason =
      { aborted with pool := r.pool.map fun p => p.abort aborted.signals c (.wasm reason) } := by
    simp [abortCall, here, listening, first, aborted, putCall]
  have silent : r.signals c = none := by simp [signals, here, first]
  have signals : aborted.signals = r.signals.abort c (.wasm reason) := by
    funext k
    obtain ⟨bound, _⟩ := List.getElem?_eq_some_iff.mp here
    unfold Signals.abort
    by_cases at_c : k = c
    · subst at_c
      rw [silent]
      simp [GoforgeWasmRuntime.signals, aborted, putCall, bound]
    · simp [GoforgeWasmRuntime.signals, aborted, putCall, getElem?_set_ne (Ne.symm at_c), at_c]
  rw [eq]
  cases some_pool : r.pool with
  | none =>
    intro p absurd_pool
    cases absurd_pool
  | some p =>
    refine poolRuns_of_step h some_pool (.abort c (.wasm reason)) ?_ rfl
    have same : GoforgeWasmRuntime.signals { aborted with
        pool := (some p).map fun p => p.abort aborted.signals c (.wasm reason) } =
        r.signals.abort c (.wasm reason) := signals
    rw [same, signals]
    simp [PoolSystem.step, silent]

theorem poolRuns_move (h : r.PoolRuns) (leases : Leases r) (move : RuntimeMove e r t) : t.PoolRuns := by
  cases move with
  | call c seams event move => exact poolRuns_callMove h move
  | wait c call here phase | deliverLoad c call result here phase
  | deliverDispatch c call _ _ _ result here phase | deliverExecution c call x result here phase
  | wake c call delay result here phase =>
    exact poolRuns_setPhase h here _
  | giveUp c call outcome here entered =>
    refine poolRuns_setCall { call with
      phase := .settled outcome, scope := { call.scope with disposed := true } } h here rfl ?_
      (finish_calls c call outcome)
    unfold finish
    simp only
    split_ifs <;> rfl
  | inert call inert | enterPreload call kind fresh => exact poolRuns_addCall h leases
  | leak operation payload options seams cause =>
    have started : PoolRuns { r with activeCalls := r.activeCalls + 1 } := h
    exact poolRuns_addCall started (leases_of_same leases rfl rfl rfl leases.verifying)
  | enter call kind fresh =>
    have started : PoolRuns { r with activeCalls := r.activeCalls + 1 } := h
    exact poolRuns_addCall started (leases_of_same leases rfl rfl rfl leases.verifying)
  | poolReady startedAt load events verifying live next =>
    intro p some_pool
    cases some_pool
    exact .start ⟨r.poolSize, r.turn, rfl⟩
  | interrupt c call reason here listening first => exact poolRuns_interrupt h here listening first reason
  | settleDispatch d dispatch pool outcome event there some_pool running =>
    exact poolRuns_of_step h some_pool (.release dispatch.lease.ticket _) rfl rfl
  | environment step pool system flow some_pool stepped same =>
    have eta : system = ⟨system.pool, r.signals⟩ := by rw [← same]
    exact poolRuns_of_step h some_pool step (stepped.trans (congrArg some eta)) rfl
  | turn =>
    intro q some_q
    obtain ⟨p, some_pool, rfl⟩ := map_eq_some_iff.mp some_q
    exact (h p some_pool).next (e := .turn) rfl
  | note | startLoad | succeed | verifyFails | loadFails | releaseDispatch | execution | shut
  | awaitCalls | await | closed | adapters | clearAdapters | signal =>
    exact poolRuns_of_same h rfl rfl

end GoforgeWasmRuntime

/-- The step in which the dispatch of a lease settles, or turns out not to start. -/
def Releases (r : GoforgeWasmRuntime) (e : RuntimeEvent) (l : InstanceLease) : Prop :=
  (∃ d dispatch outcome, e = .dispatchSettles d outcome ∧ r.dispatches[d]? = some dispatch ∧
    dispatch.phase = .running ∧ dispatch.granted = l) ∨
  ∃ c seams call request, e = .resume c seams ∧ r.calls[c]? = some call ∧
    call.phase = .leasing request ∧ request.ticket = l.ticket ∧
    (call.scope.reason.isSome = true ∨ seams.dispatch.isSome = true)

structure ReleasedOnTime (r : GoforgeWasmRuntime) (e : RuntimeEvent) (p q : InstancePool) : Prop where
  kept : ∀ l ∈ p.held, ¬Releases r e l → l ∈ q.held
  returned : ∀ l, l ∈ q.returned ↔ l ∈ p.returned ∨ (l ∈ p.held ∧ Releases r e l)

namespace GoforgeWasmRuntime

variable {r t : GoforgeWasmRuntime} {e : RuntimeEvent} {c : Nat} {call after : Call}
  {seams : Seams} {p q : InstancePool}

@[simp] theorem finish_pool (c : Nat) (call : Call) (outcome : Except Thrown JsValue) :
    (r.finish c call outcome).pool = r.pool := by
  unfold finish
  simp only
  split_ifs <;> rfl

theorem move_pool (leases : Leases r) (some_pool : r.pool = some p) (move : RuntimeMove e r t) :
    (∃ c seams, e = .resume c seams ∧ CallMove c seams r t) ∨
      (∃ d dispatch outcome, e = .dispatchSettles d outcome ∧ t = r.settleDispatch d dispatch p
        (dispatch.verdict outcome (r.reasonOf dispatch.call))) ∨
      (∃ q signals, t.pool = some q ∧ PoolFlows signals p q) ∨ t = r.nextTurn := by
  have still (same : t.pool = r.pool) : ∃ q signals, t.pool = some q ∧ PoolFlows signals p q :=
    ⟨p, r.signals, same.trans some_pool, .refl⟩
  cases move with
  | call c seams event move => exact .inl ⟨c, seams, event, move⟩
  | settleDispatch d dispatch pool outcome event there here running =>
    cases here.symm.trans some_pool
    exact .inr (.inl ⟨d, dispatch, outcome, event, rfl⟩)
  | giveUp c call outcome =>
    exact .inr (.inr (.inl (still (finish_pool c call outcome))))
  | poolReady startedAt load events verifying =>
    have none_yet := leases.verifying startedAt (.inr verifying)
    cases some_pool.symm.trans none_yet
  | environment step pool system flow here stepped =>
    cases here.symm.trans some_pool
    exact .inr (.inr (.inl ⟨_, _, rfl, poolStep_flows flow stepped⟩))
  | interrupt c call reason =>
    refine .inr (.inr (.inl ?_))
    unfold abortCall
    split
    · split_ifs
      · exact ⟨p, r.signals, some_pool, .refl⟩
      · simp only [putCall, some_pool, Option.map_some]
        exact ⟨_, _, rfl, InstancePool.abort_flows c (.wasm reason)⟩
    · exact ⟨p, r.signals, some_pool, .refl⟩
  | turn => exact .inr (.inr (.inr rfl))
  | _ => exact .inr (.inr (.inl (still rfl)))

theorem nextTurn_pool (some_pool : r.pool = some p) : r.nextTurn.pool = some { p with turn := p.turn + 1 } := by
  simp [nextTurn, some_pool]

theorem grants_step (leases : Leases r) (some_pool : r.pool = some p) (stepped : r.step e = some t)
    (awake : ∀ c seams, e ≠ .resume c seams) (quiet : ∀ d outcome, e ≠ .dispatchSettles d outcome) :
    ∃ q, t.pool = some q ∧ p.Grants q := by
  have both := (step_moves stepped).invariant
    (I := fun t => Leases t ∧ ∃ q, t.pool = some q ∧ p.Grants q) (fun r t hi move => ?_)
    ⟨leases, p, some_pool, InstancePool.Grants.refl p⟩
  · exact both.2
  · obtain ⟨leases, q, some_q, grants⟩ := hi
    refine ⟨leases_move leases move, ?_⟩
    rcases move_pool leases some_q move with ⟨c, seams, event, _⟩ | ⟨d, _, outcome, event, _⟩ |
        ⟨q', signals, some_q', flows⟩ | rfl
    · exact absurd event (awake c seams)
    · exact absurd event (quiet d outcome)
    · exact ⟨q', some_q', grants.trans (InstancePool.grants_of_flows flows)⟩
    · exact ⟨_, nextTurn_pool some_q, grants.trans (InstancePool.grants_of_turn q)⟩

theorem attemptFailed_pool (plan : CallPlan) (cause : Thrown) :
    (r.attemptFailed c call plan cause seams).pool = r.pool := by
  unfold attemptFailed
  simp only
  split
  · exact finish_pool _ _ _
  · split_ifs
    · exact finish_pool _ _ _
    · split
      · exact finish_pool _ _ _
      · split
        · exact finish_pool _ _ _
        · rfl

theorem attemptSucceeded_pool (plan : CallPlan) (value : JsValue) :
    (r.attemptSucceeded c call plan value seams).pool = r.pool := by
  unfold attemptSucceeded
  simp only
  split
  · exact attemptFailed_pool plan _
  · exact finish_pool _ _ _

theorem startAttempt_pool (plan : CallPlan) : (r.startAttempt c call plan seams).pool = r.pool ∨
      ∃ p signals, r.pool = some p ∧ (r.startAttempt c call plan seams).pool = some (p.acquire signals c) := by
  unfold startAttempt
  split
  · exact .inl (finish_pool _ _ _)
  · simp only
    split
    · split
      · exact .inl (attemptFailed_pool plan _)
      · split
        · exact .inl (attemptFailed_pool plan _)
        · unfold invokeComponent
          split
          · exact .inl rfl
          · next pool some_pool =>
            split_ifs
            · split
              · exact .inl rfl
              · exact .inr ⟨pool, _, some_pool, rfl⟩
            · exact .inr ⟨pool, _, some_pool, rfl⟩
    · unfold invokeAdapter
      split <;> exact .inl rfl

theorem resume_idle_pool (here : r.calls[c]? = some call)
    (idle : ∀ request, call.phase ≠ .leasing request) (h : r.resume c seams = some t) :
    t.pool = r.pool ∨ ∃ p signals, r.pool = some p ∧ t.pool = some (p.acquire signals c) := by
  unfold resume at h
  rw [here] at h
  simp only [Option.bind_eq_bind, Option.bind_some] at h
  split at h
  · next result _ =>
    cases h
    unfold resumeLoaded
    split
    · exact .inl (finish_pool _ _ _)
    · exact .inl (finish_pool _ _ _)
    · split
      · exact .inl (finish_pool _ _ _)
      · exact startAttempt_pool _
  · next request phase => exact absurd phase (idle request)
  · unfold resumeUndispatched at h
    obtain ⟨failure, _, eq⟩ := Option.bind_eq_some_iff.mp h
    cases eq
    exact .inl rfl
  · cases h
    exact .inl rfl
  · cases h
    unfold resumeReturned
    split
    · exact .inl (attemptSucceeded_pool _ _)
    · exact .inl (attemptFailed_pool _ _)
    · exact .inl (attemptFailed_pool _ _)
  · cases h
    unfold resumeSlept
    split
    · exact .inl (finish_pool _ _ _)
    · split_ifs
      · exact startAttempt_pool _
      · exact .inl (finish_pool _ _ _)
  · cases h

theorem releasedOnTime_of_grants (held : ∀ l ∈ p.held, l ∈ q.held) (returned : q.returned = p.returned)
    (none_released : ∀ l ∈ p.held, ¬Releases r e l) : ReleasedOnTime r e p q := by
  refine ⟨fun l mem _ => held l mem, fun l => ?_⟩
  rw [returned]
  exact ⟨.inl, fun h => h.resolve_right fun ⟨mem, releases⟩ => none_released l mem releases⟩

theorem acquire_keeps (signals : Signals) (c : Nat) : (∀ l ∈ p.held, l ∈ (p.acquire signals c).held) ∧
      (p.acquire signals c).returned = p.returned := by
  rcases @InstancePool.acquire_cases signals p c with ⟨cause, eq⟩ | ⟨_, _, eq⟩
  · rw [eq]
    exact ⟨fun _ => id, rfl⟩
  · rw [eq]
    have grants := InstancePool.grants_of_flows
      (InstancePool.pump_flows : PoolFlows signals (p.enqueue c) ((p.enqueue c).pump signals))
    exact ⟨grants.kept, grants.returned⟩

theorem release_keeps (signals : Signals) (sound : p.Sound) {ticket : Nat} {lease : InstanceLease}
    (found : p.held.find? (fun l => l.ticket = ticket) = some lease) (discard : Bool) :
    (∀ l ∈ p.held, l ≠ lease → l ∈ (p.release signals ticket discard).held) ∧
      (p.release signals ticket discard).returned = lease :: p.returned := by
  obtain ⟨q, returns, _, flows, _⟩ :=
    InstancePool.release_returns signals sound.owned found discard
  have grants := InstancePool.grants_of_flows flows
  refine ⟨fun l mem other => grants.kept l ?_, grants.returned.trans returns.returned⟩
  rw [returns.held]
  exact (List.mem_erase_of_ne other).mpr mem

theorem released_dispatchSettles (h : Leases r) (some_pool : r.pool = some p) {d : Nat}
    {outcome : Except Thrown JsString} (settles : r.dispatchSettles d outcome = some t) :
    ∃ q, t.pool = some q ∧ ReleasedOnTime r (.dispatchSettles d outcome) p q := by
  obtain ⟨sound, booked⟩ := h.booked p some_pool
  unfold dispatchSettles at settles
  obtain ⟨dispatch, there, settles⟩ := Option.bind_eq_some_iff.mp settles
  obtain ⟨pool, here, settles⟩ := Option.bind_eq_some_iff.mp settles
  cases here.symm.trans some_pool
  split at settles
  · next running =>
    cases settles
    have found := found_running sound booked there running
    have keeps := release_keeps r.signals sound found
      (dispatch.verdict outcome (r.reasonOf dispatch.call)).discards
    have this_one : Releases r (.dispatchSettles d outcome) dispatch.granted :=
      .inl ⟨d, dispatch, outcome, rfl, there, running, rfl⟩
    refine ⟨_, rfl, fun l mem unreleased => keeps.1 l mem fun same => unreleased ?_, fun l => ?_⟩
    · rw [same]
      exact this_one
    · rw [keeps.2, List.mem_cons]
      constructor
      · rintro (rfl | old)
        · exact .inr ⟨List.mem_of_find?_eq_some found, this_one⟩
        · exact .inl old
      · rintro (old | ⟨_, ⟨_, other, _, event, at_d, _, eq⟩ | ⟨_, _, _, _, event, _⟩⟩)
        · exact .inr old
        · cases event
          cases there.symm.trans at_d
          exact .inl eq.symm
        · cases event
  · cases settles

theorem releases_resume_iff {request : LeaseRequest} (here : r.calls[c]? = some call)
    (phase : call.phase = .leasing request) {l : InstanceLease} :
    Releases r (.resume c seams) l ↔ request.ticket = l.ticket ∧
      (call.scope.reason.isSome = true ∨ seams.dispatch.isSome = true) := by
  constructor
  · rintro (⟨_, _, _, event, _⟩ | ⟨c', seams', call', request', event, there, phase', rest⟩)
    · cases event
    · cases event
      cases here.symm.trans there
      cases phase.symm.trans phase'
      exact rest
  · intro rest
    exact .inr ⟨c, seams, call, request, rfl, here, phase, rest⟩

theorem released_undispatch (sound : p.Sound) {request : LeaseRequest} {lease : InstanceLease}
    (here : r.calls[c]? = some call) (phase : call.phase = .leasing request)
    (found : p.held.find? (fun l => l.ticket = request.ticket) = some lease)
    (cannot : call.scope.reason.isSome = true ∨ seams.dispatch.isSome = true) :
    ReleasedOnTime r (.resume c seams) p (p.release r.signals lease.ticket true) := by
  have same : lease.ticket = request.ticket := by simpa using List.find?_some found
  have refound : p.held.find? (fun l => l.ticket = lease.ticket) = some lease := by
    rw [same]
    exact found
  have keeps := release_keeps r.signals sound refound true
  have held := List.mem_of_find?_eq_some found
  have this_one : Releases r (.resume c seams) lease :=
    (releases_resume_iff here phase).mpr ⟨same.symm, cannot⟩
  refine ⟨fun l mem unreleased => keeps.1 l mem fun eq => unreleased (eq ▸ this_one), fun l => ?_⟩
  rw [keeps.2, List.mem_cons]
  constructor
  · rintro (rfl | old)
    · exact .inr ⟨held, this_one⟩
    · exact .inl old
  · rintro (old | ⟨mem, releases⟩)
    · exact .inr old
    · have ticket := ((releases_resume_iff here phase).mp releases).1
      exact .inl (sound.accountable.lease_unique (List.mem_append_left _ mem)
        (List.mem_append_left _ held) (ticket.symm.trans same.symm))

theorem released_resumeLeasing (sound : p.Sound) (some_pool : r.pool = some p)
    {request : LeaseRequest} (here : r.calls[c]? = some call) (phase : call.phase = .leasing request)
    (resumes : r.resumeLeasing c call request seams = some t) :
    ∃ q, t.pool = some q ∧ ReleasedOnTime r (.resume c seams) p q := by
  have still (impossible : ∀ l ∈ p.held, ¬Releases r (.resume c seams) l) :
      ReleasedOnTime r (.resume c seams) p p :=
    releasedOnTime_of_grants (fun _ => id) rfl impossible
  unfold resumeLeasing at resumes
  obtain ⟨pool, there, resumes⟩ := Option.bind_eq_some_iff.mp resumes
  cases there.symm.trans some_pool
  split at resumes
  · next lease found =>
    split at resumes
    · next reason aborted =>
      cases resumes
      exact ⟨_, rfl, released_undispatch sound here phase found (.inl (by simp [aborted]))⟩
    · next live =>
      simp only at resumes
      split at resumes
      · next fault thrown =>
        cases resumes
        exact ⟨_, rfl, released_undispatch sound here phase found (.inr (by simp [thrown]))⟩
      · next calm =>
        cases resumes
        refine ⟨p, some_pool, still fun l mem releases => ?_⟩
        have cannot := ((releases_resume_iff here phase).mp releases).2
        simp [live, calm] at cannot
  · next none_found =>
    split at resumes
    · cases resumes
      refine ⟨p, some_pool, still fun l mem releases => ?_⟩
      have ticket := ((releases_resume_iff here phase).mp releases).1
      have missing := List.find?_eq_none.mp none_found l mem
      simp [ticket] at missing
    · cases resumes

theorem released_resume (h : Leases r) (some_pool : r.pool = some p) (resumes : r.resume c seams = some t) :
    ∃ q, t.pool = some q ∧ ReleasedOnTime r (.resume c seams) p q := by
  have sound := (h.booked p some_pool).1
  cases here : r.calls[c]? with
  | none => simp [resume, here] at resumes
  | some call =>
    by_cases leasing : ∃ request, call.phase = .leasing request
    · obtain ⟨request, phase⟩ := leasing
      refine released_resumeLeasing sound some_pool here phase ?_
      rw [← resumes]
      simp [resume, here, phase]
    · have idle : ∀ request, call.phase ≠ .leasing request :=
        fun request phase => leasing ⟨request, phase⟩
      have impossible : ∀ l ∈ p.held, ¬Releases r (.resume c seams) l := by
        rintro l _ (⟨_, _, _, event, _⟩ | ⟨_, _, call', request, event, there, phase, _⟩)
        · cases event
        · cases event
          cases here.symm.trans there
          exact idle request phase
      rcases resume_idle_pool here idle resumes with same | ⟨p', signals, before, asked⟩
      · exact ⟨p, same.trans some_pool, releasedOnTime_of_grants (fun _ => id) rfl impossible⟩
      · cases before.symm.trans some_pool
        have keeps := acquire_keeps (p := p) signals c
        exact ⟨_, asked, releasedOnTime_of_grants keeps.1 keeps.2 impossible⟩

/-- A lease is given back in the step that settles its dispatch or finds that it cannot start, and
in no other. -/
theorem released_step (h : Leases r) (some_pool : r.pool = some p) (stepped : r.step e = some t) :
    ∃ q, t.pool = some q ∧ ReleasedOnTime r e p q := by
  have turned {u : GoforgeWasmRuntime} (effect : ∃ q, u.pool = some q ∧ ReleasedOnTime r e p q) :
      ∃ q, u.nextTurn.pool = some q ∧ ReleasedOnTime r e p q := by
    obtain ⟨q, some_q, on_time⟩ := effect
    exact ⟨_, nextTurn_pool some_q, on_time.kept, on_time.returned⟩
  by_cases resumes : ∃ c seams, e = .resume c seams
  · obtain ⟨c, seams, rfl⟩ := resumes
    obtain ⟨u, performed, rfl⟩ := Option.map_eq_some_iff.mp stepped
    exact turned (released_resume h some_pool performed)
  · by_cases settles : ∃ d outcome, e = .dispatchSettles d outcome
    · obtain ⟨d, outcome, rfl⟩ := settles
      obtain ⟨u, performed, rfl⟩ := Option.map_eq_some_iff.mp stepped
      exact turned (released_dispatchSettles h some_pool performed)
    · have awake : ∀ c seams, e ≠ .resume c seams := fun c seams eq => resumes ⟨c, seams, eq⟩
      have quiet : ∀ d outcome, e ≠ .dispatchSettles d outcome :=
        fun d outcome eq => settles ⟨d, outcome, eq⟩
      obtain ⟨q, some_q, grants⟩ := grants_step h some_pool stepped awake quiet
      refine ⟨q, some_q, releasedOnTime_of_grants grants.kept grants.returned ?_⟩
      rintro l _ (⟨d, _, outcome, event, _⟩ | ⟨c, seams, _, _, event, _⟩)
      · exact quiet d outcome event
      · exact awake c seams event

end GoforgeWasmRuntime

end ForgeDeno
