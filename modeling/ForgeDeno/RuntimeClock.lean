import ForgeDeno.RuntimeAttempts
import ForgeDeno.RuntimeInstances

namespace ForgeDeno

open List ListRules Option GoforgeWasmRuntime InstancePool

def LeaseRequest.Read (clock : Nat → JsNumber) (q : LeaseRequest) : Prop :=
  q.state.nowUnixMilliseconds = (clock q.readAt).floor

structure LeaseRequest.Timed (q : LeaseRequest) (grantedAt : Nat) : Prop where
  atOnce : q.foundIdle = true → grantedAt = q.readAt
  later : q.foundIdle = false → q.readAt < grantedAt

structure LeaseRequest.Waits (q : LeaseRequest) (p : InstancePool) : Prop where
  settled : q.foundIdle = true → ∀ w ∈ p.waiters, w.ticket ≠ q.ticket
  granted : ∀ l ∈ p.held, l.ticket = q.ticket → q.Timed l.grantedAt

namespace InstancePool

variable {signals : Signals} {p q : InstancePool}

structure Serves (p q : InstancePool) : Prop where
  turn : q.turn = p.turn
  new : ∀ l ∈ q.held, l ∈ p.held ∨ (l.grantedAt = p.turn ∧ ∃ w ∈ p.waiters, w.ticket = l.ticket)
  waiters : ∀ w ∈ q.waiters, w ∈ p.waiters

theorem Serves.refl (p : InstancePool) : Serves p p := ⟨rfl, fun _ => .inl, fun _ => id⟩

theorem Serves.trans {r : InstancePool} (first : Serves p q) (next : Serves q r) : Serves p r where
  turn := next.turn.trans first.turn
  new l mem := by
    rcases next.new l mem with old | ⟨now, w, waits, same⟩
    · exact first.new l old
    · exact .inr ⟨now.trans first.turn, w, first.waiters w waits, same⟩
  waiters w mem := first.waiters w (next.waiters w mem)

theorem serves_of_flow (step : PoolFlow signals p q) : Serves p q := by
  cases step with
  | drop w cause mem => exact ⟨rfl, fun _ => .inl, fun _ => mem_of_mem_erase⟩
  | grant w rest e alive head mem idle live =>
    refine ⟨rfl, fun l held => ?_, fun v waits => ?_⟩
    · rcases mem_cons.mp held with rfl | old
      · exact .inr ⟨rfl, w, by simp [head], rfl⟩
      · exact .inl old
    · rw [head]
      exact mem_cons_of_mem w waits
  | close alive => exact ⟨rfl, fun _ => .inl, nofun⟩
  | _ => exact ⟨rfl, fun _ => .inl, fun _ => id⟩

theorem serves_of_flows (steps : PoolFlows signals p q) : Serves p q := by
  induction steps with
  | refl => exact .refl p
  | tail _ step ih => exact ih.trans (serves_of_flow step)

theorem release_serves (ticket : Nat) (discard : Bool) : Serves p (p.release signals ticket discard) := by
  cases found : p.held.find? fun l => l.ticket = ticket with
  | none =>
    have same : p.release signals ticket discard = p := by simp [release, found]
    rw [same]
    exact .refl p
  | some l =>
    obtain ⟨q, _, flows, held, waiters, turn⟩ := @release_first signals p ticket l found discard
    refine Serves.trans ⟨turn, fun m mem => .inl ?_, fun w mem => waiters ▸ mem⟩ (serves_of_flows flows)
    rw [held] at mem
    exact mem_of_mem_erase mem

theorem no_waiters (progress : p.Progressing) (done : p.Sealed)
    (idle : p.entries.any (fun e => !e.busy) = true) : p.waiters = [] := by
  obtain ⟨e, there, free⟩ := any_eq_true.mp idle
  cases closed : p.closed with
  | true => exact done.drained closed
  | false =>
    by_contra queue
    have busy := (progress closed queue).1 e there
    rw [busy] at free
    cases free

theorem acquire_idle (progress : p.Progressing) (done : p.Sealed) (c : Nat)
    (idle : p.entries.any (fun e => !e.busy) = true) : (p.acquire signals c).waiters = [] := by
  have empty := no_waiters progress done idle
  rcases @acquire_cases signals p c with ⟨cause, eq⟩ | ⟨alive, live, eq⟩
  · rw [eq]
    exact empty
  · obtain ⟨e, there, free⟩ := any_eq_true.mp idle
    have found : ∃ e, p.entries.find? (fun e => !e.busy) = some e := by
      rw [← isSome_iff_exists, find?_isSome]
      exact ⟨e, there, free⟩
    obtain ⟨e, found⟩ := found
    rw [eq]
    simp [pump, enqueue, alive, empty, pumpLoop, pumpStep, found, live, grant, setBusy]

theorem acquire_busy (sound : p.Sound) (c : Nat) (busy : p.entries.any (fun e => !e.busy) = false) :
    ∀ l ∈ (p.acquire signals c).held, l.ticket ≠ p.tickets := by
  have all : ∀ e ∈ p.entries, e.busy = true := by simpa using busy
  have log : ∀ w id, .granted w id ∈ (p.acquire signals c).log → .granted w id ∈ p.log := by
    intro w id mem
    rcases @acquire_cases signals p c with ⟨cause, eq⟩ | ⟨_, _, eq⟩
    · rw [eq] at mem
      simpa [reject] using mem
    · rw [eq, (pump_of_busy (p := p.enqueue c) all).2] at mem
      simpa [enqueue] using mem
  have after : (p.acquire signals c).Sound := sound.moves (acquire_moves c)
  intro l held same
  obtain ⟨w, granted, ticket⟩ := after.accountable.logged l (mem_append_left _ held)
  have issued := sound.ticketed.fresh _ (log w l.entry granted)
  simp only [PoolRecord.waiter] at issued
  omega

theorem acquire_serves (c : Nat) : (p.acquire signals c).turn = p.turn ∧
      (∀ l ∈ (p.acquire signals c).held, l ∈ p.held ∨ (l.grantedAt = p.turn ∧
        ((∃ w ∈ p.waiters, w.ticket = l.ticket) ∨ l.ticket = p.tickets))) ∧
      ∀ w ∈ (p.acquire signals c).waiters, w ∈ p.waiters ∨ w.ticket = p.tickets := by
  have queued {w : PoolWaiter} (mem : w ∈ (p.enqueue c).waiters) :
      w ∈ p.waiters ∨ w.ticket = p.tickets := by
    rcases mem_append.mp mem with old | new
    · exact .inl old
    · rw [mem_singleton.mp new]
      exact .inr rfl
  rcases @acquire_cases signals p c with ⟨cause, eq⟩ | ⟨alive, live, eq⟩
  · rw [eq]
    exact ⟨rfl, fun _ => .inl, fun _ => .inl⟩
  · have serves : Serves (p.enqueue c) ((p.enqueue c).pump signals) := serves_of_flows pump_flows
    rw [eq]
    refine ⟨serves.turn, fun l mem => ?_, fun w mem => queued (serves.waiters w mem)⟩
    rcases serves.new l mem with old | ⟨now, w, waits, same⟩
    · exact .inl old
    · refine .inr ⟨now, ?_⟩
      rcases queued waits with old | new
      · exact .inl ⟨w, old, same⟩
      · exact .inr (same.symm.trans new)

end InstancePool

theorem LeaseRequest.Waits.serves {q : LeaseRequest} {p p' : InstancePool} (h : q.Waits p)
    (earlier : q.readAt < p.turn) (serves : p.Serves p') : q.Waits p' := by
  refine ⟨fun idle w mem => h.settled idle w (serves.waiters w mem), fun l mem same => ?_⟩
  rcases serves.new l mem with old | ⟨now, w, waits, ticket⟩
  · exact h.granted l old same
  · rw [now]
    refine ⟨fun idle => ?_, fun _ => earlier⟩
    exact absurd (ticket.trans same) (h.settled idle w waits)

theorem LeaseRequest.Waits.acquire {q : LeaseRequest} {p : InstancePool} (h : q.Waits p)
    (earlier : q.readAt < p.turn) (issued : q.ticket < p.tickets) (signals : Signals) (c : Nat) :
    q.Waits (p.acquire signals c) := by
  obtain ⟨_, new, waiters⟩ := @InstancePool.acquire_serves signals p c
  refine ⟨fun idle w mem => ?_, fun l mem same => ?_⟩
  · rcases waiters w mem with old | fresh
    · exact h.settled idle w old
    · omega
  · rcases new l mem with old | ⟨now, ⟨w, waits, ticket⟩ | fresh⟩
    · exact h.granted l old same
    · rw [now]
      exact ⟨fun idle => absurd (ticket.trans same) (h.settled idle w waits), fun _ => earlier⟩
    · omega

theorem LeaseRequest.waits_acquire {q : LeaseRequest} {p : InstancePool} (sound : p.Sound)
    (progress : p.Progressing) (signals : Signals) (c : Nat) (ticket : q.ticket = p.tickets)
    (readAt : q.readAt = p.turn) (foundIdle : q.foundIdle = p.entries.any fun e => !e.busy) :
    q.Waits (p.acquire signals c) := by
  refine ⟨fun idle w mem => ?_, fun l mem same => ⟨fun idle => ?_, fun busy => ?_⟩⟩
  · rw [acquire_idle progress sound.sealed_ c (foundIdle ▸ idle)] at mem
    cases mem
  · obtain ⟨_, new, _⟩ := @InstancePool.acquire_serves signals p c
    rcases new l mem with old | ⟨now, _⟩
    · have issued := sound.accountable.issued sound.ticketed (mem_append_left _ old)
      omega
    · exact now.trans readAt.symm
  · exact absurd (same.trans ticket) (acquire_busy sound c (foundIdle ▸ busy) l mem)

namespace GoforgeWasmRuntime

variable {r t : GoforgeWasmRuntime} {e : RuntimeEvent} {c : Nat} {call after : Call}
  {seams : Seams} {p q : InstancePool}

/-- The readings and the grants of a runtime in order; only the call that is running can have made
its request in this turn. -/
structure Clocked (current : Option Nat) (r : GoforgeWasmRuntime) : Prop where
  turn : ∀ p, r.pool = some p → p.turn = r.turn
  asked : ∀ (k : Nat) (call : Call) (q : LeaseRequest), r.calls[k]? = some call →
    call.phase = .leasing q → q.Read r.clock ∧
      (q.readAt < r.turn ∨ (current = some k ∧ q.readAt = r.turn)) ∧
      ∀ p, r.pool = some p → q.Waits p
  dispatched : ∀ (d : Nat) (dispatch : Dispatch), r.dispatches[d]? = some dispatch →
    dispatch.lease.Read r.clock ∧ dispatch.lease.Timed dispatch.grantedAt

theorem leasing_put (here : r.calls[c]? = some call) (calls : t.calls = r.calls.set c after)
    (same : ∀ q, after.phase = .leasing q → call.phase = .leasing q) {k : Nat} {other : Call}
    {q : LeaseRequest} (there : t.calls[k]? = some other) (phase : other.phase = .leasing q) :
    ∃ call : Call, r.calls[k]? = some call ∧ call.phase = .leasing q := by
  rw [calls] at there
  rcases (getElem?_set_iff here).mp there with ⟨rfl, rfl⟩ | ⟨_, old⟩
  · exact ⟨call, here, same q phase⟩
  · exact ⟨other, old, phase⟩

theorem callMove_leasing (move : CallMove c seams r t) {k : Nat} {other : Call} {q : LeaseRequest}
    (there : t.calls[k]? = some other) (phase : other.phase = .leasing q) :
    (∃ call : Call, r.calls[k]? = some call ∧ call.phase = .leasing q) ∨
      ∃ call pool requestJson state, r.calls[c]? = some call ∧ call.phase = .starting ∧
        r.pool = some pool ∧ state.nowUnixMilliseconds = (r.clock r.turn).floor ∧
        t = r.acquireLease c call pool requestJson state := by
  cases move with
  | note => exact .inl ⟨other, there, phase⟩
  | acquire call plan pool requestJson state here started component planned some_pool _ reading =>
    exact .inr ⟨call, pool, requestJson, state, here, started, some_pool, reading, rfl⟩
  | select call plan name adapter here =>
    refine .inl (leasing_put here rfl (fun q eq => ?_) there phase)
    revert eq
    cases call.scope.reason <;> simp
  | backOff call plan cause here =>
    refine .inl (leasing_put here rfl (fun q eq => ?_) there phase)
    revert eq
    cases call.scope.reason <;> simp
  | finish call outcome here =>
    exact .inl (leasing_put here (finish_calls c call outcome) (fun q eq => by cases eq) there phase)
  | begin call _ _ here | reject call _ here | refuseLease call _ _ _ _ here
  | undispatch call _ _ _ _ here | threw call _ _ _ _ here | dispatch call _ _ _ here
  | released call _ _ _ _ here | adapted call _ _ here =>
    exact .inl (leasing_put here rfl (fun q eq => by cases eq) there phase)

theorem move_leasing (move : RuntimeMove e r t) (awake : ∀ c seams, e ≠ .resume c seams) {k : Nat}
    {other : Call} {q : LeaseRequest} (there : t.calls[k]? = some other) (phase : other.phase = .leasing q) :
    ∃ call : Call, r.calls[k]? = some call ∧ call.phase = .leasing q := by
  have added {call : Call} (idle : call.phase ≠ .leasing q) (calls : t.calls = r.calls ++ [call]) :
      ∃ call : Call, r.calls[k]? = some call ∧ call.phase = .leasing q := by
    rw [calls] at there
    rcases getElem?_concat_iff.mp there with old | ⟨_, rfl⟩
    · exact ⟨other, old, phase⟩
    · exact absurd phase idle
  cases move with
  | call c seams event => exact absurd event (awake c seams)
  | giveUp c call outcome here =>
    exact leasing_put here (finish_calls c call outcome) (fun q eq => by cases eq) there phase
  | wait c call here | deliverLoad c call result here | deliverDispatch c call _ _ _ _ here
  | deliverExecution c call _ _ here | wake c call _ _ here =>
    exact leasing_put here rfl (fun q eq => by cases eq) there phase
  | interrupt c call reason here listening first =>
    have calls : (r.abortCall c reason).calls = r.calls.set c { call with
        scope := { call.scope with reason := some reason }
        phase := call.phase.interrupted reason } := by
      simp [abortCall, here, listening, first, putCall]
    refine leasing_put here calls (fun q eq => ?_) there phase
    revert eq
    cases call.phase <;> simp [CallPhase.interrupted]
  | inert call inert =>
    refine added (fun eq => ?_) rfl
    have idle := inert_idle inert q.ticket
    rw [awaits_leasing eq] at idle
    exact of_decide_eq_false idle rfl
  | leak => exact added (by simp [newCall]) rfl
  | enter call kind fresh | enterPreload call kind fresh => exact added (by simp [fresh.phase]) rfl
  | _ => exact ⟨other, there, phase⟩

theorem clocked_of_serves {current : Option Nat} (h : Clocked current r) (host : r.SameHost t)
    (turn : t.turn = r.turn) (pool : ∀ q, t.pool = some q → ∃ p, r.pool = some p ∧ p.Serves q)
    (leasing : ∀ (k : Nat) (after : Call) (q : LeaseRequest), t.calls[k]? = some after →
      after.phase = .leasing q → ∃ call : Call, r.calls[k]? = some call ∧
        call.phase = .leasing q ∧ (t.pool = r.pool ∨ q.readAt < r.turn))
    (dispatched : ∀ (d : Nat) (dispatch : Dispatch), t.dispatches[d]? = some dispatch →
      dispatch.lease.Read r.clock ∧ dispatch.lease.Timed dispatch.grantedAt) : Clocked current t := by
  refine ⟨fun q some_q => ?_, fun k after q there phase => ?_, fun d dispatch there => ?_⟩
  · obtain ⟨p, some_pool, serves⟩ := pool q some_q
    rw [turn, serves.turn]
    exact h.turn p some_pool
  · obtain ⟨call, here, before, apart⟩ := leasing k after q there phase
    obtain ⟨read, recent, waits⟩ := h.asked k call q here before
    rw [host.clock, turn]
    refine ⟨read, recent, fun p' some_p' => ?_⟩
    rcases apart with same | earlier
    · exact waits p' (same ▸ some_p')
    · obtain ⟨p, some_pool, serves⟩ := pool p' some_p'
      have now := h.turn p some_pool
      exact (waits p some_pool).serves (by omega) serves
  · rw [host.clock]
    exact dispatched d dispatch there

theorem dispatched_move {current : Option Nat} (h : Clocked current r) (move : RuntimeMove e r t)
    (d : Nat) (dispatch : Dispatch) (there : t.dispatches[d]? = some dispatch) :
    dispatch.lease.Read r.clock ∧ dispatch.lease.Timed dispatch.grantedAt := by
  rcases move_dispatches move there with ⟨before, old, eq⟩ |
      ⟨c, seams, call, request, pool, lease, _, here, phase, some_pool, found, _, _, eq⟩
  · rw [eq]
    exact h.dispatched d before old
  · obtain ⟨read, _, waits⟩ := h.asked c call request here phase
    have same : lease.ticket = request.ticket := by simpa using find?_some found
    rw [eq]
    exact ⟨read, (waits pool some_pool).granted lease (mem_of_find?_eq_some found) same⟩

theorem clocked_nextTurn {current : Option Nat} (h : Clocked current r) : Clocked none r.nextTurn := by
  have before {q : InstancePool} (some_q : r.nextTurn.pool = some q) :
      ∃ p, r.pool = some p ∧ { p with turn := p.turn + 1 } = q := map_eq_some_iff.mp some_q
  refine ⟨fun q some_q => ?_, fun k call q here phase => ?_, h.dispatched⟩
  · obtain ⟨p, some_pool, rfl⟩ := before some_q
    exact congrArg Nat.succ (h.turn p some_pool)
  · obtain ⟨read, recent, waits⟩ := h.asked k call q here phase
    refine ⟨read, .inl ?_, fun p' some_p' => ?_⟩
    · simp only [nextTurn]
      omega
    · obtain ⟨p, some_pool, rfl⟩ := before some_p'
      exact ⟨(waits p some_pool).settled, (waits p some_pool).granted⟩

theorem clocked_acquire (h : Clocked (some c) r) (leases : Leases r) (runs : r.PoolRuns)
    (here : r.calls[c]? = some call) (some_pool : r.pool = some p) {requestJson : JsString}
    {state : AbiExecutionStateV1} (reading : state.nowUnixMilliseconds = (r.clock r.turn).floor) :
    Clocked (some c) (r.acquireLease c call p requestJson state) := by
  obtain ⟨sound, booked⟩ := leases.booked p some_pool
  have progress := pool_progressing (runs p some_pool)
  have now := h.turn p some_pool
  refine ⟨fun p' some_p' => ?_, fun k other q there waiting => ?_, h.dispatched⟩
  · cases some_p'
    exact acquire_serves c |>.1.trans now
  · rcases (getElem?_set_iff here).mp there with ⟨rfl, rfl⟩ | ⟨away, old⟩
    · cases waiting
      refine ⟨reading, .inr ⟨rfl, rfl⟩, fun p' some_p' => ?_⟩
      cases some_p'
      exact LeaseRequest.waits_acquire sound progress r.signals k rfl now.symm rfl
    · obtain ⟨read, recent, waits⟩ := h.asked k other q old waiting
      have earlier : q.readAt < r.turn := by
        rcases recent with earlier | ⟨running, _⟩
        · exact earlier
        · exact absurd (some.inj running).symm away
      refine ⟨read, .inl earlier, fun p' some_p' => ?_⟩
      cases some_p'
      have issued := booked.issued k other q.ticket old (by rw [awaits_leasing waiting]; simp)
      exact (waits p some_pool).acquire (now ▸ earlier) issued r.signals c

theorem clocked_callMove (h : Clocked (some c) r) (leases : Leases r) (runs : r.PoolRuns)
    (move : CallMove c seams r t) : Clocked (some c) t := by
  have made := dispatched_move h (RuntimeMove.call c seams rfl move)
  obtain ⟨host, _, turn, _⟩ := callMove_frame move
  -- whoever else waits has asked in an earlier turn
  have served {call after : Call} (here : r.calls[c]? = some call)
      (calls : t.calls = r.calls.set c after) (idle : ∀ q, after.phase ≠ .leasing q)
      (pool : ∀ q, t.pool = some q → ∃ p, r.pool = some p ∧ p.Serves q) : Clocked (some c) t := by
    refine clocked_of_serves h host turn pool (fun k other q there phase => ?_) made
    rw [calls] at there
    rcases (getElem?_set_iff here).mp there with ⟨rfl, rfl⟩ | ⟨away, old⟩
    · exact absurd phase (idle q)
    · refine ⟨other, old, phase, .inr ?_⟩
      rcases (h.asked k other q old phase).2.1 with earlier | ⟨running, _⟩
      · exact earlier
      · exact absurd (some.inj running).symm away
  have still (same : t.pool = r.pool) : ∀ q, t.pool = some q → ∃ p, r.pool = some p ∧ p.Serves q :=
    fun q some_q => ⟨q, same ▸ some_q, .refl q⟩
  cases move with
  | note => exact ⟨h.turn, h.asked, h.dispatched⟩
  | acquire call plan pool requestJson state here phase component planned some_pool _ reading =>
    exact clocked_acquire h leases runs here some_pool reading
  | undispatch call request pool lease reason here phase some_pool
  | threw call request pool lease fault here phase some_pool =>
    refine served here rfl (fun q => by simp) fun q some_q => ?_
    cases some_q
    exact ⟨pool, some_pool, release_serves _ _⟩
  | finish call outcome here =>
    exact served here (finish_calls c call outcome) (fun q => by simp) (still (finish_pool c call outcome))
  | select call plan name adapter here | backOff call plan cause here =>
    refine served here rfl (fun q => ?_) (still rfl)
    cases call.scope.reason <;> simp
  | begin call _ _ here | reject call _ here | refuseLease call _ _ _ _ here
  | dispatch call _ _ _ here | released call _ _ _ _ here | adapted call _ _ here =>
    exact served here rfl (fun q => by simp) (still rfl)

theorem move_turn (move : RuntimeMove e r t) : t.turn = r.turn ∨ t = r.nextTurn := by
  cases move with
  | call c seams event move => exact .inl (callMove_frame move).2.2.1
  | giveUp c call outcome => exact .inl (finish_frame c call outcome).2.2.1
  | interrupt c call reason => exact .inl (abortCall_frame c reason).2.2.1
  | turn => exact .inr rfl
  | _ => exact .inl rfl

theorem born_turn (empty : r.pool = none) (move : RuntimeMove e r t) (some_q : t.pool = some q) :
    q.turn = r.turn := by
  have unborn (same : t.pool = r.pool) : q.turn = r.turn := by
    rw [same, empty] at some_q
    cases some_q
  cases move with
  | poolReady =>
    cases some_q
    rfl
  | call c seams event move =>
    rcases callMove_pool move with same | ⟨p, some_pool, _⟩ | ⟨p, ticket, some_pool, _⟩
    · exact unborn same
    · cases empty.symm.trans some_pool
    · cases empty.symm.trans some_pool
  | giveUp c call outcome => exact unborn (finish_pool c call outcome)
  | interrupt c call reason =>
    refine unborn ?_
    unfold abortCall
    split
    · split_ifs
      · rfl
      · simp [putCall, empty]
    · rfl
  | settleDispatch d dispatch pool outcome event there some_pool
  | environment step pool system flow some_pool =>
    cases empty.symm.trans some_pool
  | turn => simp [nextTurn, empty] at some_q
  | _ => exact unborn rfl

theorem clocked_move (h : Clocked none r) (leases : Leases r) (move : RuntimeMove e r t)
    (awake : ∀ c seams, e ≠ .resume c seams) : Clocked none t := by
  have made := dispatched_move h move
  have host := move_sameHost move
  have leasing {k : Nat} {other : Call} {q : LeaseRequest} (there : t.calls[k]? = some other)
      (phase : other.phase = .leasing q) : ∃ call : Call, r.calls[k]? = some call ∧
        call.phase = .leasing q ∧ (t.pool = r.pool ∨ q.readAt < r.turn) := by
    obtain ⟨call, here, before⟩ := move_leasing move awake there phase
    refine ⟨call, here, before, .inr ?_⟩
    rcases (h.asked k call q here before).2.1 with earlier | ⟨running, _⟩
    · exact earlier
    · cases running
  rcases move_turn move with turn | rfl
  · cases some_pool : r.pool with
    | none =>
      refine ⟨fun q some_q => ?_, fun k other q there phase => ?_, fun d dispatch there => ?_⟩
      · rw [turn]
        exact born_turn some_pool move some_q
      · obtain ⟨call, here, before, _⟩ := leasing there phase
        have idle := (leases.unloaded some_pool).1 call (mem_of_getElem? here) q.ticket
        rw [awaits_leasing before] at idle
        exact absurd rfl (of_decide_eq_false idle)
      · rw [host.clock]
        exact made d dispatch there
    | some p =>
      refine clocked_of_serves h host turn (fun q some_q => ⟨p, some_pool, ?_⟩) (fun k other q => leasing) made
      rcases move_pool leases some_pool move with ⟨c, seams, event, _⟩ |
          ⟨d, dispatch, outcome, _, rfl⟩ | ⟨q', signals, some_q', flows⟩ | rfl
      · exact absurd event (awake c seams)
      · cases some_q
        exact release_serves _ _
      · cases some_q.symm.trans some_q'
        exact serves_of_flows flows
      · simp [nextTurn] at turn
  · exact clocked_nextTurn h

theorem clocked_resume (h : Clocked none r) (leases : Leases r) (runs : r.PoolRuns)
    (resumes : r.resume c seams = some t) : Clocked (some c) t := by
  have started : Clocked (some c) r := by
    refine ⟨h.turn, fun k call q here phase => ?_, h.dispatched⟩
    obtain ⟨read, recent, waits⟩ := h.asked k call q here phase
    rcases recent with earlier | ⟨running, _⟩
    · exact ⟨read, .inl earlier, waits⟩
    · cases running
  have chain {u : GoforgeWasmRuntime} (hu : Clocked (some c) u ∧ Leases u ∧ u.PoolRuns)
      (moves : CallMoves c seams u t) : Clocked (some c) t := by
    have kept := moves.invariant (I := fun u => Clocked (some c) u ∧ Leases u ∧ u.PoolRuns)
      (fun u v hv move => ⟨clocked_callMove hv.1 hv.2.1 hv.2.2 move, leases_callMove hv.2.1 move,
        poolRuns_callMove hv.2.2 move⟩) hu
    exact kept.1
  rcases resume_cases resumes with ⟨call, plan, id, value, here, phase, planned, rfl⟩ | ⟨_, moves⟩
  · let ready : GoforgeWasmRuntime := { r with state := .ready, lastErrorCode := none }
    have begun : Clocked (some c) ready := ⟨started.turn, started.asked, started.dispatched⟩
    have booked : Leases ready := leases_of_same leases rfl rfl rfl leases.verifying
    have running : ready.PoolRuns := poolRuns_of_same runs rfl rfl
    exact chain ⟨begun, booked, running⟩ (attemptSucceeded_moves here phase planned)
  · exact chain ⟨started, leases, runs⟩ moves

theorem clocked_step (h : Clocked none r) (leases : Leases r) (runs : r.PoolRuns)
    (stepped : r.step e = some t) : Clocked none t := by
  by_cases resumes : ∃ c seams, e = .resume c seams
  · obtain ⟨c, seams, rfl⟩ := resumes
    obtain ⟨u, performed, rfl⟩ := map_eq_some_iff.mp stepped
    exact clocked_nextTurn (clocked_resume h leases runs performed)
  · have awake : ∀ c seams, e ≠ .resume c seams := fun c seams eq => resumes ⟨c, seams, eq⟩
    have kept := (step_moves stepped).invariant (I := fun u => Clocked none u ∧ Leases u)
      (fun u v hv move => ⟨clocked_move hv.1 hv.2 move awake, leases_move hv.2 move⟩) ⟨h, leases⟩
    exact kept.1

theorem clocked_fresh (h : r.Fresh) : Clocked none r := by
  refine ⟨fun p some_pool => ?_, fun k call q here => ?_, fun d dispatch there => ?_⟩
  · simp [h.pool] at some_pool
  · simp [h.calls] at here
  · simp [h.dispatches] at there

def Requested (r : GoforgeWasmRuntime) (q : LeaseRequest) : Prop :=
  (∃ (k : Nat) (call : Call), r.calls[k]? = some call ∧ call.phase = .leasing q) ∨
    ∃ (d : Nat) (dispatch : Dispatch), r.dispatches[d]? = some dispatch ∧ dispatch.lease = q

/-- The request is made from this state, where an instance is idle or not. -/
def AsksFrom (r : GoforgeWasmRuntime) (q : LeaseRequest) : Prop :=
  r.turn = q.readAt ∧ ∃ p, r.pool = some p ∧ q.foundIdle = p.entries.any fun e => !e.busy

def Spent (c : Nat) (r : GoforgeWasmRuntime) : Prop :=
  ∃ call : Call, r.calls[c]? = some call ∧ call.phase ≠ .starting ∧ ∀ plan, ¬BeginsAfter r.retry call plan

theorem spent_put (here : r.calls[c]? = some call) (started : after.phase ≠ .starting)
    (loaded : ∀ manifest, after.phase ≠ .loaded (.ok manifest)) (slept : after.phase ≠ .slept (.ok ())) :
    Spent c (r.putCall c after) := by
  refine ⟨after, putCall_here here after, started, fun plan begins => ?_⟩
  cases begins with
  | loaded manifest phase => exact loaded manifest phase
  | slept phase => exact slept phase

theorem callMove_spent (move : CallMove c seams r t) : (t.pool = r.pool ∧ ¬Spent c r) ∨ Spent c t ∨
    (t.pool = r.pool ∧ t.calls = r.calls) := by
  cases move with
  | note => exact .inr (.inr ⟨rfl, rfl⟩)
  | begin call plan startedAt here begins =>
    refine .inl ⟨rfl, ?_⟩
    rintro ⟨other, there, _, none_begins⟩
    cases here.symm.trans there
    exact none_begins plan begins
  | finish call outcome here =>
    refine .inr (.inl ?_)
    have past : Spent c (r.putCall c { call with
        phase := .settled outcome, scope := { call.scope with disposed := true } }) :=
      spent_put here (by simp) (fun _ => by simp) (by simp)
    obtain ⟨after, at_c, started, none_begins⟩ := past
    refine ⟨after, ?_, started, ?_⟩
    · rw [finish_calls]
      exact at_c
    · rw [(finish_frame c call outcome).1.retry]
      exact none_begins
  | select call plan name adapter here | backOff call plan cause here =>
    refine .inr (.inl (spent_put here ?_ (fun _ => ?_) ?_)) <;>
      cases call.scope.reason <;> simp
  | reject call _ here | acquire call _ _ _ _ here | refuseLease call _ _ _ _ here
  | undispatch call _ _ _ _ here | threw call _ _ _ _ here | dispatch call _ _ _ here
  | released call _ _ _ _ here | adapted call _ _ here =>
    exact .inr (.inl (spent_put here (by simp) (fun _ => by simp) (by simp)))

theorem requested_callMove (move : CallMove c seams r t) {q : LeaseRequest} (asked : t.Requested q) :
    r.Requested q ∨ (¬Spent c r ∧ r.AsksFrom q) := by
  rcases asked with ⟨k, other, there, phase⟩ | ⟨d, dispatch, there, rfl⟩
  · rcases callMove_leasing move there phase with ⟨call, here, before⟩ |
        ⟨call, pool, requestJson, state, here, started, some_pool, reading, rfl⟩
    · exact .inl (.inl ⟨k, call, here, before⟩)
    · rcases (getElem?_set_iff here).mp there with ⟨rfl, rfl⟩ | ⟨_, old⟩
      · cases phase
        refine .inr ⟨?_, rfl, pool, some_pool, rfl⟩
        rintro ⟨again, at_k, other, _⟩
        cases here.symm.trans at_k
        exact other started
      · exact .inl (.inl ⟨k, other, old, phase⟩)
  · rcases move_dispatches (RuntimeMove.call c seams rfl move) there with ⟨before, old, eq⟩ |
        ⟨_, _, call, request, pool, lease, _, here, phase, _, _, _, _, eq⟩
    · exact .inl (.inr ⟨d, before, old, by rw [eq]⟩)
    · exact .inl (.inl ⟨_, call, here, by rw [eq]; exact phase⟩)

theorem requested_callMoves (moves : CallMoves c seams r t) {q : LeaseRequest}
    (asked : t.Requested q) : r.Requested q ∨ r.AsksFrom q := by
  have kept := moves.invariant (I := fun u => (u.pool = r.pool ∨ Spent c u) ∧ u.turn = r.turn ∧
    (∀ q, u.Requested q → r.Requested q ∨ r.AsksFrom q)) (fun u v hu move => ?_)
    ⟨.inl rfl, rfl, fun q asked => .inl asked⟩
  · exact kept.2.2 q asked
  · obtain ⟨found, turn, known⟩ := hu
    obtain ⟨host, _, still, _⟩ := callMove_frame move
    refine ⟨?_, still.trans turn, fun q asked => ?_⟩
    · rcases callMove_spent move with ⟨same, fresh⟩ | spent | ⟨same, calls⟩
      · exact .inl (same.trans (found.resolve_right fresh))
      · exact .inr spent
      · rcases found with before | ⟨call, here, started, none_begins⟩
        · exact .inl (same.trans before)
        · refine .inr ⟨call, calls ▸ here, started, ?_⟩
          rw [host.retry]
          exact none_begins
    · rcases requested_callMove move asked with old | ⟨fresh, now, p, some_pool, idle⟩
      · exact known q old
      · refine .inr ⟨turn ▸ now, p, ?_, idle⟩
        rw [← found.resolve_right fresh]
        exact some_pool

theorem requested_step (stepped : r.step e = some t) {q : LeaseRequest} (asked : t.Requested q) :
    r.Requested q ∨ r.AsksFrom q := by
  by_cases resumes : ∃ c seams, e = .resume c seams
  · obtain ⟨c, seams, rfl⟩ := resumes
    obtain ⟨u, performed, rfl⟩ := map_eq_some_iff.mp stepped
    have before : u.Requested q := asked
    rcases resume_cases performed with ⟨call, plan, id, value, here, phase, planned, rfl⟩ | ⟨_, moves⟩
    · exact requested_callMoves (attemptSucceeded_moves here phase planned) before
    · exact requested_callMoves moves before
  · refine .inl ((step_moves stepped).invariant
      (I := fun u => u.Requested q → r.Requested q) (fun u v known move asked => known ?_) id asked)
    rcases asked with ⟨k, other, there, phase⟩ | ⟨d, dispatch, there, rfl⟩
    · obtain ⟨call, here, before⟩ :=
        move_leasing move (fun c seams eq => resumes ⟨c, seams, eq⟩) there phase
      exact .inl ⟨k, call, here, before⟩
    · rcases move_dispatches move there with ⟨before, old, eq⟩ | ⟨c, seams, _, _, _, _, event, _⟩
      · exact .inr ⟨d, before, old, by rw [eq]⟩
      · exact absurd ⟨c, seams, event⟩ resumes

end GoforgeWasmRuntime

/-- What the guest is handed is a reading taken no earlier than the turn that granted its lease, so
that no deadline which the clock had reached by then lies above it. -/
def Dispatch.Current (clock : Nat → JsNumber) (deadline : Option JsNumber) (d : Dispatch) : Prop :=
  (∃ turn, d.grantedAt ≤ turn ∧ turn = d.lease.readAt ∧ d.lease.state.nowUnixMilliseconds = (clock turn).floor) ∧
  ∀ limit, deadline = some limit → limit.le (clock d.grantedAt) = true →
    d.lease.state.nowUnixMilliseconds.lt limit = false

theorem runtime_clocked {r : GoforgeWasmRuntime} (h : runtimeMachine.Reachable r) :
    GoforgeWasmRuntime.Clocked none r := by
  have all : GoforgeWasmRuntime.Clocked none r ∧ Leases r ∧ r.PoolRuns := by
    refine h.invariant (I := fun r => GoforgeWasmRuntime.Clocked none r ∧ Leases r ∧ r.PoolRuns) ?_ ?_
    · rintro r ⟨options, constructed⟩
      have fresh := new_fresh constructed
      refine ⟨clocked_fresh fresh, leases_fresh fresh, fun p some_pool => ?_⟩
      rw [fresh.pool] at some_pool
      cases some_pool
    · rintro r e t ⟨clocked, leases, runs⟩ stepped
      refine ⟨clocked_step clocked leases runs stepped, leases_step leases stepped, ?_⟩
      have kept := (step_moves stepped).invariant
        (I := fun r => Leases r ∧ r.PoolRuns) (fun r t hi move =>
          ⟨leases_move hi.1 move, poolRuns_move hi.2 hi.1 move⟩) ⟨leases, runs⟩
      exact kept.2
  exact all.1

/-- A dispatch is handed a current reading exactly when an instance was idle in the state from which
its call asked for a lease: otherwise the call has waited for its lease with the reading. -/
theorem currentReading_iff_instanceIdle {options : GoforgeWasmRuntimeOptions}
    {r t : GoforgeWasmRuntime} (constructed : GoforgeWasmRuntime.new options = .ok r)
    {es : List RuntimeEvent} (reached : runtimeMachine.run r es = some t) {d : Nat}
    {dispatch : Dispatch} (there : t.dispatches[d]? = some dispatch) :
    ∃ pre post u p call, es = pre ++ post ∧ runtimeMachine.run r pre = some u ∧
      u.turn = dispatch.lease.readAt ∧ u.pool = some p ∧
      dispatch.lease.foundIdle = p.entries.any (fun e => !e.busy) ∧ t.calls[dispatch.call]? = some call ∧
      (dispatch.Current t.clock call.deadline ↔ p.entries.any (fun e => !e.busy) = true) := by
  have reachable : runtimeMachine.Reachable t := ⟨r, es, ⟨options, constructed⟩, reached⟩
  have fresh := GoforgeWasmRuntime.new_fresh constructed
  have unasked : ¬r.Requested dispatch.lease := by
    rintro (⟨k, call, here, _⟩ | ⟨k, other, here, _⟩)
    · simp [fresh.calls] at here
    · simp [fresh.dispatches] at here
  obtain ⟨pre, post, u, split, before, asks, p, some_pool, foundIdle⟩ :=
    LabelledMachine.run_history (m := runtimeMachine) (R := GoforgeWasmRuntime.Requested)
      (W := GoforgeWasmRuntime.AsksFrom)
      (fun _ _ _ _ stepped asked => GoforgeWasmRuntime.requested_step stepped asked) unasked reached
      (Or.inr ⟨d, dispatch, there, rfl⟩)
  have traced := runtime_traced reachable
  obtain ⟨call, here, _⟩ := traced.dispatches d dispatch there
  obtain ⟨read, timed⟩ := (runtime_clocked reachable).dispatched d dispatch there
  refine ⟨pre, post, u, p, call, split, before, asks, some_pool, foundIdle, here, ?_⟩
  rw [← foundIdle]
  constructor
  · rintro ⟨⟨turn, granted, rfl, _⟩, _⟩
    by_contra busy
    have late := timed.later (by simpa using busy)
    omega
  · intro idle
    have now := timed.atOnce idle
    refine ⟨⟨dispatch.lease.readAt, Nat.le_of_eq now, rfl, read⟩, fun limit dated reached => ?_⟩
    have whole := (traced.calls dispatch.call call here).whole limit dated
    rw [now] at reached
    rw [show dispatch.lease.state.nowUnixMilliseconds = _ from read]
    exact whole _ reached

/-- A call that waits for the only instance until the clock has passed its deadline. -/
def lateGrantRun : List RuntimeEvent :=
  [.invoke (js "crypto.sha256") .null .empty .calm,
    .invoke (js "crypto.sha256") .null { WasmCallOptions.empty with timeoutMs := some 10 } .calm,
    .loadThen (.ok (.offering (js "crypto.sha256") false)) .calm, .deliver 0, .deliver 1,
    .resume 0 .calm, .instanceCreated 1, .resume 0 .calm, .resume 1 .calm,
    .dispatchSettles 0 (.ok (successResponse (js "req-1"))), .resume 1 .calm]

/-- The lease comes at 20, behind the deadline 10, and the guest is told that it is 0. -/
theorem late_grant_reads_old_clock : ∃ r t dispatch call, GoforgeWasmRuntime.new
        { GoforgeWasmRuntimeOptions.defaults (fun turn => if turn < 9 then 0 else 20) with
          poolSize := some 1 } = .ok r ∧
      runtimeMachine.run r lateGrantRun = some t ∧ t.dispatches[1]? = some dispatch ∧
      t.calls[dispatch.call]? = some call ∧ call.deadline = some 10 ∧
      JsNumber.le 10 (t.clock dispatch.grantedAt) = true ∧
      dispatch.lease.state.nowUnixMilliseconds.lt 10 = true ∧ dispatch.lease.readAt < dispatch.grantedAt := by
  have shown : GoforgeWasmRuntimeOptions.shows
      { GoforgeWasmRuntimeOptions.defaults (fun turn => if turn < 9 then 0 else 20) with
        poolSize := some 1 } lateGrantRun (fun t => (t.dispatches[1]?).any fun dispatch =>
          (t.calls[dispatch.call]?).any fun call => decide (call.deadline = some 10 ∧
            JsNumber.le 10 (t.clock dispatch.grantedAt) = true ∧
            dispatch.lease.state.nowUnixMilliseconds.lt 10 = true ∧
            dispatch.lease.readAt < dispatch.grantedAt)) = true := by decide +kernel
  obtain ⟨r, t, constructed, reached, holds⟩ := run_of_shows shown
  obtain ⟨dispatch, there, holds⟩ := (Option.any_eq_true _ _).mp holds
  obtain ⟨call, here, holds⟩ := (Option.any_eq_true _ _).mp holds
  exact ⟨r, t, dispatch, call, constructed, reached, there, here, of_decide_eq_true holds⟩

def idleGrantRun : List RuntimeEvent :=
  [.invoke (js "crypto.sha256") .null .empty .calm,
    .loadThen (.ok (.offering (js "crypto.sha256") false)) .calm, .deliver 0, .resume 0 .calm,
    .instanceCreated 1, .resume 0 .calm, .dispatchSettles 0 (.ok (successResponse (js "req-1"))),
    .invoke (js "crypto.sha256") .null { WasmCallOptions.empty with timeoutMs := some 10 } .calm,
    .deliver 1, .resume 1 .calm, .resume 1 .calm]

theorem idle_grant_reads_current_clock :
    ∃ r t dispatch call, GoforgeWasmRuntime.new (.defaults fun _ => 0) = .ok r ∧
      runtimeMachine.run r idleGrantRun = some t ∧ t.dispatches[1]? = some dispatch ∧
      t.calls[dispatch.call]? = some call ∧ dispatch.Current t.clock call.deadline := by
  have shown : (GoforgeWasmRuntimeOptions.defaults fun _ => 0).shows idleGrantRun (fun t =>
      (t.dispatches[1]?).any fun dispatch => dispatch.lease.foundIdle) = true := by decide +kernel
  obtain ⟨r, t, constructed, reached, holds⟩ := run_of_shows shown
  obtain ⟨dispatch, there, idle⟩ := (Option.any_eq_true _ _).mp holds
  obtain ⟨_, _, _, p, call, _, _, _, _, foundIdle, here, current⟩ :=
    currentReading_iff_instanceIdle constructed reached there
  exact ⟨r, t, dispatch, call, constructed, reached, there, here, current.mpr (foundIdle ▸ idle)⟩

end ForgeDeno
