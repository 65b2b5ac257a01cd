import ForgeDeno.RuntimeRetry

namespace ForgeDeno

open ListRules CallPhase Option

def Verdict.due : Verdict → Option Thrown
  | .rejected cause => some (invocationFailure cause)
  | .malformed cause => some cause
  | .aborted _ | .wellFormed _ => none

def DispatchPhase.due : DispatchPhase → Option Thrown
  | .threw cause => some (invocationFailure cause)
  | .running => none
  | .releasing verdict _ | .finished verdict _ => verdict.due

def CallPhase.answering : CallPhase → Bool
  | .undispatched _ _ _ | .dispatched _ | .adapting _ | .adapted _ | .returned _ => true
  | _ => false

theorem Verdict.discards_of_due {verdict : Verdict} {error : Thrown} (due : verdict.due = some error) :
    verdict.discards = true := by
  cases verdict <;> first | rfl | cases due

theorem Verdict.result_of_due {verdict : Verdict} {error : Thrown} (due : verdict.due = some error) :
    verdict.result none = .error error := by
  cases verdict with
  | rejected cause | malformed cause =>
    cases due
    rfl
  | aborted | wellFormed => cases due

namespace InstancePool

theorem settled_move {signals : Signals} {p q : InstancePool} {record : CloseRecord}
    (mem : record ∈ p.settledCloses) (move : PoolMove signals p q) : record ∈ q.settledCloses := by
  cases move with
  | flow step =>
    cases step with
    | settle id why failure pending => exact List.mem_cons_of_mem _ mem
    | _ => exact mem
  | _ => exact mem

end InstancePool

namespace GoforgeWasmRuntime

variable {r t : GoforgeWasmRuntime} {e : RuntimeEvent} {c d : Nat} {call after : Call}
  {dispatch : Dispatch} {seams : Seams}

/-- The `close()` of an instance has settled so. -/
def ClosedWith (r : GoforgeWasmRuntime) (entry : Nat) (failure : Option Thrown) : Prop :=
  ∃ pool record, r.pool = some pool ∧ record ∈ pool.settledCloses ∧ record.id = entry ∧ record.failure = failure

theorem closedWith_move (leases : Leases r) (move : RuntimeMove e r t) {entry : Nat}
    {failure : Option Thrown} (h : r.ClosedWith entry failure) : t.ClosedWith entry failure := by
  obtain ⟨pool, record, some_pool, mem, id, failed⟩ := h
  obtain ⟨q, signals, some_q, moves⟩ := move_poolMoves leases some_pool move
  have still : record ∈ q.settledCloses :=
    moves.invariant (I := fun q => record ∈ q.settledCloses)
      (fun _ _ mem move => InstancePool.settled_move mem move) mem
  exact ⟨q, record, some_q, still, id, failed⟩

theorem closedWith_of_outcome {entry : Nat} {failure : Option Thrown}
    (outcome : r.closeOutcome entry = some failure) : r.ClosedWith entry failure := by
  unfold closeOutcome at outcome
  obtain ⟨pool, some_pool, outcome⟩ := bind_eq_some_iff.mp outcome
  obtain ⟨record, found, outcome⟩ := bind_eq_some_iff.mp outcome
  exact ⟨pool, record, some_pool, List.mem_of_find?_eq_some found,
    by simpa using List.find?_some found, some.inj outcome⟩

structure CallAnswers (r : GoforgeWasmRuntime) (c : Nat) (call : Call) : Prop where
  undispatched : ∀ entry awaitsClose cause, call.phase = .undispatched entry awaitsClose cause →
    awaitsClose = true ∧ (call.scope.reason = none → ∃ (d : Nat) (dispatch : Dispatch),
      r.dispatches[d]? = some dispatch ∧ dispatch.call = c ∧ dispatch.attempt = call.attempt ∧
        dispatch.phase = .threw cause ∧ dispatch.entry = entry)
  dispatched : ∀ d, call.phase = .dispatched d → ∃ dispatch : Dispatch,
    r.dispatches[d]? = some dispatch ∧ dispatch.call = c ∧ dispatch.attempt = call.attempt
  returned : ∀ result, call.phase = .returned result → call.scope.reason = none →
    ∀ (d : Nat) (dispatch : Dispatch) (error : Thrown), r.dispatches[d]? = some dispatch →
      dispatch.call = c → dispatch.attempt = call.attempt → dispatch.phase.due = some error →
        ∃ failure, r.ClosedWith dispatch.entry failure ∧ result = .error (failure.getD error)
  native : ((∃ x, call.phase = .adapting x) ∨ ∃ result, call.phase = .adapted result) →
    ∃ name, call.options.route = .native name

/-- What a dispatch has to do with its call and with the `close()` of its instance. -/
structure DispatchAnswers (r : GoforgeWasmRuntime) (d : Nat) (dispatch : Dispatch) : Prop where
  codec : ∀ cause, (∃ awaitsClose, dispatch.phase = .releasing (.malformed cause) awaitsClose) ∨
    (∃ result, dispatch.phase = .finished (.malformed cause) result) → cause.IsCodec
  awaits : ∀ verdict awaitsClose, dispatch.phase = .releasing verdict awaitsClose →
    verdict.discards = true → awaitsClose = true
  pending : ∀ call : Call, r.calls[dispatch.call]? = some call → call.scope.reason = none →
    dispatch.phase.done = false → call.phase = .dispatched d
  finished : ∀ (call : Call) verdict result error, r.calls[dispatch.call]? = some call →
    call.scope.reason = none → dispatch.phase = .finished verdict result →
      verdict.due = some error →
        ∃ failure, r.ClosedWith dispatch.entry failure ∧ result = .error (failure.getD error)

structure Answering (r : GoforgeWasmRuntime) : Prop where
  calls : ∀ (c : Nat) (call : Call), r.calls[c]? = some call → r.CallAnswers c call
  dispatches : ∀ (d : Nat) (dispatch : Dispatch), r.dispatches[d]? = some dispatch → r.DispatchAnswers d dispatch

theorem callAnswers_idle (idle : call.phase.answering = false) : r.CallAnswers c call := by
  constructor
  · intro entry awaitsClose cause phase
    rw [phase] at idle
    cases idle
  · intro d phase
    rw [phase] at idle
    cases idle
  · intro result phase
    rw [phase] at idle
    cases idle
  · rintro (⟨x, phase⟩ | ⟨result, phase⟩)
    · rw [phase] at idle
      cases idle
    · rw [phase] at idle
      cases idle

theorem CallAnswers.mono (h : r.CallAnswers c call) (dispatches : t.dispatches = r.dispatches)
    (closes : ∀ entry failure, r.ClosedWith entry failure → t.ClosedWith entry failure) :
    t.CallAnswers c call := by
  refine ⟨fun entry awaitsClose cause phase => ?_, fun d phase => ?_,
    fun result phase live d dispatch error there => ?_, h.native⟩
  · rw [dispatches]
    exact h.undispatched entry awaitsClose cause phase
  · rw [dispatches]
    exact h.dispatched d phase
  · rw [dispatches] at there
    intro own attempt due
    obtain ⟨failure, closed, eq⟩ := h.returned result phase live d dispatch error there own attempt due
    exact ⟨failure, closes _ _ closed, eq⟩

theorem Answering.same (h : r.Answering) (calls : t.calls = r.calls) (dispatches : t.dispatches = r.dispatches)
    (closes : ∀ entry failure, r.ClosedWith entry failure → t.ClosedWith entry failure) : t.Answering := by
  refine ⟨fun c call here => ?_, fun d dispatch there => ?_⟩
  · rw [calls] at here
    exact (h.calls c call here).mono dispatches closes
  · rw [dispatches] at there
    obtain ⟨codec, awaits, pending, finished⟩ := h.dispatches d dispatch there
    refine ⟨codec, awaits, ?_, ?_⟩
    · rw [calls]
      exact pending
    · rw [calls]
      intro call verdict result error here live phase due
      obtain ⟨failure, closed, eq⟩ := finished call verdict result error here live phase due
      exact ⟨failure, closes _ _ closed, eq⟩

theorem Answering.setCall (h : r.Answering) (here : r.calls[c]? = some call)
    (calls : t.calls = r.calls.set c after) (dispatches : t.dispatches = r.dispatches)
    (closes : ∀ entry failure, r.ClosedWith entry failure → t.ClosedWith entry failure)
    (live : after.scope.reason = none → call.scope.reason = none)
    (waits : after.scope.reason = none → ∀ d, call.phase = .dispatched d →
      ∃ dispatch : Dispatch, r.dispatches[d]? = some dispatch ∧ dispatch.phase.done = true)
    (fits : r.CallAnswers c after) : t.Answering := by
  refine ⟨fun k other at_k => ?_, fun d dispatch there => ?_⟩
  · rw [calls] at at_k
    rcases (getElem?_set_iff here).mp at_k with ⟨rfl, rfl⟩ | ⟨_, old⟩
    · exact fits.mono dispatches closes
    · exact (h.calls k other old).mono dispatches closes
  · rw [dispatches] at there
    obtain ⟨codec, awaits, pending, finished⟩ := h.dispatches d dispatch there
    refine ⟨codec, awaits, fun other at_k quiet waiting => ?_,
      fun other verdict result error at_k quiet phase due => ?_⟩
    · rw [calls] at at_k
      rcases (getElem?_set_iff here).mp at_k with ⟨own, rfl⟩ | ⟨_, old⟩
      · have phase := pending call (own ▸ here) (live quiet) waiting
        obtain ⟨same, at_d, done⟩ := waits quiet d phase
        cases there.symm.trans at_d
        cases done.symm.trans waiting
      · exact pending other old quiet waiting
    · have before : ∃ earlier : Call, r.calls[dispatch.call]? = some earlier ∧
          earlier.scope.reason = none := by
        rw [calls] at at_k
        rcases (getElem?_set_iff here).mp at_k with ⟨own, rfl⟩ | ⟨_, old⟩
        · exact ⟨call, own ▸ here, live quiet⟩
        · exact ⟨other, old, quiet⟩
      obtain ⟨earlier, there, still⟩ := before
      obtain ⟨failure, closed, eq⟩ := finished earlier verdict result error there still phase due
      exact ⟨failure, closes _ _ closed, eq⟩

theorem Answering.addCall (h : r.Answering) (traced : r.Traced) (added : t.calls = r.calls ++ [call])
    (dispatches : t.dispatches = r.dispatches) (pool : t.pool = r.pool)
    (idle : call.phase.answering = false) : t.Answering := by
  have closes (entry : Nat) (failure : Option Thrown) (closed : r.ClosedWith entry failure) :
      t.ClosedWith entry failure := by
    unfold ClosedWith
    rw [pool]
    exact closed
  refine ⟨fun k other at_k => ?_, fun d dispatch there => ?_⟩
  · rw [added] at at_k
    rcases getElem?_concat_iff.mp at_k with old | ⟨_, rfl⟩
    · exact (h.calls k other old).mono dispatches closes
    · exact callAnswers_idle idle
  · rw [dispatches] at there
    obtain ⟨codec, awaits, pending, finished⟩ := h.dispatches d dispatch there
    obtain ⟨own, at_call, _⟩ := traced.dispatches d dispatch there
    have known (other : Call) (here : t.calls[dispatch.call]? = some other) : own = other := by
      rw [added, List.getElem?_append_left (List.getElem?_eq_some_iff.mp at_call).1] at here
      exact some.inj (at_call.symm.trans here)
    refine ⟨codec, awaits, fun other here => ?_, fun other verdict result error here live phase due => ?_⟩
    · cases known other here
      exact pending own at_call
    · cases known other here
      obtain ⟨failure, closed, eq⟩ := finished own verdict result error at_call live phase due
      exact ⟨failure, closes _ _ closed, eq⟩

theorem Answering.setDispatch {phase : DispatchPhase} (h : r.Answering)
    (there : r.dispatches[d]? = some dispatch) (waiting : dispatch.phase.done = false)
    (calls : t.calls = r.calls) (dispatches : t.dispatches = r.dispatches.set d { dispatch with phase })
    (closes : ∀ entry failure, r.ClosedWith entry failure → t.ClosedWith entry failure)
    (fits : t.DispatchAnswers d { dispatch with phase }) : t.Answering := by
  have forth {k : Nat} {other : Dispatch} (at_k : r.dispatches[k]? = some other) :
      t.dispatches[k]? = some other ∨
        (k = d ∧ other = dispatch ∧ t.dispatches[k]? = some { dispatch with phase }) := by
    rw [dispatches]
    by_cases same : k = d
    · subst same
      cases there.symm.trans at_k
      exact .inr ⟨rfl, rfl, (getElem?_set_iff there).mpr (.inl ⟨rfl, rfl⟩)⟩
    · exact .inl ((getElem?_set_iff there).mpr (.inr ⟨same, at_k⟩))
  have back {k : Nat} {other : Dispatch} (at_k : t.dispatches[k]? = some other) :
      (k = d ∧ other = { dispatch with phase }) ∨ r.dispatches[k]? = some other := by
    rw [dispatches] at at_k
    rcases (getElem?_set_iff there).mp at_k with ⟨same, eq⟩ | ⟨_, old⟩
    · exact .inl ⟨same, eq⟩
    · exact .inr old
  refine ⟨fun c call here => ?_, fun k other at_k => ?_⟩
  · rw [calls] at here
    obtain ⟨undispatched, dispatched, returned, native⟩ := h.calls c call here
    refine ⟨fun entry awaitsClose cause stands => ?_, fun k stands => ?_,
      fun result stands live k other error at_k own attempt due => ?_, native⟩
    · obtain ⟨awaits, linked⟩ := undispatched entry awaitsClose cause stands
      refine ⟨awaits, fun live => ?_⟩
      obtain ⟨k, other, at_k, own, attempt, threw, same⟩ := linked live
      rcases forth at_k with still | ⟨_, rfl, _⟩
      · exact ⟨k, other, still, own, attempt, threw, same⟩
      · rw [threw] at waiting
        cases waiting
    · obtain ⟨other, at_k, own, attempt⟩ := dispatched k stands
      rcases forth at_k with still | ⟨_, rfl, moved⟩
      · exact ⟨other, still, own, attempt⟩
      · exact ⟨_, moved, own, attempt⟩
    · rcases back at_k with ⟨rfl, rfl⟩ | old
      · have pending := (h.dispatches k dispatch there).pending call (own ▸ here) live waiting
        rw [stands] at pending
        cases pending
      · obtain ⟨failure, closed, eq⟩ := returned result stands live k other error old own attempt due
        exact ⟨failure, closes _ _ closed, eq⟩
  · rcases back at_k with ⟨rfl, rfl⟩ | old
    · exact fits
    · obtain ⟨codec, awaits, pending, finished⟩ := h.dispatches k other old
      rw [← calls] at pending finished
      refine ⟨codec, awaits, pending, fun call verdict result error here live stands due => ?_⟩
      obtain ⟨failure, closed, eq⟩ := finished call verdict result error here live stands due
      exact ⟨failure, closes _ _ closed, eq⟩

theorem Answering.send {request : LeaseRequest} {phase : CallPhase} {new : Dispatch}
    (h : r.Answering) (here : r.calls[c]? = some call) (leasing : call.phase = .leasing request)
    (calls : t.calls = r.calls.set c { call with phase })
    (dispatches : t.dispatches = r.dispatches ++ [new]) (own : new.call = c)
    (closes : ∀ entry failure, r.ClosedWith entry failure → t.ClosedWith entry failure)
    (fits : t.CallAnswers c { call with phase })
    (answers : t.DispatchAnswers r.dispatches.length new) : t.Answering := by
  have forth {k : Nat} {other : Dispatch} (at_k : r.dispatches[k]? = some other) :
      t.dispatches[k]? = some other := by
    rw [dispatches]
    exact getElem?_concat_iff.mpr (.inl at_k)
  refine ⟨fun k other at_k => ?_, fun k other at_k => ?_⟩
  · rw [calls] at at_k
    rcases (getElem?_set_iff here).mp at_k with ⟨rfl, rfl⟩ | ⟨apart, old⟩
    · exact fits
    · obtain ⟨undispatched, dispatched, returned, native⟩ := h.calls k other old
      refine ⟨fun entry awaitsClose cause stands => ?_, fun d stands => ?_,
        fun result stands live d made error at_d owner attempt due => ?_, native⟩
      · obtain ⟨awaits, linked⟩ := undispatched entry awaitsClose cause stands
        refine ⟨awaits, fun live => ?_⟩
        obtain ⟨d, made, at_d, rest⟩ := linked live
        exact ⟨d, made, forth at_d, rest⟩
      · obtain ⟨made, at_d, rest⟩ := dispatched d stands
        exact ⟨made, forth at_d, rest⟩
      · rw [dispatches] at at_d
        rcases getElem?_concat_iff.mp at_d with before | ⟨_, rfl⟩
        · obtain ⟨failure, closed, eq⟩ := returned result stands live d made error before owner attempt due
          exact ⟨failure, closes _ _ closed, eq⟩
        · exact absurd (owner.symm.trans own) apart
  · rw [dispatches] at at_k
    rcases getElem?_concat_iff.mp at_k with old | ⟨rfl, rfl⟩
    · obtain ⟨codec, awaits, pending, finished⟩ := h.dispatches k other old
      have before (later : Call) (now : t.calls[other.call]? = some later)
          (live : later.scope.reason = none) : ∃ earlier : Call,
          r.calls[other.call]? = some earlier ∧ earlier.scope.reason = none ∧
            ((other.call = c ∧ earlier = call) ∨ earlier = later) := by
        rw [calls] at now
        rcases (getElem?_set_iff here).mp now with ⟨same, rfl⟩ | ⟨_, unchanged⟩
        · exact ⟨call, same ▸ here, live, .inl ⟨same, rfl⟩⟩
        · exact ⟨later, unchanged, live, .inr rfl⟩
      refine ⟨codec, awaits, fun later now live waiting => ?_,
        fun later verdict result error now live stands due => ?_⟩
      · obtain ⟨earlier, there, quiet, same⟩ := before later now live
        have stands := pending earlier there quiet waiting
        rcases same with ⟨_, rfl⟩ | rfl
        · cases leasing.symm.trans stands
        · exact stands
      · obtain ⟨earlier, there, quiet, _⟩ := before later now live
        obtain ⟨failure, closed, eq⟩ := finished earlier verdict result error there quiet stands due
        exact ⟨failure, closes _ _ closed, eq⟩
    · exact answers

theorem callAnswers_returned {result : Except Thrown AbiResponseV1}
    (due : call.scope.reason = none → ∀ (d : Nat) (dispatch : Dispatch) (error : Thrown),
      r.dispatches[d]? = some dispatch → dispatch.call = c → dispatch.attempt = call.attempt →
        dispatch.phase.due = some error →
          ∃ failure, r.ClosedWith dispatch.entry failure ∧ result = .error (failure.getD error)) :
    r.CallAnswers c { call with phase := .returned result } := by
  refine ⟨nofun, nofun, ?_, ?_⟩
  · intro other phase
    cases phase
    exact due
  · intro adapts
    rcases adapts with ⟨x, phase⟩ | ⟨result, phase⟩
    · cases phase
    · cases phase

theorem callAnswers_dispatched {d : Nat} (there : r.dispatches[d]? = some dispatch)
    (own : dispatch.call = c) (attempt : dispatch.attempt = call.attempt) :
    r.CallAnswers c { call with phase := .dispatched d } := by
  refine ⟨nofun, ?_, nofun, ?_⟩
  · intro other phase
    cases phase
    exact ⟨dispatch, there, own, attempt⟩
  · intro adapts
    rcases adapts with ⟨x, phase⟩ | ⟨result, phase⟩
    · cases phase
    · cases phase

theorem callAnswers_undispatched {entry : Nat} {awaitsClose : Bool} {cause : Thrown} (awaits : awaitsClose = true)
    (linked : call.scope.reason = none → ∃ (d : Nat) (dispatch : Dispatch),
      r.dispatches[d]? = some dispatch ∧ dispatch.call = c ∧ dispatch.attempt = call.attempt ∧
        dispatch.phase = .threw cause ∧ dispatch.entry = entry) :
    r.CallAnswers c { call with phase := .undispatched entry awaitsClose cause } := by
  refine ⟨?_, nofun, nofun, ?_⟩
  · intro other awaitsOther cause' phase
    cases phase
    exact ⟨awaits, linked⟩
  · intro adapts
    rcases adapts with ⟨x, phase⟩ | ⟨result, phase⟩
    · cases phase
    · cases phase

theorem dispatchAnswers_new {d : Nat}
    (unanswered : dispatch.phase = .running ∨ ∃ cause, dispatch.phase = .threw cause)
    (pending : ∀ call : Call, r.calls[dispatch.call]? = some call → call.scope.reason = none →
      dispatch.phase.done = false → call.phase = .dispatched d) : r.DispatchAnswers d dispatch := by
  have releasing : ∀ verdict awaitsClose, dispatch.phase ≠ .releasing verdict awaitsClose := by
    intro verdict awaitsClose phase
    rcases unanswered with same | ⟨cause, same⟩
    · cases same.symm.trans phase
    · cases same.symm.trans phase
  have finished : ∀ verdict result, dispatch.phase ≠ .finished verdict result := by
    intro verdict result phase
    rcases unanswered with same | ⟨cause, same⟩
    · cases same.symm.trans phase
    · cases same.symm.trans phase
  refine ⟨?_, fun verdict awaitsClose phase => absurd phase (releasing _ _), pending,
    fun _ verdict result _ _ _ phase => absurd phase (finished _ _)⟩
  intro cause malformed
  rcases malformed with ⟨awaitsClose, phase⟩ | ⟨result, phase⟩
  · exact absurd phase (releasing _ _)
  · exact absurd phase (finished _ _)

theorem callAnswers_unsent (numbered : r.Numbered) (here : r.calls[c]? = some call)
    (unsent : call.phase.unsent = true) (result : Except Thrown AbiResponseV1) :
    r.CallAnswers c { call with phase := .returned result } := by
  apply callAnswers_returned
  intro _ d dispatch error there own attempt
  subst own
  have made := numbered.dispatches d dispatch call there here
  rw [show dispatch.attempt = call.attempt from attempt] at made
  exact (Made.fresh unsent made).elim

theorem held_entry {request : LeaseRequest} {pool : InstancePool} {lease : InstanceLease}
    (leases : Leases r) (some_pool : r.pool = some pool)
    (found : pool.held.find? (fun l => l.ticket = request.ticket) = some lease) :
    decide (lease.entry ∈ pool.entryIds) = true := by
  have held := List.mem_of_find?_eq_some found
  simpa using (leases.booked pool some_pool).1.owned.present_of_held held

theorem Answering.resting (h : r.Answering)
    (closes : ∀ entry failure, r.ClosedWith entry failure → t.ClosedWith entry failure)
    (here : r.calls[c]? = some call) (calls : t.calls = r.calls.set c after)
    (dispatches : t.dispatches = r.dispatches) (scope : after.scope.reason = call.scope.reason)
    (before : ∀ d, call.phase ≠ .dispatched d) (fits : r.CallAnswers c after) : t.Answering :=
  h.setCall here calls dispatches closes (fun live => scope ▸ live) (fun _ d phase => absurd phase (before d)) fits

theorem answering_callMove (h : r.Answering) (leases : Leases r) (traced : r.Traced)
    (numbered : r.Numbered) (event : e = .resume c seams) (move : CallMove c seams r t) : t.Answering := by
  have closes (entry : Nat) (failure : Option Thrown) (closed : r.ClosedWith entry failure) :
      t.ClosedWith entry failure := closedWith_move leases (.call c seams event move) closed
  cases move with
  | note => exact h.same rfl rfl closes
  | begin call plan startedAt here after =>
    refine h.resting closes here rfl rfl rfl (fun d phase => ?_) (callAnswers_idle rfl)
    have runs := begins_runs after
    rw [phase] at runs
    cases runs
  | reject call cause here phase =>
    exact h.resting closes here rfl rfl rfl (by simp [phase]) (callAnswers_unsent numbered here (by rw [phase]; rfl) _)
  | acquire call plan pool requestJson state here phase =>
    exact h.resting closes here rfl rfl rfl (by simp [phase]) (callAnswers_idle rfl)
  | select call plan name adapter here phase native =>
    refine h.resting closes here rfl rfl rfl (by simp [phase]) ⟨?_, ?_, ?_, fun _ => ⟨name, native⟩⟩
    · intro entry awaitsClose cause stands
      cases aborted : call.scope.reason <;> simp [aborted] at stands
    · intro d stands
      cases aborted : call.scope.reason <;> simp [aborted] at stands
    · intro result stands
      cases aborted : call.scope.reason <;> simp [aborted] at stands
  | refuseLease call request pool w cause here phase =>
    exact h.resting closes here rfl rfl rfl (by simp [phase]) (callAnswers_unsent numbered here (by rw [phase]; rfl) _)
  | undispatch call request pool lease reason here phase some_pool found aborted =>
    refine h.resting closes here rfl rfl rfl (by simp [phase])
      (callAnswers_undispatched (held_entry leases some_pool found) fun live => ?_)
    rw [aborted] at live
    cases live
  | threw call request pool lease fault here phase some_pool found live =>
    refine h.send here phase rfl rfl rfl closes
      (callAnswers_undispatched (held_entry leases some_pool found) fun _ => ?_)
      (dispatchAnswers_new (.inr ⟨_, rfl⟩) fun _ _ _ waiting => (by cases waiting))
    exact ⟨r.dispatches.length, _, getElem?_concat_iff.mpr (.inr ⟨rfl, rfl⟩), rfl, rfl, rfl, rfl⟩
  | dispatch call request pool lease here phase some_pool found live =>
    refine h.send here phase rfl rfl rfl closes
      (callAnswers_dispatched (getElem?_concat_iff.mpr (.inr ⟨rfl, rfl⟩)) rfl rfl)
      (dispatchAnswers_new (.inl rfl) fun other at_call _ _ => ?_)
    have same : some { call with phase := .dispatched r.dispatches.length } = some other :=
      (putCall_here here _).symm.trans at_call
    cases same
    rfl
  | released call entry awaitsClose cause failure here phase outcome =>
    refine h.resting closes here rfl rfl rfl (by simp [phase]) (callAnswers_returned ?_)
    intro live d dispatch error there own attempt due
    obtain ⟨awaits, linked⟩ := (h.calls c call here).undispatched entry awaitsClose cause phase
    obtain ⟨k, made, at_k, owner, number, threw, same⟩ := linked live
    have one : d = k := numbered.dispatchOnce d k dispatch made there at_k
      (own.trans owner.symm) (attempt.trans number.symm)
    subst one
    cases there.symm.trans at_k
    rw [threw] at due
    cases due
    refine ⟨failure, ?_, rfl⟩
    subst awaits
    rw [same]
    exact closedWith_of_outcome outcome
  | adapted call result response here phase =>
    refine h.resting closes here rfl rfl rfl (by simp [phase]) (callAnswers_returned ?_)
    intro live d dispatch error there own
    obtain ⟨name, native⟩ := (h.calls c call here).native (.inr ⟨result, phase⟩)
    obtain ⟨other, at_call, _, component, _⟩ := traced.dispatches d dispatch there
    rw [own, here] at at_call
    cases at_call
    rw [native] at component
    cases component
  | backOff call plan cause here planned origin =>
    refine h.resting closes here rfl rfl rfl (fun d phase => ?_) (callAnswers_idle ?_)
    · have runs := origin_runs origin
      rw [phase] at runs
      cases runs
    · cases call.scope.reason <;> rfl
  | finish call outcome here runs =>
    refine h.resting closes here (finish_calls c call outcome) (finish_frame c call outcome).2.2.2.2.1 rfl
      (fun d phase => ?_) (callAnswers_idle rfl)
    rw [phase] at runs
    cases runs

theorem callAnswers_interrupted (h : r.CallAnswers c call) (reason : WasmRuntimeError) :
    r.CallAnswers c { call with
      scope := { call.scope with reason := some reason }
      phase := call.phase.interrupted reason } := by
  refine ⟨fun entry awaitsClose cause stands => ⟨?_, nofun⟩, fun d stands => ?_,
    nofun, fun adapts => h.native ?_⟩
  · cases phase : call.phase with
    | undispatched entry awaits before =>
      simp only [phase, interrupted] at stands
      cases stands
      exact (h.undispatched entry awaitsClose cause phase).1
    | _ => simp [phase, interrupted] at stands
  · cases phase : call.phase <;> simp [phase, interrupted] at stands
  · rcases adapts with ⟨x, stands⟩ | ⟨result, stands⟩
    · cases phase : call.phase with
      | adapting y => exact .inl ⟨y, rfl⟩
      | _ => simp [phase, interrupted] at stands
    · cases phase : call.phase with
      | adapting y => exact .inl ⟨y, rfl⟩
      | adapted before => exact .inr ⟨before, rfl⟩
      | _ => simp [phase, interrupted] at stands

theorem verdict_codec {outcome : Except Thrown JsString} {reason : Option WasmRuntimeError}
    {cause : Thrown} (malformed : dispatch.verdict outcome reason = .malformed cause) : cause.IsCodec := by
  unfold Dispatch.verdict at malformed
  split at malformed
  · cases malformed
  · cases malformed
  · next json =>
    split at malformed
    · next other failed =>
      cases malformed
      exact parseAbiResponse_codec _ _ cause failed
    · cases malformed

theorem begins_idle (begins : call.Begins e) : call.phase.answering = false := by
  rcases begins.phase with entered | inert | ⟨_, _, _, _, _, _, rfl⟩
  · rw [entered]
    rfl
  · rcases inert.past with refused | ⟨_, outcome, settled⟩
    · rw [refused]
      rfl
    · rw [settled]
      rfl
  · rfl

theorem answering_move (h : r.Answering) (leases : Leases r) (traced : r.Traced)
    (numbered : r.Numbered) (move : RuntimeMove e r t) : t.Answering := by
  have closes (entry : Nat) (failure : Option Thrown) (closed : r.ClosedWith entry failure) :
      t.ClosedWith entry failure := closedWith_move leases move closed
  cases move with
  | call c seams event move => exact answering_callMove h leases traced numbered event move
  | wait c call here entered =>
    exact h.resting closes here rfl rfl rfl (by simp [entered]) (callAnswers_idle rfl)
  | giveUp c call outcome here entered =>
    exact h.resting closes here (finish_calls c call outcome) (finish_frame c call outcome).2.2.2.2.1 rfl
      (by simp [entered]) (callAnswers_idle rfl)
  | deliverLoad c call result here phase | wake c call delay result here phase =>
    exact h.resting closes here rfl rfl rfl (by simp [phase]) (callAnswers_idle rfl)
  | deliverExecution c call x result here phase =>
    refine h.resting closes here rfl rfl rfl (by simp [phase]) ⟨fun _ _ _ stands => (by cases stands),
      fun _ stands => (by cases stands), fun _ stands => (by cases stands), fun _ => ?_⟩
    exact (h.calls c call here).native (.inl ⟨x, phase⟩)
  | deliverDispatch c call d dispatch verdict result here phase there finished =>
    refine h.setCall here rfl rfl closes id (fun _ k waiting => ?_) (callAnswers_returned ?_)
    · cases phase.symm.trans waiting
      exact ⟨dispatch, there, by rw [finished]; rfl⟩
    · intro live k other error at_k own attempt due
      obtain ⟨made, at_d, owner, number⟩ := (h.calls c call here).dispatched d phase
      cases there.symm.trans at_d
      have one : k = d := numbered.dispatchOnce k d other dispatch at_k there
        (own.trans owner.symm) (attempt.trans number.symm)
      subst one
      cases there.symm.trans at_k
      rw [finished] at due
      exact (h.dispatches k dispatch there).finished call verdict result error (own ▸ here) live finished due
  | interrupt c call reason here listening first host =>
    have calls : (r.abortCall c reason).calls = r.calls.set c { call with
        scope := { call.scope with reason := some reason }
        phase := call.phase.interrupted reason } := by
      simp [abortCall, here, listening, first, putCall]
    refine h.setCall here calls (abortCall_frame c reason).2.2.2.1 closes (fun live => (by cases live))
      (fun live => (by cases live)) (callAnswers_interrupted (h.calls c call here) reason)
  | inert call inert =>
    exact h.addCall traced rfl rfl rfl (begins_idle (e := e) ⟨.inr (.inl inert), inert.unused⟩)
  | leak => exact h.addCall traced rfl rfl rfl rfl
  | enter call kind fresh | enterPreload call kind fresh =>
    exact h.addCall traced rfl rfl rfl (by rw [fresh.phase]; rfl)
  | settleDispatch d dispatch pool outcome event there some_pool running =>
    have waiting : dispatch.phase.done = false := by rw [running]; rfl
    refine h.setDispatch there waiting rfl rfl closes ⟨?_, ?_, ?_, ?_⟩
    · rintro cause (⟨awaitsClose, stands⟩ | ⟨result, stands⟩)
      · exact verdict_codec (DispatchPhase.releasing.inj stands).1
      · cases stands
    · intro verdict awaitsClose stands discards
      obtain ⟨same, rfl⟩ := DispatchPhase.releasing.inj stands
      obtain ⟨sound, booked⟩ := leases.booked pool some_pool
      have held := booked.running d dispatch there (by rw [running]; rfl)
      have present : dispatch.entry ∈ pool.entryIds := sound.owned.present_of_held held
      rw [same, discards]
      simpa using present
    · intro call here live _
      exact (h.dispatches d dispatch there).pending call here live waiting
    · intro call verdict result error _ _ stands
      cases stands
  | releaseDispatch d dispatch verdict awaitsClose failure there phase outcome =>
    have waiting : dispatch.phase.done = false := by rw [phase]; rfl
    refine h.setDispatch there waiting rfl rfl closes ⟨?_, ?_, ?_, ?_⟩
    · rintro cause (⟨awaits, stands⟩ | ⟨result, stands⟩)
      · cases stands
      · refine (h.dispatches d dispatch there).codec cause (.inl ⟨awaitsClose, ?_⟩)
        rw [phase, (DispatchPhase.finished.inj stands).1]
    · intro other awaits stands
      cases stands
    · intro call _ _ unsettled
      cases unsettled
    · intro call other result error here live stands due
      obtain ⟨rfl, rfl⟩ := DispatchPhase.finished.inj stands
      have awaits : awaitsClose = true :=
        (h.dispatches d dispatch there).awaits verdict awaitsClose phase (Verdict.discards_of_due due)
      have quiet : r.reasonOf dispatch.call = none := by
        have at_call : r.calls[dispatch.call]? = some call := here
        rw [reasonOf, at_call]
        exact live
      subst awaits
      refine ⟨failure, closes _ _ (closedWith_of_outcome outcome), ?_⟩
      rw [quiet]
      cases failure with
      | none => exact Verdict.result_of_due due
      | some failure => rfl
  | note | startLoad | succeed | verifyFails | poolReady | loadFails | execution | environment | shut
  | awaitCalls | await | closed | adapters | clearAdapters | signal | turn =>
    exact h.same rfl rfl closes

theorem answering_step (h : r.Answering) (leases : Leases r) (traced : r.Traced)
    (numbered : r.Numbered) (stepped : r.step e = some t) : t.Answering := by
  have keep (p q : GoforgeWasmRuntime)
      (h : p.Answering ∧ Leases p ∧ p.Traced ∧ p.Numbered) (move : RuntimeMove e p q) :
      q.Answering ∧ Leases q ∧ q.Traced ∧ q.Numbered := by
    obtain ⟨answering, leases, traced, numbered⟩ := h
    exact ⟨answering_move answering leases traced numbered move, leases_move leases move,
      traced_move traced move, numbered_move numbered traced move⟩
  exact ((step_moves stepped).invariant keep ⟨h, leases, traced, numbered⟩).1

theorem answering_fresh (h : r.Fresh) : r.Answering := by
  refine ⟨fun c call here => ?_, fun d dispatch there => ?_⟩
  · simp [h.calls] at here
  · simp [h.dispatches] at there

end GoforgeWasmRuntime

theorem runtime_answering {r : GoforgeWasmRuntime} (h : runtimeMachine.Reachable r) : r.Answering := by
  have all : runtimeMachine.Reachable r ∧ r.Answering := by
    refine h.invariant (I := fun r => runtimeMachine.Reachable r ∧ r.Answering) ?_ ?_
    · rintro r ⟨options, constructed⟩
      exact ⟨.start ⟨options, constructed⟩,
        GoforgeWasmRuntime.answering_fresh (GoforgeWasmRuntime.new_fresh constructed)⟩
    · rintro r e t ⟨reachable, answering⟩ stepped
      exact ⟨reachable.next stepped, GoforgeWasmRuntime.answering_step answering
        (runtime_leases reachable) (runtime_traced reachable) (runtime_numbered reachable) stepped⟩
  exact all.2

end ForgeDeno
