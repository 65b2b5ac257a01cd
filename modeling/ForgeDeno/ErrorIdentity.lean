import ForgeDeno.CleanupErrors
import ForgeDeno.EventTraces

namespace ForgeDeno

open Option ListRules

def DispatchPhase.verdict : DispatchPhase → Option Verdict
  | .releasing verdict _ | .finished verdict _ => some verdict
  | _ => none

theorem due_stands {r : GoforgeWasmRuntime} (answering : r.Answering) {d : Nat} {dispatch : Dispatch}
    (there : r.dispatches[d]? = some dispatch) {error : Thrown} (due : dispatch.phase.due = some error)
    (target : WasmExecutionTarget) : normalizeCallError error target none = error ∧
      r.retry.isSafeTransient error = false := by
  have kept {cause : Thrown} {known : WasmRuntimeError} (raised : cause.runtime? = some known) :
      normalizeCallError cause target none = cause := by
    unfold normalizeCallError
    rw [raised]
  have judged {verdict : Verdict} (due : verdict.due = some error)
      (codec : ∀ cause, verdict = .malformed cause → cause.IsCodec) :
      normalizeCallError error target none = error ∧ r.retry.isSafeTransient error = false := by
    cases verdict with
    | rejected cause =>
      cases due
      exact ⟨kept rfl, unsafe_invocationFailure _⟩
    | malformed cause =>
      cases due
      obtain ⟨known, raised, cls⟩ := codec _ rfl
      exact ⟨kept raised, unsafe_codec ⟨known, raised, cls⟩⟩
    | aborted | wellFormed => cases due
  have answers := answering.dispatches d dispatch there
  cases phase : dispatch.phase with
  | threw cause =>
    rw [phase] at due
    cases due
    exact ⟨kept rfl, unsafe_invocationFailure _⟩
  | running =>
    rw [phase] at due
    cases due
  | releasing verdict awaitsClose =>
    rw [phase] at due
    exact judged due fun cause same => answers.codec cause (.inl ⟨awaitsClose, same ▸ phase⟩)
  | finished verdict result =>
    rw [phase] at due
    exact judged due fun cause same => answers.codec cause (.inr ⟨result, same ▸ phase⟩)

namespace GoforgeWasmRuntime

variable {r t : GoforgeWasmRuntime} {e : RuntimeEvent} {c : Nat} {call after : Call} {seams : Seams}
  {plan : CallPlan}

theorem finish_dispatches (outcome : Except Thrown JsValue) :
    (r.finish c call outcome).dispatches = r.dispatches :=
  (finish_frame c call outcome).2.2.2.2.1

theorem attemptFailed_dispatches (plan : CallPlan) (cause : Thrown) :
    (r.attemptFailed c call plan cause seams).dispatches = r.dispatches := by
  unfold attemptFailed
  simp only
  split
  · exact finish_dispatches _
  · split_ifs
    · exact finish_dispatches _
    · split
      · exact finish_dispatches _
      · split
        · exact finish_dispatches _
        · rfl

theorem attemptSucceeded_dispatches (plan : CallPlan) (value : JsValue) :
    (r.attemptSucceeded c call plan value seams).dispatches = r.dispatches := by
  unfold attemptSucceeded
  simp only
  split
  · exact attemptFailed_dispatches plan _
  · exact finish_dispatches _

theorem startAttempt_dispatches (plan : CallPlan) :
    (r.startAttempt c call plan seams).dispatches = r.dispatches := by
  unfold startAttempt
  split
  · exact finish_dispatches _
  · simp only
    split
    · split
      · exact attemptFailed_dispatches plan _
      · split
        · exact attemptFailed_dispatches plan _
        · unfold invokeComponent
          split
          · rfl
          · split_ifs
            · split <;> rfl
            · rfl
    · unfold invokeAdapter
      split <;> rfl

theorem resumeLoaded_dispatches (result : Except Thrown WasmBundleManifestV1) :
    (r.resumeLoaded c call result seams).dispatches = r.dispatches := by
  unfold resumeLoaded
  split
  · exact finish_dispatches _
  · exact finish_dispatches _
  · split
    · exact finish_dispatches _
    · exact startAttempt_dispatches _

theorem resumeSlept_dispatches (result : Except Thrown Unit) :
    (r.resumeSlept c call plan result seams).dispatches = r.dispatches := by
  unfold resumeSlept
  split
  · exact finish_dispatches _
  · split_ifs
    · exact startAttempt_dispatches plan
    · exact finish_dispatches _

theorem resumeReturned_dispatches (result : Except Thrown AbiResponseV1) :
    (r.resumeReturned c call plan result seams).dispatches = r.dispatches := by
  unfold resumeReturned
  split
  · exact attemptSucceeded_dispatches plan _
  · exact attemptFailed_dispatches plan _
  · exact attemptFailed_dispatches plan _

theorem attemptFailed_settles (steady : seams.Steady) {cause : Thrown} (final : r.retry.isSafeTransient
      (normalizeCallError cause call.options.route call.scope.reason) = false) :
    (r.attemptFailed c call plan cause seams).calls = r.calls.set c { call with
      phase := .settled (.error (normalizeCallError cause call.options.route call.scope.reason)),
      scope := { call.scope with disposed := true } } := by
  unfold attemptFailed
  simp only [timed_steady steady, final, Bool.and_false, Bool.not_false, if_true]
  exact finish_calls c call _

theorem resume_dispatches (here : r.calls[c]? = some call) (h : r.resume c seams = some t) :
    t.dispatches = r.dispatches ∨ ∃ (request : LeaseRequest) (new : Dispatch),
      call.phase = .leasing request ∧ t.dispatches = r.dispatches ++ [new] ∧ new.call = c ∧
        new.attempt = call.attempt := by
  unfold resume at h
  rw [here, bind_eq_bind, bind_some] at h
  split at h
  · cases h
    exact .inl (resumeLoaded_dispatches _)
  · next request phase =>
    unfold resumeLeasing at h
    obtain ⟨pool, some_pool, h⟩ := bind_eq_some_iff.mp h
    split at h
    · split at h
      · cases h
        exact .inl rfl
      · simp only at h
        split at h
        · cases h
          exact .inr ⟨request, _, phase, rfl, rfl, rfl⟩
        · cases h
          exact .inr ⟨request, _, phase, rfl, rfl, rfl⟩
    · split at h
      · cases h
        exact .inl rfl
      · cases h
  · unfold resumeUndispatched at h
    obtain ⟨failure, _, h⟩ := bind_eq_some_iff.mp h
    cases h
    exact .inl rfl
  · cases h
    exact .inl rfl
  · cases h
    exact .inl (resumeReturned_dispatches _)
  · cases h
    exact .inl (resumeSlept_dispatches _)
  · cases h

theorem resume_attempting (here : r.calls[c]? = some call) (h : r.resume c seams = some t)
    (attempting : call.phase.attempting = true) (pending : ∀ result, call.phase ≠ .returned result) :
    ∃ phase : CallPhase, phase.attempting = true ∧ t.calls = r.calls.set c { call with phase } := by
  unfold resume at h
  rw [here, bind_eq_bind, bind_some] at h
  split at h
  · next result phase =>
    rw [phase] at attempting
    cases attempting
  · unfold resumeLeasing at h
    obtain ⟨pool, some_pool, h⟩ := bind_eq_some_iff.mp h
    split at h
    · split at h
      · cases h
        exact ⟨_, rfl, rfl⟩
      · simp only at h
        split at h
        · cases h
          exact ⟨_, rfl, rfl⟩
        · cases h
          exact ⟨_, rfl, rfl⟩
    · split at h
      · cases h
        exact ⟨_, rfl, rfl⟩
      · cases h
  · unfold resumeUndispatched at h
    obtain ⟨failure, _, h⟩ := bind_eq_some_iff.mp h
    cases h
    exact ⟨_, rfl, rfl⟩
  · cases h
    exact ⟨_, rfl, rfl⟩
  · next result plan phase planned => exact absurd phase (pending result)
  · next result plan phase planned =>
    rw [phase] at attempting
    cases attempting
  · cases h

theorem resume_returned (steady : seams.Steady) {cause : Thrown} (here : r.calls[c]? = some call)
    (h : r.resume c seams = some t) (phase : call.phase = .returned (.error cause))
    (final : r.retry.isSafeTransient (normalizeCallError cause call.options.route call.scope.reason) = false) :
    t.calls = r.calls.set c { call with
      phase := .settled (.error (normalizeCallError cause call.options.route call.scope.reason)),
      scope := { call.scope with disposed := true } } := by
  unfold resume at h
  rw [here, bind_eq_bind, bind_some] at h
  split at h
  · next stands => cases phase.symm.trans stands
  · next stands => cases phase.symm.trans stands
  · next stands => cases phase.symm.trans stands
  · next stands => cases phase.symm.trans stands
  · next result plan stands planned =>
    cases phase.symm.trans stands
    cases h
    exact attemptFailed_settles steady final
  · next stands _ => cases phase.symm.trans stands
  · cases h

/-- No `close()` of the dispatch's instance has failed. -/
def Unfailed (r : GoforgeWasmRuntime) (dispatch : Dispatch) : Prop :=
  ∀ failure, ¬r.ClosedWith dispatch.entry (some failure)

/-- Where a call stands after a dispatch of it that has called for an error: in the same attempt, or
settled with that error. -/
def Standing (r : GoforgeWasmRuntime) : Prop :=
  ∀ (d : Nat) (dispatch : Dispatch) (error : Thrown) (call : Call), r.dispatches[d]? = some dispatch →
    dispatch.phase.due = some error → r.calls[dispatch.call]? = some call →
      call.scope.reason = none → r.Unfailed dispatch → dispatch.attempt = call.attempt ∧
        (call.phase.attempting = true ∨ call.phase = .settled (.error error))

theorem Standing.same (h : r.Standing) (calls : t.calls = r.calls) (dispatches : t.dispatches = r.dispatches)
    (closes : ∀ entry failure, r.ClosedWith entry failure → t.ClosedWith entry failure) : t.Standing := by
  intro d dispatch error call there due here live unfailed
  rw [dispatches] at there
  rw [calls] at here
  exact h d dispatch error call there due here live fun failure closed =>
    unfailed failure (closes _ _ closed)

theorem Standing.setCall (h : r.Standing) (here : r.calls[c]? = some call)
    (calls : t.calls = r.calls.set c after) (dispatches : t.dispatches = r.dispatches)
    (closes : ∀ entry failure, r.ClosedWith entry failure → t.ClosedWith entry failure)
    (live : after.scope.reason = none → call.scope.reason = none)
    (goes : after.scope.reason = none → (call.phase.attempting = true ∧ after.attempt = call.attempt ∧
        after.phase.attempting = true) ∨
      (call.phase.attempting = false ∧ ∀ error, call.phase ≠ .settled (.error error))) : t.Standing := by
  intro d dispatch error later there due at_call quiet unfailed
  rw [dispatches] at there
  rw [calls] at at_call
  have before : r.Unfailed dispatch := fun failure closed => unfailed failure (closes _ _ closed)
  rcases (getElem?_set_iff here).mp at_call with ⟨own, rfl⟩ | ⟨_, old⟩
  · obtain ⟨attempt, stands⟩ := h d dispatch error call there due (own ▸ here) (live quiet) before
    rcases goes quiet with ⟨_, same, attempting⟩ | ⟨resting, unsettled⟩
    · exact ⟨attempt.trans same.symm, .inl attempting⟩
    · rcases stands with attempting | settled
      · cases attempting.symm.trans resting
      · exact absurd settled (unsettled error)
  · exact h d dispatch error later there due old quiet before

theorem Standing.addCall (h : r.Standing) (traced : r.Traced) (added : t.calls = r.calls ++ [call])
    (dispatches : t.dispatches = r.dispatches)
    (closes : ∀ entry failure, r.ClosedWith entry failure → t.ClosedWith entry failure) : t.Standing := by
  intro d dispatch error later there due at_call quiet unfailed
  rw [dispatches] at there
  obtain ⟨own, here, _⟩ := traced.dispatches d dispatch there
  rw [added, List.getElem?_append_left (List.getElem?_eq_some_iff.mp here).1] at at_call
  exact h d dispatch error later there due at_call quiet fun failure closed =>
    unfailed failure (closes _ _ closed)

theorem Standing.setDispatch {d : Nat} {dispatch : Dispatch} {phase : DispatchPhase} (h : r.Standing)
    (there : r.dispatches[d]? = some dispatch) (calls : t.calls = r.calls)
    (dispatches : t.dispatches = r.dispatches.set d { dispatch with phase })
    (closes : ∀ entry failure, r.ClosedWith entry failure → t.ClosedWith entry failure)
    (fits : ∀ error, phase.due = some error → dispatch.phase.due = some error ∨
      ∀ call : Call, r.calls[dispatch.call]? = some call → call.scope.reason = none →
        dispatch.attempt = call.attempt ∧ call.phase.attempting = true) : t.Standing := by
  intro k other error call at_k due here live unfailed
  rw [dispatches] at at_k
  rw [calls] at here
  have before : r.Unfailed other := fun failure closed => unfailed failure (closes _ _ closed)
  rcases (getElem?_set_iff there).mp at_k with ⟨rfl, rfl⟩ | ⟨_, old⟩
  · rcases fits error due with earlier | waiting
    · exact h k dispatch error call there earlier here live before
    · obtain ⟨attempt, attempting⟩ := waiting call here live
      exact ⟨attempt, .inl attempting⟩
  · exact h k other error call old due here live before

theorem standing_move (h : r.Standing) (answering : r.Answering) (leases : Leases r) (traced : r.Traced)
    (move : RuntimeMove e r t) (awake : ∀ c seams, e ≠ .resume c seams) : t.Standing := by
  have closes (entry : Nat) (failure : Option Thrown) (closed : r.ClosedWith entry failure) :
      t.ClosedWith entry failure := closedWith_move leases move closed
  have within {c : Nat} {call : Call} {phase : CallPhase} (here : r.calls[c]? = some call)
      (calls : t.calls = r.calls.set c { call with phase }) (dispatches : t.dispatches = r.dispatches)
      (before : call.phase.attempting = true) (attempting : phase.attempting = true) : t.Standing :=
    h.setCall here calls dispatches closes id fun _ => .inl ⟨before, rfl, attempting⟩
  have resting {c : Nat} {call after : Call} (here : r.calls[c]? = some call)
      (calls : t.calls = r.calls.set c after) (dispatches : t.dispatches = r.dispatches)
      (scope : after.scope.reason = call.scope.reason) (idle : call.phase.attempting = false)
      (unsettled : ∀ error, call.phase ≠ .settled (.error error)) : t.Standing :=
    h.setCall here calls dispatches closes (fun live => scope ▸ live) fun _ => .inr ⟨idle, unsettled⟩
  cases move with
  | call c seams event => exact absurd event (awake c seams)
  | wait c call here entered =>
    exact resting here rfl rfl rfl (by rw [entered]; rfl) (by simp [entered])
  | giveUp c call outcome here entered =>
    exact resting here (finish_calls c call outcome) (finish_dispatches outcome) rfl
      (by rw [entered]; rfl) (by simp [entered])
  | deliverLoad c call result here phase | wake c call delay result here phase =>
    exact resting here rfl rfl rfl (by rw [phase]; rfl) (by simp [phase])
  | deliverDispatch c call d dispatch verdict result here phase
  | deliverExecution c call x result here phase =>
    exact within here rfl rfl (by rw [phase]; rfl) rfl
  | interrupt c call reason here listening first =>
    have calls : (r.abortCall c reason).calls = r.calls.set c { call with
        scope := { call.scope with reason := some reason }
        phase := call.phase.interrupted reason } := by
      simp [abortCall, here, listening, first, putCall]
    exact h.setCall here calls (abortCall_frame c reason).2.2.2.1 closes (fun live => by cases live)
      (fun live => by cases live)
  | inert call | leak | enter call | enterPreload call => exact h.addCall traced rfl rfl closes
  | settleDispatch d dispatch pool outcome event there some_pool running =>
    refine h.setDispatch there rfl rfl closes fun error _ => .inr fun call here live => ?_
    have waiting : dispatch.phase.done = false := by rw [running]; rfl
    have phase := (answering.dispatches d dispatch there).pending call here live waiting
    obtain ⟨made, at_d, _, attempt⟩ := (answering.calls dispatch.call call here).dispatched d phase
    cases there.symm.trans at_d
    exact ⟨attempt, by rw [phase]; rfl⟩
  | releaseDispatch d dispatch verdict awaitsClose failure there phase outcome =>
    refine h.setDispatch there rfl rfl closes fun error due => .inl ?_
    rw [phase]
    exact due
  | note | startLoad | succeed | verifyFails | poolReady | loadFails | execution | environment | shut
  | awaitCalls | await | closed | adapters | clearAdapters | signal | turn =>
    exact h.same rfl rfl closes

theorem resume_reason (here : r.calls[c]? = some call) (performed : r.resume c seams = some t)
    (later : t.calls[c]? = some after) : after.scope.reason = call.scope.reason := by
  have kept {s : GoforgeWasmRuntime} (calls : s.calls = r.calls) (moves : CallMoves c seams s t) :
      ∃ now : Call, t.calls[c]? = some now ∧ now.scope.reason = call.scope.reason := by
    refine moves.invariant (I := fun q => ∃ now : Call, q.calls[c]? = some now ∧
      now.scope.reason = call.scope.reason) (fun p q known move => ?_) ⟨call, calls ▸ here, rfl⟩
    obtain ⟨now, at_c, same⟩ := known
    rcases callMove_calls move with eq | ⟨before, next, old, eq, _, reason, _⟩
    · exact ⟨now, eq ▸ at_c, same⟩
    · cases at_c.symm.trans old
      exact ⟨next, eq ▸ (getElem?_set_iff old).mpr (.inl ⟨rfl, rfl⟩), reason.trans same⟩
  have found : ∃ now : Call, t.calls[c]? = some now ∧ now.scope.reason = call.scope.reason := by
    rcases resume_cases performed with ⟨own, plan, id, value, at_c, phase, planned, rfl⟩ | ⟨_, moves⟩
    · exact kept (s := { r with state := .ready, lastErrorCode := none }) rfl
        (attemptSucceeded_moves at_c phase planned)
    · exact kept rfl moves
  obtain ⟨now, at_c, same⟩ := found
  cases later.symm.trans at_c
  exact same

theorem resume_unsettled (here : r.calls[c]? = some call) (performed : r.resume c seams = some t)
    (outcome : Except Thrown JsValue) : call.phase ≠ .settled outcome := by
  intro settled
  unfold resume at performed
  rw [here, bind_eq_bind, bind_some] at performed
  simp [settled] at performed

theorem standing_resume (h : r.Standing) (answering : r.Answering) (steady : seams.Steady)
    (closes : ∀ entry failure, r.ClosedWith entry failure → t.ClosedWith entry failure)
    (performed : r.resume c seams = some t) : t.Standing := by
  obtain ⟨call, here⟩ := resume_here performed
  obtain ⟨after, marks, narrates, _⟩ := resume_conveys steady here performed
  intro d dispatch error later there due at_call quiet unfailed
  have before : r.Unfailed dispatch := fun failure closed => unfailed failure (closes _ _ closed)
  have earlier : r.dispatches[d]? = some dispatch ∨ ∃ request, call.phase = .leasing request ∧
      dispatch.call = c ∧ dispatch.attempt = call.attempt := by
    rcases resume_dispatches here performed with same | ⟨request, new, phase, added, own, attempt⟩
    · exact .inl (same ▸ there)
    · rw [added] at there
      rcases getElem?_concat_iff.mp there with old | ⟨_, rfl⟩
      · exact .inl old
      · exact .inr ⟨request, phase, own, attempt⟩
  by_cases own : dispatch.call = c
  · subst own
    have live : call.scope.reason = none := (resume_reason here performed at_call).symm.trans quiet
    have stood : dispatch.attempt = call.attempt ∧ call.phase.attempting = true := by
      rcases earlier with old | ⟨request, phase, _, attempt⟩
      · obtain ⟨attempt, stands⟩ := h d dispatch error call old due here live before
        exact ⟨attempt, stands.resolve_right (resume_unsettled here performed _)⟩
      · exact ⟨attempt, by rw [phase]; rfl⟩
    obtain ⟨attempt, attempting⟩ := stood
    by_cases pending : ∀ result, call.phase ≠ .returned result
    · obtain ⟨phase, within, calls⟩ := resume_attempting here performed attempting pending
      rw [calls] at at_call
      cases at_call.symm.trans ((getElem?_set_iff here).mpr (.inl ⟨rfl, rfl⟩))
      exact ⟨attempt, .inl within⟩
    · obtain ⟨result, phase⟩ := not_forall_not.mp pending
      have old : r.dispatches[d]? = some dispatch := by
        refine earlier.resolve_right fun ⟨request, leasing, _⟩ => ?_
        cases phase.symm.trans leasing
      -- the attempt has ended with the error that its dispatch has called for
      obtain ⟨failure, closed, ended⟩ :=
        (answering.calls dispatch.call call here).returned result phase live d dispatch error old rfl attempt due
      have clean : failure = none := by
        cases failure with
        | none => rfl
        | some failure => exact absurd closed (before failure)
      obtain ⟨same, final⟩ := due_stands answering old due call.options.route
      rw [clean, getD_none] at ended
      rw [ended] at phase
      have calls := resume_returned steady here performed phase (by rw [live, same]; exact final)
      rw [live, same] at calls
      rw [calls] at at_call
      cases at_call.symm.trans ((getElem?_set_iff here).mpr (.inl ⟨rfl, rfl⟩))
      exact ⟨attempt, .inr rfl⟩
  · have old : r.calls[dispatch.call]? = some later := by
      rw [narrates.calls] at at_call
      rcases (getElem?_set_iff here).mp at_call with ⟨same, _⟩ | ⟨_, old⟩
      · exact absurd same own
      · exact old
    have at_d : r.dispatches[d]? = some dispatch :=
      earlier.resolve_right fun ⟨_, _, same, _⟩ => own same
    exact h d dispatch error later at_d due old quiet before

theorem closedWith_moves (leases : Leases r) (moves : RuntimeMoves e r t) {entry : Nat}
    {failure : Option Thrown} (closed : r.ClosedWith entry failure) : t.ClosedWith entry failure := by
  have keep (p q : GoforgeWasmRuntime) (h : p.ClosedWith entry failure ∧ Leases p)
      (move : RuntimeMove e p q) : q.ClosedWith entry failure ∧ Leases q :=
    ⟨closedWith_move h.2 move h.1, leases_move h.2 move⟩
  exact (moves.invariant keep ⟨closed, leases⟩).1

def Telling (r : GoforgeWasmRuntime) : Prop :=
  ∀ (c : Nat) (call : Call), r.calls[c]? = some call → ∃ trace, call.Told trace

theorem telling_step (h : r.Telling) (steady : e.Steady) (stepped : r.step e = some t) : t.Telling := by
  by_cases resumes : ∃ c seams, e = .resume c seams
  · obtain ⟨c, seams, rfl⟩ := resumes
    obtain ⟨q, performed, rfl⟩ := map_eq_some_iff.mp stepped
    obtain ⟨call, here⟩ := resume_here performed
    obtain ⟨after, marks, narrates, fits⟩ := resume_conveys (steady.seams c seams rfl) here performed
    intro k other at_k
    have set : q.calls[k]? = some other := at_k
    rw [narrates.calls] at set
    rcases (getElem?_set_iff here).mp set with ⟨rfl, rfl⟩ | ⟨_, old⟩
    · obtain ⟨trace, told⟩ := h k call here
      exact ⟨_, fits trace told⟩
    · exact h k other old
  · have awake : ∀ c seams, e ≠ .resume c seams := fun c seams eq => resumes ⟨c, seams, eq⟩
    have passes := moves_passAll (step_moves stepped) awake steady.pause
    intro k other at_k
    cases before : r.calls[k]? with
    | none => exact ⟨[], passes.added k other at_k before⟩
    | some call =>
      obtain ⟨after, there, passed⟩ := passes.calls k call before
      cases at_k.symm.trans there
      obtain ⟨trace, told⟩ := h k call before
      exact ⟨trace, passed.told trace told⟩

theorem standing_step (h : r.Standing) (answering : r.Answering) (leases : Leases r) (traced : r.Traced)
    (numbered : r.Numbered) (steady : e.Steady) (stepped : r.step e = some t) : t.Standing := by
  by_cases resumes : ∃ c seams, e = .resume c seams
  · obtain ⟨c, seams, rfl⟩ := resumes
    have moves := step_moves stepped
    obtain ⟨q, performed, rfl⟩ := map_eq_some_iff.mp stepped
    have kept : q.Standing := standing_resume h answering (steady.seams c seams rfl)
      (fun _ _ closed => closedWith_moves leases (resume_moves performed) closed) performed
    exact kept.same rfl rfl fun _ _ closed => closedWith_move
      ((resume_moves performed).invariant (fun _ _ leases move => leases_move leases move) leases)
      (.turn (e := .resume c seams)) closed
  · have awake : ∀ c seams, e ≠ .resume c seams := fun c seams eq => resumes ⟨c, seams, eq⟩
    have keep (p q : GoforgeWasmRuntime)
        (h : p.Standing ∧ p.Answering ∧ Leases p ∧ p.Traced ∧ p.Numbered) (move : RuntimeMove e p q) :
        q.Standing ∧ q.Answering ∧ Leases q ∧ q.Traced ∧ q.Numbered := by
      obtain ⟨standing, answering, leases, traced, numbered⟩ := h
      exact ⟨standing_move standing answering leases traced move awake,
        answering_move answering leases traced numbered move, leases_move leases move,
        traced_move traced move, numbered_move numbered traced move⟩
    exact ((step_moves stepped).invariant keep ⟨h, answering, leases, traced, numbered⟩).1

theorem run_standing {es : List RuntimeEvent} (reachable : runtimeMachine.Reachable r)
    (standing : r.Standing) (telling : r.Telling) (steady : ∀ e ∈ es, e.Steady)
    (reached : runtimeMachine.run r es = some t) : t.Standing ∧ t.Telling := by
  induction es generalizing r with
  | nil =>
    cases reached
    exact ⟨standing, telling⟩
  | cons e es ih =>
    obtain ⟨s, stepped, reached⟩ := LabelledMachine.run_cons_some reached
    have calm := steady e List.mem_cons_self
    refine ih (reachable.next stepped) ?_ (telling_step telling calm stepped)
      (fun f mem => steady f (List.mem_cons_of_mem e mem)) reached
    exact standing_step standing (runtime_answering reachable) (runtime_leases reachable)
      (runtime_traced reachable) (runtime_numbered reachable) calm stepped

structure KeepsErrors (r : GoforgeWasmRuntime) : Prop where
  malformed : ∀ (d : Nat) (dispatch : Dispatch) (call : Call) (cause : Thrown) (outcome : Except Thrown JsValue),
    r.dispatches[d]? = some dispatch → dispatch.phase.verdict = some (.malformed cause) →
      r.calls[dispatch.call]? = some call → call.scope.reason = none → call.phase = .settled outcome →
        outcome = .error cause ∧ cause.IsCodec
  failed : ∀ (d : Nat) (dispatch : Dispatch) (call : Call) (cause : Thrown) (outcome : Except Thrown JsValue),
    r.dispatches[d]? = some dispatch →
      (dispatch.phase = .threw cause ∨ dispatch.phase.verdict = some (.rejected cause)) →
        r.calls[dispatch.call]? = some call → call.scope.reason = none → call.phase = .settled outcome →
          outcome = .error (invocationFailure cause)
  aborted : ∀ (c : Nat) (call : Call) (reason : WasmRuntimeError) (error : Thrown),
    r.calls[c]? = some call → call.scope.reason = some reason → call.attempt ≠ 0 →
      call.phase = .settled (.error error) → error = .wasm reason

/-- No `close()` fails of an instance whose dispatch has called for an error, while the call of the
dispatch is not aborted. -/
def ClosesCleanly (r : GoforgeWasmRuntime) : Prop :=
  ∀ (d : Nat) (dispatch : Dispatch) (call : Call), r.dispatches[d]? = some dispatch →
    dispatch.phase.due ≠ none → r.calls[dispatch.call]? = some call → call.scope.reason = none →
      r.Unfailed dispatch

theorem keepsErrors (standing : r.Standing) (telling : r.Telling) (answering : r.Answering)
    (clean : r.ClosesCleanly) : r.KeepsErrors := by
  have settles {d : Nat} {dispatch : Dispatch} {call : Call} {error : Thrown}
      {outcome : Except Thrown JsValue} (there : r.dispatches[d]? = some dispatch)
      (due : dispatch.phase.due = some error) (here : r.calls[dispatch.call]? = some call)
      (live : call.scope.reason = none) (settled : call.phase = .settled outcome) : outcome = .error error := by
    have unfailed := clean d dispatch call there (by simp [due]) here live
    obtain ⟨_, stands⟩ := standing d dispatch error call there due here live unfailed
    rcases stands with attempting | ended
    · rw [settled] at attempting
      cases attempting
    · cases settled.symm.trans ended
      rfl
  have due_of {dispatch : Dispatch} {verdict : Verdict} (judged : dispatch.phase.verdict = some verdict) :
      dispatch.phase.due = verdict.due := by
    cases phase : dispatch.phase with
    | threw | running =>
      rw [phase] at judged
      cases judged
    | releasing | finished =>
      rw [phase] at judged
      cases judged
      rfl
  constructor
  · intro d dispatch call cause outcome there judged here live settled
    refine ⟨settles there (due_of judged) here live settled, ?_⟩
    have codec := (answering.dispatches d dispatch there).codec cause
    cases phase : dispatch.phase with
    | threw | running =>
      rw [phase] at judged
      cases judged
    | releasing verdict awaitsClose =>
      rw [phase] at judged
      cases judged
      exact codec (.inl ⟨awaitsClose, phase⟩)
    | finished verdict result =>
      rw [phase] at judged
      cases judged
      exact codec (.inr ⟨result, phase⟩)
  · intro d dispatch call cause outcome there ended here live settled
    rcases ended with phase | judged
    · exact settles there (by rw [phase]; rfl) here live settled
    · exact settles there (due_of judged) here live settled
  · intro c call reason error here aborted begun settled
    obtain ⟨trace, told⟩ := telling c call here
    cases told with
    | unstarted attempt => exact absurd attempt begun
    | attempting phase =>
      rw [settled] at phase
      cases phase
    | paused phase =>
      rw [settled] at phase
      cases phase
    | succeeded value front phase => cases settled.symm.trans phase
    | failed other phase _ _ stopped =>
      cases settled.symm.trans phase
      exact stopped reason aborted
    | aborted other phase stopped =>
      cases settled.symm.trans phase
      rw [Option.some.inj (aborted.symm.trans stopped)]

end GoforgeWasmRuntime

open GoforgeWasmRuntime

/-- The errors of the calls stand in every run in which no `close()` after a failed dispatch fails. -/
theorem call_errors_kept {r t : GoforgeWasmRuntime} {es : List RuntimeEvent}
    (start : runtimeMachine.start r) (reached : runtimeMachine.run r es = some t)
    (steady : ∀ e ∈ es, e.Steady) (clean : t.ClosesCleanly) : t.KeepsErrors := by
  obtain ⟨options, constructed⟩ := start
  have fresh := new_fresh constructed
  have standing : r.Standing := by
    intro d dispatch error call there
    simp [fresh.dispatches] at there
  have telling : r.Telling := by
    intro c call here
    simp [fresh.calls] at here
  obtain ⟨stands, tells⟩ := run_standing (.start ⟨options, constructed⟩) standing telling steady reached
  exact keepsErrors stands tells (runtime_answering ⟨r, es, ⟨options, constructed⟩, reached⟩) clean

/-- A call whose answer is no JSON, and then the `close()` of its instance. -/
def discardedRun (failure : Option Thrown) : List RuntimeEvent :=
  [.invoke (js "crypto.sha256") .null .empty .calm,
    .loadThen (.ok (.offering (js "crypto.sha256") true)) .calm, .deliver 0, .resume 0 .calm,
    .instanceCreated 1, .resume 0 .calm, .dispatchSettles 0 (.ok (js "pong")), .instanceClosed 1 failure,
    .dispatchReleased 0, .deliver 0, .resume 0 .calm]

theorem discardedRun_steady (failure : Option Thrown) : ∀ e ∈ discardedRun failure, e.Steady := by
  have calm : Seams.calm.Steady := ⟨fun _ => rfl, rfl⟩
  intro e mem
  simp only [discardedRun, List.mem_cons, List.not_mem_nil, or_false] at mem
  constructor
  · intro c seams same
    rw [same] at mem
    simp only [reduceCtorEq, RuntimeEvent.resume.injEq, false_or] at mem
    obtain ⟨_, same⟩ : c = 0 ∧ seams = .calm := by tauto
    rw [same]
    exact calm
  · intro c result same
    rw [same] at mem
    simp at mem

def DispatchPhase.isMalformed : DispatchPhase → Bool
  | .finished (.malformed _) _ => true
  | _ => false

/-- An instance that closes well: the call ends with the codec error. -/
theorem discarded_cleanly : ∃ r t, runtimeMachine.start r ∧ runtimeMachine.run r (discardedRun none) = some t ∧
    t.KeepsErrors ∧ ∃ call error, t.calls[0]? = some call ∧ call.phase.failure? = some error ∧
      error.runtime?.map WasmRuntimeError.cls = some .codec := by
  have shows : (GoforgeWasmRuntimeOptions.defaults fun _ => 0).shows (discardedRun none) (fun t =>
      t.pool.all (fun pool => pool.settledCloses.all fun record => record.failure.isNone) &&
      (t.calls[0]?).any fun call => call.phase.failure?.any fun error =>
        error.runtime?.map WasmRuntimeError.cls = some .codec) = true := by decide +kernel
  obtain ⟨r, t, constructed, reached, shown⟩ := run_of_shows shows
  simp only [Bool.and_eq_true, Option.any_eq_true, decide_eq_true_eq] at shown
  obtain ⟨closes, call, here, error, failed, cls⟩ := shown
  have clean : t.ClosesCleanly := by
    intro d dispatch call there due here live failure closed
    obtain ⟨pool, record, some_pool, mem, _, failed⟩ := closed
    rw [some_pool, Option.all_some, List.all_eq_true] at closes
    have well := closes record mem
    rw [failed] at well
    cases well
  exact ⟨r, t, ⟨_, constructed⟩, reached,
    call_errors_kept ⟨_, constructed⟩ reached (discardedRun_steady none) clean,
    call, error, here, failed, cls⟩

/-- An instance whose `close()` fails: the failure takes the place of the codec error. -/
theorem failing_close_replaces : ∃ r t, runtimeMachine.start r ∧
    runtimeMachine.run r (discardedRun (some (.foreign 7))) = some t ∧
    (∀ e ∈ discardedRun (some (.foreign 7)), e.Steady) ∧
    (t.calls[0]?).map (fun call => call.phase.failure?) = some (some (invocationFailure (.foreign 7))) ∧
    ¬t.KeepsErrors := by
  have shows : (GoforgeWasmRuntimeOptions.defaults fun _ => 0).shows (discardedRun (some (.foreign 7)))
      (fun t => (t.dispatches[0]?).any (fun dispatch => dispatch.call = 0 && dispatch.phase.isMalformed) &&
        (t.calls[0]?).any (fun call => call.scope.reason.isNone) &&
        (t.calls[0]?).map (fun call => call.phase.failure?) =
          some (some (invocationFailure (.foreign 7)))) = true := by decide +kernel
  obtain ⟨r, t, constructed, reached, shown⟩ := run_of_shows shows
  simp only [Bool.and_eq_true, Option.any_eq_true, decide_eq_true_eq] at shown
  obtain ⟨⟨⟨dispatch, there, own, malformed⟩, call, here, live⟩, failed⟩ := shown
  refine ⟨r, t, ⟨_, constructed⟩, reached, discardedRun_steady _, failed, ?_⟩
  intro kept
  have ended : call.phase.failure? = some (invocationFailure (.foreign 7)) := by
    rw [here] at failed
    exact Option.some.inj failed
  have settled := CallPhase.failure?_eq.mp ended
  have judged : ∃ cause, dispatch.phase.verdict = some (.malformed cause) := by
    cases phase : dispatch.phase with
    | finished verdict result =>
      rw [phase] at malformed
      cases verdict with
      | malformed cause => exact ⟨cause, rfl⟩
      | _ => cases malformed
    | _ =>
      rw [phase] at malformed
      cases malformed
  obtain ⟨cause, judged⟩ := judged
  obtain ⟨same, error, raised, codec⟩ := kept.malformed 0 dispatch call cause _ there judged
    (own ▸ here) (Option.isNone_iff_eq_none.mp live) settled
  cases same
  cases raised
  cases codec

end ForgeDeno
