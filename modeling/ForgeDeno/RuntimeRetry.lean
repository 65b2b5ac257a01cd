import ForgeDeno.AbiCatalog
import ForgeDeno.RuntimeAttempts
import ForgeDeno.RuntimeTaint

namespace ForgeDeno

open ListRules List Option

/-- What `#isSafeTransient` asks of an error. -/
structure WasmRetryPolicy.Transient (retry : WasmRetryPolicy) (error : WasmRuntimeError) : Prop where
  guest : error.cls = .guest
  deadline : error.code ≠ js "deadline_exceeded"
  cancellation : error.code ≠ js "cancellation_requested"
  retryable : error.retryable = true
  listed : error.code ∈ retry.transientCodes

def WasmRetryPolicy.Harmless (retry : WasmRetryPolicy) : Except Thrown AbiResponseV1 → Prop
  | .error cause => retry.isSafeTransient cause = false
  | .ok (.failure _ error) => retry.isSafeTransient
      (.wasm (wasmGuestError error.code error.message error.retryable error.field)) = false
  | .ok (.success _ _) => True

def DispatchPhase.Harmless (retry : WasmRetryPolicy) : DispatchPhase → Prop
  | .threw _ | .running => True
  | .releasing verdict _ => ∀ reason : Option WasmRuntimeError,
      (∀ error, reason = some error → error.cls ≠ .guest) → retry.Harmless (verdict.result reason)
  | .finished _ result => retry.Harmless result

def CallPhase.Sent (retry : WasmRetryPolicy) : CallPhase → Prop
  | .undispatched _ _ _ | .dispatched _ | .settled _ => True
  | .returned result => retry.Harmless result
  | _ => False

/-- No `close()` of an instance and no clock throws what the policy would retry. -/
def RuntimeEvent.Sound (retry : WasmRetryPolicy) : RuntimeEvent → Prop
  | .instanceClosed _ (some failure) => retry.isSafeTransient failure = false
  | .resume _ seams => ∀ site fault, seams.now site = some fault → retry.isSafeTransient fault = false
  | _ => True

variable {retry : WasmRetryPolicy}

theorem isSafeTransient_iff {cause : Thrown} : retry.isSafeTransient cause = true ↔
    ∃ error, cause.runtime? = some error ∧ retry.Transient error := by
  unfold WasmRetryPolicy.isSafeTransient
  constructor
  · intro safe
    split at safe
    · next error raised =>
      simp only [Bool.and_eq_true, decide_eq_true_eq, ne_eq, contains_iff_mem] at safe
      obtain ⟨⟨⟨⟨guest, deadline⟩, cancellation⟩, retryable⟩, listed⟩ := safe
      exact ⟨error, raised, guest, deadline, cancellation, retryable, listed⟩
    · cases safe
  · rintro ⟨error, raised, guest, deadline, cancellation, retryable, listed⟩
    rw [raised]
    simp only [Bool.and_eq_true, decide_eq_true_eq, ne_eq, contains_iff_mem]
    exact ⟨⟨⟨⟨guest, deadline⟩, cancellation⟩, retryable⟩, listed⟩

theorem unsafe_of_class {cause : Thrown} (other : ∀ error, cause.runtime? = some error →
    error.cls ≠ .guest) : retry.isSafeTransient cause = false := by
  rw [← Bool.not_eq_true, isSafeTransient_iff]
  rintro ⟨error, raised, transient⟩
  exact other error raised transient.guest

theorem unsafe_reason {reason : WasmRuntimeError} (host : reason.cls ≠ .guest) :
    retry.isSafeTransient (.wasm reason) = false := by
  refine unsafe_of_class fun error raised => ?_
  cases raised
  exact host

theorem unsafe_invocationFailure (cause : Thrown) : retry.isSafeTransient (invocationFailure cause) = false := by
  refine unsafe_of_class fun error raised => ?_
  cases raised
  decide

theorem unsafe_codec {cause : Thrown} (codec : cause.IsCodec) : retry.isSafeTransient cause = false := by
  obtain ⟨error, raised, cls⟩ := codec
  refine unsafe_of_class fun other eq => ?_
  cases raised.symm.trans eq
  rw [cls]
  decide

theorem unsafe_catalogued {error : AbiErrorV1} (catalogued : error.Catalogued) :
    retry.isSafeTransient (.wasm (wasmGuestError error.code error.message error.retryable
      error.field)) = false := by
  rw [← Bool.not_eq_true, isSafeTransient_iff]
  rintro ⟨guest, raised, transient⟩
  cases raised
  have retryable : error.retryable = some true := by
    have flag : error.retryable.getD false = true := transient.retryable
    cases shown : error.retryable with
    | none =>
      rw [shown] at flag
      cases flag
    | some shows =>
      rw [shown] at flag
      rw [show shows = true from flag]
  have code := catalogued.deadline retryable
  refine transient.deadline ?_
  have shown : (wasmGuestError error.code error.message error.retryable error.field).code =
      if error.code = [] then WasmErrorClass.guest.code else error.code := rfl
  rw [shown, code]
  decide

theorem normalizeCallError_safe {cause : Thrown} {target : WasmExecutionTarget} {scope : AbortScope}
    (host : scope.Host) (safe : retry.isSafeTransient (normalizeCallError cause target scope.reason) = true) :
    retry.isSafeTransient cause = true := by
  unfold normalizeCallError at safe
  split at safe
  · next reason aborted =>
    rw [unsafe_reason (host reason aborted)] at safe
    cases safe
  · exact safe
  · rw [unsafe_of_class fun error raised => by cases raised; decide] at safe
    cases safe
  · rw [unsafe_invocationFailure] at safe
    cases safe

theorem Verdict.harmless_wellFormed {response : AbiResponseV1} {json requestId : JsString}
    (parsed : parseAbiResponse json requestId = .ok response) : retry.Harmless (.ok response) := by
  cases response with
  | success => trivial
  | failure id error => exact unsafe_catalogued (parseAbiResponse_catalogued parsed)

theorem Dispatch.verdict_harmless (dispatch : Dispatch) (outcome : Except Thrown JsString)
    {before : Option WasmRuntimeError} (aborted : ∀ error, before = some error → error.cls ≠ .guest)
    (awaitsClose : Bool) :
    (DispatchPhase.releasing (dispatch.verdict outcome before) awaitsClose).Harmless retry := by
  intro reason host
  unfold Dispatch.verdict
  split
  · next cause =>
    cases reason with
    | none => exact unsafe_invocationFailure cause
    | some error => exact unsafe_reason (host error rfl)
  · next error => exact unsafe_reason (aborted error rfl)
  · next json =>
    split
    · next cause failed => exact unsafe_codec (parseAbiResponse_codec _ _ cause failed)
    · next response parsed => exact Verdict.harmless_wellFormed parsed

namespace GoforgeWasmRuntime

variable {e : RuntimeEvent} {r t : GoforgeWasmRuntime} {c : Nat} {seams : Seams}

structure Spared (r : GoforgeWasmRuntime) : Prop where
  closes : ∀ pool, r.pool = some pool → ∀ record ∈ pool.settledCloses, ∀ failure,
    record.failure = some failure → r.retry.isSafeTransient failure = false
  verdicts : ∀ (d : Nat) (dispatch : Dispatch), r.dispatches[d]? = some dispatch → dispatch.phase.Harmless r.retry
  sent : ∀ (d : Nat) (dispatch : Dispatch) (call : Call), r.dispatches[d]? = some dispatch →
    r.calls[dispatch.call]? = some call → call.phase.Sent r.retry
  once : ∀ (d k : Nat) (dispatch other : Dispatch), r.dispatches[d]? = some dispatch →
    r.dispatches[k]? = some other → dispatch.call = other.call → d = k

theorem Spared.closeOutcome (h : r.Spared) {entry : Nat} {failure : Thrown}
    (outcome : r.closeOutcome entry = some (some failure)) : r.retry.isSafeTransient failure = false := by
  unfold GoforgeWasmRuntime.closeOutcome at outcome
  obtain ⟨pool, some_pool, outcome⟩ := bind_eq_some_iff.mp outcome
  obtain ⟨record, found, outcome⟩ := bind_eq_some_iff.mp outcome
  exact h.closes pool some_pool record (mem_of_find?_eq_some found) failure (some.inj outcome)

theorem Spared.releaseOutcome (h : r.Spared) {entry : Nat} {awaitsClose : Bool} {failure : Thrown}
    (outcome : r.releaseOutcome entry awaitsClose = some (some failure)) :
    r.retry.isSafeTransient failure = false := by
  unfold GoforgeWasmRuntime.releaseOutcome at outcome
  split_ifs at outcome
  · exact h.closeOutcome outcome
  · cases outcome

theorem Sent.not_retried {phase : CallPhase} {cause : Thrown}
    (sound : ∀ site fault, seams.now site = some fault → r.retry.isSafeTransient fault = false)
    (sent : phase.Sent r.retry) (origin : FailureOrigin seams phase cause) :
    r.retry.isSafeTransient cause = false := by
  cases origin with
  | starting => exact sent.elim
  | returned => exact sent
  | guest => exact sent
  | fault id value site cause thrown => exact sound site cause thrown

theorem callMove_sent (h : r.Spared) (traced : r.Traced)
    (sound : ∀ site fault, seams.now site = some fault → r.retry.isSafeTransient fault = false)
    (move : CallMove c seams r t) {call : Call} (here : r.calls[c]? = some call)
    (sent : call.phase.Sent r.retry) : ∃ after : Call, t.calls[c]? = some after ∧ after.phase.Sent r.retry := by
  cases move with
  | note => exact ⟨call, here, sent⟩
  | begin other plan startedAt there after =>
    cases here.symm.trans there
    cases after with
    | loaded manifest phase =>
      rw [phase] at sent
      exact sent.elim
    | slept phase =>
      rw [phase] at sent
      exact sent.elim
  | reject other _ there phase | acquire other _ _ _ _ there phase
  | select other _ _ _ there phase | refuseLease other _ _ _ _ there phase
  | undispatch other _ _ _ _ there phase | threw other _ _ _ _ there phase
  | dispatch other _ _ _ there phase | adapted other _ _ there phase =>
    cases here.symm.trans there
    rw [phase] at sent
    exact sent.elim
  | released other entry awaitsClose cause failure there phase outcome =>
    cases here.symm.trans there
    refine ⟨_, putCall_here here _, ?_⟩
    cases failure with
    | none => exact unsafe_invocationFailure cause
    | some failure => exact h.releaseOutcome outcome
  | backOff other plan cause there planned origin more safe =>
    cases here.symm.trans there
    have retried := normalizeCallError_safe (traced.calls c call here).host safe
    rw [Sent.not_retried sound sent origin] at retried
    cases retried
  | finish other outcome there =>
    cases here.symm.trans there
    refine ⟨{ call with
      phase := .settled outcome, scope := { call.scope with disposed := true } }, ?_, trivial⟩
    rw [finish_calls]
    exact (getElem?_set_iff here).mpr (.inl ⟨rfl, rfl⟩)

theorem RuntimeEvent.Sound.now (sound : e.Sound retry) (event : e = .resume c seams) :
    ∀ site fault, seams.now site = some fault → retry.isSafeTransient fault = false := by
  rw [event] at sound
  exact sound

theorem Sent.interrupted {phase : CallPhase} {reason : WasmRuntimeError}
    (host : reason.cls ≠ .guest) (sent : phase.Sent retry) : (phase.interrupted reason).Sent retry := by
  unfold CallPhase.interrupted
  split
  · exact sent.elim
  · exact unsafe_reason host
  · exact sent.elim
  · exact sent.elim
  · exact sent

theorem move_sent (h : r.Spared) (traced : r.Traced) (sound : e.Sound r.retry)
    (move : RuntimeMove e r t) {call : Call} (here : r.calls[c]? = some call) (sent : call.phase.Sent r.retry) :
    ∃ after : Call, t.calls[c]? = some after ∧ after.phase.Sent r.retry := by
  have put {k : Nat} {other next : Call} (there : r.calls[k]? = some other)
      (eq : t.calls = r.calls.set k next) (keeps : other.phase.Sent r.retry → next.phase.Sent r.retry) :
      ∃ after : Call, t.calls[c]? = some after ∧ after.phase.Sent r.retry := by
    rw [eq]
    by_cases same : c = k
    · subst same
      cases here.symm.trans there
      exact ⟨next, (getElem?_set_iff here).mpr (.inl ⟨rfl, rfl⟩), keeps sent⟩
    · exact ⟨call, (getElem?_set_iff there).mpr (.inr ⟨same, here⟩), sent⟩
  have never {k : Nat} {other next : Call} (there : r.calls[k]? = some other)
      (eq : t.calls = r.calls.set k next) (unsent : ¬other.phase.Sent r.retry) :
      ∃ after : Call, t.calls[c]? = some after ∧ after.phase.Sent r.retry :=
    put there eq fun sent => absurd sent unsent
  have added {next : Call} (eq : t.calls = r.calls ++ [next]) :
      ∃ after : Call, t.calls[c]? = some after ∧ after.phase.Sent r.retry :=
    ⟨call, by rw [eq]; exact getElem?_concat_iff.mpr (.inl here), sent⟩
  cases move with
  | call k seams event move =>
    by_cases same : c = k
    · subst same
      exact callMove_sent h traced (RuntimeEvent.Sound.now sound event) move here sent
    · rcases callMove_calls move with eq | ⟨other, next, there, eq, _⟩
      · exact ⟨call, eq ▸ here, sent⟩
      · rw [eq]
        exact ⟨call, (getElem?_set_iff there).mpr (.inr ⟨same, here⟩), sent⟩
  | inert other | enter other | enterPreload other => exact added rfl
  | leak => exact added rfl
  | giveUp k other outcome there entered =>
    exact never there (finish_calls k other outcome) (by rw [entered]; exact id)
  | wait k other there phase | deliverLoad k other _ there phase
  | deliverExecution k other _ _ there phase | wake k other _ _ there phase =>
    exact never there rfl (by rw [phase]; exact id)
  | deliverDispatch k other d dispatch verdict result there phase made finished =>
    refine put there rfl fun _ => ?_
    have harmless := h.verdicts d dispatch made
    rw [finished] at harmless
    exact harmless
  | interrupt k other reason there listening first host =>
    have aborts : (r.abortCall k reason).calls = r.calls.set k { other with
        scope := { other.scope with reason := some reason }
        phase := other.phase.interrupted reason } := by
      simp [abortCall, there, listening, first, putCall]
    exact put there aborts (Sent.interrupted host)
  | note | startLoad | succeed | verifyFails | poolReady | loadFails | settleDispatch
  | releaseDispatch | execution | environment | shut | awaitCalls | await | closed | adapters
  | clearAdapters | signal | turn => exact ⟨call, here, sent⟩

theorem reasonOf_host (traced : r.Traced) (c : Nat) (error : WasmRuntimeError)
    (aborted : r.reasonOf c = some error) : error.cls ≠ .guest := by
  obtain ⟨call, here, reason⟩ := bind_eq_some_iff.mp aborted
  exact (traced.calls c call here).host error reason

theorem move_verdicts (h : r.Spared) (traced : r.Traced) (move : RuntimeMove e r t) {d : Nat}
    {dispatch : Dispatch} (there : t.dispatches[d]? = some dispatch) : dispatch.phase.Harmless r.retry := by
  have kept (same : t.dispatches = r.dispatches) : dispatch.phase.Harmless r.retry :=
    h.verdicts d dispatch (same ▸ there)
  have put {k : Nat} {other : Dispatch} {phase : DispatchPhase}
      (before : r.dispatches[k]? = some other)
      (eq : t.dispatches = r.dispatches.set k { other with phase })
      (harmless : phase.Harmless r.retry) : dispatch.phase.Harmless r.retry := by
    rw [eq] at there
    rcases (getElem?_set_iff before).mp there with ⟨rfl, rfl⟩ | ⟨_, old⟩
    · exact harmless
    · exact h.verdicts d dispatch old
  cases move with
  | call c seams event move =>
    cases move with
    | threw | dispatch =>
      rcases getElem?_concat_iff.mp there with old | ⟨_, rfl⟩
      · exact h.verdicts d dispatch old
      · trivial
    | finish call outcome => exact kept (finish_frame c call outcome).2.2.2.2.1
    | _ => exact kept rfl
  | giveUp c call outcome => exact kept (finish_frame c call outcome).2.2.2.2.1
  | interrupt c call reason => exact kept (abortCall_frame c reason).2.2.2.1
  | settleDispatch k other pool outcome event before =>
    exact put before rfl (other.verdict_harmless outcome (reasonOf_host traced other.call) _)
  | releaseDispatch k other verdict awaitsClose failure before phase outcome =>
    refine put before rfl ?_
    cases failure with
    | some failure => exact h.releaseOutcome outcome
    | none =>
      have harmless := h.verdicts k other before
      rw [phase] at harmless
      exact harmless _ (reasonOf_host traced other.call)
  | _ => exact kept rfl

theorem move_closes (h : r.Spared) (sound : e.Sound r.retry) (move : RuntimeMove e r t)
    {pool : InstancePool} (some_pool : t.pool = some pool) {record : CloseRecord}
    (mem : record ∈ pool.settledCloses) {failure : Thrown} (failed : record.failure = some failure) :
    r.retry.isSafeTransient failure = false := by
  cases move_poolKept move some_pool with
  | kept p before keeps =>
    rw [keeps.settledCloses] at mem
    exact h.closes p before record mem failure failed
  | new alive unseen =>
    rw [unseen] at mem
    cases mem
  | closed p before begun same =>
    rw [same] at mem
    exact h.closes p before record mem failure failed
  | settled p id thrown before event same seen =>
    rw [seen] at mem
    rcases mem_cons.mp mem with rfl | old
    · rw [event, show thrown = some failure from failed] at sound
      exact sound
    · exact h.closes p before record old failure failed

theorem spared_move (h : r.Spared) (traced : r.Traced) (sound : e.Sound r.retry)
    (move : RuntimeMove e r t) : t.Spared := by
  have host := (move_sameHost move).retry
  have fresh {d : Nat} {dispatch : Dispatch} {call : Call} {request : LeaseRequest}
      (here : r.calls[dispatch.call]? = some call) (phase : call.phase = .leasing request)
      (there : r.dispatches[d]? = some dispatch) : False := by
    have sent := h.sent d dispatch call there here
    rw [phase] at sent
    exact sent
  refine ⟨fun pool some_pool record mem failure failed => ?_, fun d dispatch there => ?_,
    fun d dispatch after there at_call => ?_, fun d k dispatch other there at_k same => ?_⟩
  · rw [host]
    exact move_closes h sound move some_pool mem failed
  · rw [host]
    exact move_verdicts h traced move there
  · rw [host]
    rcases move_dispatches move there with ⟨before, old, eq⟩ |
        ⟨c, seams, call, request, pool, lease, _, _, _, _, _, _, ⟨next, later, sending⟩, eq⟩
    · rw [eq] at at_call
      obtain ⟨call, here, _⟩ := traced.dispatches d before old
      obtain ⟨next, later, sent⟩ :=
        move_sent h traced sound move here (h.sent d before call old here)
      cases later.symm.trans at_call
      exact sent
    · rw [eq] at at_call
      cases later.symm.trans at_call
      revert sending
      cases after.phase <;> simp [CallPhase.sending, CallPhase.Sent]
  · rcases move_dispatches move there with ⟨before, old, eq⟩ |
        ⟨c, seams, call, request, pool, lease, _, here, phase, _, _, last, _, eq⟩
    · rcases move_dispatches move at_k with ⟨earlier, elder, eq'⟩ |
          ⟨c, seams, call, request, pool, lease, _, here, phase, _, _, _, _, eq'⟩
      · rw [eq, eq'] at same
        exact h.once d k before earlier old elder same
      · rw [eq, eq'] at same
        exact (fresh (same ▸ here) phase old).elim
    · rcases move_dispatches move at_k with ⟨earlier, elder, eq'⟩ |
          ⟨_, _, _, _, _, _, _, _, _, _, _, last', _⟩
      · rw [eq, eq'] at same
        exact (fresh (same ▸ here) phase elder).elim
      · exact last.trans last'.symm

theorem spared_step (h : r.Spared) (traced : r.Traced) (sound : e.Sound r.retry)
    (stepped : r.step e = some t) : t.Spared := by
  have keep (p q : GoforgeWasmRuntime) (h : p.Spared ∧ p.Traced ∧ p.retry = r.retry)
      (move : RuntimeMove e p q) : q.Spared ∧ q.Traced ∧ q.retry = r.retry := by
    obtain ⟨spared, traced, same⟩ := h
    exact ⟨spared_move spared traced (same ▸ sound) move, traced_move traced move,
      (move_sameHost move).retry.trans same⟩
  exact ((step_moves stepped).invariant keep ⟨h, traced, rfl⟩).1

theorem spared_fresh (h : r.Fresh) : r.Spared := by
  refine ⟨fun pool some_pool => ?_, fun d dispatch there => ?_, fun d dispatch call there => ?_,
    fun d k dispatch other there => ?_⟩
  · rw [h.pool] at some_pool
    cases some_pool
  · simp [h.dispatches] at there
  · simp [h.dispatches] at there
  · simp [h.dispatches] at there

end GoforgeWasmRuntime

structure Call.Made (call : Call) (attempt : Nat) : Prop where
  counted : 1 ≤ attempt ∧ attempt ≤ call.attempt
  before : call.phase.unsent = true → attempt < call.attempt

theorem Call.Made.goes {load : BundleLoad} {call after : Call} {attempt : Nat}
    (made : call.Made attempt) (goes : call.Goes retry load after) : after.Made attempt := by
  obtain ⟨some_attempt, few⟩ := made.counted
  cases goes with
  | on phase scope loaded early paused unsent =>
    exact ⟨⟨some_attempt, few⟩, fun begun => made.before (unsent begun)⟩
  | begin => exact ⟨⟨some_attempt, Nat.le_succ_of_le few⟩, fun _ => Nat.lt_succ_of_le few⟩
  | backOff plan error phase planned more safe paused =>
    refine ⟨⟨some_attempt, few⟩, fun unsent => ?_⟩
    revert unsent paused
    cases phase <;> simp [CallPhase.unsent, CallPhase.paused]

namespace GoforgeWasmRuntime

variable {e : RuntimeEvent} {r t : GoforgeWasmRuntime} {c : Nat}

structure Numbered (r : GoforgeWasmRuntime) : Prop where
  dispatches : ∀ (d : Nat) (dispatch : Dispatch) (call : Call), r.dispatches[d]? = some dispatch →
    r.calls[dispatch.call]? = some call → call.Made dispatch.attempt
  executions : ∀ (x : Nat) (execution : Execution) (call : Call),
    r.executions[x]? = some execution → r.calls[execution.call]? = some call → call.Made execution.attempt
  dispatchOnce : ∀ (d k : Nat) (dispatch other : Dispatch), r.dispatches[d]? = some dispatch →
    r.dispatches[k]? = some other → dispatch.call = other.call → dispatch.attempt = other.attempt → d = k
  executionOnce : ∀ (x k : Nat) (execution other : Execution), r.executions[x]? = some execution →
    r.executions[k]? = some other → execution.call = other.call → execution.attempt = other.attempt → x = k

theorem move_made (move : RuntimeMove e r t) {call after : Call} {attempt : Nat}
    (here : r.calls[c]? = some call) (later : t.calls[c]? = some after) (made : call.Made attempt) :
    after.Made attempt := by
  rcases move_goes move with same | ⟨k, before, next, at_k, eq, goes⟩ | ⟨added, eq, _⟩
  · cases here.symm.trans (same ▸ later)
    exact made
  · rw [eq] at later
    rcases (getElem?_set_iff at_k).mp later with ⟨rfl, rfl⟩ | ⟨_, old⟩
    · cases here.symm.trans at_k
      exact made.goes goes
    · cases here.symm.trans old
      exact made
  · rw [eq] at later
    rcases getElem?_concat_iff.mp later with old | ⟨last, _⟩
    · cases here.symm.trans old
      exact made
    · rw [last, getElem?_eq_none (Nat.le_refl _)] at here
      cases here

theorem Made.fresh {call : Call} (unsent : call.phase.unsent = true) (made : call.Made call.attempt) : False :=
  Nat.lt_irrefl _ (made.before unsent)

theorem move_makes (h : r.Traced) (move : RuntimeMove e r t) {call after : Call} {plan : CallPlan}
    (here : r.calls[c]? = some call) (planned : call.plan = some plan)
    (later : t.calls[c]? = some after) (sent : after.phase.unsent = false) : after.Made call.attempt := by
  have counted := ((h.calls c call here).planned plan planned).1
  have grows : call.attempt ≤ after.attempt := by
    rcases move_goes move with same | ⟨k, before, next, at_k, eq, goes⟩ | ⟨added, eq, _⟩
    · cases here.symm.trans (same ▸ later)
      exact Nat.le_refl _
    · rw [eq] at later
      rcases (getElem?_set_iff at_k).mp later with ⟨rfl, rfl⟩ | ⟨_, old⟩
      · cases here.symm.trans at_k
        cases goes with
        | on => exact Nat.le_refl _
        | begin => exact Nat.le_succ _
        | backOff => exact Nat.le_refl _
      · cases here.symm.trans old
        exact Nat.le_refl _
    · rw [eq] at later
      rcases getElem?_concat_iff.mp later with old | ⟨last, _⟩
      · cases here.symm.trans old
        exact Nat.le_refl _
      · rw [last, getElem?_eq_none (Nat.le_refl _)] at here
        cases here
  refine ⟨⟨counted, grows⟩, fun unsent => ?_⟩
  cases sent.symm.trans unsent

theorem numbered_move (h : r.Numbered) (traced : r.Traced) (move : RuntimeMove e r t) : t.Numbered := by
  refine ⟨fun d dispatch after there at_call => ?_, fun x execution after there at_call => ?_,
    fun d k dispatch other there at_k same number => ?_,
    fun x k execution other there at_k same number => ?_⟩
  · rcases move_dispatches move there with ⟨before, old, eq⟩ |
        ⟨c, seams, call, request, pool, lease, _, here, phase, _, _, _, ⟨next, later, sending⟩, eq⟩
    · rw [eq] at at_call ⊢
      obtain ⟨call, here, _⟩ := traced.dispatches d before old
      exact move_made move here at_call (h.dispatches d before call old here)
    · rw [eq] at at_call ⊢
      cases later.symm.trans at_call
      obtain ⟨_, plan, planned, _⟩ := traced.leasing c call request here phase
      refine move_makes traced move here planned at_call ?_
      revert sending
      cases after.phase <;> simp [CallPhase.sending, CallPhase.unsent]
  · rcases move_executions move there with ⟨before, old, eq⟩ |
        ⟨c, seams, call, plan, name, adapter, _, here, _, planned, _, _, _, ⟨next, later, sent⟩, eq⟩
    · rw [eq] at at_call ⊢
      obtain ⟨call, here, _⟩ := traced.executions x before old
      exact move_made move here at_call (h.executions x before call old here)
    · rw [eq] at at_call ⊢
      cases later.symm.trans at_call
      exact move_makes traced move here planned at_call sent
  · rcases move_dispatches move there with ⟨before, old, eq⟩ |
        ⟨c, seams, call, request, pool, lease, _, here, phase, _, _, last, _, eq⟩
    · rcases move_dispatches move at_k with ⟨earlier, elder, eq'⟩ |
          ⟨c, seams, call, request, pool, lease, _, here, phase, _, _, _, _, eq'⟩
      · rw [eq, eq'] at same number
        exact h.dispatchOnce d k before earlier old elder same number
      · rw [eq, eq'] at same number
        have made := h.dispatches d before call old (same ▸ here)
        rw [show before.attempt = call.attempt from number] at made
        exact (Made.fresh (by rw [phase]; rfl) made).elim
    · rcases move_dispatches move at_k with ⟨earlier, elder, eq'⟩ |
          ⟨_, _, _, _, _, _, _, _, _, _, _, last', _⟩
      · rw [eq, eq'] at same number
        have made := h.dispatches k earlier call elder (same ▸ here)
        rw [show earlier.attempt = call.attempt from number.symm] at made
        exact (Made.fresh (by rw [phase]; rfl) made).elim
      · exact last.trans last'.symm
  · rcases move_executions move there with ⟨before, old, eq⟩ |
        ⟨c, seams, call, plan, name, adapter, _, here, _, _, _, last, phase, _, eq⟩
    · rcases move_executions move at_k with ⟨earlier, elder, eq'⟩ |
          ⟨c, seams, call, plan, name, adapter, _, here, _, _, _, _, phase, _, eq'⟩
      · rw [eq, eq'] at same number
        exact h.executionOnce x k before earlier old elder same number
      · rw [eq, eq'] at same number
        have made := h.executions x before call old (same ▸ here)
        rw [show before.attempt = call.attempt from number] at made
        exact (Made.fresh (by rw [phase]; rfl) made).elim
    · rcases move_executions move at_k with ⟨earlier, elder, eq'⟩ |
          ⟨_, _, _, _, _, _, _, _, _, _, _, last', _⟩
      · rw [eq, eq'] at same number
        have made := h.executions k earlier call elder (same ▸ here)
        rw [show earlier.attempt = call.attempt from number.symm] at made
        exact (Made.fresh (by rw [phase]; rfl) made).elim
      · exact last.trans last'.symm

theorem numbered_step (h : r.Numbered) (traced : r.Traced) (stepped : r.step e = some t) : t.Numbered := by
  have keep (p q : GoforgeWasmRuntime) (h : p.Numbered ∧ p.Traced) (move : RuntimeMove e p q) :
      q.Numbered ∧ q.Traced :=
    ⟨numbered_move h.1 h.2 move, traced_move h.2 move⟩
  exact ((step_moves stepped).invariant keep ⟨h, traced⟩).1

theorem numbered_fresh (h : r.Fresh) : r.Numbered := by
  refine ⟨fun d dispatch call there => ?_, fun x execution call there => ?_,
    fun d k dispatch other there => ?_, fun x k execution other there => ?_⟩
  · simp [h.dispatches] at there
  · simp [h.executions] at there
  · simp [h.dispatches] at there
  · simp [h.executions] at there

end GoforgeWasmRuntime

namespace GoforgeWasmRuntime

structure RetriesSafely (r : GoforgeWasmRuntime) (c : Nat) (call : Call) : Prop where
  bounded : call.attempt ≤ r.retry.maxAttempts
  decided : call.attempt ≤ call.retried.length + 1
  transient : ∀ cause ∈ call.retried, ∃ error, cause.runtime? = some error ∧ r.retry.Transient error
  allowed : call.retried ≠ [] → call.options.allowRetry = true ∧
    ∃ manifest, r.load = .loaded manifest ∧ manifest.RetrySafe call.operation
  dispatches : ∀ (d : Nat) (dispatch : Dispatch), r.dispatches[d]? = some dispatch →
    dispatch.call = c → call.Made dispatch.attempt ∧ dispatch.requestId = call.requestId ∧
      ∃ plan, call.plan = some plan ∧ call.Asks plan.request ∧
        serializeAbiRequest plan.request = .ok dispatch.lease.requestJson
  executions : ∀ (x : Nat) (execution : Execution), r.executions[x]? = some execution →
    execution.call = c → call.Made execution.attempt ∧
      ∃ plan, call.plan = some plan ∧ call.Asks plan.request ∧ execution.request = plan.request
  numbered : (∀ (d k : Nat) (dispatch other : Dispatch), r.dispatches[d]? = some dispatch →
      r.dispatches[k]? = some other → dispatch.call = c → other.call = c →
        dispatch.attempt = other.attempt → d = k) ∧
    ∀ (x k : Nat) (execution other : Execution), r.executions[x]? = some execution →
      r.executions[k]? = some other → execution.call = c → other.call = c →
        execution.attempt = other.attempt → x = k

def DispatchedOnce (r : GoforgeWasmRuntime) : Prop :=
  ∀ (d k : Nat) (dispatch other : Dispatch), r.dispatches[d]? = some dispatch →
    r.dispatches[k]? = some other → dispatch.call = other.call → d = k

variable {r : GoforgeWasmRuntime} {c : Nat} {call : Call}

theorem Traced.asks (h : r.Traced) (here : r.calls[c]? = some call) {plan : CallPlan}
    (planned : call.plan = some plan) : call.Asks plan.request := by
  obtain ⟨_, _, manifest, _, from_manifest⟩ := (h.calls c call here).planned plan planned
  exact (planCall_asks from_manifest).1

theorem retriesSafely (traced : r.Traced) (numbered : r.Numbered) (here : r.calls[c]? = some call) :
    r.RetriesSafely c call := by
  have tracked := traced.calls c call here
  refine ⟨?_, tracked.counted, fun cause mem => isSafeTransient_iff.mp (tracked.safe cause mem),
    fun again => ?_, fun d dispatch there same => ?_, fun x execution there same => ?_,
    fun d k dispatch other there at_k same same' number => ?_,
    fun x k execution other there at_k same same' number => ?_⟩
  · cases planned : call.plan with
    | none =>
      rw [(tracked.unused planned).1]
      exact Nat.zero_le _
    | some plan =>
      obtain ⟨_, few, manifest, _, from_manifest⟩ := tracked.planned plan planned
      exact few.trans (planCall_asks from_manifest).2.1
  · cases planned : call.plan with
    | none => exact absurd (tracked.unused planned).2 again
    | some plan =>
      obtain ⟨_, _, manifest, known, from_manifest⟩ := tracked.planned plan planned
      obtain ⟨allowed, safe⟩ := (planCall_asks from_manifest).2.2 (tracked.more plan planned again)
      exact ⟨allowed, manifest, known, safe⟩
  · subst same
    obtain ⟨other, at_call, id, _, plan, planned, serialized⟩ := traced.dispatches d dispatch there
    cases here.symm.trans at_call
    exact ⟨numbered.dispatches d dispatch call there here, id, plan, planned,
      traced.asks here planned, serialized⟩
  · subst same
    obtain ⟨other, at_call, _, plan, planned, eq⟩ := traced.executions x execution there
    cases here.symm.trans at_call
    exact ⟨numbered.executions x execution call there here, plan, planned, traced.asks here planned, eq.symm⟩
  · exact numbered.dispatchOnce d k dispatch other there at_k (same.trans same'.symm) number
  · exact numbered.executionOnce x k execution other there at_k (same.trans same'.symm) number

end GoforgeWasmRuntime

theorem runtime_numbered {r : GoforgeWasmRuntime} (h : runtimeMachine.Reachable r) : r.Numbered := by
  have both : r.Numbered ∧ r.Traced := by
    refine h.invariant (I := fun r => r.Numbered ∧ r.Traced) ?_ ?_
    · rintro r ⟨options, constructed⟩
      have fresh := GoforgeWasmRuntime.new_fresh constructed
      exact ⟨GoforgeWasmRuntime.numbered_fresh fresh, GoforgeWasmRuntime.traced_fresh fresh⟩
    · rintro r e t ⟨numbered, traced⟩ stepped
      exact ⟨GoforgeWasmRuntime.numbered_step numbered traced stepped,
        GoforgeWasmRuntime.traced_step traced stepped⟩
  exact both.1

theorem runtime_spared {r t : GoforgeWasmRuntime} {es : List RuntimeEvent}
    (fresh : r.Fresh) (reached : runtimeMachine.run r es = some t)
    (sound : runtimeMachine.Along (fun s e _ => e.Sound s.retry) r es) : t.Spared := by
  have both : t.Spared ∧ t.Traced := by
    refine LabelledMachine.run_invariant_along (I := fun s => s.Spared ∧ s.Traced) ?_
      ⟨GoforgeWasmRuntime.spared_fresh fresh, GoforgeWasmRuntime.traced_fresh fresh⟩ sound reached
    rintro s e u ⟨spared, traced⟩ sound stepped
    exact ⟨GoforgeWasmRuntime.spared_step spared traced sound stepped,
      GoforgeWasmRuntime.traced_step traced stepped⟩
  exact both.1

/-- In every run the retries keep to the policy, the manifest and the options, and every attempt
repeats the request; a call makes one dispatch at most while no `close()` of an instance and no
clock throws an error that the policy retries. -/
theorem retriesSafely_and_dispatchedOnce {options : GoforgeWasmRuntimeOptions}
    {r t : GoforgeWasmRuntime} {es : List RuntimeEvent} (constructed : GoforgeWasmRuntime.new options = .ok r)
    (reached : runtimeMachine.run r es = some t) :
    (∀ (c : Nat) (call : Call), t.calls[c]? = some call → t.RetriesSafely c call) ∧
      (runtimeMachine.Along (fun s e _ => e.Sound s.retry) r es → t.DispatchedOnce) := by
  have reachable : runtimeMachine.Reachable t := ⟨r, es, ⟨options, constructed⟩, reached⟩
  refine ⟨fun c call here => ?_, fun sound => ?_⟩
  · exact GoforgeWasmRuntime.retriesSafely (runtime_traced reachable) (runtime_numbered reachable) here
  · exact (runtime_spared (GoforgeWasmRuntime.new_fresh constructed) reached sound).once

/-- A policy that retries the code `busy`. -/
def busyRetryOptions : GoforgeWasmRuntimeOptions :=
  { GoforgeWasmRuntimeOptions.defaults (fun _ => 0) with
    retryPolicy := ⟨none, none, none, some [js "busy"]⟩ }

/-- A call that allows retries, up to its first dispatch; the component's answer is no JSON. -/
def malformedAnswerRun : List RuntimeEvent :=
  [.invoke (js "crypto.sha256") .null { WasmCallOptions.empty with allowRetry := true } .calm,
    .loadThen (.ok (.offering (js "crypto.sha256") true)) .calm, .deliver 0, .resume 0 .calm,
    .instanceCreated 1, .resume 0 .calm, .dispatchSettles 0 (.ok (js "pong"))]

/-- The `close()` of the discarded instance fails in the guest's name, and the call goes on. -/
def busyCloseRun : List RuntimeEvent :=
  malformedAnswerRun ++
    [.instanceClosed 1 (some (.wasm (wasmGuestError (js "busy") none (some true) none))),
      .dispatchReleased 0, .deliver 0, .resume 0 .calm, .wake 0 (.ok ()), .resume 0 .calm,
      .instanceCreated 2, .resume 0 .calm]

theorem malformedAnswerRun_sound (r : GoforgeWasmRuntime) :
    runtimeMachine.Along (fun s e _ => e.Sound s.retry) r malformedAnswerRun := by
  refine LabelledMachine.along_of_events (fun e mem s t => ?_) r
  simp only [malformedAnswerRun, mem_cons, not_mem_nil, or_false] at mem
  rcases mem with rfl | rfl | rfl | rfl | rfl | rfl | rfl
  all_goals first | trivial | (intro site fault thrown; cases thrown)

/-- A component call whose answer is malformed has made one dispatch. -/
theorem malformed_answer_dispatched_once : ∃ r t, GoforgeWasmRuntime.new busyRetryOptions = .ok r ∧
      runtimeMachine.run r malformedAnswerRun = some t ∧ t.dispatches.length = 1 ∧
      t.DispatchedOnce ∧ ∃ call : Call, t.calls[0]? = some call ∧ t.RetriesSafely 0 call := by
  have shows : busyRetryOptions.shows malformedAnswerRun (fun t =>
      t.calls.length = 1 && t.dispatches.length = 1) = true := by decide +kernel
  obtain ⟨r, t, constructed, reached, shown⟩ := run_of_shows shows
  simp only [Bool.and_eq_true, decide_eq_true_eq] at shown
  obtain ⟨call, here⟩ : ∃ call : Call, t.calls[0]? = some call :=
    ⟨_, List.getElem?_eq_getElem (by omega)⟩
  obtain ⟨safe, once⟩ := retriesSafely_and_dispatchedOnce constructed reached
  exact ⟨r, t, constructed, reached, shown.2, once (malformedAnswerRun_sound r), call, here, safe 0 call here⟩

/-- The second dispatch of one component call. -/
theorem failed_close_dispatches_again : ∃ r t, GoforgeWasmRuntime.new busyRetryOptions = .ok r ∧
      runtimeMachine.run r busyCloseRun = some t ∧
      (∃ call : Call, t.calls[0]? = some call ∧ call.options.route = .component) ∧
      (∃ dispatch other : Dispatch, t.dispatches[0]? = some dispatch ∧
        t.dispatches[1]? = some other ∧ dispatch.call = 0 ∧ other.call = 0) ∧ ¬t.DispatchedOnce := by
  have shows : busyRetryOptions.shows busyCloseRun (fun t =>
      (t.calls[0]?).any (fun call => call.options.route = .component) &&
      (t.dispatches[0]?).any (fun dispatch => dispatch.call = 0) &&
      (t.dispatches[1]?).any (fun dispatch => dispatch.call = 0)) = true := by decide +kernel
  obtain ⟨r, t, constructed, reached, shown⟩ := run_of_shows shows
  simp only [Bool.and_eq_true, Option.any_eq_true, decide_eq_true_eq] at shown
  obtain ⟨⟨component, dispatch, first, ofFirst⟩, other, second, ofSecond⟩ := shown
  refine ⟨r, t, constructed, reached, component, ⟨dispatch, other, first, second, ofFirst, ofSecond⟩,
    fun once => ?_⟩
  have same := once 0 1 dispatch other first second (ofFirst.trans ofSecond.symm)
  cases same

end ForgeDeno
