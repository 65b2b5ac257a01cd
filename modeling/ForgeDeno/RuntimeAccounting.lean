import ForgeDeno.ListRules
import ForgeDeno.RuntimeSteps

namespace ForgeDeno

open ExceptRules List CallPhase ListRules Call

def Call.pending (call : Call) : Bool := call.kind = .invoke && call.phase.live

/-- An invocation that has thrown before its `try`. -/
def Call.leaked (call : Call) : Bool :=
  match call.kind, call.phase with
  | .invoke, .thrown _ => true
  | _, _ => false

/-- What `#activeCalls++` has counted and no `finally` has taken back. -/
def Call.counted (call : Call) : Bool := call.pending || call.leaked

theorem Call.counted_of_live {call : Call} (live : call.phase.live = true) :
    call.counted = decide (call.kind = .invoke) := by
  unfold counted pending leaked
  split
  · next phase => rw [phase] at live; cases live
  · simp [live]

theorem Call.pending_not_leaked {call : Call} (h : call.pending = true) : call.leaked = false := by
  unfold leaked
  split
  · next phase => simp [pending, phase, CallPhase.live] at h
  · rfl

/-- `#activeCalls` is the number of counted invocations, and a `close()` that waits for them has
some to wait for. -/
structure Counted (r : GoforgeWasmRuntime) : Prop where
  balance : r.activeCalls = r.calls.countP Call.counted
  waiting : r.closing = .calls false → 0 < r.activeCalls

namespace GoforgeWasmRuntime

variable {r t : GoforgeWasmRuntime} {c : Nat} {call after : Call} {e : RuntimeEvent}

theorem counted_of_same (h : Counted r) (calls : t.calls = r.calls)
    (active : t.activeCalls = r.activeCalls) (closing : t.closing = r.closing) : Counted t where
  balance := by rw [active, calls, h.balance]
  waiting := by rw [active, closing]; exact h.waiting

theorem counted_putCall (h : Counted r) (here : r.calls[c]? = some call)
    (live : call.phase.live = true) (kind : after.kind = call.kind)
    (still : after.phase.live = true) : Counted (r.putCall c after) where
  balance := by
    have same : after.counted = call.counted := by
      rw [counted_of_live live, counted_of_live still, kind]
    exact h.balance.trans (countP_set_same here same).symm
  waiting := h.waiting

theorem counted_setPhase {phase : CallPhase} (h : Counted r) (here : r.calls[c]? = some call)
    (live : call.phase.live = true) (still : phase.live = true) :
    Counted (r.setPhase c call phase) := counted_putCall h here live rfl still

theorem counted_finish {outcome : Except Thrown JsValue} (h : Counted r)
    (here : r.calls[c]? = some call) (live : call.phase.live = true) : Counted (r.finish c call outcome) := by
  have was := counted_of_live live
  unfold finish
  simp only
  split_ifs with invoked
  · rw [decide_eq_true invoked] at was
    have drop := countP_set_drop (P := counted) here was
      (b := { call with phase := .settled outcome, scope := { call.scope with disposed := true } })
      (by simp [counted, pending, leaked, CallPhase.live])
    refine ⟨Nat.sub_eq_of_eq_add (h.balance.trans drop.symm), fun waits => ?_⟩
    by_cases last : r.activeCalls = 1 ∧ r.closing = .calls false
    · have woken : ClosePhase.calls true = .calls false := (if_pos last).symm.trans waits
      cases woken
    · have before : r.closing = .calls false := (if_neg last).symm.trans waits
      have positive := h.waiting before
      have more : r.activeCalls ≠ 1 := fun one => last ⟨one, before⟩
      change 0 < r.activeCalls - 1
      omega
  · rw [decide_eq_false invoked] at was
    have same : counted { call with
        phase := .settled outcome, scope := { call.scope with disposed := true } } =
        call.counted := by
      rw [was]
      simp [counted, pending, leaked, invoked, CallPhase.live]
    exact ⟨h.balance.trans (countP_set_same here same).symm, h.waiting⟩

theorem counted_callMove {seams : Seams} (h : Counted r) (move : CallMove c seams r t) : Counted t := by
  cases move with
  | note => exact counted_of_same h rfl rfl rfl
  | begin call plan started here after =>
    exact counted_putCall h here (live_of_runs (begins_runs after)) rfl rfl
  | reject call cause here phase => exact counted_setPhase h here (by rw [phase]; rfl) rfl
  | acquire call plan pool requestJson state here phase =>
    have moved : Counted { r with pool := some (pool.acquire r.signals c) } :=
      counted_of_same h rfl rfl rfl
    exact counted_setPhase moved here (by rw [phase]; rfl) rfl
  | select call plan name adapter here phase =>
    have moved : Counted (r.addExecution ⟨c, call.attempt, adapter, plan.request, .scheduled⟩) :=
      counted_of_same h rfl rfl rfl
    refine counted_setPhase moved here (by rw [phase]; rfl) ?_
    split <;> rfl
  | refuseLease call request pool w cause here phase =>
    exact counted_setPhase h here (by rw [phase]; rfl) rfl
  | undispatch call request pool lease reason here phase =>
    have moved : Counted { r with pool := some (pool.release r.signals lease.ticket true) } :=
      counted_of_same h rfl rfl rfl
    exact counted_setPhase moved here (by rw [phase]; rfl) rfl
  | threw call request pool lease fault here phase =>
    have moved : Counted { r.addDispatch ⟨c, call.attempt, call.requestId, request, lease.entry,
        lease.grantedAt, .threw fault⟩ with
        pool := some (pool.release r.signals lease.ticket true) } :=
      counted_of_same h rfl rfl rfl
    exact counted_setPhase moved here (by rw [phase]; rfl) rfl
  | dispatch call request pool lease here phase =>
    have moved : Counted (r.addDispatch ⟨c, call.attempt, call.requestId, request, lease.entry,
        lease.grantedAt, .running⟩) := counted_of_same h rfl rfl rfl
    exact counted_setPhase moved here (by rw [phase]; rfl) rfl
  | released call entry awaitsClose cause failure here phase =>
    exact counted_setPhase h here (by rw [phase]; rfl) rfl
  | adapted call result response here phase =>
    exact counted_setPhase h here (by rw [phase]; rfl) rfl
  | backOff call plan cause here planned origin =>
    refine counted_putCall h here (live_of_runs (origin_runs origin)) rfl ?_
    simp only
    split <;> rfl
  | finish call outcome here runs => exact counted_finish h here (live_of_runs runs)

theorem interrupted_live {phase : CallPhase} (reason : WasmRuntimeError)
    (live : phase.live = true) : (phase.interrupted reason).live = true := by
  unfold interrupted
  split <;> first | rfl | exact live

theorem interrupted_over {phase : CallPhase} (reason : WasmRuntimeError)
    (past : phase.live = false) : phase.interrupted reason = phase := by
  unfold interrupted
  split <;> first | rfl | cases past

theorem counted_abortCall (h : Counted r) (reason : WasmRuntimeError) : Counted (r.abortCall c reason) := by
  unfold abortCall
  split
  · next call here =>
    split_ifs
    · exact h
    · have same : ({ call with
          scope := { call.scope with reason := some reason }
          phase := call.phase.interrupted reason } : Call).counted = call.counted := by
        cases past : call.phase.live with
        | true => rw [counted_of_live past, counted_of_live (interrupted_live reason past)]
        | false => simp only [interrupted_over reason past]; rfl
      exact ⟨h.balance.trans (countP_set_same here same).symm, h.waiting⟩
  · exact h

theorem counted_start (h : Counted r) (counted : call.counted = true) :
    Counted ({ r with activeCalls := r.activeCalls + 1 }.addCall call) := by
  refine ⟨?_, fun _ => Nat.succ_pos _⟩
  simp only [addCall, countP_append, countP_singleton, counted, ↓reduceIte, h.balance]

theorem counted_addCall (h : Counted r) (uncounted : call.counted = false) : Counted (r.addCall call) := by
  refine ⟨?_, h.waiting⟩
  simp [addCall, countP_append, uncounted, h.balance]

theorem inert_uncounted (inert : call.Inert) : call.counted = false := by
  rcases inert.past with refused | ⟨preload, outcome, settled⟩
  · simp [counted, pending, leaked, refused, CallPhase.live]
  · simp [counted, pending, leaked, preload]

theorem counted_move (h : Counted r) (move : RuntimeMove e r t) : Counted t := by
  cases move with
  | call c seams event move => exact counted_callMove h move
  | wait c call here phase => exact counted_setPhase h here (by rw [phase]; rfl) rfl
  | giveUp c call outcome here entered => exact counted_finish h here (by rw [entered]; rfl)
  | inert call inert => exact counted_addCall h (inert_uncounted inert)
  | leak operation payload options seams cause => exact counted_start h rfl
  | enter call kind fresh =>
    refine counted_start h ?_
    simp [counted, pending, kind, fresh.phase, CallPhase.live]
  | enterPreload call kind fresh =>
    refine counted_addCall h ?_
    simp [counted, pending, leaked, kind]
  | deliverLoad c call result here phase => exact counted_setPhase h here (by rw [phase]; rfl) rfl
  | deliverDispatch c call d dispatch verdict result here phase =>
    exact counted_setPhase h here (by rw [phase]; rfl) rfl
  | deliverExecution c call x result here phase =>
    exact counted_setPhase h here (by rw [phase]; rfl) rfl
  | wake c call delay result here phase => exact counted_setPhase h here (by rw [phase]; rfl) rfl
  | interrupt c call reason => exact counted_abortCall h reason
  | awaitCalls active first => exact ⟨h.balance, fun _ => active⟩
  | await closing later => exact ⟨h.balance, fun waits => absurd waits (later false)⟩
  | closed => exact ⟨h.balance, nofun⟩
  | note | startLoad | succeed | verifyFails | poolReady | loadFails | settleDispatch
  | releaseDispatch | execution | environment | shut | adapters | clearAdapters | signal | turn =>
    exact counted_of_same h rfl rfl rfl

theorem counted_step (h : Counted r) (stepped : r.step e = some t) : Counted t :=
  (step_moves stepped).invariant (fun _ _ => counted_move) h

theorem counted_fresh (h : r.Fresh) : Counted r where
  balance := by rw [h.activeCalls, h.calls]; rfl
  waiting := fun waits => by rw [h.closing] at waits; cases waits

/-- `#activeCalls` is the number of invocations that passed the open check and have not settled. -/
def Accounted (r : GoforgeWasmRuntime) : Prop := r.activeCalls = r.calls.countP Call.pending

/-- Once every invocation has settled, neither the pending `close()` nor a later one waits for
`#activeWaiters`. -/
def Drains (r : GoforgeWasmRuntime) : Prop :=
  (∀ call ∈ r.calls, call.pending = false) →
    r.closing ≠ .calls false ∧ ∀ seams, (r.close seams).closing ≠ .calls false

/-- No invocation has thrown before its `try`. -/
def LeakFree (r : GoforgeWasmRuntime) : Prop := ∀ call ∈ r.calls, call.leaked = false

theorem countP_counted (calls : List Call) :
    calls.countP Call.counted = calls.countP Call.pending + calls.countP Call.leaked := by
  induction calls with
  | nil => rfl
  | cons call calls ih =>
    simp only [countP_cons, ih]
    cases pending : call.pending with
    | true =>
      simp only [counted, pending, pending_not_leaked pending]
      simp only [Bool.true_or, ↓reduceIte, Bool.false_eq_true]
      omega
    | false =>
      simp only [counted, pending, Bool.false_or, Bool.false_eq_true, ↓reduceIte]
      omega

theorem accounted_iff_leakFree (h : Counted r) : r.Accounted ↔ r.LeakFree := by
  have balance := h.balance
  rw [countP_counted] at balance
  unfold Accounted LeakFree
  constructor
  · intro accounted call mem
    have none_leaked : r.calls.countP leaked = 0 := by omega
    simpa using countP_eq_zero.mp none_leaked call mem
  · intro free
    have none_leaked : r.calls.countP leaked = 0 :=
      countP_eq_zero.mpr fun call mem => by simp [free call mem]
    omega

theorem abortCall_activeCalls (c : Nat) (reason : WasmRuntimeError) :
    (r.abortCall c reason).activeCalls = r.activeCalls := by
  unfold abortCall
  split
  · split_ifs <;> rfl
  · rfl

theorem abortAll_activeCalls (listens : Call → Bool) (reason : WasmRuntimeError) :
    (r.abortAll listens reason).activeCalls = r.activeCalls := by
  unfold abortAll
  generalize range r.calls.length = cs
  induction cs generalizing r with
  | nil => rfl
  | cons c cs ih =>
    simp only [foldl_cons]
    split_ifs
    · exact ih.trans (abortCall_activeCalls c reason)
    · exact ih

theorem shut_activeCalls : r.shut.activeCalls = r.activeCalls := by
  unfold shut
  split_ifs
  · rfl
  · exact abortAll_activeCalls _ _

theorem afterCalls_closing : r.afterCalls.closing ≠ .calls false := by
  unfold afterCalls
  split <;> simp [awaitBackground]

theorem close_waits {seams : Seams} (waits : (r.close seams).closing = .calls false) :
    r.closing = .calls false ∨ 0 < r.activeCalls := by
  unfold close at waits
  split_ifs at waits with first
  · simp only at waits
    split at waits
    · rw [shut_closing, first] at waits
      cases waits
    · split_ifs at waits with active
      · exact .inr (by simpa [emit, shut_activeCalls] using active)
      · exact absurd waits afterCalls_closing
  · exact .inl waits

theorem drains_of_accounted (h : Counted r) (accounted : r.Accounted) : r.Drains := by
  intro settled
  have none_pending : r.calls.countP pending = 0 :=
    countP_eq_zero.mpr fun call mem => by simp [settled call mem]
  have idle : r.activeCalls = 0 := accounted.trans none_pending
  have unblocked : r.closing ≠ .calls false := fun waits => by
    have positive := h.waiting waits
    omega
  refine ⟨unblocked, fun seams waits => ?_⟩
  rcases close_waits waits with before | active
  · exact unblocked before
  · omega

end GoforgeWasmRuntime

def nonNegative (value : JsNumber) : Bool := value.isFinite && !value.lt 0

/-- Nothing throws between `#activeCalls++` and the `try`: the clock and the request id are there,
and the timeout and the deadline are finite and not negative. -/
def WasmCallOptions.accepted (options : WasmCallOptions) (seams : Seams)
    (defaultTimeoutMs : Option JsNumber) : Bool :=
  (seams.now .invoke).isNone && (options.requestId.isSome || seams.requestId.isOk) &&
    (options.timeoutMs.or defaultTimeoutMs).all nonNegative &&
    options.deadline.all nonNegative

theorem requireFinite_cases (value : JsNumber) (name : JsString) :
    (nonNegative value = true ∧ requireFinite value name 0 (js "0") = .ok ()) ∨
      (nonNegative value = false ∧ ∃ cause, requireFinite value name 0 (js "0") = .error cause) := by
  unfold requireFinite nonNegative
  cases value.isFinite <;> cases value.lt 0 <;> simp

theorem resolveDeadline_ok_iff {options : WasmCallOptions} {defaultTimeoutMs : Option JsNumber}
    (now : JsNumber) : (∃ deadline, resolveDeadline options defaultTimeoutMs now = .ok deadline) ↔
      (options.timeoutMs.or defaultTimeoutMs).all nonNegative = true ∧
        options.deadline.all nonNegative = true := by
  unfold resolveDeadline
  cases options.timeoutMs.or defaultTimeoutMs with
  | none =>
    cases options.deadline with
    | none => exact iff_of_true ⟨_, rfl⟩ ⟨rfl, rfl⟩
    | some explicit =>
      rcases requireFinite_cases explicit (js "deadline") with ⟨good, eq⟩ | ⟨bad, cause, eq⟩
      · simp only [eq]
        exact iff_of_true ⟨_, rfl⟩ ⟨rfl, good⟩
      · simp only [eq]
        exact iff_of_false (fun ⟨_, h⟩ => by cases h) (by simp [bad])
  | some relative =>
    rcases requireFinite_cases relative (js "timeoutMs") with ⟨good, eq⟩ | ⟨bad, cause, eq⟩
    · cases options.deadline with
      | none =>
        simp only [eq]
        exact iff_of_true ⟨_, rfl⟩ ⟨good, rfl⟩
      | some explicit =>
        rcases requireFinite_cases explicit (js "deadline") with ⟨fine, eq'⟩ | ⟨bad, cause, eq'⟩
        · simp only [eq, eq']
          exact iff_of_true ⟨_, rfl⟩ ⟨good, fine⟩
        · simp only [eq, eq']
          exact iff_of_false (fun ⟨_, h⟩ => by cases h) (by simp [bad])
    · simp only [eq]
      exact iff_of_false (fun ⟨_, h⟩ => by cases h) (by simp [bad])

namespace GoforgeWasmRuntime

variable {r t : GoforgeWasmRuntime}

theorem invokeArguments_ok_iff {options : WasmCallOptions} {seams : Seams} :
    (∃ arguments, r.invokeArguments options seams = .ok arguments) ↔
      options.accepted seams r.defaultTimeoutMs = true := by
  unfold invokeArguments WasmCallOptions.accepted
  simp only [Bool.and_eq_true, and_assoc, ← resolveDeadline_ok_iff (r.clock r.turn)]
  constructor
  · rintro ⟨arguments, h⟩
    obtain ⟨startedAt, reading, h⟩ := bind_ok.mp h
    have clock : (seams.now .invoke).isNone = true := by
      cases thrown : seams.now .invoke with
      | none => rfl
      | some fault => simp [now, thrown] at reading
    cases given : options.requestId with
    | some requestId =>
      simp only [given, bind_ok] at h
      obtain ⟨_, _, deadline, resolved, _⟩ := h
      exact ⟨clock, rfl, deadline, now_ok reading ▸ resolved⟩
    | none =>
      simp only [given, bind_ok] at h
      obtain ⟨requestId, generated, deadline, resolved, _⟩ := h
      exact ⟨clock, by rw [generated]; rfl, deadline, now_ok reading ▸ resolved⟩
  · rintro ⟨clock, id, deadline, resolved⟩
    have reading : r.now seams .invoke = .ok (r.clock r.turn) := by
      simp [now, Option.isNone_iff_eq_none.mp clock]
    rw [reading]
    cases given : options.requestId with
    | some requestId => exact ⟨_, bind_ok.mpr ⟨_, rfl, bind_ok.mpr ⟨_, rfl,
        bind_ok.mpr ⟨_, resolved, rfl⟩⟩⟩⟩
    | none =>
      cases generated : seams.requestId with
      | error cause => simp [given, generated, Except.isOk, Except.toBool] at id
      | ok requestId => exact ⟨_, bind_ok.mpr ⟨_, rfl, bind_ok.mpr ⟨_, rfl,
          bind_ok.mpr ⟨_, resolved, rfl⟩⟩⟩⟩

theorem enterInvoke_calls (c : Nat) (call : Call) (seams : Seams) :
    ∃ after, (r.enterInvoke c call seams).calls = r.calls.set c after ∧ after.kind = call.kind ∧
      (after.phase = .loading ∨ ∃ outcome, after.phase = .settled outcome) := by
  unfold enterInvoke
  split
  · exact ⟨_, finish_calls _ _ _, rfl, .inr ⟨_, rfl⟩⟩
  · split
    · next loaded =>
      rw [← ensureLoaded_calls loaded]
      exact ⟨_, finish_calls _ _ _, rfl, .inr ⟨_, rfl⟩⟩
    · next loaded =>
      rw [← ensureLoaded_calls loaded]
      exact ⟨_, rfl, rfl, .inl rfl⟩

theorem invoke_calls (operation : JsString) (payload : JsValue) (options : WasmCallOptions)
    (seams : Seams) : ∃ call, call.kind = .invoke ∧
      (r.invoke operation payload options seams).calls = r.calls ++ [call] ∧
      ((r.isOpen = false ∧ call.phase = .refused) ∨
        (r.isOpen = true ∧ ∃ cause, r.invokeArguments options seams = .error cause ∧ call.phase = .thrown cause) ∨
        (r.isOpen = true ∧ (∃ arguments, r.invokeArguments options seams = .ok arguments) ∧
          (call.phase = .loading ∨ ∃ outcome, call.phase = .settled outcome))) := by
  unfold invoke
  simp only
  split_ifs with closed
  · exact ⟨_, rfl, rfl, .inl ⟨by simpa using closed, rfl⟩⟩
  · have isOpen : r.isOpen = true := by simpa using closed
    split
    · next cause failed => exact ⟨_, rfl, rfl, .inr (.inl ⟨isOpen, cause, failed, rfl⟩)⟩
    · next startedAt requestId deadline arguments =>
      let call : Call := { newCall .invoke operation payload options .entered with
        requestId, deadline
        scope := createAbortScope (r.callerAborted options) r.shutdown deadline startedAt }
      obtain ⟨after, eq, kind, next⟩ := enterInvoke_calls r.calls.length call seams
        (r := { r with activeCalls := r.activeCalls + 1 }.addCall call)
      refine ⟨after, kind, ?_, .inr (.inr ⟨isOpen, ⟨_, arguments⟩, next⟩)⟩
      rw [eq]
      simp [addCall]

theorem leaked_of_leads {before after : Call} (same : before.Same after)
    (leads : before.phase.leadsTo after.phase) (clean : before.leaked = false) : after.leaked = false := by
  unfold leaked at clean ⊢
  rw [same.kind]
  rcases leads with eq | ⟨_, live | ⟨outcome, settled⟩⟩
  · rw [eq]
    exact clean
  · split
    · next phase => rw [phase] at live; cases live
    · rfl
  · rw [settled]
    split
    · next phase => cases phase
    · rfl

theorem leakFree_step {e : RuntimeEvent} (h : r.LeakFree) (stepped : r.step e = some t)
    (other : ∀ operation payload options seams, e ≠ .invoke operation payload options seams) : t.LeakFree := by
  refine (step_moves stepped).invariant (I := LeakFree) (fun r t free move => ?_) h
  intro call mem
  rcases runtimeMove_calls move with same | ⟨c, before, after, here, eq, same, leads⟩ |
    ⟨added, eq, begins⟩
  · exact free call (same ▸ mem)
  · rw [eq] at mem
    rcases mem_or_eq_of_mem_set mem with old | rfl
    · exact free call old
    · exact leaked_of_leads same leads (free before (mem_of_getElem? here))
  · rw [eq] at mem
    rcases mem_append.mp mem with old | new
    · exact free call old
    · cases mem_singleton.mp new
      rcases begins.phase with entered | inert | ⟨operation, payload, options, seams, _, event, _⟩
      · simp [leaked, entered]
      · have uncounted := inert_uncounted inert
        exact (Bool.or_eq_false_iff.mp uncounted).2
      · exact absurd event (other operation payload options seams)

theorem leakFree_invoke (h : r.LeakFree) (operation : JsString) (payload : JsValue)
    (options : WasmCallOptions) (seams : Seams) : (r.invoke operation payload options seams).LeakFree ↔
      (r.isOpen = true → options.accepted seams r.defaultTimeoutMs = true) := by
  obtain ⟨call, kind, eq, stands⟩ := invoke_calls (r := r) operation payload options seams
  have leaks_iff : (r.invoke operation payload options seams).LeakFree ↔ call.leaked = false := by
    unfold LeakFree
    rw [eq]
    constructor
    · intro free
      exact free call (by simp)
    · intro clean other mem
      rcases mem_append.mp mem with old | new
      · exact h other old
      · rw [mem_singleton.mp new]
        exact clean
  rw [leaks_iff, ← invokeArguments_ok_iff]
  rcases stands with ⟨closed, phase⟩ | ⟨isOpen, cause, failed, phase⟩ | ⟨isOpen, good, phase⟩
  · refine iff_of_true (by simp [leaked, phase]) (fun isOpen => ?_)
    cases closed.symm.trans isOpen
  · refine iff_of_false (by simp [leaked, kind, phase]) (fun good => ?_)
    obtain ⟨arguments, good⟩ := good isOpen
    cases failed.symm.trans good
  · refine iff_of_true ?_ (fun _ => good)
    rcases phase with loading | ⟨outcome, settled⟩
    · simp [leaked, loading]
    · simp [leaked, settled]

end GoforgeWasmRuntime

/-- The invocations that pass the open check have arguments that do not throw. -/
def AcceptedArguments (r : GoforgeWasmRuntime) (e : RuntimeEvent) (_ : GoforgeWasmRuntime) : Prop :=
  (match e with
    | .invoke _ _ options seams => !r.isOpen || options.accepted seams r.defaultTimeoutMs
    | _ => true) = true

instance (r : GoforgeWasmRuntime) (e : RuntimeEvent) (t : GoforgeWasmRuntime) :
    Decidable (AcceptedArguments r e t) := inferInstanceAs (Decidable (_ = true))

namespace GoforgeWasmRuntime

variable {r t : GoforgeWasmRuntime} {e : RuntimeEvent}

theorem leakFree_iff_accepted (h : r.LeakFree) (stepped : r.step e = some t) :
    t.LeakFree ↔ AcceptedArguments r e t := by
  cases e with
  | invoke operation payload options seams =>
    cases stepped
    refine (leakFree_invoke h operation payload options seams).trans ?_
    simp only [AcceptedArguments, Bool.or_eq_true, Bool.not_eq_true', ← Bool.not_eq_true]
    exact Decidable.imp_iff_not_or
  | _ => exact iff_of_true (leakFree_step h stepped (by simp)) rfl

end GoforgeWasmRuntime

/-- From its construction on, the runtime's call accounting holds, and with it no settled work
keeps `close()` waiting, exactly as long as no invocation throws between the open check and its
`try`. -/
theorem accounting_iff_acceptedArguments {options : GoforgeWasmRuntimeOptions}
    {r : GoforgeWasmRuntime} (constructed : GoforgeWasmRuntime.new options = .ok r) (es : List RuntimeEvent) :
    (∀ pre t, pre <+: es → runtimeMachine.run r pre = some t → t.Accounted ∧ t.Drains) ↔
      runtimeMachine.Along AcceptedArguments r es := by
  have fresh := GoforgeWasmRuntime.new_fresh constructed
  have begun := GoforgeWasmRuntime.counted_fresh fresh
  have free : r.LeakFree := by
    intro call mem
    rw [fresh.calls] at mem
    cases mem
  have accounted := (GoforgeWasmRuntime.accounted_iff_leakFree begun).mpr free
  refine runtimeMachine.throughout_iff_along (I := Counted)
    (B := fun t => t.Accounted ∧ t.Drains) ?_ ?_ begun
    ⟨accounted, GoforgeWasmRuntime.drains_of_accounted begun accounted⟩ es
  · intro r e t counted stepped
    exact GoforgeWasmRuntime.counted_step counted stepped
  · intro r e t counted holds stepped
    have after := GoforgeWasmRuntime.counted_step counted stepped
    have free := (GoforgeWasmRuntime.accounted_iff_leakFree counted).mp holds.1
    rw [← GoforgeWasmRuntime.leakFree_iff_accepted free stepped,
      ← GoforgeWasmRuntime.accounted_iff_leakFree after]
    exact ⟨fun holds => holds.1,
      fun accounted => ⟨accounted, GoforgeWasmRuntime.drains_of_accounted after accounted⟩⟩

/-- A call that is running when `close()` comes, and settles. -/
def acceptedRun : List RuntimeEvent :=
  [.invoke (js "crypto.sha256") .undefined { WasmCallOptions.empty with timeoutMs := some 5 } .calm,
    .close .calm, .resume 0 .calm]

theorem accounting_when_accepted : ∃ r t, GoforgeWasmRuntime.new (.defaults fun _ => 0) = .ok r ∧
      runtimeMachine.run r acceptedRun = some t ∧ t.Accounted ∧ t.Drains := by
  have checks : (GoforgeWasmRuntimeOptions.defaults fun _ => 0).builds (fun r =>
      decide (runtimeMachine.Along AcceptedArguments r acceptedRun) &&
        (runtimeMachine.run r acceptedRun).isSome) = true := by decide +kernel
  obtain ⟨r, constructed, checked⟩ := new_of_builds checks
  obtain ⟨accepted, reached⟩ := (Bool.and_eq_true _ _).mp checked
  obtain ⟨t, reached⟩ := Option.isSome_iff_exists.mp reached
  have holds := (accounting_iff_acceptedArguments constructed acceptedRun).mpr
    (of_decide_eq_true accepted)
  exact ⟨r, t, constructed, reached, holds _ _ (List.prefix_refl _) reached⟩

/-- An invocation that passes the open check with a negative timeout, and `close()`. -/
def negativeTimeoutRun : List RuntimeEvent :=
  [.invoke (js "crypto.sha256") .undefined
      { WasmCallOptions.empty with timeoutMs := some (JsNumber.ofInt (-1)) } .calm,
    .close .calm]

/-- A negative timeout throws behind `#activeCalls++`: nothing is pending, and `close()` waits. -/
theorem negative_timeout_keeps_close_waiting : ∃ r t, GoforgeWasmRuntime.new (.defaults fun _ => 0) = .ok r ∧
      runtimeMachine.run r negativeTimeoutRun = some t ∧
      t.activeCalls = 1 ∧ t.calls.countP Call.pending = 0 ∧ t.closing = .calls false := by
  have shown : (GoforgeWasmRuntimeOptions.defaults fun _ => 0).shows negativeTimeoutRun (fun t =>
      decide (t.activeCalls = 1 ∧ t.calls.countP Call.pending = 0 ∧
        t.closing = .calls false)) = true := by decide +kernel
  obtain ⟨r, t, constructed, reached, holds⟩ := run_of_shows shown
  exact ⟨r, t, constructed, reached, of_decide_eq_true holds⟩

end ForgeDeno
