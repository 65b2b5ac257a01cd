import ForgeDeno.RuntimeAttempts

namespace ForgeDeno

open Option List

abbrev CallMark := WasmRuntimeEventType × Option Nat

def WasmRuntimeEvent.mark (event : WasmRuntimeEvent) : CallMark := (event.type, event.attempt)

def traceOf (id : JsString) (events : List WasmRuntimeEvent) : List CallMark :=
  (events.filter fun event => event.requestId = some id).map WasmRuntimeEvent.mark

def opening (attempt : Nat) (queued : Bool) : List CallMark :=
  (.callStart, some attempt) :: if queued then [(.callQueued, none)] else []

/-- Consecutive attempts from `first` on, each of which failed and was followed by the decision for
another; the flags tell which of them were queued. -/
def retriedFrom (first : Nat) : List Bool → List CallMark
  | [] => []
  | queued :: rest => opening first queued ++ (.callFailure, some first) ::
      (.callRetry, some (first + 1)) :: retriedFrom (first + 1) rest

def CallPhase.attempting : CallPhase → Bool
  | .starting | .leasing _ | .undispatched _ _ _ | .dispatched _ | .adapting _ | .adapted _
  | .returned _ => true
  | _ => false

/-- The trace of a call that is in an attempt, with `failed` for the attempts before it. -/
def Call.Opened (call : Call) (trace : List CallMark) : Prop :=
  ∃ (failed : List Bool) (queued : Bool), call.attempt = failed.length + 1 ∧
    trace = retriedFrom 1 failed ++ opening call.attempt queued

def Call.Begun (call : Call) (trace : List CallMark) : Prop :=
  ∃ failed : List Bool, call.attempt = failed.length + 1 ∧
    trace = retriedFrom 1 failed ++ [(.callStart, some call.attempt)]

def Call.Rested (call : Call) (trace : List CallMark) : Prop :=
  ∃ failed : List Bool, call.attempt = failed.length ∧ trace = retriedFrom 1 failed

def Call.Failed (call : Call) (trace : List CallMark) : Prop :=
  ∃ front, call.Opened front ∧ trace = front ++ [(.callFailure, some call.attempt)]

def Call.Resting (call : Call) (trace : List CallMark) : Prop :=
  call.attempt ≠ 0 ∧ call.Rested trace

inductive Call.Told (call : Call) (trace : List CallMark) : Prop where
  /-- before the first attempt, or rejected there -/
  | unstarted (attempt : call.attempt = 0) (silent : trace = [])
      (phase : call.phase.early = true ∨ ∃ outcome, call.phase = .settled outcome ∧
        (call.kind = .invoke → ∃ error, outcome = .error error))
  | attempting (phase : call.phase.attempting = true) (opened : call.Opened trace)
  /-- a further attempt has been decided -/
  | paused (phase : call.phase.paused = true) (resting : call.Resting trace)
      (more : ∀ plan, call.plan = some plan → call.attempt < plan.maxAttempts)
      (aborted : ∀ cause, call.phase = .slept (.error cause) →
        ∃ reason, call.scope.reason = some reason ∧ cause = .wasm reason)
  | succeeded (value : JsValue) (front : List CallMark) (phase : call.phase = .settled (.ok value))
      (opened : call.Opened front) (last : trace = front ++ [(.callSuccess, some call.attempt)])
  | failed (error : Thrown) (phase : call.phase = .settled (.error error))
      (failed : call.Failed trace) (disposed : call.scope.disposed = true)
      (aborted : ∀ reason, call.scope.reason = some reason → error = .wasm reason)
  /-- aborted after a further attempt had been decided and before it began -/
  | aborted (reason : WasmRuntimeError) (phase : call.phase = .settled (.error (.wasm reason)))
      (aborted : call.scope.reason = some reason) (resting : call.Resting trace)

theorem retriedFrom_concat (first : Nat) (failed : List Bool) (queued : Bool) :
    retriedFrom first (failed ++ [queued]) = retriedFrom first failed ++ opening (first + failed.length) queued ++
        [(.callFailure, some (first + failed.length)), (.callRetry, some (first + failed.length + 1))] := by
  induction failed generalizing first with
  | nil => simp [retriedFrom]
  | cons q rest ih =>
    have shift : first + 1 + rest.length = first + (rest.length + 1) := by omega
    simp only [cons_append, retriedFrom, ih, length_cons, shift, append_assoc]

theorem Call.Opened.retry {call after : Call} {trace : List CallMark} (opened : call.Opened trace)
    (attempt : after.attempt = call.attempt) : after.Rested (trace ++ [(.callFailure, some call.attempt),
      (.callRetry, some (call.attempt + 1))]) := by
  obtain ⟨failed, queued, number, rfl⟩ := opened
  have next : 1 + failed.length = call.attempt := by omega
  refine ⟨failed ++ [queued], ?_, ?_⟩
  · rw [attempt, number, length_append]
    rfl
  · rw [retriedFrom_concat, next]

theorem Call.Rested.start {call after : Call} {trace : List CallMark} (rested : call.Rested trace)
    (attempt : after.attempt = call.attempt + 1) : after.Begun (trace ++ [(.callStart, some after.attempt)]) := by
  obtain ⟨failed, number, rfl⟩ := rested
  exact ⟨failed, by omega, rfl⟩

theorem Call.Begun.opened {call : Call} {trace : List CallMark} (begun : call.Begun trace) :
    call.Opened trace := by
  obtain ⟨failed, number, rfl⟩ := begun
  exact ⟨failed, false, number, rfl⟩

theorem Call.Begun.queue {call : Call} {trace : List CallMark} (begun : call.Begun trace) :
    call.Opened (trace ++ [(.callQueued, none)]) := by
  obtain ⟨failed, number, rfl⟩ := begun
  exact ⟨failed, true, number, append_assoc _ _ _⟩

theorem Call.Opened.same {call after : Call} {trace : List CallMark} (opened : call.Opened trace)
    (attempt : after.attempt = call.attempt) : after.Opened trace := by
  unfold Opened
  rw [attempt]
  exact opened

section

variable {call : Call} {trace : List CallMark}

theorem Call.Told.early (told : call.Told trace) (phase : call.phase.early = true) :
    call.attempt = 0 ∧ trace = [] := by
  cases told with
  | unstarted attempt silent => exact ⟨attempt, silent⟩
  | attempting other | paused other =>
    revert phase other
    cases call.phase <;> simp [CallPhase.early, CallPhase.attempting, CallPhase.paused]
  | succeeded value front settled | failed error settled | aborted reason settled =>
    rw [settled] at phase
    cases phase

theorem Call.Told.opened (told : call.Told trace) (phase : call.phase.attempting = true) : call.Opened trace := by
  cases told with
  | attempting _ opened => exact opened
  | unstarted attempt silent other =>
    rcases other with early | ⟨outcome, settled, _⟩
    · revert phase early
      cases call.phase <;> simp [CallPhase.early, CallPhase.attempting]
    · rw [settled] at phase
      cases phase
  | paused other =>
    revert phase other
    cases call.phase <;> simp [CallPhase.attempting, CallPhase.paused]
  | succeeded value front settled | failed error settled | aborted reason settled =>
    rw [settled] at phase
    cases phase

theorem Call.Told.resting (told : call.Told trace) (phase : call.phase.paused = true) :
    call.Resting trace ∧ (∀ plan, call.plan = some plan → call.attempt < plan.maxAttempts) ∧
      ∀ cause, call.phase = .slept (.error cause) →
        ∃ reason, call.scope.reason = some reason ∧ cause = .wasm reason := by
  cases told with
  | paused _ resting more aborted => exact ⟨resting, more, aborted⟩
  | unstarted attempt silent other =>
    rcases other with early | ⟨outcome, settled, _⟩
    · revert phase early
      cases call.phase <;> simp [CallPhase.early, CallPhase.paused]
    · rw [settled] at phase
      cases phase
  | attempting other =>
    revert phase other
    cases call.phase <;> simp [CallPhase.attempting, CallPhase.paused]
  | succeeded value front settled | failed error settled | aborted reason settled =>
    rw [settled] at phase
    cases phase

end

/-- A step of a call, with the marks of what it emits and an observer is told. -/
structure Narrates (c : Nat) (call after : Call) (marks : List CallMark) (r t : GoforgeWasmRuntime) : Prop where
  here : r.calls[c]? = some call
  calls : t.calls = r.calls.set c after
  same : call.Same after
  observer : t.observer = r.observer
  events : ∃ told : List WasmRuntimeEvent, (r.observer.isSome = true → t.events = r.events ++ told) ∧
    told.map WasmRuntimeEvent.mark = marks ∧
    ∀ event ∈ told, event.requestId = some call.requestId

/-- A function takes a call on from a trace with `P` to one that fits where the call then stands. -/
def Conveys (c : Nat) (call : Call) (P : List CallMark → Prop) (r t : GoforgeWasmRuntime) : Prop :=
  ∃ after marks, Narrates c call after marks r t ∧ ∀ trace, P trace → after.Told (trace ++ marks)

structure Seams.Steady (seams : Seams) : Prop where
  now : ∀ site, seams.now site = none
  sleep : seams.sleep = none

section

variable {r s t : GoforgeWasmRuntime} {c : Nat} {call later last : Call}
variable {first second : List CallMark} {P Q : List CallMark → Prop}

theorem Call.Same.refl (call : Call) : call.Same call := ⟨rfl, rfl, rfl, rfl, rfl, rfl⟩

theorem Call.Same.trans (first : call.Same later) (second : later.Same last) : call.Same last :=
  ⟨second.kind.trans first.kind, second.operation.trans first.operation,
    second.payload.trans first.payload, second.options.trans first.options,
    second.requestId.trans first.requestId, second.deadline.trans first.deadline⟩

theorem Narrates.after (h : Narrates c call later first r s) : s.calls[c]? = some later := by
  rw [h.calls]
  obtain ⟨bound, _⟩ := List.getElem?_eq_some_iff.mp h.here
  simp [bound]

theorem Narrates.trans (h : Narrates c call later first r s)
    (next : Narrates c later last second s t) : Narrates c call last (first ++ second) r t := by
  obtain ⟨told, front, marks, named⟩ := h.events
  obtain ⟨more, back, others, renamed⟩ := next.events
  refine ⟨h.here, ?_, h.same.trans next.same, next.observer.trans h.observer, told ++ more, ?_, ?_, ?_⟩
  · rw [next.calls, h.calls, set_set]
  · intro heard
    rw [back (h.observer ▸ heard), front heard, append_assoc]
  · rw [map_append, marks, others]
  · intro event mem
    rcases mem_append.mp mem with early | late
    · exact named event early
    · rw [renamed event late, h.same.requestId]

theorem Narrates.conveys (h : Narrates c call later first r s) (conveys : Conveys c later Q s t)
    (gives : ∀ trace, P trace → Q (trace ++ first)) : Conveys c call P r t := by
  obtain ⟨last, marks, next, fits⟩ := conveys
  refine ⟨last, first ++ marks, h.trans next, fun trace holds => ?_⟩
  rw [← append_assoc]
  exact fits _ (gives trace holds)

theorem Conveys.imp (h : Conveys c call Q r t) (gives : ∀ trace, P trace → Q trace) : Conveys c call P r t := by
  obtain ⟨later, marks, narrates, fits⟩ := h
  exact ⟨later, marks, narrates, fun trace holds => fits trace (gives trace holds)⟩

theorem Conveys.of_same (h : Conveys c call P r t) (calls : s.calls = r.calls)
    (events : (s.observer, s.events) = (r.observer, r.events)) : Conveys c call P s t := by
  obtain ⟨observer, before⟩ := Prod.mk.inj events
  obtain ⟨later, marks, ⟨here, set, same, kept, told⟩, fits⟩ := h
  rw [← observer, ← before] at told
  exact ⟨later, marks, ⟨calls ▸ here, calls ▸ set, same, kept.trans observer.symm, told⟩, fits⟩

end

namespace GoforgeWasmRuntime

variable {r t : GoforgeWasmRuntime} {c : Nat} {call later : Call} {seams : Seams}
variable {P Q : List CallMark → Prop} {plan : CallPlan}

theorem narrates_put (here : r.calls[c]? = some call) (same : call.Same later) :
    Narrates c call later [] r (r.putCall c later) :=
  ⟨here, rfl, same, rfl, [], by simp [putCall], rfl, by simp⟩

theorem narrates_emit (here : r.calls[c]? = some call) {event : WasmRuntimeEvent}
    (named : event.requestId = some call.requestId) : Narrates c call call [event.mark] r (r.emit event) := by
  have unchanged : r.calls.set c call = r.calls := by
    obtain ⟨bound, rfl⟩ := List.getElem?_eq_some_iff.mp here
    exact List.set_getElem_self bound
  refine ⟨here, unchanged.symm, .refl call, rfl, [event], fun heard => emitTo_heard heard r.events event,
    rfl, ?_⟩
  intro other mem
  rw [List.mem_singleton.mp mem]
  exact named

theorem finish_events (outcome : Except Thrown JsValue) : (r.finish c call outcome).events = r.events := by
  unfold finish
  simp only
  split_ifs <;> rfl

theorem narrates_finish (here : r.calls[c]? = some call) (outcome : Except Thrown JsValue) :
    Narrates c call { call with phase := .settled outcome, scope := { call.scope with disposed := true } } []
      r (r.finish c call outcome) :=
  ⟨here, finish_calls c call outcome, ⟨rfl, rfl, rfl, rfl, rfl, rfl⟩, (finish_frame c call outcome).1.observer, [],
    fun _ => by rw [finish_events, append_nil], rfl, by simp⟩

theorem now_steady (steady : seams.Steady) (site : NowSite) : r.now seams site = .ok (r.clock r.turn) := by
  simp [now, steady.now]

theorem timed_steady (steady : seams.Steady) (timestamp duration : NowSite) (startedAt : JsNumber) :
    r.timed seams timestamp duration startedAt =
      .ok (r.clock r.turn, JsNumber.max 0 ((r.clock r.turn).sub startedAt)) := by
  simp only [timed, now_steady steady]
  rfl

theorem conveys_put (here : r.calls[c]? = some call) (same : call.Same later)
    (fits : ∀ trace, P trace → later.Told trace) : Conveys c call P r (r.putCall c later) := by
  refine ⟨later, [], narrates_put here same, fun trace holds => ?_⟩
  rw [append_nil]
  exact fits trace holds

theorem conveys_finish (here : r.calls[c]? = some call) {outcome : Except Thrown JsValue}
    (fits : ∀ trace, P trace → Call.Told { call with
      phase := .settled outcome, scope := { call.scope with disposed := true } } trace) :
    Conveys c call P r (r.finish c call outcome) := by
  refine ⟨_, [], narrates_finish here outcome, fun trace holds => ?_⟩
  rw [append_nil]
  exact fits trace holds

theorem conveys_emit {event : WasmRuntimeEvent} (here : r.calls[c]? = some call)
    (rest : Conveys c call Q (r.emit event) t) (named : event.requestId = some call.requestId)
    (gives : ∀ trace, P trace → Q (trace ++ [event.mark])) : Conveys c call P r t :=
  (narrates_emit here named).conveys rest gives

theorem attemptFailed_conveys {cause : Thrown} (steady : seams.Steady)
    (here : r.calls[c]? = some call) (planned : call.plan = some plan) :
    Conveys c call call.Opened r (r.attemptFailed c call plan cause seams) := by
  unfold attemptFailed
  simp only [timed_steady steady, now_steady steady, steady.sleep]
  refine Conveys.of_same (r := { r with lastErrorCode := (normalizeCallError cause
    call.options.route call.scope.reason).runtime?.map WasmRuntimeError.code }) ?_ rfl rfl
  split_ifs with last
  · refine conveys_emit (Q := call.Failed) here (conveys_finish ?_ ?_) ?_ ?_
    · exact here
    · refine fun trace failed => .failed _ rfl failed rfl fun reason aborted => ?_
      have stopped : call.scope.reason = some reason := aborted
      simp [normalizeCallError, stopped]
    · rfl
    · exact fun front opened => ⟨front, opened, rfl⟩
  · simp only [Bool.not_eq_true', Bool.not_eq_false, Bool.and_eq_true, decide_eq_true_eq] at last
    refine conveys_emit (Q := call.Failed) here
      (conveys_emit (Q := call.Resting) ?_ (conveys_put ?_ ?_ ?_) ?_ ?_) ?_ ?_
    · exact here
    · exact here
    · exact ⟨rfl, rfl, rfl, rfl, rfl, rfl⟩
    · intro trace resting
      refine .paused ?_ resting ?_ ?_
      · cases call.scope.reason <;> rfl
      · intro other eq
        cases planned.symm.trans eq
        exact last.1
      · intro cause stopped
        cases aborted : call.scope.reason with
        | none =>
          rw [aborted] at stopped
          cases stopped
        | some reason =>
          rw [aborted] at stopped
          cases stopped
          exact ⟨reason, rfl, rfl⟩
    · rfl
    · rintro trace ⟨front, opened, rfl⟩
      have rested : call.Rested _ := opened.retry rfl
      rw [append_assoc]
      obtain ⟨failed, queued, number, _⟩ := opened
      exact ⟨by omega, rested⟩
    · rfl
    · exact fun front opened => ⟨front, opened, rfl⟩

theorem attemptSucceeded_conveys {value : JsValue} (steady : seams.Steady) (here : r.calls[c]? = some call) :
    Conveys c call call.Opened r (r.attemptSucceeded c call plan value seams) := by
  unfold attemptSucceeded
  simp only [timed_steady steady]
  refine Conveys.of_same (r := { r with state := .ready, lastErrorCode := none }) ?_ rfl rfl
  refine conveys_emit (Q := fun trace => ∃ front, call.Opened front ∧
    trace = front ++ [(.callSuccess, some call.attempt)]) here (conveys_finish ?_ ?_) ?_ ?_
  · exact here
  · rintro trace ⟨front, opened, last⟩
    exact .succeeded value front rfl opened last
  · rfl
  · exact fun front opened => ⟨front, opened, rfl⟩

theorem conveys_going (here : r.calls[c]? = some call) {phase : CallPhase}
    (calls : t.calls = r.calls.set c { call with phase })
    (events : (t.observer, t.events) = (r.observer, r.events))
    (attempting : phase.attempting = true) : Conveys c call call.Opened r t := by
  obtain ⟨observer, after⟩ := Prod.mk.inj events
  refine ⟨{ call with phase }, [], ⟨here, calls, ⟨rfl, rfl, rfl, rfl, rfl, rfl⟩, observer, [], ?_, rfl, ?_⟩,
    fun trace opened => ?_⟩
  · intro _
    rw [after, append_nil]
  · simp
  · rw [append_nil]
    exact .attempting attempting opened

theorem acquireLease_conveys (here : r.calls[c]? = some call) (pool : InstancePool)
    (requestJson : JsString) (state : AbiExecutionStateV1) :
    Conveys c call call.Opened r (r.acquireLease c call pool requestJson state) :=
  conveys_going here rfl rfl (by rfl)

theorem invokeComponent_conveys {requestJson : JsString} {state : AbiExecutionStateV1}
    (steady : seams.Steady) (here : r.calls[c]? = some call) :
    Conveys c call call.Begun r (r.invokeComponent c call requestJson state seams) := by
  have quiet : ∀ trace, call.Begun trace → call.Opened trace := fun trace begun => begun.opened
  unfold invokeComponent
  split
  · exact Conveys.imp (conveys_going here rfl rfl (by rfl)) quiet
  · next pool some_pool =>
    split_ifs
    · simp only [now_steady steady]
      refine conveys_emit (Q := call.Opened) here (acquireLease_conveys ?_ pool requestJson state) ?_ ?_
      · exact here
      · rfl
      · exact fun trace begun => begun.queue
    · exact (acquireLease_conveys here pool requestJson state).imp quiet

theorem invokeAdapter_conveys {name : JsString} (here : r.calls[c]? = some call) :
    Conveys c call call.Opened r (r.invokeAdapter c call plan name) := by
  unfold invokeAdapter
  split
  · exact conveys_going here rfl rfl rfl
  · next adapter _ =>
    refine conveys_going here rfl rfl ?_
    cases call.scope.reason <;> rfl

theorem startAttempt_conveys (steady : seams.Steady) (here : r.calls[c]? = some call) :
    Conveys c call call.Rested r (r.startAttempt c call plan seams) := by
  unfold startAttempt
  simp only [now_steady steady]
  let begun : Call := { call with
    plan := some plan, attempt := call.attempt + 1, attemptStartedAt := r.clock r.turn
    phase := .starting }
  let event : WasmRuntimeEvent :=
    { type := .callStart, timestamp := r.clock r.turn, requestId := some call.requestId,
      operation := some call.operation, target := some (targetName call.options.route),
      attempt := some (call.attempt + 1) }
  have put : Narrates c call begun [] r (r.putCall c begun) :=
    narrates_put here ⟨rfl, rfl, rfl, rfl, rfl, rfl⟩
  have named : event.requestId = some begun.requestId := rfl
  have told : Narrates c call begun [event.mark] r ((r.putCall c begun).emit event) :=
    put.trans (narrates_emit put.after named)
  refine told.conveys (Q := begun.Begun) ?_ fun trace rested => rested.start rfl
  have opened : ∀ trace, begun.Begun trace → begun.Opened trace := fun trace h => h.opened
  split
  · split
    · exact (attemptFailed_conveys steady told.after rfl).imp opened
    · exact invokeComponent_conveys steady told.after
  · exact (invokeAdapter_conveys told.after).imp opened

theorem resumeLoaded_conveys {result : Except Thrown WasmBundleManifestV1} (steady : seams.Steady)
    (here : r.calls[c]? = some call) : Conveys c call (fun trace => call.attempt = 0 ∧ trace = []) r
      (r.resumeLoaded c call result seams) := by
  have settles (outcome : Except Thrown JsValue)
      (error : call.kind = .invoke → ∃ error, outcome = .error error) :
      Conveys c call (fun trace => call.attempt = 0 ∧ trace = []) r (r.finish c call outcome) :=
    conveys_finish here fun trace ⟨attempt, silent⟩ =>
      .unstarted attempt silent (.inr ⟨outcome, rfl, error⟩)
  unfold resumeLoaded
  split
  · exact settles _ fun _ => ⟨_, rfl⟩
  · next preload =>
    refine settles _ fun invoked => ?_
    cases preload.symm.trans invoked
  · next manifest _ =>
    split
    · next cause _ => exact settles _ fun _ => ⟨cause, rfl⟩
    · refine (startAttempt_conveys steady here).imp ?_
      rintro trace ⟨attempt, rfl⟩
      exact ⟨[], attempt, rfl⟩

theorem resumeLeasing_conveys {request : LeaseRequest} (here : r.calls[c]? = some call)
    (h : r.resumeLeasing c call request seams = some t) : Conveys c call call.Opened r t := by
  unfold resumeLeasing at h
  obtain ⟨pool, some_pool, h⟩ := bind_eq_some_iff.mp h
  split at h
  · next lease found =>
    split at h
    · next reason aborted =>
      cases h
      exact conveys_going here rfl rfl rfl
    · simp only at h
      split at h
      · cases h
        exact conveys_going here rfl rfl rfl
      · cases h
        exact conveys_going here rfl rfl rfl
  · split at h
    · cases h
      exact conveys_going here rfl rfl rfl
    · cases h

theorem resumeSlept_conveys {result : Except Thrown Unit} (steady : seams.Steady)
    (here : r.calls[c]? = some call) :
    Conveys c call (fun trace => call.Resting trace ∧ call.attempt < plan.maxAttempts ∧
        ∀ cause, result = .error cause → ∃ reason, call.scope.reason = some reason ∧ cause = .wasm reason) r
      (r.resumeSlept c call plan result seams) := by
  unfold resumeSlept
  split
  · next cause =>
    refine conveys_finish here fun trace ⟨resting, _, aborted⟩ => ?_
    obtain ⟨reason, stopped, rfl⟩ := aborted cause rfl
    exact .aborted reason rfl stopped resting
  · split_ifs with more
    · exact (startAttempt_conveys steady here).imp fun trace ⟨resting, _⟩ => resting.2
    · exact conveys_finish here fun trace ⟨_, fewer, _⟩ => absurd fewer more

theorem resumeReturned_conveys {result : Except Thrown AbiResponseV1} (steady : seams.Steady)
    (here : r.calls[c]? = some call) (planned : call.plan = some plan) :
    Conveys c call call.Opened r (r.resumeReturned c call plan result seams) := by
  unfold resumeReturned
  split
  · exact attemptSucceeded_conveys steady here
  · exact attemptFailed_conveys steady here planned
  · exact attemptFailed_conveys steady here planned

theorem resume_conveys (steady : seams.Steady) (here : r.calls[c]? = some call)
    (h : r.resume c seams = some t) : Conveys c call call.Told r t := by
  unfold resume at h
  rw [here, bind_eq_bind, bind_some] at h
  split at h
  · next result phase =>
    cases h
    exact (resumeLoaded_conveys steady here).imp fun trace told => told.early (by rw [phase]; rfl)
  · next request phase =>
    exact (resumeLeasing_conveys here h).imp fun trace told => told.opened (by rw [phase]; rfl)
  · next entry awaitsClose cause phase =>
    unfold resumeUndispatched at h
    obtain ⟨failure, _, h⟩ := bind_eq_some_iff.mp h
    have eq : r.setPhase c call (.returned (.error (failure.getD (invocationFailure cause)))) = t :=
      some.inj h
    rw [← eq]
    exact Conveys.imp (conveys_going here rfl rfl (by rfl)) fun trace told =>
      told.opened (by rw [phase]; rfl)
  · next result phase =>
    cases h
    exact Conveys.imp (conveys_going here rfl rfl (by rfl)) fun trace told =>
      told.opened (by rw [phase]; rfl)
  · next result plan phase planned =>
    cases h
    exact (resumeReturned_conveys steady here planned).imp fun trace told =>
      told.opened (by rw [phase]; rfl)
  · next result plan phase planned =>
    cases h
    refine (resumeSlept_conveys steady here).imp fun trace told => ?_
    obtain ⟨resting, more, aborted⟩ := told.resting (by rw [phase]; rfl)
    refine ⟨resting, more plan planned, fun cause eq => aborted cause ?_⟩
    rw [phase, eq]
  · cases h

end GoforgeWasmRuntime

end ForgeDeno
