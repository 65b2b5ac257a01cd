import ForgeDeno.CallTraces

namespace ForgeDeno

open ListRules Option CallPhase

def CallPhase.begun : CallPhase → Bool
  | .refused | .thrown _ => false
  | _ => true

structure Call.Bears (id : JsString) (call : Call) : Prop where
  kind : call.kind = .invoke
  begun : call.phase.begun = true
  requestId : call.requestId = id

structure Call.Passes (call after : Call) : Prop where
  same : call.Same after
  begun : after.phase.begun = call.phase.begun
  told : ∀ trace, call.Told trace → after.Told trace

/-- The injected clock and the injected pause do not throw, and the pause is not rejected, where a
call goes on. -/
structure RuntimeEvent.Steady (e : RuntimeEvent) : Prop where
  seams : ∀ c seams, e = .resume c seams → seams.Steady
  pause : ∀ c result, e = .wake c result → result = .ok ()

theorem Call.Passes.refl (call : Call) : call.Passes call := ⟨.refl call, rfl, fun _ => id⟩

theorem Call.Passes.trans {call later last : Call} (first : call.Passes later)
    (second : later.Passes last) : call.Passes last :=
  ⟨first.same.trans second.same, second.begun.trans first.begun,
    fun trace told => second.told trace (first.told trace told)⟩

theorem Call.Same.bears {call later : Call} {id : JsString} (same : call.Same later)
    (begun : later.phase.begun = call.phase.begun) : later.Bears id ↔ call.Bears id := by
  constructor
  · rintro ⟨kind, started, named⟩
    exact ⟨same.kind.symm.trans kind, begun.symm.trans started, same.requestId.symm.trans named⟩
  · rintro ⟨kind, started, named⟩
    exact ⟨same.kind.trans kind, begun.trans started, same.requestId.trans named⟩

theorem traceOf_append (id : JsString) (events told : List WasmRuntimeEvent) :
    traceOf id (events ++ told) = traceOf id events ++ traceOf id told := by
  simp [traceOf]

theorem traceOf_others {id : JsString} {told : List WasmRuntimeEvent}
    (others : ∀ event ∈ told, event.requestId ≠ some id) : traceOf id told = [] := by
  have none_left : told.filter (fun event => event.requestId = some id) = [] := by
    refine List.filter_eq_nil_iff.mpr fun event mem => ?_
    simpa using others event mem
  simp [traceOf, none_left]

theorem traceOf_own {id : JsString} {told : List WasmRuntimeEvent}
    (own : ∀ event ∈ told, event.requestId = some id) : traceOf id told = told.map WasmRuntimeEvent.mark := by
  have all_left : told.filter (fun event => event.requestId = some id) = told := by
    refine List.filter_eq_self.mpr fun event mem => ?_
    simpa using own event mem
  rw [traceOf, all_left]

namespace GoforgeWasmRuntime

variable {e : RuntimeEvent} {r t : GoforgeWasmRuntime} {c : Nat} {call : Call} {seams : Seams}

theorem passes_interrupted (reason : WasmRuntimeError) (listening : call.scope.disposed = false)
    (first : call.scope.reason = none) : call.Passes { call with
      scope := { call.scope with reason := some reason }
      phase := call.phase.interrupted reason } := by
  refine ⟨⟨rfl, rfl, rfl, rfl, rfl, rfl⟩, ?_, fun trace told => ?_⟩
  · cases call.phase <;> rfl
  · cases told with
    | unstarted attempt silent phase =>
      refine .unstarted attempt silent ?_
      rcases phase with early | ⟨outcome, settled, error⟩
      · refine .inl ?_
        revert early
        cases call.phase <;> simp [interrupted, early]
      · exact .inr ⟨outcome, by simp [settled, interrupted], error⟩
    | attempting phase opened =>
      refine .attempting ?_ (opened.same rfl)
      revert phase
      cases call.phase <;> simp [interrupted, attempting]
    | paused phase resting more aborted =>
      refine .paused ?_ resting more ?_
      · revert phase
        cases call.phase <;> simp [interrupted, paused]
      · intro cause stopped
        cases at_phase : call.phase with
        | sleeping delay =>
          rw [show call.phase.interrupted reason = .slept (.error (.wasm reason)) by
            rw [at_phase]; rfl] at stopped
          cases stopped
          exact ⟨reason, rfl, rfl⟩
        | slept result =>
          have same : call.phase.interrupted reason = call.phase := by rw [at_phase]; rfl
          obtain ⟨other, before, _⟩ := aborted cause (same.symm.trans stopped)
          rw [first] at before
          cases before
        | _ =>
          rw [at_phase] at phase
          cases phase
    | succeeded value front settled opened last =>
      exact .succeeded value front (by simp [settled, interrupted]) (opened.same rfl) last
    | failed error settled failed disposed =>
      rw [listening] at disposed
      cases disposed
    | aborted other settled aborted =>
      rw [first] at aborted
      cases aborted

theorem passes_going {phase : CallPhase} (stays : call.phase.early = true ∧ phase.early = true ∨
      call.phase.attempting = true ∧ phase.attempting = true)
    (begun : phase.begun = call.phase.begun) : call.Passes { call with phase } := by
  refine ⟨⟨rfl, rfl, rfl, rfl, rfl, rfl⟩, begun, fun trace told => ?_⟩
  rcases stays with ⟨before, after⟩ | ⟨before, after⟩
  · obtain ⟨attempt, silent⟩ := told.early before
    exact .unstarted attempt silent (.inl after)
  · exact .attempting after ((told.opened before).same rfl)

theorem told_unused (unused : call.Unused) (past : call.phase.early = true ∨
    ∃ outcome, call.phase = .settled outcome ∧ (call.kind = .invoke → ∃ error, outcome = .error error)) :
    call.Told [] :=
  .unstarted unused.attempt rfl past

theorem move_passes (move : RuntimeMove e r t) (awake : ∀ c seams, e ≠ .resume c seams)
    (slept : ∀ c result, e = .wake c result → result = .ok ()) : t.calls = r.calls ∨
      (∃ c call after, r.calls[c]? = some call ∧ t.calls = r.calls.set c after ∧ call.Passes after) ∨
      ∃ call, t.calls = r.calls ++ [call] ∧ call.Told [] := by
  cases move with
  | call c seams event => exact absurd event (awake c seams)
  | inert call inert =>
    refine .inr (.inr ⟨call, rfl, told_unused inert.unused ?_⟩)
    rcases inert.past with refused | ⟨preload, outcome, settled⟩
    · exact .inl (by rw [refused]; rfl)
    · refine .inr ⟨outcome, settled, fun invoked => ?_⟩
      cases preload.symm.trans invoked
  | leak operation payload options seams cause =>
    exact .inr (.inr ⟨_, rfl, told_unused (newCall_unused _ _ _ _ _) (.inl rfl)⟩)
  | enter call kind fresh | enterPreload call kind fresh =>
    exact .inr (.inr ⟨call, rfl, told_unused fresh.unused (.inl (by rw [fresh.phase]; rfl))⟩)
  | giveUp c call outcome here entered rejects =>
    refine .inr (.inl ⟨c, call, _, here, finish_calls c call outcome, ⟨rfl, rfl, rfl, rfl, rfl, rfl⟩,
      by rw [entered]; rfl, fun trace told => ?_⟩)
    obtain ⟨attempt, silent⟩ := told.early (by rw [entered]; rfl)
    exact .unstarted attempt silent (.inr ⟨outcome, rfl, fun _ => rejects⟩)
  | wait c call here entered =>
    exact .inr (.inl ⟨c, call, _, here, rfl, passes_going (.inl ⟨by rw [entered]; rfl, rfl⟩)
      (by rw [entered]; rfl)⟩)
  | deliverLoad c call result here phase =>
    exact .inr (.inl ⟨c, call, _, here, rfl, passes_going (.inl ⟨by rw [phase]; rfl, rfl⟩)
      (by rw [phase]; rfl)⟩)
  | deliverDispatch c call _ _ _ _ here phase | deliverExecution c call _ _ here phase =>
    exact .inr (.inl ⟨c, call, _, here, rfl, passes_going (.inr ⟨by rw [phase]; rfl, rfl⟩)
      (by rw [phase]; rfl)⟩)
  | wake c call delay result here phase event =>
    refine .inr (.inl ⟨c, call, _, here, rfl, ⟨rfl, rfl, rfl, rfl, rfl, rfl⟩, by rw [phase]; rfl,
      fun trace told => ?_⟩)
    obtain ⟨resting, more, _⟩ := told.resting (by rw [phase]; rfl)
    refine .paused rfl resting more fun cause stopped => ?_
    rw [slept c result event] at stopped
    cases stopped
  | interrupt c call reason here listening first =>
    refine .inr (.inl ⟨c, call, _, here, ?_, passes_interrupted reason listening first⟩)
    simp [abortCall, here, listening, first, putCall]
  | _ => exact .inl rfl

theorem move_events (move : RuntimeMove e r t) (awake : ∀ c seams, e ≠ .resume c seams) :
    Anonymous r.events t.events := by
  cases move with
  | call c seams event => exact absurd event (awake c seams)
  | note events anonymous => exact anonymous
  | startLoad _ _ _ _ _ anonymous => exact anonymous
  | poolReady _ _ _ _ _ _ anonymous => exact anonymous
  | loadFails _ _ _ _ _ _ anonymous => exact anonymous
  | giveUp c call outcome =>
    rw [finish_events]
    exact .refl _
  | interrupt c call reason =>
    unfold abortCall
    split
    · split_ifs
      · exact .refl _
      · exact .refl _
    · exact .refl _
  | _ => exact .refl _

structure PassesAll (r t : GoforgeWasmRuntime) : Prop where
  calls : ∀ (k : Nat) (call : Call), r.calls[k]? = some call →
    ∃ after : Call, t.calls[k]? = some after ∧ call.Passes after
  added : ∀ (k : Nat) (call : Call), t.calls[k]? = some call → r.calls[k]? = none → call.Told []
  events : Anonymous r.events t.events

theorem PassesAll.refl (r : GoforgeWasmRuntime) : r.PassesAll r := by
  refine ⟨fun k call here => ⟨call, here, .refl call⟩, fun k call here absent => ?_, .refl r.events⟩
  cases here.symm.trans absent

theorem PassesAll.trans {r s t : GoforgeWasmRuntime} (first : r.PassesAll s)
    (second : s.PassesAll t) : r.PassesAll t := by
  refine ⟨fun k call here => ?_, fun k call here absent => ?_, first.events.trans second.events⟩
  · obtain ⟨later, there, passes⟩ := first.calls k call here
    obtain ⟨last, then_there, goes_on⟩ := second.calls k later there
    exact ⟨last, then_there, passes.trans goes_on⟩
  · cases between : s.calls[k]? with
    | none => exact second.added k call here between
    | some early =>
      obtain ⟨later, there, passes⟩ := second.calls k early between
      cases here.symm.trans there
      exact passes.told [] (first.added k early between absent)

theorem move_passesAll (move : RuntimeMove e r t) (awake : ∀ c seams, e ≠ .resume c seams)
    (slept : ∀ c result, e = .wake c result → result = .ok ()) : r.PassesAll t := by
  refine ⟨fun k call here => ?_, fun k call here absent => ?_, move_events move awake⟩
  · rcases move_passes move awake slept with same | ⟨c, before, after, at_c, eq, passes⟩ |
      ⟨added, eq, _⟩
    · exact ⟨call, same ▸ here, .refl call⟩
    · rw [eq]
      by_cases at_k : k = c
      · subst at_k
        cases here.symm.trans at_c
        exact ⟨after, (getElem?_set_iff at_c).mpr (.inl ⟨rfl, rfl⟩), passes⟩
      · exact ⟨call, (getElem?_set_iff at_c).mpr (.inr ⟨at_k, here⟩), .refl call⟩
    · rw [eq]
      exact ⟨call, getElem?_concat_iff.mpr (.inl here), .refl call⟩
  · rcases move_passes move awake slept with same | ⟨c, before, after, at_c, eq, passes⟩ |
      ⟨added, eq, told⟩
    · rw [same, absent] at here
      cases here
    · rw [eq] at here
      rcases (getElem?_set_iff at_c).mp here with ⟨rfl, _⟩ | ⟨_, old⟩
      · cases at_c.symm.trans absent
      · cases old.symm.trans absent
    · rw [eq] at here
      rcases getElem?_concat_iff.mp here with old | ⟨_, rfl⟩
      · cases old.symm.trans absent
      · exact told

theorem moves_passAll (moves : RuntimeMoves e r t) (awake : ∀ c seams, e ≠ .resume c seams)
    (slept : ∀ c result, e = .wake c result → result = .ok ()) : r.PassesAll t :=
  moves.invariant (I := fun t => r.PassesAll t)
    (fun _ _ before move => before.trans (move_passesAll move awake slept)) (.refl r)

def Invoked (r : GoforgeWasmRuntime) : Prop :=
  ∀ (c : Nat) (call : Call), r.calls[c]? = some call → call.plan ≠ none → call.kind = .invoke

theorem invoked_move (h : r.Invoked) (move : RuntimeMove e r t) : t.Invoked := by
  intro k after here planned
  rcases move_goes move with same | ⟨c, before, next, at_c, eq, goes⟩ | ⟨added, eq, begins⟩
  · rw [same] at here
    exact h k after here planned
  · rw [eq] at here
    rcases (getElem?_set_iff at_c).mp here with ⟨rfl, rfl⟩ | ⟨_, old⟩
    · cases goes with
      | on | backOff => exact h k before at_c planned
      | begin plan startedAt begins =>
        cases begins with
        | loaded manifest phase kind => exact kind
        | slept phase some_plan => exact h k before at_c (by simp [some_plan])
    · exact h k after old planned
  · rw [eq] at here
    rcases getElem?_concat_iff.mp here with old | ⟨_, rfl⟩
    · exact h k after old planned
    · exact absurd begins.unused.planless planned

theorem resume_silent (here : r.calls[c]? = some call) (invoked : r.Invoked)
    (preload : call.kind ≠ .invoke) (h : r.resume c seams = some t) : t.events = r.events := by
  have planless : call.plan = none := by
    by_contra planned
    exact preload (invoked c call here planned)
  unfold resume at h
  rw [here, bind_eq_bind, bind_some] at h
  split at h
  · next result phase =>
    cases h
    unfold resumeLoaded
    split
    · exact finish_events _
    · exact finish_events _
    · next kind => exact absurd kind preload
  · next request phase =>
    unfold resumeLeasing at h
    obtain ⟨pool, some_pool, h⟩ := bind_eq_some_iff.mp h
    split at h
    · split at h
      · cases h; rfl
      · simp only at h
        split at h <;> cases h <;> rfl
    · split at h
      · cases h; rfl
      · cases h
  · next entry awaitsClose cause phase =>
    unfold resumeUndispatched at h
    obtain ⟨failure, _, h⟩ := bind_eq_some_iff.mp h
    have eq : r.setPhase c call (.returned (.error (failure.getD (invocationFailure cause)))) = t :=
      Option.some.inj h
    rw [← eq]
    rfl
  · next result phase =>
    cases h
    rfl
  · next result plan phase planned =>
    cases planless.symm.trans planned
  · next result plan phase planned =>
    cases planless.symm.trans planned
  · cases h

def Alone (id : JsString) (r : GoforgeWasmRuntime) : Prop :=
  ∀ (c k : Nat) (call other : Call), r.calls[c]? = some call → r.calls[k]? = some other →
    call.Bears id → other.Bears id → k = c

structure Recorded (id : JsString) (r : GoforgeWasmRuntime) : Prop where
  told : ∀ (c : Nat) (call : Call), r.calls[c]? = some call → call.Bears id → call.Told (traceOf id r.events)
  silent : (∀ (c : Nat) (call : Call), r.calls[c]? = some call → ¬ call.Bears id) → traceOf id r.events = []

variable {id : JsString}

theorem alone_before (passes : ∀ (k : Nat) (call : Call), r.calls[k]? = some call →
    ∃ after : Call, t.calls[k]? = some after ∧ call.Same after ∧
      after.phase.begun = call.phase.begun) (alone : t.Alone id) : r.Alone id := by
  intro c k call other here there bears others
  obtain ⟨later, at_c, same, begun⟩ := passes c call here
  obtain ⟨further, at_k, alike, started⟩ := passes k other there
  exact alone c k later further at_c at_k ((same.bears begun).mpr bears) ((alike.bears started).mpr others)

theorem PassesAll.recorded (passes : r.PassesAll t) (alone : t.Alone id)
    (recorded : r.Recorded id) : t.Recorded id := by
  have events : traceOf id t.events = traceOf id r.events := by
    obtain ⟨told, eq, unnamed⟩ := passes.events
    have others : traceOf id told = [] := traceOf_others fun event mem => by
      rw [unnamed event mem]
      simp
    rw [eq, traceOf_append, others, List.append_nil]
  constructor
  · intro c call here bears
    rw [events]
    cases before : r.calls[c]? with
    | some earlier =>
      obtain ⟨later, there, passed⟩ := passes.calls c earlier before
      cases here.symm.trans there
      exact passed.told _ (recorded.told c earlier before ((passed.same.bears passed.begun).mp bears))
    | none =>
      have nobody : traceOf id r.events = [] := by
        refine recorded.silent fun k other there others => ?_
        obtain ⟨later, at_k, passed⟩ := passes.calls k other there
        have same := alone c k call later here at_k bears
          ((passed.same.bears passed.begun).mpr others)
        rw [same, before] at there
        cases there
      rw [nobody]
      exact passes.added c call here before
  · intro nobody
    rw [events]
    refine recorded.silent fun k other there others => ?_
    obtain ⟨later, at_k, passed⟩ := passes.calls k other there
    exact nobody k later at_k ((passed.same.bears passed.begun).mpr others)

theorem moves_keep (moves : RuntimeMoves e r t) {k : Nat} (here : r.calls[k]? = some call) :
    ∃ after : Call, t.calls[k]? = some after ∧ call.Same after ∧ after.phase.begun = call.phase.begun := by
  induction moves with
  | refl => exact ⟨call, here, .refl call, rfl⟩
  | tail _ move ih =>
    obtain ⟨later, there, same, begun⟩ := ih
    rcases runtimeMove_calls move with eq | ⟨c, before, after, at_c, eq, alike, leads⟩ |
      ⟨added, eq, _⟩
    · exact ⟨later, eq ▸ there, same, begun⟩
    · rw [eq]
      by_cases at_k : k = c
      · subst at_k
        cases there.symm.trans at_c
        refine ⟨after, (getElem?_set_iff at_c).mpr (.inl ⟨rfl, rfl⟩), same.trans alike,
          Eq.trans ?_ begun⟩
        rcases leads with unchanged | ⟨live, next⟩
        · rw [unchanged]
        · have started : later.phase.begun = true := by
            revert live
            cases later.phase <;> simp [CallPhase.live, CallPhase.begun]
          rw [started]
          rcases next with live | ⟨outcome, settled⟩
          · revert live
            cases after.phase <;> simp [CallPhase.live, CallPhase.begun]
          · rw [settled]
            rfl
      · exact ⟨later, (getElem?_set_iff at_c).mpr (.inr ⟨at_k, there⟩), same, begun⟩
    · rw [eq]
      exact ⟨later, getElem?_concat_iff.mpr (.inl there), same, begun⟩

theorem resume_begun (here : r.calls[c]? = some call) (h : r.resume c seams = some t) :
    call.phase.begun = true := by
  unfold resume at h
  rw [here, bind_eq_bind, bind_some] at h
  cases phase : call.phase <;> first | rfl | simp [phase] at h

theorem resume_here (h : r.resume c seams = some t) : ∃ call, r.calls[c]? = some call := by
  unfold resume at h
  obtain ⟨call, here, _⟩ := bind_eq_some_iff.mp h
  exact ⟨call, here⟩

theorem resume_recorded (heard : r.observer.isSome = true) (steady : seams.Steady) (alone : t.Alone id) (invoked : r.Invoked)
    (recorded : r.Recorded id) (h : r.resume c seams = some t) : t.Recorded id := by
  obtain ⟨call, here⟩ := resume_here h
  have started := resume_begun here h
  obtain ⟨later, there, _, begun⟩ := moves_keep (resume_moves h) here
  obtain ⟨after, marks, narrates, fits⟩ := resume_conveys steady here h
  cases narrates.after.symm.trans there
  obtain ⟨told, emitted, said, named⟩ := narrates.events
  have events := emitted heard
  have bears : later.Bears id ↔ call.Bears id := narrates.same.bears begun
  have others {k : Nat} {other : Call} (at_k : t.calls[k]? = some other) :
      (k = c ∧ other = later) ∨ (k ≠ c ∧ r.calls[k]? = some other) := by
    rw [narrates.calls] at at_k
    exact (getElem?_set_iff here).mp at_k
  by_cases own : call.Bears id
  · have trace : traceOf id t.events = traceOf id r.events ++ marks := by
      have all_own : traceOf id told = told.map WasmRuntimeEvent.mark :=
        traceOf_own fun event mem => by rw [named event mem, own.requestId]
      rw [events, traceOf_append, all_own, said]
    constructor
    · intro k other at_k others_bear
      have same := alone c k later other there at_k (bears.mpr own) others_bear
      subst same
      cases there.symm.trans at_k
      rw [trace]
      exact fits _ (recorded.told k call here own)
    · exact fun nobody => absurd (bears.mpr own) (nobody c later there)
  · have trace : traceOf id t.events = traceOf id r.events := by
      by_cases kind : call.kind = .invoke
      · have different : call.requestId ≠ id := fun same => own ⟨kind, started, same⟩
        have none_own : traceOf id told = [] := traceOf_others fun event mem => by
          rw [named event mem]
          exact fun same => different (Option.some.inj same)
        rw [events, traceOf_append, none_own, List.append_nil]
      · rw [resume_silent here invoked kind h]
    constructor
    · intro k other at_k others_bear
      rw [trace]
      rcases others at_k with ⟨_, rfl⟩ | ⟨_, before⟩
      · exact absurd (bears.mp others_bear) own
      · exact recorded.told k other before others_bear
    · intro nobody
      rw [trace]
      refine recorded.silent fun k other before others_bear => ?_
      by_cases at_c : k = c
      · subst at_c
        cases here.symm.trans before
        exact own others_bear
      · refine nobody k other ?_ others_bear
        rw [narrates.calls]
        exact (getElem?_set_iff here).mpr (.inr ⟨at_c, before⟩)

theorem step_recorded (heard : r.observer.isSome = true) (steady : e.Steady) (alone : t.Alone id) (invoked : r.Invoked)
    (recorded : r.Recorded id) (stepped : r.step e = some t) : t.Recorded id := by
  by_cases resumes : ∃ c seams, e = .resume c seams
  · obtain ⟨c, seams, rfl⟩ := resumes
    obtain ⟨q, performed, rfl⟩ := map_eq_some_iff.mp stepped
    have kept : q.Recorded id := resume_recorded heard (steady.seams c seams rfl) alone invoked recorded performed
    exact ⟨kept.told, kept.silent⟩
  · have awake : ∀ c seams, e ≠ .resume c seams := fun c seams eq => resumes ⟨c, seams, eq⟩
    exact (moves_passAll (step_moves stepped) awake steady.pause).recorded alone recorded

theorem step_observer (stepped : r.step e = some t) : t.observer = r.observer :=
  (step_moves stepped).invariant (I := fun t => t.observer = r.observer)
    (fun _ _ same move => (move_sameHost move).observer.trans same) rfl

theorem invoked_step (h : r.Invoked) (stepped : r.step e = some t) : t.Invoked :=
  (step_moves stepped).invariant (fun _ _ => invoked_move) h

theorem step_keeps (stepped : r.step e = some t) (alone : t.Alone id) : r.Alone id :=
  alone_before (fun _ _ here => moves_keep (step_moves stepped) here) alone

theorem run_recorded {es : List RuntimeEvent} (heard : r.observer.isSome = true)
    (steady : ∀ e ∈ es, e.Steady) (reached : runtimeMachine.run r es = some t) (invoked : r.Invoked)
    (recorded : r.Alone id → r.Recorded id) (alone : t.Alone id) : t.Recorded id := by
  induction es generalizing r with
  | nil =>
    cases reached
    exact recorded alone
  | cons e es ih =>
    obtain ⟨s, stepped, reached⟩ := LabelledMachine.run_cons_some reached
    refine ih ((step_observer stepped).symm ▸ heard) (fun f mem => steady f (List.mem_cons_of_mem e mem)) reached
      (invoked_step invoked stepped) fun unique => ?_
    exact step_recorded heard (steady e List.mem_cons_self) unique invoked
      (recorded (step_keeps stepped unique)) stepped

theorem recorded_new {options : GoforgeWasmRuntimeOptions} (h : new options = .ok r) :
    r.Invoked ∧ r.Recorded id := by
  have none_yet := (new_fresh h).calls
  have silent := (new_silent h).2.1
  refine ⟨fun c call here => ?_, fun c call here => ?_, fun _ => ?_⟩
  · simp [none_yet] at here
  · simp [none_yet] at here
  · simp [silent, traceOf]

end GoforgeWasmRuntime

end ForgeDeno
