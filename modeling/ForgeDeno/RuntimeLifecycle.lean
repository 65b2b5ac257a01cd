import ForgeDeno.RuntimeSteps

namespace ForgeDeno

open LabelledMachine Option

def Call.outcome (call : Call) : Option (Except Thrown JsValue) :=
  match call.phase with
  | .refused => some (.error (.wasm wasmClosedError))
  | .thrown cause => some (.error cause)
  | .settled outcome => some outcome
  | _ => none

namespace GoforgeWasmRuntime

/-- `invoke` and `preload` reject with `WasmClosedError`, and do nothing else. -/
def Refuses (r : GoforgeWasmRuntime) : Prop :=
  (∀ operation payload options seams, ∃ call, r.invoke operation payload options seams =
    r.addCall call ∧ call.outcome = some (.error (.wasm wasmClosedError))) ∧
  ∀ signal seams, ∃ call, r.preload signal seams = r.addCall call ∧
    call.outcome = some (.error (.wasm wasmClosedError))

def ClosingOrClosed (r : GoforgeWasmRuntime) : Prop := r.state = .closing ∨ r.state = .closed

/-- The body of `close()` runs only behind the shutdown. -/
def ShutFirst (r : GoforgeWasmRuntime) : Prop := r.closing ≠ .open → r.shutdown = true

/-- The state says that the runtime is being closed, and that it is closed once the body of
`close()` has ended. -/
structure Monotone (r : GoforgeWasmRuntime) : Prop where
  closing : r.shutdown = true → r.ClosingOrClosed
  closed : ∀ rejected, r.closing = .finished rejected → r.state = .closed

variable {r t : GoforgeWasmRuntime} {e : RuntimeEvent} {c : Nat} {seams : Seams}

theorem not_open_iff : r.isOpen = false ↔ r.ClosingOrClosed := by
  unfold isOpen ClosingOrClosed
  rw [Bool.and_eq_false_iff]
  simp

theorem refuses_of_closing (h : r.ClosingOrClosed) : r.Refuses := by
  have shut := not_open_iff.mpr h
  constructor
  · intro operation payload options seams
    refine ⟨newCall .invoke operation payload options .refused, ?_, rfl⟩
    simp [invoke, shut]
  · intro signal seams
    let options : WasmCallOptions := ⟨signal, none, none, none, none, none, none, false⟩
    refine ⟨newCall .preload [] .undefined options .refused, ?_, rfl⟩
    simp [preload, shut, options]

/-- The state and the shutdown stay as they are, and `close()` stays where it is or is woken. -/
structure Steady (r t : GoforgeWasmRuntime) : Prop where
  state : t.state = r.state
  shutdown : t.shutdown = r.shutdown
  closing : t.closing = r.closing ∨ (r.closing = .calls false ∧ t.closing = .calls true)

theorem finish_steady (c : Nat) (call : Call) (outcome : Except Thrown JsValue) :
    r.Steady (r.finish c call outcome) := by
  unfold finish
  simp only
  split_ifs
  · refine ⟨rfl, rfl, ?_⟩
    by_cases last : r.activeCalls = 1 ∧ r.closing = .calls false
    · exact .inr ⟨last.2, if_pos last⟩
    · exact .inl (if_neg last)
  · exact ⟨rfl, rfl, .inl rfl⟩

theorem callMove_steady (move : CallMove c seams r t) : r.Steady t := by
  cases move with
  | finish call outcome => exact finish_steady c call outcome
  | _ => exact ⟨rfl, rfl, .inl rfl⟩

theorem callMoves_steady (moves : CallMoves c seams r t) : r.Steady t := by
  induction moves with
  | refl => exact ⟨rfl, rfl, .inl rfl⟩
  | tail _ move ih =>
    have last := callMove_steady move
    refine ⟨last.state.trans ih.state, last.shutdown.trans ih.shutdown, ?_⟩
    rcases ih.closing with same | ⟨before, woken⟩
    · rw [← same]
      exact last.closing
    · refine .inr ⟨before, ?_⟩
      rcases last.closing with still | ⟨again, _⟩
      · exact still.trans woken
      · cases woken.symm.trans again

theorem abortCall_steady (c : Nat) (reason : WasmRuntimeError) : r.Steady (r.abortCall c reason) := by
  unfold abortCall
  split
  · split_ifs <;> exact ⟨rfl, rfl, .inl rfl⟩
  · exact ⟨rfl, rfl, .inl rfl⟩

theorem Steady.finished (steady : r.Steady t) (rejected : Bool) :
    t.closing = .finished rejected ↔ r.closing = .finished rejected := by
  rcases steady.closing with same | ⟨before, woken⟩
  · rw [same]
  · rw [before, woken]
    simp

theorem Steady.shutFirst (steady : r.Steady t) (h : r.ShutFirst) : t.ShutFirst := by
  intro begun
  rw [steady.shutdown]
  rcases steady.closing with same | ⟨before, _⟩
  · exact h (same ▸ begun)
  · exact h (by simp [before])

theorem Steady.monotone (steady : r.Steady t) (h : r.Monotone) : t.Monotone := by
  refine ⟨fun down => ?_, fun rejected done => ?_⟩
  · unfold ClosingOrClosed
    rw [steady.state]
    exact h.closing (steady.shutdown ▸ down)
  · rw [steady.state]
    exact h.closed rejected ((steady.finished rejected).mp done)

theorem shutFirst_move (h : r.ShutFirst) (move : RuntimeMove e r t) : t.ShutFirst := by
  cases move with
  | call c seams event move => exact (callMove_steady move).shutFirst h
  | giveUp c call outcome => exact (finish_steady c call outcome).shutFirst h
  | interrupt c call reason => exact (abortCall_steady c reason).shutFirst h
  | shut => exact fun _ => rfl
  | awaitCalls active first shut => exact fun _ => shut
  | await closing later unfinished begun shut =>
    intro _
    by_cases first : r.closing = .open
    · exact shut first
    · exact h first
  | closed _ poolFailed awaitsAdapters rejected _ last => exact fun _ => h (by simp [last])
  | _ => exact h

theorem monotone_move (shut : r.ShutFirst) (h : r.Monotone) (move : RuntimeMove e r t)
    (other : ∀ c seams, e ≠ .resume c seams) : t.Monotone := by
  have begun {rejected : Bool} (done : r.closing = .finished rejected) : r.shutdown = true :=
    shut (by simp [done])
  cases move with
  | call c seams event => exact absurd event (other c seams)
  | succeed c seams call id value event => exact absurd event (other c seams)
  | giveUp c call outcome => exact (finish_steady c call outcome).monotone h
  | interrupt c call reason => exact (abortCall_steady c reason).monotone h
  | startLoad load events idle isOpen first =>
    have running : r.shutdown = false := by
      cases down : r.shutdown with
      | false => rfl
      | true =>
        rw [not_open_iff.mpr (h.closing down)] at isOpen
        cases isOpen
    refine ⟨fun down => ?_, fun rejected done => ?_⟩
    · cases running.symm.trans down
    · rw [begun done] at running
      cases running
  | poolReady startedAt load events verifying live next =>
    refine ⟨fun down => ?_, fun rejected done => ?_⟩
    · cases live.symm.trans down
    · rw [begun done] at live
      cases live
  | loadFails startedAt cause error code events failing =>
    refine ⟨fun down => ?_, fun rejected done => ?_⟩
    · have still := h.closing down
      unfold ClosingOrClosed
      simp only [not_open_iff.mpr still, Bool.false_eq_true, ↓reduceIte]
      exact still
    · have still : r.ClosingOrClosed := .inr (h.closed rejected done)
      simp only [not_open_iff.mpr still, Bool.false_eq_true, ↓reduceIte]
      exact h.closed rejected done
  | shut seams event first =>
    refine ⟨fun _ => .inl rfl, fun rejected done => ?_⟩
    cases first.symm.trans done
  | awaitCalls active first down => exact ⟨h.closing, nofun⟩
  | await closing later unfinished =>
    exact ⟨h.closing, fun rejected done => absurd done (unfinished rejected).1⟩
  | closed => exact ⟨fun _ => .inr rfl, fun _ _ => rfl⟩
  | _ => exact ⟨h.closing, h.closed⟩

theorem shutFirst_step (h : r.ShutFirst) (stepped : r.step e = some t) : t.ShutFirst :=
  (step_moves stepped).invariant (fun _ _ => shutFirst_move) h

end GoforgeWasmRuntime

/-- No call that has succeeded is continued after `close()` has been called. -/
def NoLateSuccess (r : GoforgeWasmRuntime) (e : RuntimeEvent) (_ : GoforgeWasmRuntime) : Prop :=
  (match e with
    | .resume c _ => !(r.shutdown && (r.calls[c]?).any Call.succeeded)
    | _ => true) = true

instance (r : GoforgeWasmRuntime) (e : RuntimeEvent) (t : GoforgeWasmRuntime) :
    Decidable (NoLateSuccess r e t) := inferInstanceAs (Decidable (_ = true))

namespace GoforgeWasmRuntime

variable {r t : GoforgeWasmRuntime} {e : RuntimeEvent} {c : Nat} {seams : Seams}

theorem monotone_succeeded (shut : r.ShutFirst) {call : Call} {plan : CallPlan} {id : JsString}
    {value : JsValue} (here : r.calls[c]? = some call)
    (phase : call.phase = .returned (.ok (.success id value))) (planned : call.plan = some plan) :
    (r.attemptSucceeded c call plan value seams).Monotone ↔ r.shutdown = false := by
  have moves : CallMoves c seams { r with state := .ready, lastErrorCode := none }
      (r.attemptSucceeded c call plan value seams) := attemptSucceeded_moves here phase planned
  have steady := callMoves_steady moves
  constructor
  · intro h
    cases down : r.shutdown with
    | false => rfl
    | true =>
      rcases h.closing (steady.shutdown.trans down) with closing | closed
      · rw [steady.state] at closing
        cases closing
      · rw [steady.state] at closed
        cases closed
  · intro running
    refine ⟨fun down => ?_, fun rejected done => ?_⟩
    · rw [steady.shutdown.trans running] at down
      cases down
    · have finished : r.closing = .finished rejected := (steady.finished rejected).mp done
      rw [shut (by simp [finished])] at running
      cases running

theorem monotone_iff (shut : r.ShutFirst) (h : r.Monotone) (stepped : r.step e = some t) :
    t.Monotone ↔ NoLateSuccess r e t := by
  unfold NoLateSuccess
  by_cases resumes : ∃ c seams, e = .resume c seams
  · obtain ⟨c, seams, rfl⟩ := resumes
    obtain ⟨q, done, rfl⟩ := map_eq_some_iff.mp stepped
    have turned : q.nextTurn.Monotone ↔ q.Monotone :=
      ⟨fun h => ⟨h.closing, h.closed⟩, fun h => ⟨h.closing, h.closed⟩⟩
    rw [turned]
    rcases resume_cases done with ⟨call, plan, id, value, here, phase, planned, rfl⟩ | ⟨fails, moves⟩
    · rw [monotone_succeeded shut here phase planned]
      simp [here, Call.succeeded, phase]
    · refine iff_of_true ((callMoves_steady moves).monotone h) ?_
      cases here : r.calls[c]? with
      | none => simp [here]
      | some call => simp [here, fails call here]
  · have other : ∀ c seams, e ≠ .resume c seams := fun c seams eq => resumes ⟨c, seams, eq⟩
    refine iff_of_true ?_ ?_
    · refine ((step_moves stepped).invariant (I := fun r => r.ShutFirst ∧ r.Monotone) ?_
        ⟨shut, h⟩).2
      intro r t hi move
      exact ⟨shutFirst_move hi.1 move, monotone_move hi.1 hi.2 move other⟩
    · cases e with
      | resume c seams => exact absurd rfl (other c seams)
      | _ => rfl

theorem shutdown_move (move : RuntimeMove e r t) :
    t.shutdown = r.shutdown ∨ (t.shutdown = true ∧ ∃ seams, e = .close seams) := by
  cases move with
  | call c seams event move => exact .inl (callMove_steady move).shutdown
  | giveUp c call outcome => exact .inl (finish_steady c call outcome).shutdown
  | interrupt c call reason => exact .inl (abortCall_steady c reason).shutdown
  | shut seams event => exact .inr ⟨rfl, seams, event⟩
  | _ => exact .inl rfl

theorem shutdown_moves (moves : RuntimeMoves e r t) :
    t.shutdown = r.shutdown ∨ (t.shutdown = true ∧ ∃ seams, e = .close seams) := by
  induction moves with
  | refl => exact .inl rfl
  | tail _ move ih =>
    rcases shutdown_move move with same | called
    · rw [same]
      exact ih
    · exact .inr called

theorem shutdown_run {es : List RuntimeEvent} (shut : r.ShutFirst) (h : runtimeMachine.run r es = some t) :
    t.shutdown = true ↔ r.shutdown = true ∨ ∃ seams, .close seams ∈ es := by
  induction es generalizing r with
  | nil => cases h; simp
  | cons e es ih =>
    obtain ⟨s, stepped, h⟩ := run_cons_some h
    rw [ih (shutFirst_step shut stepped) h]
    have moved := shutdown_moves (step_moves stepped)
    by_cases calls : ∃ seams, e = .close seams
    · obtain ⟨seams, rfl⟩ := calls
      refine iff_of_true (.inl ?_) (.inr ⟨seams, by simp⟩)
      cases stepped
      change (r.close seams).shutdown = true
      unfold close
      split_ifs with first
      · simp only
        split
        · exact shut_shutdown
        · split_ifs
          · exact shut_shutdown
          · unfold afterCalls
            split <;> exact shut_shutdown
      · exact shut first
    · have same : s.shutdown = r.shutdown := moved.resolve_right fun called => calls called.2
      rw [same]
      constructor
      · rintro (down | ⟨seams, mem⟩)
        · exact .inl down
        · exact .inr ⟨seams, List.mem_cons_of_mem e mem⟩
      · rintro (down | ⟨seams, mem⟩)
        · exact .inl down
        · rcases List.mem_cons.mp mem with rfl | later
          · exact absurd ⟨seams, rfl⟩ calls
          · exact .inr ⟨seams, later⟩

/-- The state is `closed` only behind the end of the body of `close()`, which is final. -/
def ClosedLast (r : GoforgeWasmRuntime) : Prop :=
  r.state = .closed → ∃ rejected, r.closing = .finished rejected

theorem Steady.closedLast (steady : r.Steady t) (h : r.ClosedLast) : t.ClosedLast := by
  intro shut
  obtain ⟨rejected, done⟩ := h (steady.state ▸ shut)
  exact ⟨rejected, (steady.finished rejected).mpr done⟩

theorem closedLast_move (h : r.ClosedLast) (move : RuntimeMove e r t) : t.ClosedLast := by
  cases move with
  | call c seams event move => exact (callMove_steady move).closedLast h
  | giveUp c call outcome => exact (finish_steady c call outcome).closedLast h
  | interrupt c call reason => exact (abortCall_steady c reason).closedLast h
  | startLoad | succeed | poolReady | shut => intro shut; cases shut
  | loadFails startedAt cause error code events failing =>
    intro shut
    simp only at shut
    split_ifs at shut
    exact h shut
  | awaitCalls active first =>
    intro shut
    obtain ⟨rejected, done⟩ := h shut
    cases first.symm.trans done
  | await closing later unfinished =>
    intro shut
    obtain ⟨rejected, done⟩ := h shut
    exact absurd done (unfinished rejected).2
  | closed _ _ _ rejected => exact fun _ => ⟨rejected, rfl⟩
  | _ => exact h

theorem finished_move {rejected : Bool} (done : r.closing = .finished rejected)
    (move : RuntimeMove e r t) : t.closing = .finished rejected := by
  cases move with
  | call c seams event move => exact ((callMove_steady move).finished rejected).mpr done
  | giveUp c call outcome => exact ((finish_steady c call outcome).finished rejected).mpr done
  | interrupt c call reason => exact ((abortCall_steady c reason).finished rejected).mpr done
  | awaitCalls active first => cases first.symm.trans done
  | await closing later unfinished => exact absurd done (unfinished rejected).2
  | closed _ _ _ _ _ last => cases last.symm.trans done
  | _ => exact done

theorem unfinished_move (before : ∀ rejected, r.closing ≠ .finished rejected)
    (move : RuntimeMove e r t) (other : ∀ adaptersFailed, e ≠ .resumeClose adaptersFailed) :
    ∀ rejected, t.closing ≠ .finished rejected := by
  cases move with
  | call c seams event move =>
    exact fun rejected done => before rejected (((callMove_steady move).finished rejected).mp done)
  | giveUp c call outcome =>
    exact fun rejected done =>
      before rejected (((finish_steady c call outcome).finished rejected).mp done)
  | interrupt c call reason =>
    exact fun rejected done =>
      before rejected (((abortCall_steady c reason).finished rejected).mp done)
  | awaitCalls => simp
  | await closing later unfinished => exact fun rejected => (unfinished rejected).1
  | closed adaptersFailed _ _ _ event => exact absurd event (other adaptersFailed)
  | _ => exact before

theorem finished_step (stepped : r.step e = some t) {rejected : Bool} (done : t.closing = .finished rejected) :
    (∃ before, r.closing = .finished before) ∨ t.state = .closed := by
  by_contra neither
  obtain ⟨before, open_state⟩ := not_or.mp neither
  have unfinished : ∀ rejected, r.closing ≠ .finished rejected :=
    fun rejected eq => before ⟨rejected, eq⟩
  cases e with
  | resumeClose adaptersFailed =>
    obtain ⟨q, resumed, rfl⟩ := map_eq_some_iff.mp stepped
    change r.resumeClose adaptersFailed = some q at resumed
    change q.closing = .finished rejected at done
    change q.state ≠ .closed at open_state
    unfold resumeClose at resumed
    split at resumed
    · cases resumed
      unfold afterCalls at done
      split at done <;> cases done
    · split at resumed
      · cases resumed; cases done
      · cases resumed; cases done
      · cases resumed
    · split_ifs at resumed
      cases resumed
      cases done
    · obtain ⟨failures, _, rfl⟩ := map_eq_some_iff.mp resumed
      cases done
    · cases resumed
      exact open_state rfl
    · cases resumed
  | _ =>
    refine (step_moves stepped).invariant (I := fun r => ∀ rejected, r.closing ≠ .finished rejected)
      (fun _ _ before move => unfinished_move before move (by simp)) unfinished rejected done

theorem finished_run {es : List RuntimeEvent} {rejected : Bool}
    (done : r.closing = .finished rejected) (h : runtimeMachine.run r es = some t) :
    t.closing = .finished rejected := by
  refine run_invariant (m := runtimeMachine)
    (I := fun r => r.closing = .finished rejected) ?_ done h
  intro r e t done stepped
  exact (step_moves stepped).invariant (fun _ _ => finished_move) done

theorem closed_before_finished {es : List RuntimeEvent} {rejected : Bool}
    (before : ∀ rejected, r.closing ≠ .finished rejected) (h : runtimeMachine.run r es = some t)
    (done : t.closing = .finished rejected) :
    ∃ past s, past <+: es ∧ runtimeMachine.run r past = some s ∧ s.state = .closed := by
  induction es generalizing r with
  | nil => cases h; exact absurd done (before rejected)
  | cons e es ih =>
    obtain ⟨s, stepped, h⟩ := run_cons_some h
    by_cases finished : ∃ rejected, s.closing = .finished rejected
    · obtain ⟨_, finished⟩ := finished
      rcases finished_step stepped finished with ⟨_, early⟩ | closed
      · exact absurd early (before _)
      · exact ⟨[e], s, ⟨es, rfl⟩, bind_eq_some_iff.mpr ⟨s, stepped, rfl⟩, closed⟩
    · obtain ⟨past, q, short, reached, closed⟩ := ih (fun _ eq => finished ⟨_, eq⟩) h
      refine ⟨e :: past, q, List.cons_prefix_cons.mpr ⟨rfl, short⟩, ?_, closed⟩
      exact bind_eq_some_iff.mpr ⟨s, stepped, reached⟩

/-- In every state that the run comes to: once `close()` has been called the state is `closing` or
`closed` and new work is refused, and a state that has been `closed` still is. -/
def StaysClosed (r : GoforgeWasmRuntime) (es : List RuntimeEvent) : Prop :=
  ∀ pre t, pre <+: es → runtimeMachine.run r pre = some t →
    ((∃ seams, RuntimeEvent.close seams ∈ pre) → t.ClosingOrClosed ∧ t.Refuses) ∧
      ((∃ past s, past <+: pre ∧ runtimeMachine.run r past = some s ∧ s.state = .closed) → t.state = .closed)

theorem staysClosed_iff_monotone (fresh : r.Fresh) (es : List RuntimeEvent) : r.StaysClosed es ↔
      ∀ pre t, pre <+: es → runtimeMachine.run r pre = some t → t.Monotone := by
  have shut : r.ShutFirst := fun begun => absurd fresh.closing begun
  have unfinished : ∀ rejected, r.closing ≠ .finished rejected := by simp [fresh.closing]
  have called {pre : List RuntimeEvent} {t : GoforgeWasmRuntime}
      (reached : runtimeMachine.run r pre = some t) :
      t.shutdown = true ↔ ∃ seams, RuntimeEvent.close seams ∈ pre := by
    rw [shutdown_run shut reached, fresh.shutdown]
    simp
  constructor
  · intro h pre t short reached
    refine ⟨fun down => ((h pre t short reached).1 ((called reached).mp down)).1, ?_⟩
    intro rejected done
    exact (h pre t short reached).2 (closed_before_finished unfinished reached done)
  · intro h pre t short reached
    have monotone := h pre t short reached
    refine ⟨fun close => ?_, ?_⟩
    · have closing := monotone.closing ((called reached).mpr close)
      exact ⟨closing, refuses_of_closing closing⟩
    · rintro ⟨past, s, ⟨rest, rfl⟩, early, closed⟩
      have last : s.ClosedLast := by
        refine run_invariant (m := runtimeMachine) (I := ClosedLast) ?_ ?_ early
        · intro r e t h stepped
          exact (step_moves stepped).invariant (fun _ _ => closedLast_move) h
        · intro closed
          rw [fresh.state] at closed
          cases closed
      obtain ⟨rejected, done⟩ := last closed
      rw [run_append, early] at reached
      exact monotone.closed rejected (finished_run done reached)

end GoforgeWasmRuntime

/-- From its construction on, a runtime that is being closed says so in every later state, and
refuses new work, exactly as long as no call that has already succeeded is continued behind
`close()`. -/
theorem staysClosed_iff_noLateSuccess {options : GoforgeWasmRuntimeOptions}
    {r : GoforgeWasmRuntime} (constructed : GoforgeWasmRuntime.new options = .ok r)
    (es : List RuntimeEvent) : r.StaysClosed es ↔ runtimeMachine.Along NoLateSuccess r es := by
  have fresh := GoforgeWasmRuntime.new_fresh constructed
  rw [GoforgeWasmRuntime.staysClosed_iff_monotone fresh]
  refine runtimeMachine.throughout_iff_along (I := GoforgeWasmRuntime.ShutFirst) ?_ ?_ ?_ ?_ es
  · intro r e t shut stepped
    exact GoforgeWasmRuntime.shutFirst_step shut stepped
  · intro r e t shut monotone stepped
    exact GoforgeWasmRuntime.monotone_iff shut monotone stepped
  · exact fun begun => absurd fresh.closing begun
  · refine ⟨fun down => ?_, fun rejected done => ?_⟩
    · rw [fresh.shutdown] at down
      cases down
    · rw [fresh.closing] at done
      cases done

/-- A component call that has succeeded by the time `close()` is called, and goes on behind it. -/
def lateSuccessRun : List RuntimeEvent :=
  [.invoke (js "crypto.sha256") .null .empty .calm,
    .loadThen (.ok (.offering (js "crypto.sha256") false)) .calm, .deliver 0, .resume 0 .calm,
    .instanceCreated 1, .resume 0 .calm, .dispatchSettles 0 (.ok (successResponse (js "req-1"))),
    .dispatchReleased 0, .deliver 0, .close .calm, .resume 0 .calm]

/-- The success takes the state of a runtime that is being closed to `ready`. -/
theorem late_success_reopens : ∃ r t, GoforgeWasmRuntime.new (.defaults fun _ => 0) = .ok r ∧
      runtimeMachine.run r lateSuccessRun = some t ∧ t.shutdown = true ∧ t.state = .ready ∧ t.isOpen = true := by
  have shown : (GoforgeWasmRuntimeOptions.defaults fun _ => 0).shows lateSuccessRun (fun t =>
      decide (t.shutdown = true ∧ t.state = .ready ∧ t.isOpen = true)) = true := by decide +kernel
  obtain ⟨r, t, constructed, reached, holds⟩ := run_of_shows shown
  exact ⟨r, t, constructed, reached, of_decide_eq_true holds⟩

/-- A `close()` that finds a call at work, and a call that comes too late. -/
def closedRun : List RuntimeEvent :=
  [.invoke (js "crypto.sha256") .null .empty .calm, .close .calm, .resume 0 .calm,
    .invoke (js "crypto.sha256") .null .empty .calm]

theorem stays_closed_without_success :
    ∃ r t, GoforgeWasmRuntime.new (.defaults fun _ => 0) = .ok r ∧ r.StaysClosed closedRun ∧
      runtimeMachine.run r closedRun = some t ∧ t.ClosingOrClosed := by
  have checks : (GoforgeWasmRuntimeOptions.defaults fun _ => 0).builds (fun r =>
      decide (runtimeMachine.Along NoLateSuccess r closedRun) &&
        (runtimeMachine.run r closedRun).isSome) = true := by decide +kernel
  obtain ⟨r, constructed, checked⟩ := new_of_builds checks
  obtain ⟨quiet, reached⟩ := (Bool.and_eq_true _ _).mp checked
  obtain ⟨t, reached⟩ := Option.isSome_iff_exists.mp reached
  have stays := (staysClosed_iff_noLateSuccess constructed closedRun).mpr (of_decide_eq_true quiet)
  have shut := stays closedRun t (List.prefix_refl _) reached
  exact ⟨r, t, constructed, stays, reached, (shut.1 ⟨.calm, by simp [closedRun]⟩).1⟩

end ForgeDeno
