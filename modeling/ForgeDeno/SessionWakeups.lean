import ForgeDeno.SessionExclusivity

namespace ForgeDeno

namespace CallStage

/-- The call's promise has been resolved by `#wake` and the call has not gone on yet. -/
def isWoken : CallStage → Bool
  | .woken => true
  | _ => false

/-- The call has given up its place in the pool and has not called `#wake` yet. -/
def isClosing : CallStage → Bool
  | .closing _ _ | .closed _ => true
  | _ => false

def wakes (stage : CallStage) : Nat := stage.isWoken.toNat + stage.isClosing.toNat

end CallStage

namespace SlotSystem

variable {s t : SlotSystem}

def spare (s : SlotSystem) : Int := s.pool.idle.length + s.pool.size - s.pool.openCount

/-- The wakes that are on their way: to a call that was woken, or from one that closes its session. -/
def pendingWakes (s : SlotSystem) : Nat := s.count CallStage.isWoken + s.count CallStage.isClosing

def Covered (s : SlotSystem) : Prop := s.pool.waiters ≠ [] → s.spare ≤ s.pendingWakes

/-- A woken call that finds its signal aborted leaves nothing to give behind that no other wake
covers, or nobody who waits for it. -/
def WakePassed (s : SlotSystem) (e : SlotEvent) (_ : SlotSystem) : Prop :=
  ∀ n call reason, e = .resume n → s.calls[n]? = some call → call.stage = .woken →
    s.aborted call.signal = some reason → s.pool.waiters = [] ∨ s.spare < s.pendingWakes

section counting

variable {n : Nat} {call after : SessionCall}

theorem pending_set (here : s.calls[n]? = some call) (after : SessionCall)
    (calls : t.calls = s.calls.set n after) :
    t.pendingWakes + call.stage.wakes = s.pendingWakes + after.stage.wakes := by
  have woken := count_set after CallStage.isWoken here
  have closing := count_set after CallStage.isClosing here
  unfold pendingWakes count CallStage.wakes
  rw [calls]
  omega

theorem pending_addCall (call : SessionCall) :
    (s.addCall call).pendingWakes = s.pendingWakes + call.stage.wakes := by
  have woken : (s.addCall call).count CallStage.isWoken =
      s.count CallStage.isWoken + call.stage.isWoken.toNat := by
    cases flag : call.stage.isWoken <;> simp [count, addCall, List.countP_append, flag]
  have closing : (s.addCall call).count CallStage.isClosing =
      s.count CallStage.isClosing + call.stage.isClosing.toNat := by
    cases flag : call.stage.isClosing <;> simp [count, addCall, List.countP_append, flag]
  unfold pendingWakes CallStage.wakes
  omega

theorem spare_wake : s.wake.spare = s.spare := rfl

theorem Queued.pending_wake (q : Queued s) (waiting : s.pool.waiters ≠ []) :
    s.wake.pendingWakes = s.pendingWakes + 1 := by
  cases head : s.pool.waiters with
  | nil => exact absurd head waiting
  | cons n rest =>
    obtain ⟨call, here, stage⟩ := q.head head
    have calls : s.wake.calls = s.calls.set n { call with stage := .woken } := by
      show wakeFirst s.pool.waiters s.calls = _
      rw [head]
      show s.calls.modify n _ = _
      rw [ListRules.modify_eq_set here]
    have moved := pending_set here { call with stage := .woken } calls
    rw [stage] at moved
    exact moved

theorem covered_wake (q : Queued s) (nearly : s.pool.waiters ≠ [] → s.spare ≤ s.pendingWakes + 1) :
    Covered s.wake := by
  intro waiting
  have before : s.pool.waiters ≠ [] := by
    intro empty
    apply waiting
    show s.pool.waiters.tail = []
    exact congrArg List.tail empty
  have more := q.pending_wake before
  have slack := nearly before
  rw [spare_wake, more]
  omega

theorem Covered.moved (h : Covered s) (here : s.calls[n]? = some call)
    (calls : t.calls = s.calls.set n after) (queue : t.pool.waiters ≠ [] → s.pool.waiters ≠ [])
    (balance : t.spare + call.stage.wakes ≤ s.spare + after.stage.wakes) : Covered t := by
  intro waiting
  have before := h (queue waiting)
  have moved := pending_set here after calls
  omega

theorem Covered.movedWake (h : Covered s) (q : Queued t) (here : s.calls[n]? = some call)
    (calls : t.calls = s.calls.set n after) (queue : t.pool.waiters = s.pool.waiters)
    (balance : t.spare + call.stage.wakes ≤ s.spare + after.stage.wakes + 1) : Covered t.wake := by
  apply covered_wake q
  intro waiting
  have before := h (queue ▸ waiting)
  have moved := pending_set here after calls
  omega

theorem AcquireTurn.covered (here : s.calls[n]? = some call) (stage : call.stage = .woken)
    (h : Covered s) (turn : AcquireTurn s n call t) : Covered t := by
  have woken : call.stage.wakes = 1 := by rw [stage]; rfl
  cases turn with
  | take session rest top =>
    apply h.moved here
    · rfl
    · exact id
    · show (rest.length : Int) + s.pool.size - s.pool.openCount + call.stage.wakes ≤ s.spare + 0
      unfold spare
      rw [top, List.length_cons]
      push_cast
      omega
  | claim empty room =>
    apply h.moved here
    · rfl
    · exact id
    · show (s.pool.idle.length : Int) + s.pool.size - (s.pool.openCount + 1) + call.stage.wakes ≤
        s.spare + 0
      unfold spare
      omega
  | queue empty full =>
    intro _
    have none_left : s.spare ≤ 0 := by
      unfold spare
      rw [empty]
      simp only [List.length_nil]
      omega
    show s.spare ≤ _
    omega

theorem Advance.wakes (h : Advance call after) : after.stage.wakes = call.stage.wakes := by
  cases h with
  | notOpened failure stage => rw [stage]; rfl
  | obtain session stage => rw [stage]; rfl
  | pass session stage => rw [stage]; rfl
  | await session a stage => rw [stage]; rfl
  | start session stage => rcases stage with stage | ⟨a, stage⟩ <;> rw [stage] <;> rfl
  | answer session body rest exposed hidden stage => rw [stage]; rfl
  | settle outcome stage => rw [stage]; rfl

theorem Covered.same (h : Covered s) (pool : t.pool = s.pool)
    (pending : t.pendingWakes = s.pendingWakes) : Covered t := by
  intro waiting
  rw [pool] at waiting
  have before := h waiting
  have spare : t.spare = s.spare := by unfold SlotSystem.spare; rw [pool]
  omega

theorem ReleaseMove.covered {session : SessionHandle} {outcome : Outcome} (h : Covered s)
    (q : Queued s) (here : s.calls[n]? = some call)
    (stage : (∃ body, call.stage = .running session body) ∨ ∃ a, call.stage = .loggingIn session a)
    (move : ReleaseMove s n call session outcome t) : Covered t := by
  have running : call.stage ≠ .waiting := by
    rcases stage with ⟨_, stage⟩ | ⟨_, stage⟩ <;> simp [stage]
  have quiet : call.stage.wakes = 0 := by
    rcases stage with ⟨_, stage⟩ | ⟨_, stage⟩ <;> rw [stage] <;> rfl
  cases move with
  | alive healthy =>
    have put := q.put here running { s.pool with idle := session :: s.pool.idle } rfl
      { call with stage := .released outcome, releases := session :: call.releases } (by simp)
    apply h.movedWake put here rfl rfl
    show ((session :: s.pool.idle).length : Int) + s.pool.size - s.pool.openCount +
      call.stage.wakes ≤ s.spare + 0 + 1
    unfold spare
    rw [List.length_cons]
    push_cast
    omega
  | dead failure gone =>
    apply h.moved here
    · rfl
    · exact id
    · show (s.pool.idle.length : Int) + s.pool.size - (s.pool.openCount - 1) + call.stage.wakes ≤
        s.spare + 1
      unfold spare
      omega

theorem Covered.drainOn (h : Covered s) (q : Queued s) (d : Nat) (sessions : List SessionHandle) :
    Covered (s.drainOn d sessions) := by
  cases sessions with
  | nil =>
    have set : Queued (s.setDrain d .drained) := q.same rfl rfl
    apply covered_wake set
    intro waiting
    have before := h waiting
    show s.spare ≤ s.pendingWakes + 1
    omega
  | cons => exact h.same rfl rfl

theorem Covered.step {e : SlotEvent} (h : Covered s) (q : Queued s) (passed : WakePassed s e t)
    (hs : s.step e = some t) : Covered t := by
  cases step_effect hs with
  | still pool calls _ => exact h.same pool (by unfold pendingWakes count; rw [calls])
  | refuse signal operation reason => exact h.same rfl (pending_addCall _)
  | begin signal operation turn =>
    have more := pending_addCall (s := s) { signal, operation, stage := .woken }
    have added : Covered (s.addCall { signal, operation, stage := .woken }) := by
      intro waiting
      have before := h waiting
      show s.spare ≤ _
      omega
    exact turn.covered List.getElem?_concat_length rfl added
  | retry n call here stage turn => exact turn.covered here stage h
  | giveUp n call reason here stage aborted =>
    intro waiting
    have moved := pending_set (t := s.setCall n { call with stage := .settled (.error reason) })
      here { call with stage := .settled (.error reason) } rfl
    rw [stage] at moved
    have gone : (s.setCall n { call with stage := .settled (.error reason) }).pendingWakes + 1 =
        s.pendingWakes := moved
    have slack := (passed n call reason rfl here stage aborted).resolve_left waiting
    show s.spare ≤ (s.setCall n { call with stage := .settled (.error reason) }).pendingWakes
    omega
  | opened n call session here stage pool calls _ =>
    have moved := pending_set here { call with stage := .opened (.ok session) } calls
    rw [stage] at moved
    exact h.same pool moved
  | advance n call after here move pool calls _ =>
    have moved := pending_set here after calls
    rw [move.wakes] at moved
    exact h.same pool (Nat.add_right_cancel moved)
  | openFailed n call failure here stage =>
    have put := q.put here (by simp [stage]) { s.pool with openCount := s.pool.openCount - 1 } rfl
      { call with stage := .settled (.error failure) } (by simp)
    have was : call.stage.wakes = 0 := by rw [stage]; rfl
    apply h.movedWake put here rfl rfl
    show (s.pool.idle.length : Int) + s.pool.size - (s.pool.openCount - 1) + call.stage.wakes ≤ s.spare + 0 + 1
    unfold spare
    omega
  | release n call session outcome here stage move => exact move.covered h q here stage
  | tokenClosed n call session failure here stage pool calls _ =>
    have moved := pending_set here { call with stage := .closed failure } calls
    rw [stage] at moved
    exact h.same pool (Nat.add_right_cancel moved)
  | closeReturned n call failure here stage =>
    have put := q.put here (by simp [stage]) s.pool rfl
      { call with stage := .released (.error failure) } (by simp)
    have was : call.stage.wakes = 1 := by rw [stage]; rfl
    apply h.movedWake put here rfl rfl
    show s.spare + call.stage.wakes ≤ s.spare + 0 + 1
    omega
  | drain =>
    have taken : Queued (s.takeIdle.addDrain .drained) := q.same rfl rfl
    have covered : Covered (s.takeIdle.addDrain .drained) := by
      intro waiting
      have before := h waiting
      have same : (s.takeIdle.addDrain .drained).spare = s.spare := by
        unfold spare
        show (([] : List SessionHandle).length : Int) + s.pool.size - (s.pool.openCount - s.pool.idle.length) = _
        simp only [List.length_nil]
        omega
      rw [same]
      exact before
    exact covered.drainOn taken _ _
  | drainClosed _ _ _ _ pool calls _ =>
    exact h.same pool (by unfold pendingWakes count; rw [calls])
  | drainReturned d rest _ => exact h.drainOn q d rest
  | drainSettled _ _ pool calls _ => exact h.same pool (by unfold pendingWakes count; rw [calls])

end counting

/-- In a run in which no aborted call takes a wake with it, a call stays blocked without a wake on its
way to anybody only while every session there may be is in use. -/
theorem no_lost_wakeup {s₀ : SlotSystem} {es : List SlotEvent} (start : slotMachine.start s₀)
    (passed : slotMachine.Along WakePassed s₀ es) (reached : slotMachine.run s₀ es = some s)
    (quiet : s.pendingWakes = 0) {call : SessionCall} (blocked : call ∈ s.calls)
    (stage : call.stage = .waiting) : s.pool.idle = [] ∧ s.pool.openCount = s.pool.size := by
  obtain ⟨id, mechanisms, configured, token, _, rfl⟩ := start
  have counted := LabelledMachine.run_invariant (I := Counted) (fun _ _ _ h hs => h.step hs)
    (counted_start id mechanisms (sessionBound configured token)) reached
  have covered := LabelledMachine.run_invariant_along (I := fun s => Queued s ∧ Covered s)
    (fun _ _ _ h c hs => ⟨h.1.step hs, h.2.step h.1 c hs⟩)
    ⟨(counted_start id mechanisms (sessionBound configured token)).queued, fun waiting => absurd rfl waiting⟩
    passed reached
  obtain ⟨n, here⟩ := List.getElem?_of_mem blocked
  have waiting : s.pool.waiters ≠ [] :=
    List.ne_nil_of_mem ((counted.queued.waiting n).mpr ⟨call, here, stage⟩)
  have none_left := covered.2 waiting
  have within := counted.bounded
  unfold spare at none_left
  have empty : s.pool.idle.length = 0 := by omega
  exact ⟨List.eq_nil_of_length_eq_zero empty, by omega⟩

def blockedCall : List SlotEvent :=
  [.acquire none (.done (.ok ())), .tokenOpens 0 (.ok 7), .openReturns 0, .acquire (some 0) (.done (.ok ()))]

theorem blocked_call_while_in_use : ∃ s, slotMachine.run oneSession blockedCall = some s ∧ s.pool.idle = [] ∧
      s.pool.openCount = s.pool.size := by
  have finished : (slotMachine.run oneSession blockedCall).isSome = true := by decide
  obtain ⟨s, reached⟩ := Option.isSome_iff_exists.mp finished
  have passed : slotMachine.Along WakePassed oneSession blockedCall := by
    apply LabelledMachine.along_of_events
    intro e mem s t n call reason resumed
    subst resumed
    simp [blockedCall] at mem
  have quiet : (slotMachine.run oneSession blockedCall).map pendingWakes = some 0 := by
    decide
  have second : (slotMachine.run oneSession blockedCall).map (fun s => s.calls[1]?) =
      some (some { signal := some 0, operation := .done (.ok ()), stage := .waiting }) := by rfl
  rw [reached] at quiet second
  have blocked := List.mem_of_getElem? (Option.some.inj second)
  exact ⟨s, reached, no_lost_wakeup oneSession_start passed reached (Option.some.inj quiet) blocked rfl⟩

/-- The first call has the only session and two wait for it. The first of these is aborted before
the session comes back. -/
def strandedCall : List SlotEvent :=
  [.acquire none (.done (.ok ())), .tokenOpens 0 (.ok 7), .openReturns 0, .enter 0,
    .pinAnswers 0 (.ok (js "1234")), .tokenLogsIn 0 (.ok ()), .loginReturns 0, .proceed 0,
    .acquire (some 0) (.done (.ok ())), .acquire none (.done (.ok ())),
    .abort 0 { name := js "AbortError", message := js "aborted" }, .finish 0, .resume 1]

theorem wake_lost_with_aborted_call : ∃ s, slotMachine.run oneSession strandedCall = some s ∧ s.pendingWakes = 0 ∧
      (∃ call, s.calls[2]? = some call ∧ call.stage = .waiting) ∧ s.pool.idle = [7] := by
  have finished : (slotMachine.run oneSession strandedCall).isSome = true := by decide
  obtain ⟨s, reached⟩ := Option.isSome_iff_exists.mp finished
  have quiet : (slotMachine.run oneSession strandedCall).map pendingWakes = some 0 := by
    decide
  have third : (slotMachine.run oneSession strandedCall).map (fun s => s.calls[2]?) =
      some (some { signal := none, operation := .done (.ok ()), stage := .waiting }) := by rfl
  have idle : (slotMachine.run oneSession strandedCall).map (fun s => s.pool.idle) = some [7] := by
    decide
  rw [reached] at quiet third idle
  exact ⟨s, reached, Option.some.inj quiet, ⟨_, Option.some.inj third, rfl⟩, Option.some.inj idle⟩

end SlotSystem

end ForgeDeno
