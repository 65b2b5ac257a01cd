import ForgeDeno.SessionMoves

namespace ForgeDeno

open ListRules SessionPool

def DrainStage.sessions : DrainStage → List SessionHandle
  | .closing session rest => session :: rest
  | .closed rest => rest
  | _ => []

/-- What a session counts for while the pool or a call has it, while it is asked for, after it has
been refused, and while it is being closed. -/
structure Gauge where
  session : SessionHandle → Nat
  opening : Nat
  refused : Nat
  closing : SessionHandle → Nat

def Gauge.weigh (g : Gauge) : CallStage → Nat
  | .opening => g.opening
  | .opened (.ok session) => g.session session
  | .opened (.error _) => g.refused
  | .acquired session | .loggingIn session _ | .authenticated session | .running session _ =>
    g.session session
  | .closing session _ => g.closing session
  | _ => 0

namespace SlotSystem

variable {s t : SlotSystem}

def callWeight (g : Gauge) (calls : List SessionCall) : Nat :=
  (calls.map fun call => g.weigh call.stage).sum

def drainWeight (g : Gauge) (drains : List DrainStage) : Nat :=
  (drains.map fun stage => (stage.sessions.map g.closing).sum).sum

def total (s : SlotSystem) (g : Gauge) : Nat :=
  (s.pool.idle.map g.session).sum + callWeight g s.calls + drainWeight g s.drains

def count (s : SlotSystem) (P : CallStage → Bool) : Nat := s.calls.countP fun call => P call.stage

structure Queued (s : SlotSystem) : Prop where
  waiting : ∀ n, n ∈ s.pool.waiters ↔ ∃ call, s.calls[n]? = some call ∧ call.stage = .waiting
  nodup : s.pool.waiters.Nodup

theorem count_set {calls : List SessionCall} {n : Nat} {call : SessionCall} (after : SessionCall)
    (P : CallStage → Bool) (here : calls[n]? = some call) :
    (calls.set n after).countP (fun c => P c.stage) + (P call.stage).toNat =
      calls.countP (fun c => P c.stage) + (P after.stage).toNat :=
  countP_set_add (P := fun c => P c.stage) here

theorem Queued.head {n : Nat} {rest : List Nat} (h : Queued s) (head : s.pool.waiters = n :: rest) :
    ∃ call, s.calls[n]? = some call ∧ call.stage = .waiting := by
  apply (h.waiting n).mp
  rw [head]
  exact List.mem_cons_self

theorem Queued.set {n : Nat} {call after : SessionCall} (h : Queued s)
    (here : s.calls[n]? = some call) (was : call.stage ≠ .waiting) (now : after.stage ≠ .waiting)
    (queue : t.pool.waiters = s.pool.waiters) (calls : t.calls = s.calls.set n after) : Queued t := by
  refine ⟨fun m => ?_, by rw [queue]; exact h.nodup⟩
  rw [queue, h.waiting m, calls]
  constructor
  · rintro ⟨other, there, waits⟩
    refine ⟨other, (getElem?_set_iff here).mpr (.inr ⟨?_, there⟩), waits⟩
    intro same
    subst same
    cases here.symm.trans there
    exact was waits
  · rintro ⟨other, there, waits⟩
    rcases (getElem?_set_iff here).mp there with ⟨_, rfl⟩ | ⟨_, there⟩
    · exact absurd waits now
    · exact ⟨other, there, waits⟩

theorem Queued.put {n : Nat} {call : SessionCall} (h : Queued s) (here : s.calls[n]? = some call)
    (was : call.stage ≠ .waiting) (pool : SessionPool) (queue : pool.waiters = s.pool.waiters)
    (after : SessionCall) (now : after.stage ≠ .waiting) : Queued ((s.setPool pool).setCall n after) :=
  h.set here was now queue rfl

theorem Queued.same (h : Queued s) (queue : t.pool.waiters = s.pool.waiters)
    (calls : t.calls = s.calls) : Queued t :=
  ⟨fun m => by rw [queue, calls]; exact h.waiting m, by rw [queue]; exact h.nodup⟩

theorem Queued.add {call : SessionCall} (h : Queued s) (stage : call.stage ≠ .waiting) :
    Queued (s.addCall call) := by
  refine ⟨fun m => ?_, h.nodup⟩
  show m ∈ s.pool.waiters ↔ ∃ c, (s.calls ++ [call])[m]? = some c ∧ c.stage = .waiting
  rw [h.waiting m]
  constructor
  · rintro ⟨other, there, waits⟩
    exact ⟨other, getElem?_concat_iff.mpr (.inl there), waits⟩
  · rintro ⟨other, there, waits⟩
    rcases getElem?_concat_iff.mp there with there | ⟨_, rfl⟩
    · exact ⟨other, there, waits⟩
    · exact absurd waits stage

theorem Queued.enqueue {n : Nat} {call after : SessionCall} (h : Queued s)
    (here : s.calls[n]? = some call) (was : call.stage ≠ .waiting) (now : after.stage = .waiting)
    (queue : t.pool.waiters = s.pool.waiters ++ [n]) (calls : t.calls = s.calls.set n after) : Queued t := by
  have fresh : n ∉ s.pool.waiters := by
    intro mem
    obtain ⟨other, there, waits⟩ := (h.waiting n).mp mem
    cases here.symm.trans there
    exact was waits
  constructor
  · intro m
    rw [queue, calls, List.mem_append, List.mem_singleton, h.waiting m]
    constructor
    · rintro (⟨other, there, waits⟩ | rfl)
      · refine ⟨other, (getElem?_set_iff here).mpr (.inr ⟨?_, there⟩), waits⟩
        intro same
        subst same
        cases here.symm.trans there
        exact was waits
      · exact ⟨after, (getElem?_set_iff here).mpr (.inl ⟨rfl, rfl⟩), now⟩
    · rintro ⟨other, there, waits⟩
      rcases (getElem?_set_iff here).mp there with ⟨same, _⟩ | ⟨_, there⟩
      · exact .inr same
      · exact .inl ⟨other, there, waits⟩
  · rw [queue]
    exact List.nodup_append.mpr ⟨h.nodup, List.pairwise_singleton _ n, fun m mem k last same => by
      rw [List.mem_singleton.mp last] at same
      exact fresh (same ▸ mem)⟩

theorem Queued.wake (h : Queued s) : Queued s.wake := by
  unfold SlotSystem.wake
  cases head : s.pool.waiters with
  | nil => exact h.same head.symm rfl
  | cons n rest =>
    obtain ⟨call, here, stage⟩ := h.head head
    have once : (n :: rest).Nodup := head ▸ h.nodup
    have calls : wakeFirst (n :: rest) s.calls = s.calls.set n { call with stage := .woken } :=
      modify_eq_set here _
    refine ⟨fun m => ?_, once.tail⟩
    show m ∈ rest ↔ ∃ c, (wakeFirst (n :: rest) s.calls)[m]? = some c ∧ c.stage = .waiting
    rw [calls]
    have waits := h.waiting m
    rw [head] at waits
    constructor
    · intro mem
      obtain ⟨other, there, waiting⟩ := waits.mp (List.mem_cons_of_mem n mem)
      refine ⟨other, (getElem?_set_iff here).mpr (.inr ⟨?_, there⟩), waiting⟩
      intro same
      subst same
      exact (List.nodup_cons.mp once).1 mem
    · rintro ⟨other, there, waiting⟩
      rcases (getElem?_set_iff here).mp there with ⟨_, rfl⟩ | ⟨differ, there⟩
      · cases waiting
      · exact (List.mem_cons.mp (waits.mpr ⟨other, there, waiting⟩)).resolve_left differ

theorem Queued.turn {n : Nat} {call : SessionCall} (h : Queued s) (here : s.calls[n]? = some call)
    (stage : call.stage = .woken) (turn : AcquireTurn s n call t) : Queued t := by
  have was : call.stage ≠ .waiting := by simp [stage]
  cases turn with
  | take session rest _ =>
    apply h.put here was
    · rfl
    · simp [SessionCall.obtain]
  | claim _ _ =>
    apply h.put here was
    · rfl
    · simp
  | queue _ _ => exact h.enqueue here was rfl rfl rfl

theorem Advance.not_waiting {call after : SessionCall} (h : Advance call after) :
    call.stage ≠ .waiting ∧ after.stage ≠ .waiting := by
  cases h with
  | start session stage => rcases stage with stage | ⟨a, stage⟩ <;> simp [stage]
  | _ => simp [*, SessionCall.obtain]

theorem Queued.drainOn (h : Queued s) (d : Nat) (sessions : List SessionHandle) :
    Queued (s.drainOn d sessions) := by
  cases sessions with
  | nil => exact (h.same rfl rfl : Queued (s.setDrain d .drained)).wake
  | cons => exact h.same rfl rfl

theorem Queued.step {e : SlotEvent} (h : Queued s) (hs : s.step e = some t) : Queued t := by
  cases step_effect hs with
  | still pool calls _ => exact h.same (congrArg waiters pool) calls
  | refuse => exact h.add (by simp)
  | begin signal operation turn =>
    have added : Queued (s.addCall { signal, operation, stage := .woken }) := h.add (by simp)
    exact added.turn List.getElem?_concat_length rfl turn
  | retry n call here stage turn => exact h.turn here stage turn
  | giveUp n call reason here stage _ =>
    exact h.put here (by simp [stage]) s.pool rfl { call with stage := .settled (.error reason) } (by simp)
  | opened n call session here stage pool calls _ =>
    exact h.set here (by simp [stage]) (by simp) (congrArg waiters pool) calls
  | advance n call after here move pool calls _ =>
    have quiet := move.not_waiting
    exact h.set here quiet.1 quiet.2 (congrArg waiters pool) calls
  | openFailed n call failure here stage =>
    have put := h.put here (by simp [stage]) { s.pool with openCount := s.pool.openCount - 1 } rfl
      { call with stage := .settled (.error failure) } (by simp)
    exact put.wake
  | release n call session outcome here stage move =>
    have was : call.stage ≠ .waiting := by
      rcases stage with ⟨_, stage⟩ | ⟨_, stage⟩ <;> simp [stage]
    cases move with
    | alive _ =>
      have put := h.put here was { s.pool with idle := session :: s.pool.idle } rfl
        { call with stage := .released outcome, releases := session :: call.releases } (by simp)
      exact put.wake
    | dead failure _ =>
      apply h.put here was
      · rfl
      · simp
  | tokenClosed n call session failure here stage pool calls _ =>
    exact h.set here (by simp [stage]) (by simp) (congrArg waiters pool) calls
  | closeReturned n call failure here stage =>
    have put := h.put here (by simp [stage]) s.pool rfl
      { call with stage := .released (.error failure) } (by simp)
    exact put.wake
  | drain =>
    have taken : Queued (s.takeIdle.addDrain .drained) := h.same rfl rfl
    exact taken.drainOn _ _
  | drainClosed d session rest _ pool calls _ => exact h.same (congrArg waiters pool) calls
  | drainReturned d rest _ => exact h.drainOn d rest
  | drainSettled d _ pool calls _ => exact h.same (congrArg waiters pool) calls

inductive Flow (g : Gauge) (s : SlotSystem) : SlotEvent → SlotSystem → Prop where
  | keep {e : SlotEvent} {t : SlotSystem} (gauge : t.total g = s.total g)
      (number : t.pool.openCount = s.pool.openCount) : Flow g s e t
  | claim {e : SlotEvent} {t : SlotSystem} (room : s.pool.openCount < s.pool.size)
      (gauge : t.total g = s.total g + g.opening)
      (number : t.pool.openCount = s.pool.openCount + 1) : Flow g s e t
  | opened {t : SlotSystem} (n : Nat) (session : SessionHandle)
      (gauge : t.total g + g.opening = s.total g + g.session session)
      (number : t.pool.openCount = s.pool.openCount) : Flow g s (.tokenOpens n (.ok session)) t
  | refused {e : SlotEvent} {t : SlotSystem} (gauge : t.total g + g.opening = s.total g + g.refused)
      (number : t.pool.openCount = s.pool.openCount) : Flow g s e t
  | failed {e : SlotEvent} {t : SlotSystem} (gauge : t.total g + g.refused = s.total g)
      (number : t.pool.openCount = s.pool.openCount - 1) : Flow g s e t
  | dead {e : SlotEvent} {t : SlotSystem} (session : SessionHandle)
      (gauge : t.total g + g.session session = s.total g + g.closing session)
      (number : t.pool.openCount = s.pool.openCount - 1) : Flow g s e t
  | closed {e : SlotEvent} {t : SlotSystem} (session : SessionHandle)
      (gauge : t.total g + g.closing session = s.total g)
      (number : t.pool.openCount = s.pool.openCount) : Flow g s e t
  | drain {e : SlotEvent} {t : SlotSystem}
      (gauge : t.total g + (s.pool.idle.map g.session).sum = s.total g + (s.pool.idle.map g.closing).sum)
      (number : t.pool.openCount = s.pool.openCount - s.pool.idle.length) : Flow g s e t

section flow

variable {g : Gauge} {calls : List SessionCall} {n d : Nat} {call after : SessionCall}

theorem callWeight_set (here : calls[n]? = some call) (after : SessionCall) :
    callWeight g (calls.set n after) + g.weigh call.stage = callWeight g calls + g.weigh after.stage :=
  sum_set_add here

theorem drainWeight_set {drains : List DrainStage} {stage : DrainStage}
    (here : drains[d]? = some stage) (next : DrainStage) :
    drainWeight g (drains.set d next) + (stage.sessions.map g.closing).sum =
      drainWeight g drains + (next.sessions.map g.closing).sum :=
  sum_set_add here

theorem callWeight_add (calls : List SessionCall) (call : SessionCall) :
    callWeight g (calls ++ [call]) = callWeight g calls + g.weigh call.stage := by
  simp [callWeight]

theorem Queued.total_wake (h : Queued s) : s.wake.total g = s.total g := by
  have calls : callWeight g (wakeFirst s.pool.waiters s.calls) = callWeight g s.calls := by
    cases head : s.pool.waiters with
    | nil => rfl
    | cons n rest =>
      obtain ⟨call, here, stage⟩ := h.head head
      have moved := callWeight_set (g := g) here { call with stage := .woken }
      rw [stage] at moved
      rw [wakeFirst, modify_eq_set here]
      exact moved
  unfold total
  show (s.pool.idle.map g.session).sum + callWeight g (wakeFirst s.pool.waiters s.calls) +
    drainWeight g s.drains = _
  rw [calls]

theorem total_call (here : s.calls[n]? = some call) (pool : t.pool = s.pool)
    (calls : t.calls = s.calls.set n after) (drains : t.drains = s.drains) :
    t.total g + g.weigh call.stage = s.total g + g.weigh after.stage := by
  have moved := callWeight_set (g := g) here after
  unfold total
  rw [pool, calls, drains]
  omega

theorem total_drain {stage next : DrainStage} (here : s.drains[d]? = some stage)
    (pool : t.pool = s.pool) (calls : t.calls = s.calls) (drains : t.drains = s.drains.set d next) :
    t.total g + (stage.sessions.map g.closing).sum = s.total g + (next.sessions.map g.closing).sum := by
  have moved := drainWeight_set (g := g) here next
  unfold total
  rw [pool, calls, drains]
  omega

theorem Advance.weight (h : Advance call after) : g.weigh after.stage = g.weigh call.stage ∨
      (g.weigh call.stage = g.opening ∧ g.weigh after.stage = g.refused) := by
  cases h with
  | notOpened failure stage => exact .inr ⟨by rw [stage]; rfl, rfl⟩
  | obtain session stage => exact .inl (by rw [stage]; rfl)
  | pass session stage => exact .inl (by rw [stage]; rfl)
  | await session a stage => exact .inl (by rw [stage]; rfl)
  | start session stage => exact .inl (by rcases stage with stage | ⟨a, stage⟩ <;> rw [stage] <;> rfl)
  | answer session body rest exposed hidden stage => exact .inl (by rw [stage]; rfl)
  | settle outcome stage => exact .inl (by rw [stage]; rfl)

theorem AcquireTurn.flow {e : SlotEvent} (here : s.calls[n]? = some call)
    (stage : call.stage = .woken) (turn : AcquireTurn s n call t) : Flow g s e t := by
  have weight : g.weigh call.stage = 0 := by rw [stage]; rfl
  cases turn with
  | take session rest top =>
    refine .keep ?_ rfl
    have moved := callWeight_set (g := g) here (call.obtain session)
    show (rest.map g.session).sum + callWeight g (s.calls.set n (call.obtain session)) +
      drainWeight g s.drains = s.total g
    unfold total
    rw [top, List.map_cons, List.sum_cons]
    have obtained : g.weigh (call.obtain session).stage = g.session session := rfl
    omega
  | claim empty room =>
    refine .claim room ?_ rfl
    have moved := callWeight_set (g := g) here { call with stage := .opening }
    show (s.pool.idle.map g.session).sum +
      callWeight g (s.calls.set n { call with stage := .opening }) + drainWeight g s.drains = _
    unfold total
    have opening : g.weigh CallStage.opening = g.opening := rfl
    dsimp only at moved
    omega
  | queue empty full =>
    refine .keep ?_ rfl
    have moved := callWeight_set (g := g) here { call with stage := .waiting }
    show (s.pool.idle.map g.session).sum +
      callWeight g (s.calls.set n { call with stage := .waiting }) + drainWeight g s.drains = _
    unfold total
    have waiting : g.weigh CallStage.waiting = 0 := rfl
    dsimp only at moved
    omega

theorem total_addCall (call : SessionCall) : (s.addCall call).total g = s.total g + g.weigh call.stage := by
  have added := callWeight_add (g := g) s.calls call
  show (s.pool.idle.map g.session).sum + callWeight g (s.calls ++ [call]) + drainWeight g s.drains = _
  unfold total
  omega

theorem Flow.carry {r : SlotSystem} {e : SlotEvent} (total : r.total g = s.total g)
    (pool : r.pool = s.pool) (h : Flow g r e t) : Flow g s e t := by
  cases h with
  | keep gauge number => exact .keep (by omega) (by rw [← pool]; exact number)
  | claim room gauge number => exact .claim (by rw [← pool]; exact room) (by omega) (by rw [← pool]; exact number)
  | opened n session gauge number => exact .opened n session (by omega) (by rw [← pool]; exact number)
  | refused gauge number => exact .refused (by omega) (by rw [← pool]; exact number)
  | failed gauge number => exact .failed (by omega) (by rw [← pool]; exact number)
  | dead session gauge number => exact .dead session (by omega) (by rw [← pool]; exact number)
  | closed session gauge number => exact .closed session (by omega) (by rw [← pool]; exact number)
  | drain gauge number =>
    rw [pool] at gauge number
    exact .drain (by omega) number

theorem ReleaseMove.flow {e : SlotEvent} {session : SessionHandle} {outcome : Outcome}
    (q : Queued s) (here : s.calls[n]? = some call)
    (stage : (∃ body, call.stage = .running session body) ∨ ∃ a, call.stage = .loggingIn session a)
    (move : ReleaseMove s n call session outcome t) : Flow g s e t := by
  have weight : g.weigh call.stage = g.session session := by
    rcases stage with ⟨_, stage⟩ | ⟨_, stage⟩ <;> rw [stage] <;> rfl
  have running : call.stage ≠ .waiting := by
    rcases stage with ⟨_, stage⟩ | ⟨_, stage⟩ <;> simp [stage]
  cases move with
  | alive healthy =>
    have put := q.put here running { s.pool with idle := session :: s.pool.idle } rfl
      { call with stage := .released outcome, releases := session :: call.releases } (by simp)
    refine .keep (put.total_wake.trans ?_) rfl
    have moved := callWeight_set (g := g) here
      { call with stage := .released outcome, releases := session :: call.releases }
    have released : g.weigh (CallStage.released outcome) = 0 := rfl
    show ((session :: s.pool.idle).map g.session).sum + callWeight g (s.calls.set n _) +
      drainWeight g s.drains = _
    unfold total
    rw [List.map_cons, List.sum_cons]
    dsimp only at moved ⊢
    omega
  | dead failure gone =>
    refine .dead session ?_ rfl
    have moved := callWeight_set (g := g) here
      { call with stage := .closing session failure, releases := session :: call.releases }
    have closing : g.weigh (CallStage.closing session failure) = g.closing session := rfl
    show (s.pool.idle.map g.session).sum + callWeight g (s.calls.set n _) + drainWeight g s.drains + _ = _
    unfold total
    dsimp only at moved ⊢
    omega

theorem total_drainOn {d : Nat} {stage : DrainStage} (q : Queued s)
    (here : s.drains[d]? = some stage) (sessions : List SessionHandle) :
    (s.drainOn d sessions).total g + (stage.sessions.map g.closing).sum =
      s.total g + (sessions.map g.closing).sum := by
  cases sessions with
  | nil =>
    have set : Queued (s.setDrain d .drained) := q.same rfl rfl
    have moved := total_drain (g := g) (t := s.setDrain d .drained) here rfl rfl rfl
    rw [show s.drainOn d [] = (s.setDrain d .drained).wake from rfl, set.total_wake]
    exact moved
  | cons session rest =>
    exact total_drain (t := s.setDrain d (.closing session rest)) here rfl rfl rfl

theorem drainOn_openCount (d : Nat) (sessions : List SessionHandle) :
    (s.drainOn d sessions).pool.openCount = s.pool.openCount := by
  cases sessions <;> rfl

theorem startDrain_flow {e : SlotEvent} (q : Queued s) : Flow g s e s.startDrain := by
  have taken : Queued (s.takeIdle.addDrain .drained) := q.same rfl rfl
  have here : (s.takeIdle.addDrain .drained).drains[s.drains.length]? = some .drained :=
    List.getElem?_concat_length
  have moved := total_drainOn (g := g) taken here s.pool.idle.reverse
  refine .drain ?_ (drainOn_openCount ..)
  have before : (s.takeIdle.addDrain .drained).total g + (s.pool.idle.map g.session).sum =
      s.total g := by
    show 0 + callWeight g s.calls + drainWeight g (s.drains ++ [.drained]) + _ = _
    unfold total drainWeight
    simp only [List.map_append, List.map_cons, List.map_nil, List.sum_append, List.sum_cons,
      List.sum_nil, DrainStage.sessions]
    omega
  have none : (DrainStage.drained.sessions.map g.closing).sum = 0 := rfl
  have order : (s.pool.idle.reverse.map g.closing).sum = (s.pool.idle.map g.closing).sum := by
    rw [List.map_reverse, List.sum_reverse]
  show (drainOn s.drains.length s.pool.idle.reverse (s.takeIdle.addDrain .drained)).total g + _ = _
  omega

theorem step_flow {e : SlotEvent} (q : Queued s) (h : s.step e = some t) : Flow g s e t := by
  cases step_effect h with
  | still pool calls drains =>
    exact .keep (by unfold total; rw [pool, calls, drains]) (by rw [pool])
  | refuse signal operation reason =>
    exact .keep (total_addCall _) rfl
  | begin signal operation turn =>
    have added : (s.addCall { signal, operation, stage := .woken }).total g = s.total g :=
      total_addCall _
    exact .carry added rfl (turn.flow List.getElem?_concat_length rfl)
  | retry n call here stage turn => exact turn.flow here stage
  | giveUp n call reason here stage _ =>
    have moved := total_call (g := g)
      (t := s.setCall n { call with stage := .settled (.error reason) }) here rfl rfl rfl
    rw [stage] at moved
    exact .keep moved rfl
  | opened n call session here stage pool calls drains =>
    have moved := total_call (g := g) here pool calls drains
    rw [stage] at moved
    exact .opened n session moved (by rw [pool])
  | advance n call after here move pool calls drains =>
    have moved := total_call (g := g) here pool calls drains
    rcases move.weight (g := g) with same | ⟨opening, refused⟩
    · exact .keep (by omega) (by rw [pool])
    · exact .refused (by omega) (by rw [pool])
  | openFailed n call failure here stage =>
    have put := q.put here (by simp [stage]) { s.pool with openCount := s.pool.openCount - 1 } rfl
      { call with stage := .settled (.error failure) } (by simp)
    have moved := callWeight_set (g := g) here { call with stage := .settled (.error failure) }
    rw [stage] at moved
    refine .failed ?_ rfl
    show (((s.setPool { s.pool with openCount := s.pool.openCount - 1 }).setCall n
      { call with stage := .settled (.error failure) }).wake).total g + g.refused = s.total g
    rw [put.total_wake]
    show (s.pool.idle.map g.session).sum + callWeight g (s.calls.set n _) + drainWeight g s.drains + g.refused = _
    have settled : g.weigh (CallStage.settled (.error failure)) = 0 := rfl
    have refused : g.weigh (CallStage.opened (.error failure)) = g.refused := rfl
    unfold total
    dsimp only at moved ⊢
    omega
  | release n call session outcome here stage move => exact move.flow q here stage
  | tokenClosed n call session failure here stage pool calls drains =>
    have moved := total_call (g := g) here pool calls drains
    rw [stage] at moved
    exact .closed session moved (by rw [pool])
  | closeReturned n call failure here stage =>
    have put := q.put here (by simp [stage]) s.pool rfl
      { call with stage := .released (.error failure) } (by simp)
    have moved := total_call (g := g)
      (t := s.setCall n { call with stage := .released (.error failure) }) here rfl rfl rfl
    rw [stage] at moved
    exact .keep (put.total_wake.trans moved) rfl
  | drain => exact startDrain_flow q
  | drainClosed d session rest here pool calls drains =>
    have moved := total_drain (g := g) here pool calls drains
    simp only [DrainStage.sessions, List.map_cons, List.sum_cons] at moved
    exact .closed session (by omega) (by rw [pool])
  | drainReturned d rest here =>
    have moved := total_drainOn (g := g) q here rest
    simp only [DrainStage.sessions] at moved
    exact .keep (by omega) (drainOn_openCount d rest)
  | drainSettled d here pool calls drains =>
    have moved := total_drain (g := g) here pool calls drains
    simp only [DrainStage.sessions, List.map_nil, List.sum_nil] at moved
    exact .keep moved (by rw [pool])

end flow

end SlotSystem

end ForgeDeno
