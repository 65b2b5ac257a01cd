import ForgeDeno.SessionFlow

namespace ForgeDeno

namespace CallStage

def isOpening : CallStage → Bool
  | .opening | .opened _ => true
  | _ => false

def held? : CallStage → Option SessionHandle
  | .acquired session | .loggingIn session _ | .authenticated session | .running session _ =>
    some session
  | _ => none

def isHolding (stage : CallStage) : Bool := stage.held?.isSome

def holds (session : SessionHandle) (stage : CallStage) : Bool := stage.held? = some session

def isAcquiring : CallStage → Bool
  | .opening | .opened _ | .waiting | .woken => true
  | _ => false

end CallStage

def Gauge.occupied : Gauge where
  session _ := 1
  opening := 1
  refused := 1
  closing _ := 0

def Gauge.only (session : SessionHandle) : Gauge where
  session other := if other = session then 1 else 0
  opening := 0
  refused := 0
  closing other := if other = session then 1 else 0

/-- A call has released what it has acquired and does not hold any more, and acquires but once. -/
structure SessionCall.Balanced (call : SessionCall) : Prop where
  paired : call.acquires = call.releases ++ call.stage.held?.toList
  first : call.stage.isAcquiring = true → call.acquires = []
  once : call.acquires.length ≤ 1

theorem SessionCall.Balanced.move {call after : SessionCall} (b : call.Balanced)
    (acquires : after.acquires = call.acquires) (releases : after.releases = call.releases)
    (held : after.stage.held? = call.stage.held?)
    (later : after.stage.isAcquiring = true → call.stage.isAcquiring = true) : after.Balanced := by
  obtain ⟨paired, first, once⟩ := b
  refine ⟨?_, fun now => ?_, ?_⟩
  · rw [acquires, releases, held]
    exact paired
  · rw [acquires]
    exact first (later now)
  · rw [acquires]
    exact once

theorem SessionCall.Balanced.obtain {call : SessionCall} (h : call.Balanced)
    (acquiring : call.stage.isAcquiring = true) (none_held : call.stage.held? = none)
    (session : SessionHandle) : (call.obtain session).Balanced := by
  have none := h.first acquiring
  have paired := h.paired
  rw [none, none_held] at paired
  have released : call.releases = [] := by simpa using paired.symm
  refine ⟨?_, fun now => ?_, ?_⟩
  · simp [SessionCall.obtain, none, released, CallStage.held?]
  · cases now
  · simp [SessionCall.obtain, none]

theorem SessionCall.Balanced.release {call : SessionCall} {session : SessionHandle} (b : call.Balanced)
    (held : call.stage.held? = some session) (stage : CallStage) (gone : stage.held? = none)
    (later : stage.isAcquiring = false) :
    SessionCall.Balanced { call with stage, releases := session :: call.releases } := by
  obtain ⟨paired, _, once⟩ := b
  rw [held] at paired
  have alone : call.releases = [] := by
    cases releases : call.releases with
    | nil => rfl
    | cons other rest =>
      rw [paired, releases] at once
      simp at once
  refine ⟨?_, fun now => ?_, once⟩
  · simp [paired, alone, gone]
  · cases later.symm.trans now

namespace SlotSystem

variable {s t : SlotSystem}

/-- The handle that the token gives out is of no session that the process still has. -/
def FreshHandle (s : SlotSystem) (e : SlotEvent) (_ : SlotSystem) : Prop :=
  ∀ session ∈ e.opens?, s.total (.only session) = 0

instance (s : SlotSystem) (e : SlotEvent) (t : SlotSystem) : Decidable (FreshHandle s e t) :=
  inferInstanceAs (Decidable (∀ session ∈ e.opens?, s.total (.only session) = 0))

theorem weigh_occupied (stage : CallStage) :
    Gauge.occupied.weigh stage = stage.isHolding.toNat + stage.isOpening.toNat := by
  cases stage with
  | opened reply => cases reply <;> rfl
  | _ => rfl

theorem callWeight_occupied (calls : List SessionCall) : callWeight .occupied calls =
      calls.countP (fun c => c.stage.isHolding) + calls.countP (fun c => c.stage.isOpening) := by
  induction calls with
  | nil => rfl
  | cons call rest ih =>
    have head := weigh_occupied call.stage
    unfold callWeight at ih ⊢
    rw [List.map_cons, List.sum_cons, ih, head, List.countP_cons, List.countP_cons]
    cases call.stage.isHolding <;> cases call.stage.isOpening <;> simp <;> omega

theorem drainWeight_occupied (drains : List DrainStage) : drainWeight .occupied drains = 0 := by
  induction drains with
  | nil => rfl
  | cons stage rest ih =>
    have none (sessions : List SessionHandle) : (sessions.map Gauge.occupied.closing).sum = 0 := by
      simp [Gauge.occupied]
    unfold drainWeight at ih ⊢
    rw [List.map_cons, List.sum_cons, ih, none]

theorem total_occupied (s : SlotSystem) : s.total .occupied =
      s.pool.idle.length + s.count CallStage.isHolding + s.count CallStage.isOpening := by
  have idle : (s.pool.idle.map Gauge.occupied.session).sum = s.pool.idle.length := by
    simp [Gauge.occupied]
  unfold total count
  rw [idle, callWeight_occupied, drainWeight_occupied]
  omega

theorem holds_le_weigh (session : SessionHandle) (stage : CallStage) :
    (stage.holds session).toNat ≤ (Gauge.only session).weigh stage := by
  cases stage with
  | acquired other | loggingIn other a | authenticated other | running other body =>
    by_cases same : other = session
    · simp [CallStage.holds, CallStage.held?, Gauge.weigh, Gauge.only, same]
    · simp [CallStage.holds, CallStage.held?, same]
  | _ => simp [CallStage.holds, CallStage.held?]

theorem total_counts (s : SlotSystem) (session : SessionHandle) {P : CallStage → Bool}
    (light : ∀ stage, (P stage).toNat ≤ (Gauge.only session).weigh stage) :
    s.pool.idle.count session + s.count P ≤ s.total (.only session) := by
  have idle : ∀ sessions : List SessionHandle,
      sessions.count session = (sessions.map (Gauge.only session).session).sum := by
    intro sessions
    induction sessions with
    | nil => rfl
    | cons other rest ih =>
      rw [List.count_cons, List.map_cons, List.sum_cons, ih]
      by_cases same : other = session
      · simp [Gauge.only, same]; omega
      · simp [Gauge.only, same]
  have calls : ∀ calls : List SessionCall,
      calls.countP (fun c => P c.stage) ≤ callWeight (.only session) calls := by
    intro calls
    induction calls with
    | nil => exact Nat.le_refl 0
    | cons call rest ih =>
      have head := light call.stage
      unfold callWeight at ih ⊢
      rw [List.map_cons, List.sum_cons, List.countP_cons]
      cases held : P call.stage <;> rw [held] at head <;> simp at head ⊢ <;> omega
  have first := idle s.pool.idle
  have second := calls s.calls
  unfold total count
  omega

theorem total_only (s : SlotSystem) (session : SessionHandle) :
    s.pool.idle.count session + s.count (CallStage.holds session) ≤ s.total (.only session) :=
  total_counts s session (holds_le_weigh session)

/-- `#open` counts the sessions that are idle, held or being opened, within the size. -/
structure Counted (s : SlotSystem) : Prop where
  queued : Queued s
  number : s.pool.openCount = s.total .occupied
  bounded : s.pool.openCount ≤ s.pool.size

theorem step_size {e : SlotEvent} (h : s.step e = some t) : t.pool.size = s.pool.size := by
  cases step_effect h with
  | still pool _ _ => rw [pool]
  | refuse => rfl
  | begin _ _ turn => cases turn <;> rfl
  | retry _ _ _ _ turn => cases turn <;> rfl
  | giveUp => rfl
  | opened _ _ _ _ _ pool _ _ => rw [pool]
  | advance _ _ _ _ _ pool _ _ => rw [pool]
  | openFailed => rfl
  | release _ _ _ _ _ _ move => cases move <;> rfl
  | tokenClosed _ _ _ _ _ _ pool _ _ => rw [pool]
  | closeReturned => rfl
  | drain =>
    unfold startDrain drainOn
    split <;> rfl
  | drainClosed _ _ _ _ pool _ _ => rw [pool]
  | drainReturned d rest _ => cases rest <;> rfl
  | drainSettled _ _ pool _ _ => rw [pool]

theorem Counted.step {e : SlotEvent} (h : Counted s) (hs : s.step e = some t) : Counted t := by
  obtain ⟨queued, number, bounded⟩ := h
  have size := step_size hs
  have next := queued.step hs
  have opening : Gauge.occupied.opening = 1 := rfl
  have refused : Gauge.occupied.refused = 1 := rfl
  have session (other : SessionHandle) : Gauge.occupied.session other = 1 := rfl
  have closing (other : SessionHandle) : Gauge.occupied.closing other = 0 := rfl
  cases step_flow (g := .occupied) queued hs with
  | keep gauge counted => exact ⟨next, by omega, by omega⟩
  | claim room gauge counted => exact ⟨next, by omega, by omega⟩
  | opened n other gauge counted =>
    have := session other
    exact ⟨next, by omega, by omega⟩
  | refused gauge counted => exact ⟨next, by omega, by omega⟩
  | failed gauge counted => exact ⟨next, by omega, by omega⟩
  | dead other gauge counted =>
    have := session other
    have := closing other
    exact ⟨next, by omega, by omega⟩
  | closed other gauge counted =>
    have := closing other
    exact ⟨next, by omega, by omega⟩
  | drain gauge counted =>
    have idle : (s.pool.idle.map Gauge.occupied.session).sum = s.pool.idle.length := by
      simp [Gauge.occupied]
    have gone : (s.pool.idle.map Gauge.occupied.closing).sum = 0 := by simp [Gauge.occupied]
    exact ⟨next, by omega, by omega⟩

theorem counted_start (id : Nat) (mechanisms : List Nat) (maxSessions : Nat) :
    Counted (.new (.new id mechanisms maxSessions)) := by
  refine ⟨⟨fun n => ?_, List.nodup_nil⟩, rfl, ?_⟩
  · constructor
    · intro mem
      cases mem
    · rintro ⟨call, here, _⟩
      cases here
  · exact Int.natCast_nonneg _

def Exclusive (s : SlotSystem) : Prop := ∀ session, s.total (.only session) ≤ 1

theorem Exclusive.step {e : SlotEvent} (h : Exclusive s) (q : Queued s) (fresh : FreshHandle s e t)
    (hs : s.step e = some t) : Exclusive t := by
  intro session
  have before := h session
  have opening : (Gauge.only session).opening = 0 := rfl
  have refused : (Gauge.only session).refused = 0 := rfl
  have closing (other : SessionHandle) :
      (Gauge.only session).closing other = (Gauge.only session).session other := rfl
  cases step_flow (g := .only session) q hs with
  | keep gauge _ => omega
  | claim _ gauge _ => omega
  | opened n other gauge _ =>
    by_cases same : other = session
    · have unused := fresh other rfl
      have one : (Gauge.only session).session other = 1 := if_pos same
      rw [same] at unused
      omega
    · have none : (Gauge.only session).session other = 0 := if_neg same
      omega
  | refused gauge _ => omega
  | failed gauge _ => omega
  | dead other gauge _ =>
    have := closing other
    omega
  | closed other gauge _ => omega
  | drain gauge _ =>
    have same : (Gauge.only session).closing = (Gauge.only session).session := rfl
    rw [same] at gauge
    omega

def Balanced (s : SlotSystem) : Prop := ∀ call ∈ s.calls, call.Balanced

theorem Balanced.set {n : Nat} {call : SessionCall} (h : Balanced s) (here : s.calls[n]? = some call)
    (after : SessionCall) (next : call.Balanced → after.Balanced)
    (calls : t.calls = s.calls.set n after) : Balanced t := by
  intro other mem
  rw [calls] at mem
  rcases List.mem_or_eq_of_mem_set mem with mem | rfl
  · exact h other mem
  · exact next (h call (List.mem_of_getElem? here))

theorem Balanced.same (h : Balanced s) (calls : t.calls = s.calls) : Balanced t := by
  intro call mem
  rw [calls] at mem
  exact h call mem

theorem Balanced.add {call : SessionCall} (h : Balanced s) (fresh : call.Balanced) :
    Balanced (s.addCall call) := by
  intro other mem
  rcases List.mem_append.mp mem with mem | mem
  · exact h other mem
  · rw [List.mem_singleton.mp mem]
    exact fresh

theorem Balanced.wake (h : Balanced s) (q : Queued s) : Balanced s.wake := by
  cases head : s.pool.waiters with
  | nil =>
    apply h.same
    simp [SlotSystem.wake, head, wakeFirst]
  | cons n rest =>
    obtain ⟨call, here, stage⟩ := q.head head
    apply h.set here { call with stage := .woken }
    · intro b
      exact b.move rfl rfl (by rw [stage]; rfl) (fun _ => by rw [stage]; rfl)
    · simp [SlotSystem.wake, head, wakeFirst, ListRules.modify_eq_set here]

theorem Balanced.turn {n : Nat} {call : SessionCall} (h : Balanced s)
    (here : s.calls[n]? = some call) (stage : call.stage = .woken) (turn : AcquireTurn s n call t) :
    Balanced t := by
  have woken : call.stage.isAcquiring = true := by rw [stage]; rfl
  have free : call.stage.held? = none := by rw [stage]; rfl
  cases turn with
  | take session rest _ => exact h.set here _ (fun b => b.obtain woken free session) rfl
  | claim _ _ =>
    apply h.set here { call with stage := .opening } _ rfl
    intro b
    exact b.move rfl rfl free.symm fun _ => woken
  | queue _ _ =>
    apply h.set here { call with stage := .waiting } _ rfl
    intro b
    exact b.move rfl rfl free.symm fun _ => woken

theorem Advance.balanced {call after : SessionCall} (h : Advance call after) (b : call.Balanced) :
    after.Balanced := by
  cases h with
  | notOpened failure stage =>
    exact b.move rfl rfl (by rw [stage]; rfl) fun _ => by rw [stage]; rfl
  | obtain session stage => exact b.obtain (by rw [stage]; rfl) (by rw [stage]; rfl) session
  | pass session stage => exact b.move rfl rfl (by rw [stage]; rfl) nofun
  | await session a stage => exact b.move rfl rfl (by rw [stage]; rfl) nofun
  | start session stage =>
    have held : call.stage.held? = some session := by
      rcases stage with stage | ⟨a, stage⟩ <;> rw [stage] <;> rfl
    exact b.move rfl rfl held.symm nofun
  | answer session body rest exposed hidden stage =>
    exact b.move rfl rfl (by rw [stage]; rfl) nofun
  | settle outcome stage => exact b.move rfl rfl (by rw [stage]; rfl) nofun

theorem ReleaseMove.balanced {n : Nat} {call : SessionCall} {session : SessionHandle}
    {outcome : Outcome} (b : Balanced s) (q : Queued s) (here : s.calls[n]? = some call)
    (stage : (∃ body, call.stage = .running session body) ∨ ∃ a, call.stage = .loggingIn session a)
    (move : ReleaseMove s n call session outcome t) : Balanced t := by
  have held : call.stage.held? = some session := by
    rcases stage with ⟨_, stage⟩ | ⟨_, stage⟩ <;> rw [stage] <;> rfl
  have running : call.stage ≠ .waiting := by
    rcases stage with ⟨_, stage⟩ | ⟨_, stage⟩ <;> simp [stage]
  cases move with
  | alive healthy =>
    have put := q.put here running { s.pool with idle := session :: s.pool.idle } rfl
      { call with stage := .released outcome, releases := session :: call.releases } (by simp)
    have balanced := b.set (t := (s.setPool { s.pool with idle := session :: s.pool.idle }).setCall n
        { call with stage := .released outcome, releases := session :: call.releases }) here _
      (fun c => c.release held (.released outcome) rfl rfl) rfl
    exact balanced.wake put
  | dead failure _ =>
    exact b.set here _ (fun c => c.release held (.closing session failure) rfl rfl) rfl

theorem Balanced.drainOn (h : Balanced s) (q : Queued s) (d : Nat) (sessions : List SessionHandle) :
    Balanced (s.drainOn d sessions) := by
  cases sessions with
  | nil =>
    have set : Queued (s.setDrain d .drained) := q.same rfl rfl
    have same : Balanced (s.setDrain d .drained) := h.same rfl
    exact same.wake set
  | cons => exact h.same rfl

theorem Balanced.step {e : SlotEvent} (h : Balanced s) (q : Queued s) (hs : s.step e = some t) : Balanced t := by
  cases step_effect hs with
  | still _ calls _ => exact h.same calls
  | refuse signal operation reason =>
    exact h.add ⟨rfl, fun _ => rfl, Nat.zero_le 1⟩
  | begin signal operation turn =>
    have added : Balanced (s.addCall { signal, operation, stage := .woken }) :=
      h.add ⟨rfl, fun _ => rfl, Nat.zero_le 1⟩
    exact added.turn List.getElem?_concat_length rfl turn
  | retry n call here stage turn => exact h.turn here stage turn
  | giveUp n call reason here stage _ =>
    apply h.set here { call with stage := .settled (.error reason) } _ rfl
    intro b
    exact b.move rfl rfl (by rw [stage]; rfl) nofun
  | opened n call session here stage _ calls _ =>
    apply h.set here { call with stage := .opened (.ok session) } _ calls
    intro b
    exact b.move rfl rfl (by rw [stage]; rfl) fun _ => by rw [stage]; rfl
  | advance n call after here move _ calls _ => exact h.set here after move.balanced calls
  | openFailed n call failure here stage =>
    have put := q.put here (by simp [stage]) { s.pool with openCount := s.pool.openCount - 1 } rfl
      { call with stage := .settled (.error failure) } (by simp)
    have balanced : Balanced ((s.setPool { s.pool with openCount := s.pool.openCount - 1 }).setCall n
        { call with stage := .settled (.error failure) }) := by
      apply h.set here { call with stage := .settled (.error failure) } _ rfl
      intro b
      exact b.move rfl rfl (by rw [stage]; rfl) nofun
    exact balanced.wake put
  | release n call session outcome here stage move => exact move.balanced h q here stage
  | tokenClosed n call session failure here stage _ calls _ =>
    apply h.set here { call with stage := .closed failure } _ calls
    intro b
    exact b.move rfl rfl (by rw [stage]; rfl) nofun
  | closeReturned n call failure here stage =>
    have put := q.put here (by simp [stage]) s.pool rfl
      { call with stage := .released (.error failure) } (by simp)
    have balanced : Balanced (s.setCall n { call with stage := .released (.error failure) }) := by
      apply h.set here { call with stage := .released (.error failure) } _ rfl
      intro b
      exact b.move rfl rfl (by rw [stage]; rfl) nofun
    exact balanced.wake put
  | drain =>
    have taken : Queued (s.takeIdle.addDrain .drained) := q.same rfl rfl
    have same : Balanced (s.takeIdle.addDrain .drained) := h.same rfl
    exact same.drainOn taken _ _
  | drainClosed _ _ _ _ _ calls _ => exact h.same calls
  | drainReturned d rest _ => exact h.drainOn q d rest
  | drainSettled _ _ _ calls _ => exact h.same calls

/-- The pool's books hold in every state of every run, and while the token gives out the handle of no
session that the process still has, no session is in two places. -/
theorem session_exclusive {s₀ : SlotSystem} {es : List SlotEvent} (start : slotMachine.start s₀)
    (reached : slotMachine.run s₀ es = some s) : (slotMachine.Along FreshHandle s₀ es →
      ∀ session, s.pool.idle.count session + s.count (CallStage.holds session) ≤ 1) ∧ s.pool.openCount =
      s.pool.idle.length + s.count CallStage.isHolding + s.count CallStage.isOpening ∧
    s.pool.openCount ≤ s.pool.size ∧ ∀ call ∈ s.calls, call.acquires = call.releases ++ call.stage.held?.toList ∧
      call.acquires.length ≤ 1 := by
  obtain ⟨id, mechanisms, configured, token, _, rfl⟩ := start
  have first := counted_start id mechanisms (sessionBound configured token)
  have counted := LabelledMachine.run_invariant (I := Counted) (fun _ _ _ h hs => h.step hs) first
    reached
  have balanced := LabelledMachine.run_invariant (I := fun s => Queued s ∧ Balanced s)
    (fun _ _ _ h hs => ⟨h.1.step hs, h.2.step h.1 hs⟩)
    ⟨first.queued, fun call mem => by cases mem⟩ reached
  refine ⟨fun fresh session => ?_, ?_, counted.bounded, ?_⟩
  · have exclusive := LabelledMachine.run_invariant_along (I := fun s => Queued s ∧ Exclusive s)
      (fun _ _ _ h c hs => ⟨h.1.step hs, h.2.step h.1 c hs⟩)
      ⟨first.queued, fun _ => Nat.zero_le 1⟩ fresh reached
    exact Nat.le_trans (total_only s session) (exclusive.2 session)
  · rw [counted.number, total_occupied]
    push_cast
    rfl
  · intro call mem
    exact ⟨(balanced.2 call mem).paired, (balanced.2 call mem).once⟩

def oneSession : SlotSystem := .new (.new 0 [] (sessionBound 1 0))

def sessionClosed : TokenFailure :=
  { name := js "Pkcs11TokenError", message := js "pkcs11: C_Sign failed: CKR_SESSION_CLOSED",
    code := some 0xB0, ckr := some (js "CKR_SESSION_CLOSED") }

def lostSession : List SlotEvent :=
  [.acquire none (.fail sessionClosed), .tokenOpens 0 (.ok 7), .openReturns 0, .enter 0,
    .pinAnswers 0 (.ok (js "1234")), .tokenLogsIn 0 (.ok ()), .loginReturns 0, .proceed 0, .finish 0]

theorem oneSession_start : slotMachine.start oneSession := ⟨0, [], 1, 0, Nat.one_pos, rfl⟩

theorem lost_session_released_once : ∃ s, slotMachine.run oneSession lostSession = some s ∧ s.pool.openCount = 0 ∧
      s.calls.map SessionCall.releases = [[7]] ∧
      ∀ session, s.pool.idle.count session + s.count (CallStage.holds session) ≤ 1 := by
  have finished : (slotMachine.run oneSession lostSession).isSome = true := by decide +kernel
  obtain ⟨s, reached⟩ := Option.isSome_iff_exists.mp finished
  have number : (slotMachine.run oneSession lostSession).map (fun s => s.pool.openCount) = some 0 := by
    decide +kernel
  have released : (slotMachine.run oneSession lostSession).map
      (fun s => s.calls.map SessionCall.releases) = some [[7]] := by decide +kernel
  rw [reached] at number released
  refine ⟨s, reached, Option.some.inj number, Option.some.inj released, ?_⟩
  exact (session_exclusive oneSession_start reached).1 (by decide +kernel)

end SlotSystem

end ForgeDeno
