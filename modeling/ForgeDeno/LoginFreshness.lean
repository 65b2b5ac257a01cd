import ForgeDeno.LoginIsolation
import ForgeDeno.SessionExclusivity

namespace ForgeDeno

open ListRules List Option

def CallStage.isPassed : CallStage → Bool
  | .authenticated _ => true
  | _ => false

def Lacks (p : CallStage → Bool) (calls : List SessionCall) : Prop :=
  ∀ call ∈ calls, p call.stage = false

section lacks

variable {p : CallStage → Bool} {calls : List SessionCall}

theorem Lacks.set (h : Lacks p calls) (k : Nat) {next : SessionCall} (free : p next.stage = false) :
    Lacks p (calls.set k next) := by
  intro call mem
  rcases mem_or_eq_of_mem_set mem with old | new
  · exact h call old
  · rw [new]
    exact free

theorem Lacks.add (h : Lacks p calls) {next : SessionCall} (free : p next.stage = false) :
    Lacks p (calls ++ [next]) := by
  intro call mem
  rcases mem_append.mp mem with old | new
  · exact h call old
  · rw [mem_singleton.mp new]
    exact free

theorem wakeFirst_cases {waiters : List Nat} {k : Nat} {call : SessionCall}
    (here : (SlotSystem.wakeFirst waiters calls)[k]? = some call) :
    call.stage = .woken ∨ calls[k]? = some call := by
  cases waiters with
  | nil => exact .inr here
  | cons n rest =>
    unfold SlotSystem.wakeFirst at here
    rw [getElem?_modify] at here
    cases found : calls[k]? with
    | none =>
      rw [found] at here
      cases here
    | some old =>
      rw [found] at here
      have same := some.inj here
      dsimp only at same
      by_cases woken : n = k
      · rw [if_pos woken] at same
        rw [← same]
        exact .inl rfl
      · rw [if_neg woken] at same
        exact .inr (congrArg some same)

theorem Lacks.wake (h : Lacks p calls) (free : p .woken = false) (waiters : List Nat) :
    Lacks p (SlotSystem.wakeFirst waiters calls) := by
  intro call mem
  obtain ⟨k, here⟩ := mem_iff_getElem?.mp mem
  rcases wakeFirst_cases here with woken | old
  · rw [woken]
    exact free
  · exact h call (mem_of_getElem? old)

end lacks

def LoginPhase.succeeded : LoginPhase → Bool
  | .settled (.ok ()) _ => true
  | _ => false

def CallStage.isRunning : CallStage → Bool
  | .running _ _ => true
  | _ => false

namespace SlotEvent

/-- The attempt whose `C_Login` has succeeded. -/
def logsIn? : SlotEvent → Option Nat
  | .tokenLogsIn a (.ok ()) => some a
  | _ => none

def proceeds? : SlotEvent → Option Nat
  | .proceed n => some n
  | _ => none

theorem eq_proceed {e : SlotEvent} {n : Nat} (h : n ∈ e.proceeds?) : e = .proceed n := by
  cases e with
  | proceed k => exact congrArg SlotEvent.proceed (some.inj h)
  | _ => cases h

end SlotEvent

def LoginPhase.underWay : LoginPhase → Bool
  | .settled _ _ => false
  | _ => true

namespace SlotSystem

variable {s t : SlotSystem}

variable {call : SessionCall}

theorem AcquireTurn.lacks {n : Nat} (turn : AcquireTurn s n call t)
    (h : Lacks CallStage.isPassed s.calls) : Lacks CallStage.isPassed t.calls := by
  cases turn with
  | take session rest top | claim empty room | queue empty full => exact h.set n rfl

theorem ReleaseMove.lacks {n : Nat} {session : SessionHandle} {outcome : Outcome}
    (move : ReleaseMove s n call session outcome t) (h : Lacks CallStage.isPassed s.calls) :
    Lacks CallStage.isPassed t.calls := by
  cases move with
  | alive healthy => exact (h.set n rfl).wake rfl _
  | dead failure gone => exact h.set n rfl

theorem drainOn_lacks (h : Lacks CallStage.isPassed s.calls) (d : Nat) (sessions : List SessionHandle) :
    Lacks CallStage.isPassed (s.drainOn d sessions).calls := by
  cases sessions with
  | nil => exact h.wake rfl _
  | cons session rest => exact h

theorem SlotMove.lacks {e : SlotEvent} (move : SlotMove s e t) (h : Lacks CallStage.isPassed s.calls) :
    Lacks CallStage.isPassed t.calls ∨ s.slot.loggedIn = true ∧ ∃ n, e = .enter n := by
  cases move with
  | pass n call session here stage flag => exact .inr ⟨flag, n, rfl⟩
  | refuse signal operation reason _ => exact .inl (h.add rfl)
  | begin signal operation _ _ turn => exact .inl (turn.lacks (h.add rfl))
  | abort => exact .inl h
  | opened n call session here stage | notOpened n call failure here stage
  | obtain n call session here stage => exact .inl (h.set n rfl)
  | openFailed n call failure here stage => exact .inl ((h.set n rfl).wake rfl _)
  | giveUp n call reason here stage aborted => exact .inl (h.set n rfl)
  | retry n call _ here stage _ turn => exact .inl (turn.lacks h)
  | join n call session a here stage flag shared | attempt n call session here stage flag free =>
    exact .inl (h.set n rfl)
  | pin a attempt secret here phase => exact .inl ((pinAnswered_same s a attempt secret).calls ▸ h)
  | tokenLogin a attempt secret reply here phase =>
    exact .inl ((tokenLoggedIn_same s a attempt reply).calls ▸ h)
  | loginReturned a attempt reply here phase =>
    exact .inl ((loginReturned_same s a attempt reply).calls ▸ h)
  | forget a attempt outcome here phase => exact .inl h
  | start n call session here stage
  | startJoined n call session a attempt forgotten here stage shared phase => exact .inl (h.set n rfl)
  | loginFailed n call session a attempt failure forgotten _ here stage shared phase move =>
    exact .inl (move.lacks h)
  | answer n call session c replaced next reply here stage =>
    have heard : Lacks CallStage.isPassed (s.calls.set n (call.heard session replaced next reply)) := by
      apply h.set
      unfold SessionCall.heard
      cases reply with
      | ok value => rfl
      | error failure =>
        dsimp only
        split_ifs <;> rfl
    have noted := noteReply_same (s.setCall n (call.heard session replaced next reply)) session reply
    left
    rw [noted.calls]
    exact heard
  | finish n call session outcome _ here stage move => exact .inl (move.lacks h)
  | tokenClosed n call session failure reply here stage =>
    have closed : Lacks CallStage.isPassed (s.closeSession session).calls :=
      (closeSession_same s session).calls ▸ h
    exact .inl (closed.set n rfl)
  | closeReturned n call failure here stage => exact .inl ((h.set n rfl).wake rfl _)
  | settle n call outcome here stage healthy | settleDead n call outcome failure here stage gone =>
    exact .inl (h.set n rfl)
  | drain =>
    have taken : Lacks CallStage.isPassed (s.takeIdle.addDrain .drained).calls := h
    exact .inl (drainOn_lacks taken _ _)
  | drainClosed d session rest reply here => exact .inl ((closeSession_same s session).calls ▸ h)
  | drainReturned d rest here => exact .inl (drainOn_lacks h d rest)
  | drainSettled d here => exact .inl h
  | lost session mem => exact .inl ((endSession_same s session).calls ▸ h)

/-- What says that somebody is logged in says it truly: the flag unless the sessions have run out under
it, a call that has passed, and an attempt that the token or the call has seen succeed. -/
structure FreshLogin (s : SlotSystem) : Prop where
  flag : s.slot.loggedIn = true → s.token.unreset = true ∨ s.token.loggedIn = true
  passed : Lacks CallStage.isPassed s.calls ∨ s.token.loggedIn = true
  answered : ∀ (a : Nat) (attempt : LoginAttempt), s.attempts[a]? = some attempt →
    attempt.phase = .answered (.ok ()) → s.token.loggedIn = true
  awaited : ∀ (n : Nat) (call : SessionCall) (a : Nat) (attempt : LoginAttempt),
    s.calls[n]? = some call → call.stage.attempt? = some a → s.attempts[a]? = some attempt →
      attempt.phase.succeeded = true → s.token.loggedIn = true

/-- A call that looks at the login finds no flag under which the sessions have run out, and no attempt
that has succeeded behind a lowered flag. -/
def LooksFresh (s : SlotSystem) (e : SlotEvent) (_ : SlotSystem) : Prop :=
  ∀ _n ∈ e.enters?, s.token.unreset = false ∧ (s.slot.loggedIn = false →
    ∀ a ∈ s.slot.login, ∀ attempt ∈ s.attempts[a]?, attempt.phase.succeeded = false)

instance (s : SlotSystem) (e : SlotEvent) (t : SlotSystem) : Decidable (LooksFresh s e t) :=
  inferInstanceAs (Decidable (∀ _n ∈ e.enters?, _ ∧ (_ → ∀ a ∈ s.slot.login, ∀ attempt ∈ s.attempts[a]?,
    attempt.phase.succeeded = false)))

/-- The token drops its login only while no call stands between `login` and its body and no attempt is
under way. -/
def LoginLasts (s : SlotSystem) (_ : SlotEvent) (t : SlotSystem) : Prop :=
  s.token.loggedIn = true → t.token.loggedIn = false →
    (∀ call ∈ t.calls, call.stage.isPassed = false ∧ call.stage.attempt? = none) ∧
      ∀ attempt ∈ t.attempts, attempt.phase.underWay = false

instance (s : SlotSystem) (e : SlotEvent) (t : SlotSystem) : Decidable (LoginLasts s e t) :=
  inferInstanceAs (Decidable (_ → _ → (∀ call ∈ t.calls, _ ∧ _) ∧ ∀ attempt ∈ t.attempts, _))

/-- `C_Login` succeeds on a token only where the pool has a session open. -/
def LoginNeedsSession (s : SlotSystem) (e : SlotEvent) (_ : SlotSystem) : Prop :=
  ∀ _a ∈ e.logsIn?, s.token.sessions ≠ []

instance (s : SlotSystem) (e : SlotEvent) (t : SlotSystem) : Decidable (LoginNeedsSession s e t) :=
  inferInstanceAs (Decidable (∀ _a ∈ e.logsIn?, _))

/-- A body begins only where `C_Login` has succeeded since the pool last had no session open. -/
def StartsLoggedIn (s : SlotSystem) (e : SlotEvent) (t : SlotSystem) : Prop :=
  ∀ n ∈ e.proceeds?, ∀ call ∈ t.calls[n]?, call.stage.isRunning = true → s.token.loggedIn = true

instance (s : SlotSystem) (e : SlotEvent) (t : SlotSystem) : Decidable (StartsLoggedIn s e t) :=
  inferInstanceAs (Decidable (∀ n ∈ e.proceeds?, ∀ call ∈ t.calls[n]?, _ → _))

structure SameLogin (s t : SlotSystem) : Prop where
  flag : t.slot.loggedIn = true → s.slot.loggedIn = true ∧ (s.token.unreset = true → t.token.unreset = true)
  token : t.token.loggedIn = s.token.loggedIn
  answered : ∀ (a : Nat) (attempt : LoginAttempt), t.attempts[a]? = some attempt →
    attempt.phase = .answered (.ok ()) →
      ∃ old : LoginAttempt, s.attempts[a]? = some old ∧ old.phase = .answered (.ok ())
  succeeded : ∀ (a : Nat) (attempt : LoginAttempt), t.attempts[a]? = some attempt →
    attempt.phase.succeeded = true → ∃ old : LoginAttempt, s.attempts[a]? = some old ∧ old.phase.succeeded = true

theorem FreshLogin.of_loggedIn (h : s.token.loggedIn = true) : FreshLogin s :=
  ⟨fun _ => .inr h, .inr h, fun _ _ _ _ => h, fun _ _ _ _ _ _ _ _ => h⟩

theorem SameLogin.of_eq (slot : t.slot.loggedIn = s.slot.loggedIn) (logins : t.token.logins = s.token.logins)
    (unreset : s.token.unreset = true → t.token.unreset = true) (attempts : t.attempts = s.attempts) :
    SameLogin s t where
  flag up := ⟨slot ▸ up, unreset⟩
  token := by
    unfold TokenView.loggedIn
    rw [logins]
  answered a attempt there phase := ⟨attempt, attempts ▸ there, phase⟩
  succeeded a attempt there phase := ⟨attempt, attempts ▸ there, phase⟩

theorem SameLogin.trans {r : SlotSystem} (first : SameLogin s t) (second : SameLogin t r) : SameLogin s r where
  flag up := by
    have ⟨middle, later⟩ := second.flag up
    have ⟨before, sooner⟩ := first.flag middle
    exact ⟨before, fun unreset => later (sooner unreset)⟩
  token := second.token.trans first.token
  answered a attempt there phase := by
    obtain ⟨middle, found, phase⟩ := second.answered a attempt there phase
    exact first.answered a middle found phase
  succeeded a attempt there phase := by
    obtain ⟨middle, found, phase⟩ := second.succeeded a attempt there phase
    exact first.succeeded a middle found phase

theorem SameLogin.set {a : Nat} {attempt : LoginAttempt} {phase : LoginPhase}
    (here : s.attempts[a]? = some attempt) (answered : phase ≠ .answered (.ok ()))
    (succeeded : phase.succeeded = true → attempt.phase.succeeded = true) :
    SameLogin s (s.setPhase a attempt phase) where
  flag up := ⟨up, id⟩
  token := rfl
  answered b other there claims := by
    rcases (getElem?_set_iff here).mp there with ⟨_, rfl⟩ | ⟨_, old⟩
    · exact absurd claims answered
    · exact ⟨other, old, claims⟩
  succeeded b other there claims := by
    rcases (getElem?_set_iff here).mp there with ⟨rfl, rfl⟩ | ⟨_, old⟩
    · exact ⟨attempt, here, succeeded claims⟩
    · exact ⟨other, old, claims⟩

theorem noteReply_login {α : Type} (session : SessionHandle) (reply : Except TokenFailure α) :
    SameLogin s (s.noteReply session reply) := by
  unfold noteReply
  split
  · exact .of_eq rfl rfl id rfl
  · split_ifs <;> exact .of_eq rfl rfl id rfl

theorem drainOn_login (d : Nat) (sessions : List SessionHandle) : SameLogin s (s.drainOn d sessions) := by
  cases sessions <;> exact .of_eq rfl rfl id rfl

theorem AcquireTurn.login {n : Nat} (turn : AcquireTurn s n call t) : SameLogin s t := by
  cases turn <;> exact .of_eq rfl rfl id rfl

theorem ReleaseMove.login {n : Nat} {session : SessionHandle} {outcome : Outcome}
    (move : ReleaseMove s n call session outcome t) : SameLogin s t := by
  cases move <;> exact .of_eq rfl rfl id rfl

theorem endSession_login (session : SessionHandle) : SameLogin s (s.endSession session) ∨
    (s.token.loggedIn = true ∧ (s.endSession session).token.loggedIn = false ∧
      ((s.endSession session).slot.loggedIn = true → (s.endSession session).token.unreset = true)) := by
  unfold endSession
  dsimp only
  split
  next out =>
    cases inside : s.token.loggedIn with
    | true =>
      refine .inr ⟨rfl, rfl, fun up => ?_⟩
      show (s.token.unreset || s.slot.loggedIn) = true
      rw [show s.slot.loggedIn = true from up, Bool.or_true]
    | false =>
      refine .inl ⟨fun up => ⟨up, fun unreset => ?_⟩, ?_, fun a attempt there phase => ⟨attempt, there, phase⟩,
        fun a attempt there phase => ⟨attempt, there, phase⟩⟩
      · show (s.token.unreset || s.slot.loggedIn) = true
        rw [unreset, Bool.true_or]
      · rw [inside]
        rfl
  next more => exact .inl (.of_eq rfl rfl id rfl)

inductive LoginChange (s t : SlotSystem) : Prop where
  | same (login : SameLogin s t)
  | given (login : t.token.loggedIn = true)
  | dropped (before : s.token.loggedIn = true) (after : t.token.loggedIn = false)
      (marked : t.slot.loggedIn = true → t.token.unreset = true)

theorem LoginChange.of_end (session : SessionHandle) (slot : t.slot = (s.endSession session).slot)
    (token : t.token.logins = (s.endSession session).token.logins)
    (unreset : t.token.unreset = (s.endSession session).token.unreset)
    (attempts : t.attempts = (s.endSession session).attempts) : LoginChange s t := by
  have rest : SameLogin (s.endSession session) t :=
    .of_eq (congrArg SlotState.loggedIn slot) token (fun marked => unreset.trans marked) attempts
  rcases endSession_login (s := s) session with same | ⟨before, after, marked⟩
  · exact .same (same.trans rest)
  · refine .dropped before (rest.token.trans after) fun up => ?_
    rw [unreset]
    exact marked (slot ▸ up)

theorem SlotMove.loginChange {e : SlotEvent} (move : SlotMove s e t) (fresh : FreshLogin s)
    (needs : LoginNeedsSession s e t) : LoginChange s t := by
  cases move with
  | refuse signal operation reason _ => exact .same (.of_eq rfl rfl id rfl)
  | begin signal operation _ _ turn =>
    have added : SameLogin s (s.addCall { signal, operation, stage := .woken }) := .of_eq rfl rfl id rfl
    exact .same (added.trans turn.login)
  | abort | opened n call session here stage | notOpened n call failure here stage
  | obtain n call session here stage | openFailed n call failure here stage
  | giveUp n call reason here stage aborted => exact .same (.of_eq rfl rfl id rfl)
  | retry n call _ here stage _ turn => exact .same turn.login
  | pass n call session here stage flag | join n call session a here stage flag shared =>
    exact .same (.of_eq rfl rfl id rfl)
  | attempt n call session here stage flag free =>
    refine .same ⟨fun up => ⟨up, id⟩, rfl, fun a attempt there claims => ?_, fun a attempt there claims => ?_⟩
    · rcases getElem?_concat_iff.mp there with old | ⟨_, rfl⟩
      · exact ⟨attempt, old, claims⟩
      · cases claims
    · rcases getElem?_concat_iff.mp there with old | ⟨_, rfl⟩
      · exact ⟨attempt, old, claims⟩
      · cases claims
  | pin a attempt secret here phase =>
    cases secret with
    | error failure => exact .same (.set here nofun nofun)
    | ok secret =>
      have set : SameLogin s (s.setPhase a attempt (.calling secret)) := .set here nofun nofun
      exact .same (set.trans (.of_eq rfl rfl id rfl))
  | tokenLogin a attempt secret reply here phase =>
    cases reply with
    | error failure =>
      have set : SameLogin s (s.setPhase a attempt (.answered (.error failure))) := .set here nofun nofun
      have noted := noteReply_login (s := s.setPhase a attempt (.answered (.error failure)))
        attempt.session (.error failure : Outcome)
      exact .same (set.trans noted)
    | ok =>
      refine .given ?_
      have open_sessions := needs a (mem_some_self a)
      unfold tokenLoggedIn noteReply TokenView.loggedIn setPhase
      cases sessions : s.token.sessions with
      | nil => exact absurd sessions open_sessions
      | cons session rest => simp [sessions]
  | loginReturned a attempt reply here phase =>
    cases reply with
    | error failure => exact .same (.set here nofun nofun)
    | ok => exact .given (fresh.answered a attempt here phase)
  | forget a attempt outcome here phase =>
    have set : SameLogin s (s.setPhase a attempt (.settled outcome true)) := by
      have other : LoginPhase.settled outcome true ≠ .answered (.ok ()) := nofun
      apply SameLogin.set here other
      intro claims
      rw [phase]
      cases outcome with
      | ok => rfl
      | error failure => cases claims
    exact .same (set.trans (.of_eq rfl rfl id rfl))
  | start n call session here stage => exact .same (.of_eq rfl rfl id rfl)
  | startJoined n call session a attempt forgotten here stage shared phase =>
    exact .same (.of_eq rfl rfl id rfl)
  | loginFailed n call session a attempt failure forgotten _ here stage shared phase move =>
    exact .same move.login
  | answer n call session c replaced next reply here stage =>
    have set : SameLogin s (s.setCall n (call.heard session replaced next reply)) := .of_eq rfl rfl id rfl
    exact .same (set.trans (noteReply_login session reply))
  | finish n call session outcome _ here stage move => exact .same move.login
  | tokenClosed n call session failure reply here stage => exact .of_end session rfl rfl rfl rfl
  | closeReturned n call failure here stage | settle n call outcome here stage healthy =>
    exact .same (.of_eq rfl rfl id rfl)
  | settleDead n call outcome failure here stage gone =>
    exact .same ⟨nofun, rfl, fun a attempt there claims => ⟨attempt, there, claims⟩,
      fun a attempt there claims => ⟨attempt, there, claims⟩⟩
  | drain =>
    have taken : SameLogin s (s.takeIdle.addDrain .drained) := .of_eq rfl rfl id rfl
    exact .same (taken.trans (drainOn_login _ _))
  | drainClosed d session rest reply here => exact .of_end session rfl rfl rfl rfl
  | drainReturned d rest here => exact .same (drainOn_login d rest)
  | drainSettled d here =>
    exact .same ⟨nofun, rfl, fun a attempt there claims => ⟨attempt, there, claims⟩,
      fun a attempt there claims => ⟨attempt, there, claims⟩⟩
  | lost session mem => exact .of_end session rfl rfl rfl rfl

theorem FreshLogin.step {e : SlotEvent} (h : FreshLogin s) (looks : LooksFresh s e t)
    (lasts : LoginLasts s e t) (needs : LoginNeedsSession s e t) (hs : s.step e = some t) : FreshLogin t := by
  have move := step_move hs
  cases move.loginChange h needs with
  | given login => exact .of_loggedIn login
  | dropped before after marked =>
    obtain ⟨nobody, nothing⟩ := lasts before after
    refine ⟨fun up => .inl (marked up), .inl fun call mem => (nobody call mem).1,
      fun a attempt there claims => ?_, fun n call a attempt there awaits _ _ => ?_⟩
    · have settled := nothing attempt (mem_of_getElem? there)
      rw [claims] at settled
      cases settled
    · rw [(nobody call (mem_of_getElem? there)).2] at awaits
      cases awaits
  | same login =>
    refine ⟨fun up => ?_, ?_, fun a attempt there claims => ?_, fun n call a attempt there awaits found claims => ?_⟩
    · obtain ⟨before, unreset⟩ := login.flag up
      rw [login.token]
      exact (h.flag before).imp_left unreset
    · rw [login.token]
      rcases h.passed with none | loggedIn
      · rcases move.lacks none with still | ⟨flag, n, rfl⟩
        · exact .inl still
        · rcases h.flag flag with unreset | loggedIn
          · rw [(looks n (mem_some_self n)).1] at unreset
            cases unreset
          · exact .inr loggedIn
      · exact .inr loggedIn
    · rw [login.token]
      obtain ⟨old, before, claimed⟩ := login.answered a attempt there claims
      exact h.answered a old before claimed
    · rw [login.token]
      obtain ⟨old, before, claimed⟩ := login.succeeded a attempt found claims
      rcases move.steady with steady | ⟨k, entering, b, rfl, entered⟩
      · obtain ⟨call', here, _, awaited⟩ := steady n call a there awaits
        exact h.awaited n call' a old here awaited before claimed
      · obtain ⟨session, calls⟩ := entered.entered
        rw [calls] at there
        rcases (getElem?_set_iff entered.here).mp there with ⟨_, rfl⟩ | ⟨_, here⟩
        · cases awaits
          rcases entered.shared with shared | new
          · rw [(looks k (mem_some_self k)).2 entered.down _ shared old before] at claimed
            cases claimed
          · rw [new, getElem?_eq_none (Nat.le_refl _)] at before
            cases before
        · exact h.awaited n call a old here awaits before claimed

theorem freshLogin_start {s₀ : SlotSystem} (start : slotMachine.start s₀) : FreshLogin s₀ := by
  obtain ⟨id, mechanisms, configured, token, _, rfl⟩ := start
  refine ⟨fun up => ?_, .inl nofun, fun a attempt there => ?_, fun n call a attempt there => ?_⟩
  · cases up
  · cases there
  · cases there

theorem FreshLogin.starts {e : SlotEvent} (h : FreshLogin s) (hs : s.step e = some t) : StartsLoggedIn s e t := by
  intro n proceeds call there running
  cases SlotEvent.eq_proceed proceeds
  cases step_move hs with
  | start _ before other here stage =>
    rcases h.passed with none | loggedIn
    · have free := none before (mem_of_getElem? here)
      rw [stage] at free
      cases free
    · exact loggedIn
  | startJoined _ before other a attempt forgotten here stage shared phase =>
    refine h.awaited n before a attempt here ?_ shared ?_
    · rw [stage]
      rfl
    · rw [phase]
      rfl
  | loginFailed _ before other a attempt failure forgotten _ here stage shared phase move =>
    cases move with
    | alive healthy =>
      rcases wakeFirst_cases there with woken | old
      · rw [woken] at running
        cases running
      · rcases (getElem?_set_iff here).mp old with ⟨_, rfl⟩ | ⟨differs, _⟩
        · cases running
        · exact absurd rfl differs
    | dead failure gone =>
      rcases (getElem?_set_iff here).mp there with ⟨_, rfl⟩ | ⟨differs, _⟩
      · cases running
      · exact absurd rfl differs

/-- Where every look at the login is fresh and the login lasts until the bodies behind it begin, every
body begins after a `C_Login` that has succeeded since the pool last had no session open. -/
theorem login_fresh {s₀ : SlotSystem} {es : List SlotEvent} (start : slotMachine.start s₀)
    (needs : slotMachine.Along LoginNeedsSession s₀ es) (lasts : slotMachine.Along LoginLasts s₀ es)
    (looks : slotMachine.Along LooksFresh s₀ es) : slotMachine.Along StartsLoggedIn s₀ es := by
  have fresh := freshLogin_start start
  clear start
  induction es generalizing s₀ with
  | nil => exact trivial
  | cons e es ih =>
    intro t hs
    obtain ⟨needed, needs⟩ := LabelledMachine.along_cons needs hs
    obtain ⟨lasted, lasts⟩ := LabelledMachine.along_cons lasts hs
    obtain ⟨looked, looks⟩ := LabelledMachine.along_cons looks hs
    exact ⟨fresh.starts hs, ih needs lasts looks (fresh.step looked lasted needed hs)⟩

def loggedInAgain : List SlotEvent :=
  lostSession ++ [.tokenCloses 0 (.ok ()), .closeReturns 0, .settle 0, .forgetLogin 0,
    .acquire none (.done (.ok ())), .tokenOpens 1 (.ok 8), .openReturns 1, .enter 1,
    .pinAnswers 1 (.ok (js "1234")), .tokenLogsIn 1 (.ok ()), .loginReturns 1, .proceed 1]

theorem second_login_fresh : slotMachine.Along StartsLoggedIn oneSession loggedInAgain := by
  have needs : slotMachine.Along LoginNeedsSession oneSession loggedInAgain := by decide
  have lasts : slotMachine.Along LoginLasts oneSession loggedInAgain := by decide
  have looks : slotMachine.Along LooksFresh oneSession loggedInAgain := by decide
  exact login_fresh oneSession_start needs lasts looks

/-- The token has closed the lost session, and the second call opens its own and looks at the flag before
the first has lowered it. -/
def staleLogin : List SlotEvent :=
  lostSession ++ [.acquire none (.done (.ok ())), .tokenCloses 0 (.ok ()), .tokenOpens 1 (.ok 8),
    .openReturns 1, .enter 1, .proceed 1]

theorem stale_login_used : (slotMachine.run oneSession staleLogin).isSome = true ∧
      slotMachine.Along LoginNeedsSession oneSession staleLogin ∧
      slotMachine.Along LoginLasts oneSession staleLogin ∧
      ¬slotMachine.Along StartsLoggedIn oneSession staleLogin := by
  have possible : (slotMachine.run oneSession staleLogin).isSome = true := by decide
  have needs : slotMachine.Along LoginNeedsSession oneSession staleLogin := by decide
  have lasts : slotMachine.Along LoginLasts oneSession staleLogin := by decide
  have stale : ¬slotMachine.Along StartsLoggedIn oneSession staleLogin := by decide
  exact ⟨possible, needs, lasts, stale⟩

end SlotSystem

end ForgeDeno
