import ForgeDeno.SessionMoves

namespace ForgeDeno

open Option

def CallStage.attempt? : CallStage → Option Nat
  | .loggingIn _ a => some a
  | _ => none

def Steady (before after : List SessionCall) : Prop :=
  ∀ (n : Nat) (call : SessionCall) (a : Nat), after[n]? = some call → call.stage.attempt? = some a →
    ∃ old : SessionCall, before[n]? = some old ∧ old.signal = call.signal ∧ old.stage.attempt? = some a

section steady

variable {before after rest : List SessionCall}

theorem Steady.same (same : after = before) : Steady before after := by
  intro n call a there awaits
  exact ⟨call, same ▸ there, rfl, awaits⟩

theorem Steady.trans (first : Steady before after) (second : Steady after rest) : Steady before rest := by
  intro n call a there awaits
  obtain ⟨middle, found, signal, still⟩ := second n call a there awaits
  obtain ⟨old, here, signal', awaited⟩ := first n middle a found still
  exact ⟨old, here, signal'.trans signal, awaited⟩

theorem Steady.set (k : Nat) {next : SessionCall} (free : next.stage.attempt? = none) :
    Steady before (before.set k next) := by
  intro n call a there awaits
  rw [List.getElem?_set] at there
  split_ifs at there with here inside
  · cases there
    cases free.symm.trans awaits
  · exact ⟨call, there, rfl, awaits⟩

theorem Steady.add {next : SessionCall} (free : next.stage.attempt? = none) :
    Steady before (before ++ [next]) := by
  intro n call a there awaits
  rcases ListRules.getElem?_concat_iff.mp there with old | ⟨_, last⟩
  · exact ⟨call, old, rfl, awaits⟩
  · rw [last, free] at awaits
    cases awaits

theorem Steady.wake (waiters : List Nat) (calls : List SessionCall) :
    Steady calls (SlotSystem.wakeFirst waiters calls) := by
  cases waiters with
  | nil => exact Steady.same rfl
  | cons k rest =>
    intro n call a there awaits
    unfold SlotSystem.wakeFirst at there
    rw [List.getElem?_modify] at there
    cases here : calls[n]? with
    | none =>
      rw [here] at there
      cases there
    | some old =>
      rw [here] at there
      have same := some.inj there
      dsimp only at same
      by_cases woken : k = n
      · rw [if_pos woken] at same
        rw [← same] at awaits
        cases awaits
      · rw [if_neg woken] at same
        rw [same]
        exact ⟨call, rfl, rfl, awaits⟩

end steady

namespace SlotSystem

variable {s t : SlotSystem}

variable {call : SessionCall}

theorem AcquireTurn.steady {n : Nat} (turn : AcquireTurn s n call t) :
    Steady s.calls t.calls := by
  cases turn with
  | take session rest top => exact Steady.set n rfl
  | claim empty room => exact Steady.set n rfl
  | queue empty full => exact Steady.set n rfl

theorem ReleaseMove.steady {n : Nat} {session : SessionHandle} {outcome : Outcome}
    (move : ReleaseMove s n call session outcome t) : Steady s.calls t.calls := by
  cases move with
  | alive healthy => exact (Steady.set n rfl).trans (Steady.wake _ _)
  | dead failure gone => exact Steady.set n rfl

theorem heard_steady {n : Nat} {c : TokenCall} (session : SessionHandle)
    (replaced : TokenFailure → Bool) (next : Except TokenFailure c.Reply → TokenProgram Unit)
    (reply : Except TokenFailure c.Reply) :
    Steady s.calls (s.calls.set n (call.heard session replaced next reply)) := by
  apply Steady.set
  unfold SessionCall.heard
  cases reply with
  | ok value => rfl
  | error failure =>
    dsimp only
    split_ifs <;> rfl

theorem drainOn_steady (s : SlotSystem) (d : Nat) (sessions : List SessionHandle) :
    Steady s.calls (s.drainOn d sessions).calls := by
  unfold drainOn
  cases sessions with
  | nil => exact Steady.wake _ _
  | cons session rest => exact Steady.same rfl

structure EntersLogin (s : SlotSystem) (n : Nat) (call : SessionCall) (a : Nat) (t : SlotSystem) : Prop where
  here : s.calls[n]? = some call
  down : s.slot.loggedIn = false
  shared : s.slot.login = some a ∨ a = s.attempts.length
  entered : ∃ session, t.calls = s.calls.set n { call with stage := .loggingIn session a }

theorem SlotMove.steady {e : SlotEvent} (move : SlotMove s e t) :
    Steady s.calls t.calls ∨ ∃ n call a, e = .enter n ∧ EntersLogin s n call a t := by
  cases move with
  | refuse signal operation reason _ => exact .inl (Steady.add rfl)
  | begin signal operation _ _ turn => exact .inl ((Steady.add rfl).trans turn.steady)
  | abort => exact .inl (Steady.same rfl)
  | opened n call session here stage => exact .inl (Steady.set n rfl)
  | notOpened n call failure here stage => exact .inl (Steady.set n rfl)
  | obtain n call session here stage => exact .inl (Steady.set n rfl)
  | openFailed n call failure here stage =>
    exact .inl ((Steady.set n rfl).trans (Steady.wake _ _))
  | giveUp n call reason here stage aborted => exact .inl (Steady.set n rfl)
  | retry n call _ here stage _ turn => exact .inl turn.steady
  | pass n call session here stage _ => exact .inl (Steady.set n rfl)
  | join n call session a here stage flag shared =>
    exact .inr ⟨n, call, a, rfl, here, flag, .inl shared, session, rfl⟩
  | attempt n call session here stage flag free =>
    exact .inr ⟨n, call, _, rfl, here, flag, .inr rfl, session, rfl⟩
  | pin a attempt secret _ _ => exact .inl (Steady.same (pinAnswered_same s a attempt secret).calls)
  | tokenLogin a attempt _ reply _ _ =>
    exact .inl (Steady.same (tokenLoggedIn_same s a attempt reply).calls)
  | loginReturned a attempt reply _ _ =>
    exact .inl (Steady.same (loginReturned_same s a attempt reply).calls)
  | forget => exact .inl (Steady.same rfl)
  | start n call session here stage => exact .inl (Steady.set n rfl)
  | startJoined n call session a _ _ here stage _ _ => exact .inl (Steady.set n rfl)
  | loginFailed n call session a _ failure _ _ here stage _ _ move => exact .inl move.steady
  | answer n call session c replaced next reply here stage =>
    have noted := noteReply_same (s.setCall n (call.heard session replaced next reply)) session reply
    exact .inl ((heard_steady session replaced next reply).trans (Steady.same noted.calls))
  | finish n call session outcome _ here stage move => exact .inl move.steady
  | tokenClosed n call session failure _ here stage =>
    have ended := closeSession_same s session
    exact .inl ((Steady.same ended.calls).trans (Steady.set n rfl))
  | closeReturned n call failure here stage =>
    exact .inl ((Steady.set n rfl).trans (Steady.wake _ _))
  | settle n call outcome here stage _ => exact .inl (Steady.set n rfl)
  | settleDead n call outcome _ here stage _ => exact .inl (Steady.set n rfl)
  | drain => exact .inl (drainOn_steady (s.takeIdle.addDrain .drained) _ _)
  | drainClosed d session rest _ here => exact .inl (Steady.same (closeSession_same s session).calls)
  | drainReturned d rest here => exact .inl (drainOn_steady s d rest)
  | drainSettled d here => exact .inl (Steady.same rfl)
  | lost session _ => exact .inl (Steady.same (endSession_same s session).calls)

structure Later (s t : SlotSystem) : Prop where
  aborted : ∀ signal, t.aborted signal = none → s.aborted signal = none
  attempts : s.attempts.length ≤ t.attempts.length

theorem Later.same (signals : t.signals = s.signals) (attempts : t.attempts.length = s.attempts.length) :
    Later s t := by
  refine ⟨fun signal live => ?_, attempts.ge⟩
  unfold SlotSystem.aborted at live ⊢
  rwa [signals] at live

theorem Later.trans {r : SlotSystem} (first : Later s t) (second : Later t r) : Later s r :=
  ⟨fun signal live => first.aborted signal (second.aborted signal live), first.attempts.trans second.attempts⟩

theorem endSession_later (s : SlotSystem) (session : SessionHandle) : Later s (s.endSession session) := by
  unfold endSession
  dsimp only
  split <;> exact Later.same rfl rfl

theorem noteReply_later (s : SlotSystem) {α : Type} (session : SessionHandle)
    (reply : Except TokenFailure α) : Later s (s.noteReply session reply) := by
  unfold noteReply
  split
  · exact Later.same rfl rfl
  · split <;> exact Later.same rfl rfl

theorem setPhase_later (s : SlotSystem) (a : Nat) (attempt : LoginAttempt) (phase : LoginPhase) :
    Later s (s.setPhase a attempt phase) := by
  have length : (s.setPhase a attempt phase).attempts.length = s.attempts.length := List.length_set
  exact Later.same rfl length

theorem abort_later (s : SlotSystem) (signal : Nat) (reason : TokenFailure) :
    Later s (s.abort signal reason) := by
  refine ⟨fun other live => ?_, Nat.le_refl _⟩
  cases other with
  | none => rfl
  | some k =>
    have whole : (if k = signal then some ((s.signals k).getD reason) else s.signals k) = none := live
    split_ifs at whole
    exact whole

theorem AcquireTurn.later {n : Nat} (turn : AcquireTurn s n call t) : Later s t := by
  cases turn <;> exact Later.same rfl rfl

theorem ReleaseMove.later {n : Nat} {session : SessionHandle} {outcome : Outcome}
    (move : ReleaseMove s n call session outcome t) : Later s t := by
  cases move <;> exact Later.same rfl rfl

theorem drainOn_later (s : SlotSystem) (d : Nat) (sessions : List SessionHandle) :
    Later s (s.drainOn d sessions) := by
  cases sessions <;> exact Later.same rfl rfl

theorem pinAnswered_later (s : SlotSystem) (a : Nat) (attempt : LoginAttempt)
    (secret : Except TokenFailure JsString) : Later s (s.pinAnswered a attempt secret) := by
  cases secret with
  | ok secret => exact (setPhase_later s a attempt (.calling secret)).trans (Later.same rfl rfl)
  | error failure => exact setPhase_later s a attempt _

theorem tokenLoggedIn_later (s : SlotSystem) (a : Nat) (attempt : LoginAttempt) (reply : Outcome) :
    Later s (s.tokenLoggedIn a attempt reply) := by
  have noted : Later s ((s.setPhase a attempt (.answered reply)).noteReply attempt.session reply) :=
    (setPhase_later s a attempt _).trans (noteReply_later _ attempt.session reply)
  cases reply with
  | ok => exact noted.trans (Later.same rfl rfl)
  | error => exact noted

theorem loginReturned_later (s : SlotSystem) (a : Nat) (attempt : LoginAttempt) (reply : Outcome) :
    Later s (s.loginReturned a attempt reply) := by
  have settled := setPhase_later s a attempt (.settled reply false)
  cases reply with
  | ok => exact settled.trans (Later.same rfl rfl)
  | error => exact settled

theorem SlotMove.later {e : SlotEvent} (move : SlotMove s e t) : Later s t := by
  cases move with
  | begin signal operation _ _ turn =>
    have added : Later s (s.addCall { signal, operation, stage := .woken }) := Later.same rfl rfl
    exact added.trans turn.later
  | retry n call _ here stage _ turn => exact turn.later
  | loginFailed n call session a _ failure _ _ here stage _ _ move => exact move.later
  | finish n call session outcome _ here stage move => exact move.later
  | abort signal reason => exact abort_later s signal reason
  | attempt n call session here stage flag free =>
    refine ⟨fun _ live => live, ?_⟩
    show s.attempts.length ≤ (s.attempts ++ [_]).length
    rw [List.length_append]
    omega
  | pin a attempt secret _ _ => exact pinAnswered_later s a attempt secret
  | tokenLogin a attempt _ reply _ _ => exact tokenLoggedIn_later s a attempt reply
  | loginReturned a attempt reply _ _ => exact loginReturned_later s a attempt reply
  | forget a attempt outcome _ _ => exact (setPhase_later s a attempt _).trans (Later.same rfl rfl)
  | answer n call session c replaced next reply here stage =>
    have heard : Later s (s.setCall n (call.heard session replaced next reply)) := Later.same rfl rfl
    exact heard.trans (noteReply_later _ session reply)
  | tokenClosed n call session failure _ here stage =>
    exact (endSession_later s session).trans (Later.same rfl rfl)
  | drain =>
    have taken : Later s (s.takeIdle.addDrain .drained) := Later.same rfl rfl
    exact taken.trans (drainOn_later _ _ _)
  | drainClosed d session rest _ here => exact (endSession_later s session).trans (Later.same rfl rfl)
  | drainReturned d rest here => exact drainOn_later s d rest
  | lost session _ => exact endSession_later s session
  | _ => exact Later.same rfl rfl

end SlotSystem

def SlotEvent.rejects? : SlotEvent → Option Nat
  | .pinAnswers a (.error _) => some a
  | _ => none

def SlotEvent.enters? : SlotEvent → Option Nat
  | .enter n => some n
  | _ => none

/-- A slot with the history of its logins: which call has started each attempt, of which attempts the
PIN provider has rejected, and which calls have failed for it with another call's PIN provider while
their own signal was not aborted. -/
structure LoginHistory where
  slot : SlotSystem
  starters : List Nat
  rejected : List Nat
  spoiled : List Nat

namespace LoginHistory

def awaits (h : LoginHistory) (n : Nat) : Option Nat :=
  h.slot.calls[n]?.bind fun call => call.stage.attempt?

def live (h : LoginHistory) (n : Nat) : Bool :=
  match h.slot.calls[n]? with
  | some call => (h.slot.aborted call.signal).isNone
  | none => false

def foreign (h : LoginHistory) (n a : Nat) : Bool := a ∈ h.rejected && h.starters[a]? ≠ some n

def spoils (h : LoginHistory) (n : Nat) : Bool :=
  match h.awaits n with
  | some a => h.foreign n a && h.live n
  | none => false

/-- What an event that leads to the slot `t` adds to the history. -/
def note (h : LoginHistory) (t : SlotSystem) : SlotEvent → LoginHistory
  | .enter n =>
    if h.slot.attempts.length < t.attempts.length then { h with slot := t, starters := h.starters ++ [n] }
    else { h with slot := t }
  | .pinAnswers a (.error _) => { h with slot := t, rejected := a :: h.rejected }
  | .proceed n =>
    if h.spoils n then { h with slot := t, spoiled := n :: h.spoiled } else { h with slot := t }
  | _ => { h with slot := t }

/-- No PIN provider rejects while another call awaits the same attempt, and no call joins an attempt
in which one has rejected; it is only asked of calls that could have logged in. -/
def Apart (healthy : Nat → Prop) (h : LoginHistory) (e : SlotEvent) (_ : LoginHistory) : Prop :=
  (∀ a ∈ e.rejects?, ∀ n < h.slot.calls.length, h.awaits n = some a → healthy n → h.live n = true →
    h.starters[a]? = some n) ∧
  ∀ n ∈ e.enters?, h.slot.slot.loggedIn = false → ∀ a ∈ h.rejected, h.slot.slot.login = some a →
    healthy n → h.live n = false

instance (healthy : Nat → Prop) [DecidablePred healthy] (h : LoginHistory) (e : SlotEvent)
    (k : LoginHistory) : Decidable (Apart healthy h e k) :=
  inferInstanceAs (Decidable (_ ∧ _))

end LoginHistory

def loginMachine : LabelledMachine LoginHistory SlotEvent where
  start h := slotMachine.start h.slot ∧ h.starters = [] ∧ h.rejected = [] ∧ h.spoiled = []
  step h e := (h.slot.step e).map fun t => h.note t e

namespace LoginHistory

variable {healthy : Nat → Prop} {h k : LoginHistory}

theorem note_slot (h : LoginHistory) (t : SlotSystem) (e : SlotEvent) : (h.note t e).slot = t := by
  unfold note
  split
  · split_ifs <;> rfl
  · rfl
  · split_ifs <;> rfl
  · rfl

structure Isolated (healthy : Nat → Prop) (h : LoginHistory) : Prop where
  awaiting : ∀ n a, h.awaits n = some a → a ∈ h.rejected → healthy n → h.live n = true → h.starters[a]? = some n
  known : ∀ a ∈ h.rejected, a < h.slot.attempts.length
  spared : ∀ n ∈ h.spoiled, ¬healthy n

theorem Isolated.start (start : loginMachine.start h) : Isolated healthy h := by
  obtain ⟨_, _, rejected, spoiled⟩ := start
  refine ⟨fun n a _ mem => ?_, fun a mem => ?_, fun n mem => ?_⟩
  · rw [rejected] at mem
    cases mem
  · rw [rejected] at mem
    cases mem
  · rw [spoiled] at mem
    cases mem

theorem awaits_some {n a : Nat} (awaited : h.awaits n = some a) :
    ∃ call, h.slot.calls[n]? = some call ∧ call.stage.attempt? = some a :=
  bind_eq_some_iff.mp awaited

theorem live_true {n : Nat} {call : SessionCall} (here : h.slot.calls[n]? = some call) :
    h.live n = true ↔ h.slot.aborted call.signal = none := by
  unfold live
  rw [here]
  exact isNone_iff_eq_none

theorem note_starters (h : LoginHistory) (t : SlotSystem) (e : SlotEvent) :
    h.starters <+: (h.note t e).starters := by
  unfold note
  split
  · split_ifs
    · exact List.prefix_append _ _
    · exact List.prefix_rfl
  · exact List.prefix_rfl
  · split_ifs <;> exact List.prefix_rfl
  · exact List.prefix_rfl

theorem note_rejected {t : SlotSystem} {e : SlotEvent} {a : Nat} (mem : a ∈ (h.note t e).rejected) :
    a ∈ h.rejected ∨ ∃ failure, e = .pinAnswers a (.error failure) := by
  unfold note at mem
  split at mem
  next => split_ifs at mem <;> exact .inl mem
  next b failure =>
    rcases List.mem_cons.mp mem with same | old
    · exact .inr ⟨failure, by rw [same]⟩
    · exact .inl old
  next => split_ifs at mem <;> exact .inl mem
  next => exact .inl mem

theorem note_spoiled {t : SlotSystem} {e : SlotEvent} {n : Nat} (mem : n ∈ (h.note t e).spoiled) :
    n ∈ h.spoiled ∨ (e = .proceed n ∧ h.spoils n = true) := by
  unfold note at mem
  split at mem
  next => split_ifs at mem <;> exact .inl mem
  next => exact .inl mem
  next m =>
    split_ifs at mem with spoils
    · rcases List.mem_cons.mp mem with same | old
      · rw [same]
        exact .inr ⟨rfl, spoils⟩
      · exact .inl old
    · exact .inl mem
  next => exact .inl mem

theorem awaits_before {t : SlotSystem} {e : SlotEvent} (move : SlotSystem.SlotMove h.slot e t) {n a : Nat}
    (awaited : (h.note t e).awaits n = some a) (lives : (h.note t e).live n = true) :
    h.live n = true ∧ (h.awaits n = some a ∨ e = .enter n ∧ h.slot.slot.loggedIn = false ∧
      (h.slot.slot.login = some a ∨ a = h.slot.attempts.length)) := by
  obtain ⟨call, there, stage⟩ := awaits_some awaited
  rw [live_true there] at lives
  rw [note_slot] at there lives
  have live_before := move.later.aborted _ lives
  rcases move.steady with steady | ⟨m, old, b, same, entered⟩
  · obtain ⟨old, here, signal, await⟩ := steady n call a there stage
    rw [live_true here, signal]
    exact ⟨live_before, .inl (bind_eq_some_iff.mpr ⟨old, here, await⟩)⟩
  · obtain ⟨session, calls⟩ := entered.entered
    rw [calls] at there
    rcases (ListRules.getElem?_set_iff entered.here).mp there with ⟨rfl, after⟩ | ⟨_, kept⟩
    · rw [after] at stage live_before
      cases stage
      exact ⟨(live_true entered.here).mpr live_before, .inr ⟨same, entered.down, entered.shared⟩⟩
    · rw [live_true kept]
      exact ⟨live_before, .inl (bind_eq_some_iff.mpr ⟨call, kept, stage⟩)⟩

theorem pin_known {s t : SlotSystem} {a : Nat} {secret : Except TokenFailure JsString}
    (move : SlotSystem.SlotMove s (.pinAnswers a secret) t) : a < s.attempts.length := by
  cases move with
  | pin _ attempt _ here _ => exact (List.getElem?_eq_some_iff.mp here).1

theorem Isolated.step {e : SlotEvent} (i : Isolated healthy h) (apart : Apart healthy h e k)
    (hs : loginMachine.step h e = some k) : Isolated healthy k := by
  obtain ⟨t, step, rfl⟩ := map_eq_some_iff.mp hs
  have move := SlotSystem.step_move step
  refine ⟨fun n a awaited mem sound lives => ?_, fun a mem => ?_, fun n mem sound => ?_⟩
  · obtain ⟨lived, origin⟩ := awaits_before move awaited lives
    have kept : h.starters[a]? = some n → (h.note t e).starters[a]? = some n := by
      intro started
      obtain ⟨rest, whole⟩ := note_starters h t e
      obtain ⟨bound, _⟩ := List.getElem?_eq_some_iff.mp started
      rw [← whole, List.getElem?_append_left bound]
      exact started
    rcases origin with before | ⟨rfl, down, shared⟩
    · rcases note_rejected mem with old | ⟨failure, rfl⟩
      · exact kept (i.awaiting n a before old sound lived)
      · obtain ⟨call, here, _⟩ := awaits_some before
        obtain ⟨bound, _⟩ := List.getElem?_eq_some_iff.mp here
        exact kept (apart.1 a rfl n bound before sound lived)
    · -- a call that enters now joins an attempt in which nobody has rejected, or starts one
      rcases note_rejected mem with old | ⟨_, other⟩
      · rcases shared with joined | fresh
        · have dead := apart.2 n rfl down a old joined sound
          rw [dead] at lived
          cases lived
        · have bound := i.known a old
          omega
      · cases other
  · rw [note_slot]
    have grown := move.later.attempts
    rcases note_rejected mem with old | ⟨failure, rfl⟩
    · have bound := i.known a old
      omega
    · have bound := pin_known move
      omega
  · rcases note_spoiled mem with old | ⟨rfl, spoils⟩
    · exact i.spared n old sound
    · unfold LoginHistory.spoils at spoils
      cases awaited : h.awaits n with
      | none =>
        rw [awaited] at spoils
        cases spoils
      | some a =>
        rw [awaited] at spoils
        obtain ⟨foreign, lives⟩ := Bool.and_eq_true_iff.mp spoils
        unfold LoginHistory.foreign at foreign
        obtain ⟨rejected, other⟩ := Bool.and_eq_true_iff.mp foreign
        exact of_decide_eq_true other (i.awaiting n a awaited (of_decide_eq_true rejected) sound lives)

/-- In a run whose steps keep the calls apart, no call that could have logged in fails for another
call's aborted signal or PIN provider. -/
theorem login_isolation {start : LoginHistory} {es : List SlotEvent} (starts : loginMachine.start start)
    (apart : loginMachine.Along (Apart healthy) start es)
    (reached : loginMachine.run start es = some h) : ∀ n ∈ h.spoiled, ¬healthy n := by
  have isolated : Isolated healthy h := LabelledMachine.run_invariant_along
    (fun _ _ _ i step hs => i.step step hs) (Isolated.start starts) apart reached
  exact isolated.spared

def twoSessions : LoginHistory where
  slot := .new (.new 0 [] (sessionBound 2 0))
  starters := []
  rejected := []
  spoiled := []

theorem twoSessions_start : loginMachine.start twoSessions :=
  ⟨⟨0, [], 2, 0, Nat.two_pos, rfl⟩, rfl, rfl, rfl⟩

def abortReason : TokenFailure := { name := js "AbortError", message := js "aborted" }

/-- A first call is aborted while its PIN provider is asked; a second one comes when that is over. -/
def abortedAlone : List SlotEvent :=
  [.acquire (some 0) (.done (.ok ())), .tokenOpens 0 (.ok 7), .openReturns 0, .enter 0,
    .abort 0 abortReason, .pinAnswers 0 (.error abortReason), .forgetLogin 0, .proceed 0,
    .acquire none (.done (.ok ())), .enter 1, .pinAnswers 1 (.ok (js "1234")), .tokenLogsIn 1 (.ok ()),
    .loginReturns 1, .proceed 1]

theorem aborted_alone_isolated :
    ∃ h, loginMachine.run twoSessions abortedAlone = some h ∧ ∀ n ∈ h.spoiled, ¬n = 1 := by
  have finished : (loginMachine.run twoSessions abortedAlone).isSome = true := by decide
  obtain ⟨h, reached⟩ := Option.isSome_iff_exists.mp finished
  have apart : loginMachine.Along (Apart fun n => n = 1) twoSessions abortedAlone := by decide
  exact ⟨h, reached, login_isolation twoSessions_start apart reached⟩

/-- A first call is aborted while its PIN provider is asked and a second one awaits the same login. -/
def abortedTogether : List SlotEvent :=
  [.acquire (some 0) (.done (.ok ())), .acquire none (.done (.ok ())), .tokenOpens 0 (.ok 7),
    .openReturns 0, .enter 0, .tokenOpens 1 (.ok 8), .openReturns 1, .enter 1, .abort 0 abortReason,
    .pinAnswers 0 (.error abortReason), .proceed 1]

/-- The second call fails though neither its signal is aborted nor its PIN provider asked. -/
theorem aborted_together_spoiled :
    ∃ h, loginMachine.start twoSessions ∧ loginMachine.run twoSessions abortedTogether = some h ∧
      h.spoiled = [1] ∧ h.slot.calls[1]?.map SessionCall.stage =
        some (.released (.error SlotSystem.pinFailure)) := by
  have finished : (loginMachine.run twoSessions abortedTogether).isSome = true := by decide
  obtain ⟨h, reached⟩ := Option.isSome_iff_exists.mp finished
  have spoiled : (loginMachine.run twoSessions abortedTogether).map LoginHistory.spoiled = some [1] := by
    decide
  have stage : (loginMachine.run twoSessions abortedTogether).map
      (fun h => h.slot.calls[1]?.map SessionCall.stage) =
        some (some (.released (.error SlotSystem.pinFailure))) := by rfl
  rw [reached] at spoiled stage
  exact ⟨h, twoSessions_start, reached, Option.some.inj spoiled, Option.some.inj stage⟩

end LoginHistory

end ForgeDeno
