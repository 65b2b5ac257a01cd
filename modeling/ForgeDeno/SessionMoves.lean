import ForgeDeno.ListRules
import ForgeDeno.SessionCore

namespace ForgeDeno

namespace SlotSystem

/-- Everything one turn of the loop in `acquire` can do. -/
inductive AcquireTurn (s : SlotSystem) (n : Nat) (call : SessionCall) : SlotSystem → Prop where
  | take (session : SessionHandle) (rest : List SessionHandle) (top : s.pool.idle = session :: rest) :
      AcquireTurn s n call ((s.setPool { s.pool with idle := rest }).setCall n (call.obtain session))
  | claim (empty : s.pool.idle = []) (room : s.pool.openCount < s.pool.size) :
      AcquireTurn s n call
        ((s.setPool { s.pool with openCount := s.pool.openCount + 1 }).setCall n { call with stage := .opening })
  | queue (empty : s.pool.idle = []) (full : (s.pool.size : Int) ≤ s.pool.openCount) :
      AcquireTurn s n call
        ((s.setPool { s.pool with waiters := s.pool.waiters ++ [n] }).setCall n { call with stage := .waiting })

theorem tryAcquire_turn (s : SlotSystem) (n : Nat) (call : SessionCall) :
    AcquireTurn s n call (s.tryAcquire n call) := by
  unfold tryAcquire
  split
  · next session rest top => exact .take session rest top
  · next empty =>
    split
    · next room => exact .claim empty room
    · next full => exact .queue empty (Int.not_lt.mp full)

/-- The failure that makes `release` close the session. -/
def fatal : Outcome → Option TokenFailure
  | .ok () => none
  | .error failure => if sessionIsDead failure then some failure else none

inductive ReleaseMove (s : SlotSystem) (n : Nat) (call : SessionCall) (session : SessionHandle)
    (outcome : Outcome) : SlotSystem → Prop where
  | alive (healthy : fatal outcome = none) :
      ReleaseMove s n call session outcome
        ((s.setCall n { call with
          stage := .released outcome, releases := session :: call.releases }).giveBack session)
  | dead (failure : TokenFailure) (gone : fatal outcome = some failure) :
      ReleaseMove s n call session outcome
        ((s.setPool { s.pool with openCount := s.pool.openCount - 1 }).setCall n { call with
          stage := .closing session failure, releases := session :: call.releases })

theorem release_move (s : SlotSystem) (n : Nat) (call : SessionCall) (session : SessionHandle)
    (outcome : Outcome) : ReleaseMove s n call session outcome (s.release n call session outcome) := by
  unfold release
  split
  · exact .alive rfl
  · next failure =>
    split
    · next dead => exact .dead failure (if_pos dead)
    · next alive => exact .alive (if_neg alive)

inductive SlotMove (s : SlotSystem) : SlotEvent → SlotSystem → Prop where
  | refuse (signal : Option Nat) (operation : TokenProgram Unit) (reason : TokenFailure)
      (aborted : s.aborted signal = some reason) :
      SlotMove s (.acquire signal operation) (s.addCall { signal, operation, stage := .settled (.error reason) })
  | begin (signal : Option Nat) (operation : TokenProgram Unit) (t : SlotSystem)
      (live : s.aborted signal = none)
      (turn : AcquireTurn (s.addCall { signal, operation, stage := .woken }) s.calls.length
        { signal, operation, stage := .woken } t) :
      SlotMove s (.acquire signal operation) t
  | abort (signal : Nat) (reason : TokenFailure) : SlotMove s (.abort signal reason) (s.abort signal reason)
  | opened (n : Nat) (call : SessionCall) (session : SessionHandle) (here : s.calls[n]? = some call)
      (stage : call.stage = .opening) :
      SlotMove s (.tokenOpens n (.ok session))
        ((s.setCall n { call with stage := .opened (.ok session) }).beginSession session)
  | notOpened (n : Nat) (call : SessionCall) (failure : TokenFailure)
      (here : s.calls[n]? = some call) (stage : call.stage = .opening) :
      SlotMove s (.tokenOpens n (.error failure)) (s.setCall n { call with stage := .opened (.error failure) })
  | obtain (n : Nat) (call : SessionCall) (session : SessionHandle) (here : s.calls[n]? = some call)
      (stage : call.stage = .opened (.ok session)) :
      SlotMove s (.openReturns n) (s.setCall n (call.obtain session))
  | openFailed (n : Nat) (call : SessionCall) (failure : TokenFailure)
      (here : s.calls[n]? = some call) (stage : call.stage = .opened (.error failure)) :
      SlotMove s (.openReturns n) (s.openFailed n call failure)
  | giveUp (n : Nat) (call : SessionCall) (reason : TokenFailure) (here : s.calls[n]? = some call)
      (stage : call.stage = .woken) (aborted : s.aborted call.signal = some reason) :
      SlotMove s (.resume n) (s.setCall n { call with stage := .settled (.error reason) })
  | retry (n : Nat) (call : SessionCall) (t : SlotSystem) (here : s.calls[n]? = some call)
      (stage : call.stage = .woken) (live : s.aborted call.signal = none)
      (turn : AcquireTurn s n call t) : SlotMove s (.resume n) t
  | pass (n : Nat) (call : SessionCall) (session : SessionHandle) (here : s.calls[n]? = some call)
      (stage : call.stage = .acquired session) (flag : s.slot.loggedIn = true) :
      SlotMove s (.enter n) (s.setCall n { call with stage := .authenticated session })
  | join (n : Nat) (call : SessionCall) (session : SessionHandle) (a : Nat)
      (here : s.calls[n]? = some call) (stage : call.stage = .acquired session)
      (flag : s.slot.loggedIn = false) (shared : s.slot.login = some a) :
      SlotMove s (.enter n) (s.setCall n { call with stage := .loggingIn session a })
  | attempt (n : Nat) (call : SessionCall) (session : SessionHandle) (here : s.calls[n]? = some call)
      (stage : call.stage = .acquired session) (flag : s.slot.loggedIn = false)
      (free : s.slot.login = none) :
      SlotMove s (.enter n)
        { s.setCall n { call with stage := .loggingIn session s.attempts.length } with
          attempts := s.attempts ++ [⟨session, .pin⟩]
          slot := { s.slot with login := some s.attempts.length } }
  | pin (a : Nat) (attempt : LoginAttempt) (secret : Except TokenFailure JsString)
      (here : s.attempts[a]? = some attempt) (phase : attempt.phase = .pin) :
      SlotMove s (.pinAnswers a secret) (s.pinAnswered a attempt secret)
  | tokenLogin (a : Nat) (attempt : LoginAttempt) (secret : JsString) (reply : Outcome)
      (here : s.attempts[a]? = some attempt) (phase : attempt.phase = .calling secret) :
      SlotMove s (.tokenLogsIn a reply) (s.tokenLoggedIn a attempt reply)
  | loginReturned (a : Nat) (attempt : LoginAttempt) (reply : Outcome)
      (here : s.attempts[a]? = some attempt) (phase : attempt.phase = .answered reply) :
      SlotMove s (.loginReturns a) (s.loginReturned a attempt reply)
  | forget (a : Nat) (attempt : LoginAttempt) (outcome : Outcome)
      (here : s.attempts[a]? = some attempt) (phase : attempt.phase = .settled outcome false) :
      SlotMove s (.forgetLogin a) (s.forgetLogin a attempt outcome)
  | start (n : Nat) (call : SessionCall) (session : SessionHandle) (here : s.calls[n]? = some call)
      (stage : call.stage = .authenticated session) :
      SlotMove s (.proceed n) (s.setCall n { call with stage := .running session call.operation })
  | startJoined (n : Nat) (call : SessionCall) (session : SessionHandle) (a : Nat)
      (attempt : LoginAttempt) (forgotten : Bool) (here : s.calls[n]? = some call)
      (stage : call.stage = .loggingIn session a) (shared : s.attempts[a]? = some attempt)
      (phase : attempt.phase = .settled (.ok ()) forgotten) :
      SlotMove s (.proceed n) (s.setCall n { call with stage := .running session call.operation })
  | loginFailed (n : Nat) (call : SessionCall) (session : SessionHandle) (a : Nat)
      (attempt : LoginAttempt) (failure : TokenFailure) (forgotten : Bool) (t : SlotSystem)
      (here : s.calls[n]? = some call) (stage : call.stage = .loggingIn session a)
      (shared : s.attempts[a]? = some attempt)
      (phase : attempt.phase = .settled (.error failure) forgotten)
      (move : ReleaseMove s n call session (.error failure) t) : SlotMove s (.proceed n) t
  | answer (n : Nat) (call : SessionCall) (session : SessionHandle) (c : TokenCall)
      (replaced : TokenFailure → Bool) (next : Except TokenFailure c.Reply → TokenProgram Unit)
      (reply : Except TokenFailure c.Reply) (here : s.calls[n]? = some call)
      (stage : call.stage = .running session (.call c replaced next)) :
      SlotMove s (.answer n c reply)
        ((s.setCall n (call.heard session replaced next reply)).noteReply session reply)
  | finish (n : Nat) (call : SessionCall) (session : SessionHandle) (outcome : Outcome)
      (t : SlotSystem) (here : s.calls[n]? = some call)
      (stage : call.stage = .running session (.done outcome))
      (move : ReleaseMove s n call session outcome t) : SlotMove s (.finish n) t
  | tokenClosed (n : Nat) (call : SessionCall) (session : SessionHandle) (failure : TokenFailure)
      (reply : Outcome) (here : s.calls[n]? = some call)
      (stage : call.stage = .closing session failure) :
      SlotMove s (.tokenCloses n reply)
        ((s.closeSession session).setCall n { call with stage := .closed failure })
  | closeReturned (n : Nat) (call : SessionCall) (failure : TokenFailure)
      (here : s.calls[n]? = some call) (stage : call.stage = .closed failure) :
      SlotMove s (.closeReturns n) (s.setCall n { call with stage := .released (.error failure) }).wake
  | settle (n : Nat) (call : SessionCall) (outcome : Outcome) (here : s.calls[n]? = some call)
      (stage : call.stage = .released outcome) (healthy : fatal outcome = none) :
      SlotMove s (.settle n) (s.setCall n { call with stage := .settled outcome })
  | settleDead (n : Nat) (call : SessionCall) (outcome : Outcome) (failure : TokenFailure)
      (here : s.calls[n]? = some call) (stage : call.stage = .released outcome)
      (gone : fatal outcome = some failure) :
      SlotMove s (.settle n) (s.setCall n { call with stage := .settled outcome }).resetLogin
  | drain : SlotMove s .drain s.startDrain
  | drainClosed (d : Nat) (session : SessionHandle) (rest : List SessionHandle) (reply : Outcome)
      (here : s.drains[d]? = some (.closing session rest)) :
      SlotMove s (.drainCloses d reply) ((s.closeSession session).setDrain d (.closed rest))
  | drainReturned (d : Nat) (rest : List SessionHandle)
      (here : s.drains[d]? = some (.closed rest)) :
      SlotMove s (.drainReturns d) (s.drainOn d rest)
  | drainSettled (d : Nat) (here : s.drains[d]? = some .drained) :
      SlotMove s (.drainSettles d) (s.setDrain d .finished).resetLogin
  | lost (session : SessionHandle) (mem : session ∈ s.token.sessions) :
      SlotMove s (.lost session) (s.endSession session)

variable {s t : SlotSystem}

variable {call : SessionCall}

theorem proceeded_move {n : Nat} (here : s.calls[n]? = some call)
    (h : s.proceeded n call = some t) : SlotMove s (.proceed n) t := by
  unfold proceeded at h
  split at h
  · next session stage =>
    cases h
    exact .start n call session here stage
  · next session a stage =>
    split at h
    · next shared =>
      cases h
      exact .startJoined n call session a _ _ here stage shared rfl
    · next failure _ shared =>
      cases h
      exact .loginFailed n call session a _ failure _ _ here stage shared rfl (release_move ..)
    · cases h
  · cases h

theorem answered_move {n : Nat} {session : SessionHandle}
    {body : TokenProgram Unit} {c : TokenCall} {reply : Except TokenFailure c.Reply}
    (here : s.calls[n]? = some call) (stage : call.stage = .running session body)
    (h : s.answered n call session body c reply = some t) : SlotMove s (.answer n c reply) t := by
  unfold answered at h
  split at h
  · cases h
  · next asked replaced next =>
    split at h
    · next same =>
      subst same
      cases h
      exact .answer n call session asked replaced next reply here stage
    · cases h

theorem login_move {n : Nat} {session : SessionHandle}
    (here : s.calls[n]? = some call) (stage : call.stage = .acquired session) :
    SlotMove s (.enter n) (s.login n call session) := by
  unfold login
  split
  · next flag => exact .pass n call session here stage flag
  · next flag =>
    have down : s.slot.loggedIn = false := Bool.eq_false_iff.mpr flag
    split
    · next a shared => exact .join n call session a here stage down shared
    · next free => exact .attempt n call session here stage down free

theorem begin_move (signal : Option Nat) (operation : TokenProgram Unit) :
    SlotMove s (.acquire signal operation) (s.begin signal operation) := by
  unfold SlotSystem.begin
  split
  · next reason aborted => exact .refuse signal operation reason aborted
  · next live => exact .begin signal operation _ live (tryAcquire_turn ..)

theorem settle_move {n : Nat} (here : s.calls[n]? = some call)
    (h : s.stepCall n call (.settle n) = some t) : SlotMove s (.settle n) t := by
  simp only [stepCall] at h
  split at h
  · next stage =>
    cases h
    exact .settle n call (.ok ()) here stage rfl
  · next failure stage =>
    split at h
    · next dead =>
      cases h
      exact .settleDead n call (.error failure) failure here stage (if_pos dead)
    · next alive =>
      cases h
      exact .settle n call (.error failure) here stage (if_neg alive)
  · cases h

variable {e : SlotEvent}

theorem stepCall_move {n : Nat} (here : s.calls[n]? = some call) (h : s.stepCall n call e = some t)
    (number : ∀ k, e.call? = some k → k = n) : SlotMove s e t := by
  cases e with
  | tokenOpens k reply =>
    obtain rfl := number k rfl
    simp only [stepCall] at h
    split at h
    · next stage =>
      cases reply with
      | ok session => cases h; exact .opened k call session here stage
      | error failure => cases h; exact .notOpened k call failure here stage
    · cases h
  | openReturns k =>
    obtain rfl := number k rfl
    simp only [stepCall] at h
    split at h
    · next session stage => cases h; exact .obtain k call session here stage
    · next failure stage => cases h; exact .openFailed k call failure here stage
    · cases h
  | resume k =>
    obtain rfl := number k rfl
    simp only [stepCall] at h
    split at h
    · next stage =>
      split at h
      · next reason aborted => cases h; exact .giveUp k call reason here stage aborted
      · next live => cases h; exact .retry k call _ here stage live (tryAcquire_turn ..)
    · cases h
  | enter k =>
    obtain rfl := number k rfl
    simp only [stepCall] at h
    split at h
    · next session stage => cases h; exact login_move here stage
    · cases h
  | proceed k =>
    obtain rfl := number k rfl
    exact proceeded_move here h
  | answer k c reply =>
    obtain rfl := number k rfl
    simp only [stepCall] at h
    split at h
    · next session body stage => exact answered_move here stage h
    · cases h
  | finish k =>
    obtain rfl := number k rfl
    simp only [stepCall] at h
    split at h
    · next session outcome stage =>
      cases h
      exact .finish k call session outcome _ here stage (release_move ..)
    · cases h
  | tokenCloses k reply =>
    obtain rfl := number k rfl
    simp only [stepCall] at h
    split at h
    · next session failure stage => cases h; exact .tokenClosed k call session failure reply here stage
    · cases h
  | closeReturns k =>
    obtain rfl := number k rfl
    simp only [stepCall] at h
    split at h
    · next failure stage => cases h; exact .closeReturned k call failure here stage
    · cases h
  | settle k =>
    obtain rfl := number k rfl
    exact settle_move here h
  | _ => cases h

theorem stepAttempt_move {a : Nat} {attempt : LoginAttempt}
    (here : s.attempts[a]? = some attempt) (h : s.stepAttempt a attempt e = some t)
    (number : ∀ k, e.attempt? = some k → k = a) : SlotMove s e t := by
  cases e with
  | pinAnswers k secret =>
    obtain rfl := number k rfl
    simp only [stepAttempt] at h
    split at h
    · next phase => cases h; exact .pin k attempt secret here phase
    · cases h
  | tokenLogsIn k reply =>
    obtain rfl := number k rfl
    simp only [stepAttempt] at h
    split at h
    · next secret phase => cases h; exact .tokenLogin k attempt secret reply here phase
    · cases h
  | loginReturns k =>
    obtain rfl := number k rfl
    simp only [stepAttempt] at h
    split at h
    · next reply phase => cases h; exact .loginReturned k attempt reply here phase
    · cases h
  | forgetLogin k =>
    obtain rfl := number k rfl
    simp only [stepAttempt] at h
    split at h
    · next outcome phase => cases h; exact .forget k attempt outcome here phase
    · cases h
  | _ => cases h

theorem stepDrain_move {d : Nat} {stage : DrainStage}
    (here : s.drains[d]? = some stage) (h : s.stepDrain d stage e = some t)
    (number : ∀ k, e.drain? = some k → k = d) : SlotMove s e t := by
  cases e with
  | drainCloses k reply =>
    obtain rfl := number k rfl
    simp only [stepDrain] at h
    split at h
    · next session rest => cases h; exact .drainClosed k session rest reply here
    · cases h
  | drainReturns k =>
    obtain rfl := number k rfl
    simp only [stepDrain] at h
    split at h
    · next rest => cases h; exact .drainReturned k rest here
    · cases h
  | drainSettles k =>
    obtain rfl := number k rfl
    simp only [stepDrain] at h
    split at h
    · cases h; exact .drainSettled k here
    · cases h
  | _ => cases h

theorem step_move (h : s.step e = some t) : SlotMove s e t := by
  unfold step at h
  split at h
  · cases h; exact begin_move ..
  · cases h; exact .abort ..
  · cases h; exact .drain
  · next session =>
    split at h
    · next mem => cases h; exact .lost session mem
    · cases h
  all_goals
    obtain ⟨_, here, h⟩ := Option.bind_eq_some_iff.mp h
    first
    | exact stepCall_move here h fun k same => (Option.some.inj same).symm
    | exact stepAttempt_move here h fun k same => (Option.some.inj same).symm
    | exact stepDrain_move here h fun k same => (Option.some.inj same).symm

/-- The steps of a call that leave the pool alone and neither give it a session nor lose it a wake. -/
inductive Advance : SessionCall → SessionCall → Prop where
  | notOpened (call : SessionCall) (failure : TokenFailure) (stage : call.stage = .opening) :
      Advance call { call with stage := .opened (.error failure) }
  | obtain (call : SessionCall) (session : SessionHandle)
      (stage : call.stage = .opened (.ok session)) : Advance call (call.obtain session)
  | pass (call : SessionCall) (session : SessionHandle) (stage : call.stage = .acquired session) :
      Advance call { call with stage := .authenticated session }
  | await (call : SessionCall) (session : SessionHandle) (a : Nat)
      (stage : call.stage = .acquired session) :
      Advance call { call with stage := .loggingIn session a }
  | start (call : SessionCall) (session : SessionHandle)
      (stage : call.stage = .authenticated session ∨ ∃ a, call.stage = .loggingIn session a) :
      Advance call { call with stage := .running session call.operation }
  | answer (call : SessionCall) (session : SessionHandle) (body rest : TokenProgram Unit)
      (exposed hidden : Bool) (stage : call.stage = .running session body) :
      Advance call { call with stage := .running session rest, exposed, hidden }
  | settle (call : SessionCall) (outcome : Outcome) (stage : call.stage = .released outcome) :
      Advance call { call with stage := .settled outcome }

inductive PoolEffect (s : SlotSystem) : SlotEvent → SlotSystem → Prop where
  | still {e : SlotEvent} {t : SlotSystem} (pool : t.pool = s.pool) (calls : t.calls = s.calls)
      (drains : t.drains = s.drains) : PoolEffect s e t
  | refuse {e : SlotEvent} (signal : Option Nat) (operation : TokenProgram Unit)
      (reason : TokenFailure) :
      PoolEffect s e (s.addCall { signal, operation, stage := .settled (.error reason) })
  | begin {e : SlotEvent} {t : SlotSystem} (signal : Option Nat) (operation : TokenProgram Unit)
      (turn : AcquireTurn (s.addCall { signal, operation, stage := .woken }) s.calls.length
        { signal, operation, stage := .woken } t) : PoolEffect s e t
  | retry {e : SlotEvent} {t : SlotSystem} (n : Nat) (call : SessionCall)
      (here : s.calls[n]? = some call) (stage : call.stage = .woken) (turn : AcquireTurn s n call t) :
      PoolEffect s e t
  | giveUp (n : Nat) (call : SessionCall) (reason : TokenFailure) (here : s.calls[n]? = some call)
      (stage : call.stage = .woken) (aborted : s.aborted call.signal = some reason) :
      PoolEffect s (.resume n) (s.setCall n { call with stage := .settled (.error reason) })
  | opened {t : SlotSystem} (n : Nat) (call : SessionCall) (session : SessionHandle)
      (here : s.calls[n]? = some call) (stage : call.stage = .opening) (pool : t.pool = s.pool)
      (calls : t.calls = s.calls.set n { call with stage := .opened (.ok session) })
      (drains : t.drains = s.drains) : PoolEffect s (.tokenOpens n (.ok session)) t
  | advance {e : SlotEvent} {t : SlotSystem} (n : Nat) (call after : SessionCall)
      (here : s.calls[n]? = some call) (move : Advance call after) (pool : t.pool = s.pool)
      (calls : t.calls = s.calls.set n after) (drains : t.drains = s.drains) : PoolEffect s e t
  | openFailed {e : SlotEvent} (n : Nat) (call : SessionCall) (failure : TokenFailure)
      (here : s.calls[n]? = some call) (stage : call.stage = .opened (.error failure)) :
      PoolEffect s e (s.openFailed n call failure)
  | release {e : SlotEvent} {t : SlotSystem} (n : Nat) (call : SessionCall) (session : SessionHandle)
      (outcome : Outcome) (here : s.calls[n]? = some call)
      (stage : (∃ body, call.stage = .running session body) ∨ ∃ a, call.stage = .loggingIn session a)
      (move : ReleaseMove s n call session outcome t) : PoolEffect s e t
  | tokenClosed {e : SlotEvent} {t : SlotSystem} (n : Nat) (call : SessionCall)
      (session : SessionHandle) (failure : TokenFailure) (here : s.calls[n]? = some call)
      (stage : call.stage = .closing session failure) (pool : t.pool = s.pool)
      (calls : t.calls = s.calls.set n { call with stage := .closed failure })
      (drains : t.drains = s.drains) : PoolEffect s e t
  | closeReturned {e : SlotEvent} (n : Nat) (call : SessionCall) (failure : TokenFailure)
      (here : s.calls[n]? = some call) (stage : call.stage = .closed failure) :
      PoolEffect s e (s.setCall n { call with stage := .released (.error failure) }).wake
  | drain {e : SlotEvent} : PoolEffect s e s.startDrain
  | drainClosed {e : SlotEvent} {t : SlotSystem} (d : Nat) (session : SessionHandle)
      (rest : List SessionHandle) (here : s.drains[d]? = some (.closing session rest))
      (pool : t.pool = s.pool) (calls : t.calls = s.calls)
      (drains : t.drains = s.drains.set d (.closed rest)) : PoolEffect s e t
  | drainReturned {e : SlotEvent} (d : Nat) (rest : List SessionHandle)
      (here : s.drains[d]? = some (.closed rest)) : PoolEffect s e (s.drainOn d rest)
  | drainSettled {e : SlotEvent} {t : SlotSystem} (d : Nat) (here : s.drains[d]? = some .drained)
      (pool : t.pool = s.pool) (calls : t.calls = s.calls)
      (drains : t.drains = s.drains.set d .finished) : PoolEffect s e t

structure SamePool (s t : SlotSystem) : Prop where
  pool : t.pool = s.pool
  calls : t.calls = s.calls
  drains : t.drains = s.drains

theorem SamePool.trans {r : SlotSystem} (first : SamePool s t) (second : SamePool t r) : SamePool s r :=
  ⟨second.pool.trans first.pool, second.calls.trans first.calls, second.drains.trans first.drains⟩

theorem endSession_same (s : SlotSystem) (session : SessionHandle) : SamePool s (s.endSession session) := by
  unfold endSession
  dsimp only
  split <;> exact ⟨rfl, rfl, rfl⟩

theorem closeSession_same (s : SlotSystem) (session : SessionHandle) : SamePool s (s.closeSession session) :=
  (endSession_same s session).trans ⟨rfl, rfl, rfl⟩

theorem noteReply_same (s : SlotSystem) {α : Type} (session : SessionHandle)
    (reply : Except TokenFailure α) : SamePool s (s.noteReply session reply) := by
  unfold noteReply
  split
  · exact ⟨rfl, rfl, rfl⟩
  · split <;> exact ⟨rfl, rfl, rfl⟩

theorem pinAnswered_same (s : SlotSystem) (a : Nat) (attempt : LoginAttempt)
    (secret : Except TokenFailure JsString) : SamePool s (s.pinAnswered a attempt secret) := by
  unfold pinAnswered
  split <;> exact ⟨rfl, rfl, rfl⟩

theorem tokenLoggedIn_same (s : SlotSystem) (a : Nat) (attempt : LoginAttempt)
    (reply : Outcome) : SamePool s (s.tokenLoggedIn a attempt reply) := by
  have noted : SamePool s ((s.setPhase a attempt (.answered reply)).noteReply attempt.session reply) :=
    SamePool.trans (t := s.setPhase a attempt (.answered reply)) ⟨rfl, rfl, rfl⟩
      (noteReply_same _ attempt.session reply)
  unfold tokenLoggedIn
  cases reply with
  | ok => exact noted.trans ⟨rfl, rfl, rfl⟩
  | error => exact noted

theorem loginReturned_same (s : SlotSystem) (a : Nat) (attempt : LoginAttempt)
    (reply : Outcome) : SamePool s (s.loginReturned a attempt reply) := by
  unfold loginReturned
  cases reply <;> exact ⟨rfl, rfl, rfl⟩

theorem heard_advance {c : TokenCall} {session : SessionHandle}
    {replaced : TokenFailure → Bool} {next : Except TokenFailure c.Reply → TokenProgram Unit}
    (stage : call.stage = .running session (.call c replaced next)) (reply : Except TokenFailure c.Reply) :
    Advance call (call.heard session replaced next reply) := by
  unfold SessionCall.heard
  cases reply with
  | ok value => exact .answer call session _ _ call.exposed call.hidden stage
  | error failure =>
    dsimp only
    split_ifs
    · exact .answer call session _ _ call.exposed _ stage
    · exact .answer call session _ _ _ _ stage

theorem SlotMove.effect (h : SlotMove s e t) : PoolEffect s e t := by
  cases h with
  | refuse signal operation reason _ => exact .refuse signal operation reason
  | begin signal operation _ _ turn => exact .begin signal operation turn
  | abort => exact .still rfl rfl rfl
  | opened n call session here stage => exact .opened n call session here stage rfl rfl rfl
  | notOpened n call failure here stage =>
    exact .advance n call _ here (.notOpened call failure stage) rfl rfl rfl
  | obtain n call session here stage =>
    exact .advance n call _ here (.obtain call session stage) rfl rfl rfl
  | openFailed n call failure here stage => exact .openFailed n call failure here stage
  | giveUp n call reason here stage aborted => exact .giveUp n call reason here stage aborted
  | retry n call _ here stage _ turn => exact .retry n call here stage turn
  | pass n call session here stage _ =>
    exact .advance n call _ here (.pass call session stage) rfl rfl rfl
  | join n call session a here stage _ _ =>
    exact .advance n call _ here (.await call session a stage) rfl rfl rfl
  | attempt n call session here stage _ _ =>
    exact .advance n call _ here (.await call session _ stage) rfl rfl rfl
  | pin a attempt secret _ _ =>
    obtain ⟨pool, calls, drains⟩ := pinAnswered_same s a attempt secret
    exact .still pool calls drains
  | tokenLogin a attempt _ reply _ _ =>
    obtain ⟨pool, calls, drains⟩ := tokenLoggedIn_same s a attempt reply
    exact .still pool calls drains
  | loginReturned a attempt reply _ _ =>
    obtain ⟨pool, calls, drains⟩ := loginReturned_same s a attempt reply
    exact .still pool calls drains
  | forget => exact .still rfl rfl rfl
  | start n call session here stage =>
    exact .advance n call _ here (.start call session (.inl stage)) rfl rfl rfl
  | startJoined n call session a _ _ here stage _ _ =>
    exact .advance n call _ here (.start call session (.inr ⟨a, stage⟩)) rfl rfl rfl
  | loginFailed n call session a _ failure _ _ here stage _ _ move =>
    exact .release n call session (.error failure) here (.inr ⟨a, stage⟩) move
  | answer n call session c replaced next reply here stage =>
    obtain ⟨pool, calls, drains⟩ := noteReply_same
      (s.setCall n (call.heard session replaced next reply)) session reply
    exact .advance n call _ here (heard_advance stage reply) pool calls drains
  | finish n call session outcome _ here stage move =>
    exact .release n call session outcome here (.inl ⟨_, stage⟩) move
  | tokenClosed n call session failure _ here stage =>
    obtain ⟨pool, calls, drains⟩ := closeSession_same s session
    refine .tokenClosed n call session failure here stage pool ?_ drains
    exact congrArg (fun cs => cs.set n { call with stage := .closed failure }) calls
  | closeReturned n call failure here stage => exact .closeReturned n call failure here stage
  | settle n call outcome here stage _ =>
    exact .advance n call _ here (.settle call outcome stage) rfl rfl rfl
  | settleDead n call outcome _ here stage _ =>
    exact .advance n call _ here (.settle call outcome stage) rfl rfl rfl
  | drain => exact .drain
  | drainClosed d session rest _ here =>
    obtain ⟨pool, calls, drains⟩ := closeSession_same s session
    refine .drainClosed d session rest here pool calls ?_
    exact congrArg (fun ds => ds.set d (.closed rest)) drains
  | drainReturned d rest here => exact .drainReturned d rest here
  | drainSettled d here => exact .drainSettled d here rfl rfl rfl
  | lost session _ =>
    obtain ⟨pool, calls, drains⟩ := endSession_same s session
    exact .still pool calls drains

theorem step_effect (h : s.step e = some t) : PoolEffect s e t := (step_move h).effect

end SlotSystem

end ForgeDeno
