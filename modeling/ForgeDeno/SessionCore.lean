import ForgeDeno.Cryptoki
import ForgeDeno.LabelledMachine

namespace ForgeDeno

abbrev SessionHandle := Nat

def sessionIsDead (failure : TokenFailure) : Bool :=
  failure.ckr = some (js "CKR_SESSION_CLOSED") ||
    failure.ckr = some (js "CKR_SESSION_HANDLE_INVALID") ||
    failure.ckr = some (js "CKR_DEVICE_REMOVED") ||
    failure.ckr = some (js "CKR_CRYPTOKI_NOT_INITIALIZED")

/-- What a `withSession` call hands to its operation's session: nothing, or the failure. -/
abbrev Outcome := Except TokenFailure Unit

/-- `#idle` has the session that was pushed last first; `#waiters` holds the numbers of the calls
whose promises it would resolve. -/
structure SessionPool where
  slot : Nat
  size : Nat
  openCount : Int
  idle : List SessionHandle
  waiters : List Nat

def SessionPool.new (slot size : Nat) : SessionPool :=
  { slot, size := max size 1, openCount := 0, idle := [], waiters := [] }

/-- `#login` holds the number of the attempt whose promise it is. -/
structure SlotState where
  id : Nat
  mechanisms : List Nat
  pool : SessionPool
  loggedIn : Bool
  login : Option Nat

def SlotState.new (id : Nat) (mechanisms : List Nat) (maxSessions : Nat) : SlotState :=
  { id, mechanisms, pool := .new id maxSessions, loggedIn := false, login := none }

/-- Where an attempt of `SlotState.login` stands. In `answered` the promise of `module.login` has
settled; `forgotten` tells whether the `finally` handler has cleared `#login`. -/
inductive LoginPhase where
  | pin
  | calling (secret : JsString)
  | answered (reply : Outcome)
  | settled (outcome : Outcome) (forgotten : Bool)

structure LoginAttempt where
  session : SessionHandle
  phase : LoginPhase

/-- The `await` at which a `withSession` call stands, from its `acquire` on. In `opened` and `closed`
the module's promise has settled and the call has not gone on yet. -/
inductive CallStage where
  | opening
  | opened (reply : Except TokenFailure SessionHandle)
  | waiting
  | woken
  | acquired (session : SessionHandle)
  | loggingIn (session : SessionHandle) (attempt : Nat)
  | authenticated (session : SessionHandle)
  | running (session : SessionHandle) (body : TokenProgram Unit)
  | closing (session : SessionHandle) (failure : TokenFailure)
  | closed (failure : TokenFailure)
  | released (outcome : Outcome)
  | settled (outcome : Outcome)

/-- `acquires` and `releases` record what `acquire` gave the call and what it passed to `release`.
`exposed` tells whether the failure that is on its way out of its operation is one for want of a living
session, and `hidden` whether such a failure has been replaced, by a handler or by the failure of a call
in a `finally` block. -/
structure SessionCall where
  signal : Option Nat
  operation : TokenProgram Unit
  stage : CallStage
  acquires : List SessionHandle := []
  releases : List SessionHandle := []
  exposed : Bool := false
  hidden : Bool := false

/-- `acquire` returns a session to its call. -/
def SessionCall.obtain (call : SessionCall) (session : SessionHandle) : SessionCall :=
  { call with stage := .acquired session, acquires := session :: call.acquires }

def SessionCall.heard {c : TokenCall} (call : SessionCall) (session : SessionHandle)
    (replaced : TokenFailure → Bool) (next : Except TokenFailure c.Reply → TokenProgram Unit)
    (reply : Except TokenFailure c.Reply) : SessionCall :=
  let call := { call with stage := .running session (next reply) }
  match reply with
  | .ok _ => call
  | .error failure =>
    if replaced failure then { call with hidden := call.hidden || sessionIsDead failure }
    else
      { call with
        exposed := sessionIsDead failure,
        hidden := call.hidden || (call.exposed && !sessionIsDead failure) }

/-- Where a `drain` and the `resetLogin` behind it stand. -/
inductive DrainStage where
  | closing (session : SessionHandle) (rest : List SessionHandle)
  | closed (rest : List SessionHandle)
  | drained
  | finished

/-- What the token knows of the pool: its open sessions and, since it last had none, how often
`C_Login` has succeeded and the PIN provider before it. `unreset` tells that since the last
`resetLogin` there was no session open with the login flag up. `opened` and `closed` are the histories
of `openSession` and `closeSession`. -/
structure TokenView where
  sessions : List SessionHandle
  logins : Nat
  pins : Nat
  unreset : Bool
  opened : List SessionHandle
  closed : List SessionHandle

def TokenView.loggedIn (token : TokenView) : Bool := 0 < token.logins

structure SlotSystem where
  slot : SlotState
  calls : List SessionCall
  attempts : List LoginAttempt
  drains : List DrainStage
  /-- the aborted signals, each with its reason -/
  signals : Nat → Option TokenFailure
  token : TokenView
  /-- the sessions on which a call has failed for want of a living session since they were opened -/
  died : List SessionHandle

namespace SlotSystem

def new (slot : SlotState) : SlotSystem :=
  { slot, calls := [], attempts := [], drains := [], signals := fun _ => none,
    token := { sessions := [], logins := 0, pins := 0, unreset := false, opened := [], closed := [] },
    died := [] }

def pool (s : SlotSystem) : SessionPool := s.slot.pool

def setPool (pool : SessionPool) (s : SlotSystem) : SlotSystem := { s with slot := { s.slot with pool } }

def aborted (s : SlotSystem) (signal : Option Nat) : Option TokenFailure := signal.bind s.signals

def setCall (n : Nat) (call : SessionCall) (s : SlotSystem) : SlotSystem :=
  { s with calls := s.calls.set n call }

def addCall (call : SessionCall) (s : SlotSystem) : SlotSystem :=
  { s with calls := s.calls ++ [call] }

def wakeFirst : List Nat → List SessionCall → List SessionCall
  | [], calls => calls
  | n :: _, calls => calls.modify n fun call => { call with stage := .woken }

def wake (s : SlotSystem) : SlotSystem :=
  { s.setPool { s.pool with waiters := s.pool.waiters.tail } with
    calls := wakeFirst s.pool.waiters s.calls }

/-- One turn of the loop in `acquire`. -/
def tryAcquire (n : Nat) (call : SessionCall) (s : SlotSystem) : SlotSystem :=
  match s.pool.idle with
  | session :: rest =>
    (s.setPool { s.pool with idle := rest }).setCall n (call.obtain session)
  | [] =>
    if s.pool.openCount < s.pool.size then
      (s.setPool { s.pool with openCount := s.pool.openCount + 1 }).setCall n { call with stage := .opening }
    else
      (s.setPool { s.pool with waiters := s.pool.waiters ++ [n] }).setCall n { call with stage := .waiting }

/-- The handler of a failed `openSession` in `acquire`. -/
def openFailed (n : Nat) (call : SessionCall) (failure : TokenFailure) (s : SlotSystem) : SlotSystem :=
  ((s.setPool { s.pool with openCount := s.pool.openCount - 1 }).setCall n
    { call with stage := .settled (.error failure) }).wake

def giveBack (session : SessionHandle) (s : SlotSystem) : SlotSystem :=
  (s.setPool { s.pool with idle := session :: s.pool.idle }).wake

/-- `release(module, session, failure)` up to its first `await`, or to its end. -/
def release (n : Nat) (call : SessionCall) (session : SessionHandle) (outcome : Outcome)
    (s : SlotSystem) : SlotSystem :=
  let call := { call with releases := session :: call.releases }
  match outcome with
  | .ok () => (s.setCall n { call with stage := .released (.ok ()) }).giveBack session
  | .error failure =>
    if sessionIsDead failure then
      (s.setPool { s.pool with openCount := s.pool.openCount - 1 }).setCall n
        { call with stage := .closing session failure }
    else (s.setCall n { call with stage := .released (.error failure) }).giveBack session

def login (n : Nat) (call : SessionCall) (session : SessionHandle) (s : SlotSystem) : SlotSystem :=
  if s.slot.loggedIn then s.setCall n { call with stage := .authenticated session }
  else match s.slot.login with
    | some attempt => s.setCall n { call with stage := .loggingIn session attempt }
    | none =>
      { s.setCall n { call with stage := .loggingIn session s.attempts.length } with
        attempts := s.attempts ++ [⟨session, .pin⟩]
        slot := { s.slot with login := some s.attempts.length } }

def setPhase (a : Nat) (attempt : LoginAttempt) (phase : LoginPhase) (s : SlotSystem) : SlotSystem :=
  { s with attempts := s.attempts.set a { attempt with phase } }

/-- `throw new Pkcs11Error("pkcs11: obtain pin", { cause })` -/
def pinFailure : TokenFailure := { name := js "Pkcs11Error", message := js "pkcs11: obtain pin" }

def pinAnswered (a : Nat) (attempt : LoginAttempt) (secret : Except TokenFailure JsString)
    (s : SlotSystem) : SlotSystem :=
  match secret with
  | .ok secret =>
    { s.setPhase a attempt (.calling secret) with
      token := { s.token with pins := s.token.pins + 1 } }
  | .error _ => s.setPhase a attempt (.settled (.error pinFailure) false)

def noteReply (session : SessionHandle) {α : Type} (reply : Except TokenFailure α) (s : SlotSystem) :
    SlotSystem :=
  match reply with
  | .ok _ => s
  | .error failure => if sessionIsDead failure then { s with died := session :: s.died } else s

/-- `C_Login` has been answered; a token without an open session logs nobody in. -/
def tokenLoggedIn (a : Nat) (attempt : LoginAttempt) (reply : Outcome) (s : SlotSystem) : SlotSystem :=
  let s := (s.setPhase a attempt (.answered reply)).noteReply attempt.session reply
  match reply with
  | .ok () =>
    { s with token := { s.token with
        logins := if s.token.sessions.isEmpty then 0 else s.token.logins + 1 } }
  | .error _ => s

/-- The attempt goes on when `module.login` has settled. -/
def loginReturned (a : Nat) (attempt : LoginAttempt) (reply : Outcome) (s : SlotSystem) : SlotSystem :=
  let s := s.setPhase a attempt (.settled reply false)
  match reply with
  | .ok () => { s with slot := { s.slot with loggedIn := true } }
  | .error _ => s

/-- The `finally` handler of an attempt. -/
def forgetLogin (a : Nat) (attempt : LoginAttempt) (outcome : Outcome) (s : SlotSystem) : SlotSystem :=
  let s := s.setPhase a attempt (.settled outcome true)
  { s with slot := { s.slot with login := none } }

def resetLogin (s : SlotSystem) : SlotSystem :=
  { s with slot := { s.slot with loggedIn := false }, token := { s.token with unreset := false } }

def beginSession (session : SessionHandle) (s : SlotSystem) : SlotSystem :=
  { s with
    token := { s.token with
      sessions := session :: s.token.sessions, opened := session :: s.token.opened }
    died := s.died.filter fun other => other ≠ session }

/-- A session is no longer open on the token; its login goes with the last of them. -/
def endSession (session : SessionHandle) (s : SlotSystem) : SlotSystem :=
  let sessions := s.token.sessions.erase session
  if sessions.isEmpty then
    { s with token := { s.token with
        sessions, logins := 0, pins := 0, unreset := s.token.unreset || s.slot.loggedIn } }
  else { s with token := { s.token with sessions } }

/-- `closeSession` has settled. Whatever it answers, the session is gone. -/
def closeSession (session : SessionHandle) (s : SlotSystem) : SlotSystem :=
  let s := s.endSession session
  { s with token := { s.token with closed := session :: s.token.closed } }

/-- `const sessions = this.#idle.splice(0); this.#open -= sessions.length` -/
def takeIdle (s : SlotSystem) : SlotSystem :=
  s.setPool { s.pool with idle := [], openCount := s.pool.openCount - s.pool.idle.length }

def addDrain (stage : DrainStage) (s : SlotSystem) : SlotSystem :=
  { s with drains := s.drains ++ [stage] }

def setDrain (d : Nat) (stage : DrainStage) (s : SlotSystem) : SlotSystem :=
  { s with drains := s.drains.set d stage }

/-- The loop in `drain` with these sessions still to close, and the `#wake` behind it. -/
def drainOn (d : Nat) (sessions : List SessionHandle) (s : SlotSystem) : SlotSystem :=
  match sessions with
  | session :: rest => s.setDrain d (.closing session rest)
  | [] => (s.setDrain d .drained).wake

/-- `drain` up to its first `await`, or to its end. -/
def startDrain (s : SlotSystem) : SlotSystem :=
  (s.takeIdle.addDrain .drained).drainOn s.drains.length s.pool.idle.reverse

end SlotSystem

inductive SlotEvent where
  | acquire (signal : Option Nat) (operation : TokenProgram Unit)
  | abort (signal : Nat) (reason : TokenFailure)
  | tokenOpens (n : Nat) (reply : Except TokenFailure SessionHandle)
  | openReturns (n : Nat)
  | resume (n : Nat)
  | enter (n : Nat)
  | pinAnswers (a : Nat) (secret : Except TokenFailure JsString)
  | tokenLogsIn (a : Nat) (reply : Outcome)
  | loginReturns (a : Nat)
  | forgetLogin (a : Nat)
  | proceed (n : Nat)
  | answer (n : Nat) (c : TokenCall) (reply : Except TokenFailure c.Reply)
  | finish (n : Nat)
  | tokenCloses (n : Nat) (reply : Outcome)
  | closeReturns (n : Nat)
  | settle (n : Nat)
  | drain
  | drainCloses (d : Nat) (reply : Outcome)
  | drainReturns (d : Nat)
  | drainSettles (d : Nat)
  | lost (session : SessionHandle)

namespace SlotEvent

def call? : SlotEvent → Option Nat
  | .tokenOpens n _ | .openReturns n | .resume n | .enter n | .proceed n | .answer n _ _ | .finish n
  | .tokenCloses n _ | .closeReturns n | .settle n => some n
  | _ => none

def attempt? : SlotEvent → Option Nat
  | .pinAnswers a _ | .tokenLogsIn a _ | .loginReturns a | .forgetLogin a => some a
  | _ => none

def drain? : SlotEvent → Option Nat
  | .drainCloses d _ | .drainReturns d | .drainSettles d => some d
  | _ => none

/-- The session that a settled `openSession` has given. -/
def opens? : SlotEvent → Option SessionHandle
  | .tokenOpens _ (.ok session) => some session
  | _ => none

end SlotEvent

namespace SlotSystem

def abort (signal : Nat) (reason : TokenFailure) (s : SlotSystem) : SlotSystem :=
  { s with signals := fun n =>
      if n = signal then some ((s.signals n).getD reason) else s.signals n }

def answered (s : SlotSystem) (n : Nat) (call : SessionCall) (session : SessionHandle)
    (body : TokenProgram Unit) (c : TokenCall) (reply : Except TokenFailure c.Reply) : Option SlotSystem :=
  match body with
  | .done _ => none
  | .call asked replaced next =>
    if same : asked = c then
      some ((s.setCall n (call.heard session replaced next (same ▸ reply))).noteReply session reply)
    else none

/-- The `await` of a login is over: the operation starts, or the call fails. -/
def proceeded (s : SlotSystem) (n : Nat) (call : SessionCall) : Option SlotSystem :=
  match call.stage with
  | .authenticated session =>
    some (s.setCall n { call with stage := .running session call.operation })
  | .loggingIn session a =>
    match s.attempts[a]? with
    | some ⟨_, .settled (.ok ()) _⟩ =>
      some (s.setCall n { call with stage := .running session call.operation })
    | some ⟨_, .settled (.error failure) _⟩ => some (s.release n call session (.error failure))
    | _ => none
  | _ => none

def stepCall (s : SlotSystem) (n : Nat) (call : SessionCall) : SlotEvent → Option SlotSystem
  | .tokenOpens _ reply =>
    match call.stage with
    | .opening =>
      let s := s.setCall n { call with stage := .opened reply }
      match reply with
      | .ok session => some (s.beginSession session)
      | .error _ => some s
    | _ => none
  | .openReturns _ =>
    match call.stage with
    | .opened (.ok session) => some (s.setCall n (call.obtain session))
    | .opened (.error failure) => some (s.openFailed n call failure)
    | _ => none
  | .resume _ =>
    match call.stage with
    | .woken =>
      match s.aborted call.signal with
      | some reason => some (s.setCall n { call with stage := .settled (.error reason) })
      | none => some (s.tryAcquire n call)
    | _ => none
  | .enter _ =>
    match call.stage with
    | .acquired session => some (s.login n call session)
    | _ => none
  | .proceed _ => s.proceeded n call
  | .answer _ c reply =>
    match call.stage with
    | .running session body => s.answered n call session body c reply
    | _ => none
  | .finish _ =>
    match call.stage with
    | .running session (.done outcome) => some (s.release n call session outcome)
    | _ => none
  | .tokenCloses _ _ =>
    match call.stage with
    | .closing session failure =>
      some ((s.closeSession session).setCall n { call with stage := .closed failure })
    | _ => none
  | .closeReturns _ =>
    match call.stage with
    | .closed failure => some (s.setCall n { call with stage := .released (.error failure) }).wake
    | _ => none
  | .settle _ =>
    match call.stage with
    | .released (.ok ()) => some (s.setCall n { call with stage := .settled (.ok ()) })
    | .released (.error failure) =>
      let s := s.setCall n { call with stage := .settled (.error failure) }
      if sessionIsDead failure then some s.resetLogin else some s
    | _ => none
  | _ => none

def stepAttempt (s : SlotSystem) (a : Nat) (attempt : LoginAttempt) : SlotEvent → Option SlotSystem
  | .pinAnswers _ secret =>
    match attempt.phase with
    | .pin => some (s.pinAnswered a attempt secret)
    | _ => none
  | .tokenLogsIn _ reply =>
    match attempt.phase with
    | .calling _ => some (s.tokenLoggedIn a attempt reply)
    | _ => none
  | .loginReturns _ =>
    match attempt.phase with
    | .answered reply => some (s.loginReturned a attempt reply)
    | _ => none
  | .forgetLogin _ =>
    match attempt.phase with
    | .settled outcome false => some (s.forgetLogin a attempt outcome)
    | _ => none
  | _ => none

def stepDrain (s : SlotSystem) (d : Nat) (stage : DrainStage) : SlotEvent → Option SlotSystem
  | .drainCloses _ _ =>
    match stage with
    | .closing session rest =>
      some ((s.closeSession session).setDrain d (.closed rest))
    | _ => none
  | .drainReturns _ =>
    match stage with
    | .closed rest => some (s.drainOn d rest)
    | _ => none
  | .drainSettles _ =>
    match stage with
    | .drained => some (s.setDrain d .finished).resetLogin
    | _ => none
  | _ => none

def begin (s : SlotSystem) (signal : Option Nat) (operation : TokenProgram Unit) : SlotSystem :=
  match s.aborted signal with
  | some reason => s.addCall { signal, operation, stage := .settled (.error reason) }
  | none =>
    let call : SessionCall := { signal, operation, stage := .woken }
    (s.addCall call).tryAcquire s.calls.length call

def step (s : SlotSystem) (e : SlotEvent) : Option SlotSystem :=
  match e with
  | .acquire signal operation => some (s.begin signal operation)
  | .abort signal reason => some (s.abort signal reason)
  | .drain => some s.startDrain
  | .lost session => if session ∈ s.token.sessions then some (s.endSession session) else none
  | .tokenOpens n _ | .openReturns n | .resume n | .enter n | .proceed n | .answer n _ _ | .finish n
  | .tokenCloses n _ | .closeReturns n | .settle n =>
    s.calls[n]?.bind fun call => s.stepCall n call e
  | .pinAnswers a _ | .tokenLogsIn a _ | .loginReturns a | .forgetLogin a =>
    s.attempts[a]?.bind fun attempt => s.stepAttempt a attempt e
  | .drainCloses d _ | .drainReturns d | .drainSettles d =>
    s.drains[d]?.bind fun stage => s.stepDrain d stage e

end SlotSystem

/-- `bound` in `resolveSlot`; a token that reports no limit reports 0. -/
def sessionBound (configured token : Nat) : Nat :=
  if 0 < token then min configured token else configured

/-- A slot from the moment `resolveSlot` has built its state; `maxSessions` of resolved options is at
least one. -/
def slotMachine : LabelledMachine SlotSystem SlotEvent where
  start s := ∃ id mechanisms configured token, 0 < configured ∧
    s = .new (.new id mechanisms (sessionBound configured token))
  step := SlotSystem.step

end ForgeDeno
