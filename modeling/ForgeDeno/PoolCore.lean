import ForgeDeno.WasmErrors

namespace ForgeDeno

abbrev PoolSize := { size : Nat // 1 ≤ size ∧ size ≤ 64 }

/-- An element of `#entries`; instances are told apart by their instance id. -/
structure PoolEntry where
  id : Nat
  busy : Bool
deriving DecidableEq

/-- An element of `#waiters`: the number of its `acquire()` call and its signal. -/
structure PoolWaiter where
  ticket : Nat
  signal : Nat
deriving DecidableEq

/-- A lease in the hands of a caller; `grantedAt` is the turn that resolved its promise. -/
structure InstanceLease where
  ticket : Nat
  entry : Nat
  grantedAt : Nat
deriving DecidableEq

/-- Why the pool has called an instance's `close()`. -/
inductive CloseReason where
  | discarded
  | late
  | final
deriving DecidableEq

/-- A settled `instance.close()`; `afterClose` tells whether the pool was closed by then. -/
structure CloseRecord where
  id : Nat
  failure : Option Thrown
  afterClose : Bool
deriving DecidableEq

/-- What has happened to the `acquire()` promises. -/
inductive PoolRecord where
  | queued (waiter : PoolWaiter)
  | granted (waiter : PoolWaiter) (entry : Nat)
  | rejected (waiter : PoolWaiter) (cause : Thrown)
deriving DecidableEq

namespace PoolRecord

def waiter : PoolRecord → PoolWaiter
  | .queued w => w
  | .granted w _ => w
  | .rejected w _ => w

/-- Whether the record settles the `acquire()` promise of a ticket. -/
def settles (ticket : Nat) : PoolRecord → Bool
  | .queued _ => false
  | .granted w _ => w.ticket = ticket
  | .rejected w _ => w.ticket = ticket

end PoolRecord

/-- Which signals have been aborted, each with the error `abortReason` gives for it. -/
abbrev Signals := Nat → Option Thrown

structure InstancePool where
  max : PoolSize
  entries : List PoolEntry
  waiters : List PoolWaiter
  creating : Nat
  nextId : Nat
  closed : Bool
  closeFailures : List Thrown
  finalizing : Bool
  /-- the `#create` promises that have not settled -/
  creations : List Nat
  /-- the leases not yet released, and the released ones -/
  held : List InstanceLease
  returned : List InstanceLease
  /-- the `instance.close()` calls that have not settled, and the settled ones -/
  closings : List (Nat × CloseReason)
  settledCloses : List CloseRecord
  /-- the instances the factory has handed over -/
  received : List Nat
  /-- the rejections that the final `Promise.allSettled` has collected -/
  finalFailures : List Thrown
  /-- how the promise of `close()` settled: `some []` when it resolved -/
  closeResult : Option (List Thrown)
  /-- the number of `acquire()` calls so far -/
  tickets : Nat
  /-- newest first -/
  log : List PoolRecord
  /-- the turn of the event loop the pool runs in -/
  turn : Nat

namespace InstancePool

def new (max : PoolSize) (turn : Nat) : InstancePool :=
  { max, entries := [], waiters := [], creating := 0, nextId := 1, closed := false,
    closeFailures := [], finalizing := false, creations := [], held := [], returned := [],
    closings := [], settledCloses := [], received := [], finalFailures := [],
    closeResult := none, tickets := 0, log := [], turn }

def entryIds (p : InstancePool) : List Nat := p.entries.map PoolEntry.id

def busyIds (p : InstancePool) : List Nat := (p.entries.filter PoolEntry.busy).map PoolEntry.id

/-- The instances whose `close()` is pending for a given reason. -/
def closingFor (p : InstancePool) (why : CloseReason) : List Nat :=
  (p.closings.filter fun c => c.2 = why).map Prod.fst

def activeCount (p : InstancePool) : Nat := (p.entries.filter PoolEntry.busy).length

def totalCount (p : InstancePool) : Nat := p.entries.length

/-- Overwrite the `busy` field of one entry. -/
def setBusy (id : Nat) (busy : Bool) (p : InstancePool) : InstancePool :=
  { p with entries := p.entries.map fun e => if e.id = id then { e with busy } else e }

/-- `waiter.dispose(); waiter.reject(cause)` for a waiter already off the queue. -/
def reject (w : PoolWaiter) (cause : Thrown) (p : InstancePool) : InstancePool :=
  { p with log := .rejected w cause :: p.log }

/-- `waiter.resolve(new InstanceLease(this, entry))`, the entry marked busy. -/
def grant (w : PoolWaiter) (e : PoolEntry) (p : InstancePool) : InstancePool :=
  { p.setBusy e.id true with
    held := ⟨w.ticket, e.id, p.turn⟩ :: p.held
    log := .granted w e.id :: p.log }

def startCreate (p : InstancePool) : InstancePool :=
  { p with nextId := p.nextId + 1, creating := p.creating + 1, creations := p.creations ++ [p.nextId] }

def maybeFinishClose (p : InstancePool) : InstancePool :=
  if !p.closed || p.finalizing || 0 < p.creating then p
  else if p.entries.any PoolEntry.busy then p
  else { p with finalizing := true, entries := [],
                closings := p.closings ++ p.entryIds.map fun id => (id, .final) }

/-- One turn of the loop in `#pump`; `none` when the loop ends. -/
def pumpStep (signals : Signals) (p : InstancePool) : Option InstancePool :=
  match p.waiters with
  | [] => none
  | w :: rest =>
    match p.entries.find? fun e => !e.busy with
    | some e =>
      match signals w.signal with
      | some reason => some ({ p with waiters := rest }.reject w reason)
      | none => some ({ p with waiters := rest }.grant w e)
    | none =>
      if p.waiters.length ≤ p.creating then none
      else if p.max ≤ p.entries.length + p.creating then none
      else some p.startCreate

def pumpLoop (signals : Signals) : Nat → InstancePool → InstancePool
  | 0, p => p
  | fuel + 1, p =>
    match p.pumpStep signals with
    | none => p
    | some q => pumpLoop signals fuel q

/-- `#pump`. A turn of the loop takes a waiter off the queue or adds a creation while there are
fewer of them than waiters, so twice the queue's length bounds the number of turns. -/
def pump (signals : Signals) (p : InstancePool) : InstancePool :=
  if p.closed then p.maybeFinishClose else pumpLoop signals (2 * p.waiters.length) p

/-- The bookkeeping of `acquire(signal)` before it pumps. -/
def enqueue (signal : Nat) (p : InstancePool) : InstancePool :=
  let w : PoolWaiter := ⟨p.tickets, signal⟩
  { p with tickets := p.tickets + 1, waiters := p.waiters ++ [w], log := .queued w :: p.log }

def acquire (signals : Signals) (signal : Nat) (p : InstancePool) : InstancePool :=
  if p.closed then
    { p with tickets := p.tickets + 1 }.reject ⟨p.tickets, signal⟩ (.wasm wasmClosedError)
  else match signals signal with
    | some reason => { p with tickets := p.tickets + 1 }.reject ⟨p.tickets, signal⟩ reason
    | none => (p.enqueue signal).pump signals

/-- The waiter's rejection in `onAbort`, before it pumps. -/
def dropWaiter (w : PoolWaiter) (reason : Thrown) (p : InstancePool) : InstancePool :=
  { p with waiters := p.waiters.erase w }.reject w reason

/-- `onAbort`. The listener of a waiter that has left the queue has been removed. -/
def onAbort (signals : Signals) (reason : Thrown) (w : PoolWaiter) (p : InstancePool) : InstancePool :=
  if w ∈ p.waiters then (p.dropWaiter w reason).pump signals else p

def abort (signals : Signals) (signal : Nat) (reason : Thrown) (p : InstancePool) : InstancePool :=
  (p.waiters.filter fun w => w.signal = signal).foldl (fun p w => p.onAbort signals reason w) p

/-- `#entries.delete(entry)` and the call of its instance's `close()`. -/
def discard (id : Nat) (p : InstancePool) : InstancePool :=
  { p with entries := p.entries.filter fun e => e.id ≠ id, closings := p.closings ++ [(id, .discarded)] }

def releaseEntry (signals : Signals) (id : Nat) (discard : Bool) (p : InstancePool) : InstancePool :=
  if id ∈ p.entryIds then
    if discard || p.closed then p.discard id
    else (p.setBusy id false).pump signals
  else p

/-- The `#released` flag of a lease going up. -/
def returnLease (l : InstanceLease) (p : InstancePool) : InstancePool :=
  { p with held := p.held.erase l, returned := l :: p.returned }

def release (signals : Signals) (ticket : Nat) (discard : Bool) (p : InstancePool) : InstancePool :=
  match p.held.find? fun l => l.ticket = ticket with
  | none => p
  | some l => (p.returnLease l).releaseEntry signals l.entry discard

/-- `#creating--` of a creation that has settled. -/
def endCreation (id : Nat) (p : InstancePool) : InstancePool :=
  { p with creations := p.creations.erase id, creating := p.creating - 1 }

def addEntry (id : Nat) (p : InstancePool) : InstancePool :=
  { p.endCreation id with
    received := p.received ++ [id], entries := p.entries ++ [⟨id, false⟩] }

/-- An instance arrives after `close()`: it is closed at once. -/
def addLate (id : Nat) (p : InstancePool) : InstancePool :=
  { p.endCreation id with
    received := p.received ++ [id], closings := p.closings ++ [(id, .late)] }

def created (signals : Signals) (id : Nat) (p : InstancePool) : InstancePool :=
  if p.closed then p.addLate id else (p.addEntry id).pump signals

def creationError (cause : Thrown) : Thrown :=
  match cause.runtime? with
  | some _ => cause
  | none => .caused (wasmPoolError (js "component instance creation failed")) cause

/-- `this.#waiters.shift()` and the rejection of what it returns. -/
def rejectFirst (cause : Thrown) (p : InstancePool) : InstancePool :=
  match p.waiters with
  | [] => p
  | w :: rest => { p with waiters := rest }.reject w cause

/-- The rejection handler of `#startCreate` before it pumps. -/
def dropCreation (id : Nat) (cause : Thrown) (p : InstancePool) : InstancePool :=
  (p.endCreation id).rejectFirst (creationError cause)

def createFailed (signals : Signals) (id : Nat) (cause : Thrown) (p : InstancePool) : InstancePool :=
  ((p.dropCreation id cause).pump signals).maybeFinishClose

/-- An `instance.close()` settles; a rejection is kept where its handler keeps it. -/
def recordClose (id : Nat) (why : CloseReason) (failure : Option Thrown) (p : InstancePool) : InstancePool :=
  { p with
    closings := p.closings.filter fun c => c.1 ≠ id
    settledCloses := ⟨id, failure, p.closed⟩ :: p.settledCloses
    closeFailures :=
      if (why = .discarded ∧ p.closed) ∨ why = .late then p.closeFailures ++ failure.toList
      else p.closeFailures
    finalFailures :=
      if why = .final then p.finalFailures ++ failure.toList else p.finalFailures }

def instanceClosed (signals : Signals) (id : Nat) (why : CloseReason) (failure : Option Thrown)
    (p : InstancePool) : InstancePool :=
  match why with
  | .discarded => ((p.recordClose id why failure).pump signals).maybeFinishClose
  | .late => (p.recordClose id why failure).maybeFinishClose
  | .final => p.recordClose id why failure

/-- The queue's rejections in `close()`. -/
def rejectAll (p : InstancePool) : InstancePool :=
  { p with waiters := [], log := (p.waiters.map fun w => .rejected w (.wasm wasmClosedError)).reverse ++ p.log }

def close (p : InstancePool) : InstancePool :=
  if p.closed then p else ({ p with closed := true }.rejectAll).maybeFinishClose

/-- The reaction to the final `Promise.allSettled`: the promise of `close()` settles. -/
def finishClose (p : InstancePool) : InstancePool :=
  { p with closeResult := some (p.closeFailures ++ p.finalFailures) }

end InstancePool

inductive PoolEvent where
  | acquire (signal : Nat)
  | abort (signal : Nat) (reason : Thrown)
  | release (ticket : Nat) (discard : Bool)
  | created (id : Nat)
  | createFailed (id : Nat) (cause : Thrown)
  | instanceClosed (id : Nat) (failure : Option Thrown)
  | close
  | finishClose
  | turn
deriving DecidableEq

structure PoolSystem where
  pool : InstancePool
  signals : Signals

def Signals.abort (signals : Signals) (signal : Nat) (reason : Thrown) : Signals := fun s =>
  if s = signal then some ((signals s).getD reason) else signals s

namespace PoolSystem

def step (s : PoolSystem) : PoolEvent → Option PoolSystem
  | .acquire signal => some { s with pool := s.pool.acquire s.signals signal }
  | .abort signal reason =>
    let signals := s.signals.abort signal reason
    if (s.signals signal).isSome then some s
    else some { pool := s.pool.abort signals signal reason, signals }
  | .release ticket discard => some { s with pool := s.pool.release s.signals ticket discard }
  | .created id =>
    if id ∈ s.pool.creations then some { s with pool := s.pool.created s.signals id } else none
  | .createFailed id cause =>
    if id ∈ s.pool.creations then some { s with pool := s.pool.createFailed s.signals id cause }
    else none
  | .instanceClosed id failure =>
    match s.pool.closings.find? fun c => c.1 = id with
    | some c => some { s with pool := s.pool.instanceClosed s.signals id c.2 failure }
    | none => none
  | .close => some { s with pool := s.pool.close }
  | .finishClose =>
    if s.pool.finalizing && s.pool.closingFor .final = [] && s.pool.closeResult.isNone then
      some { s with pool := s.pool.finishClose }
    else none
  | .turn => some { s with pool := { s.pool with turn := s.pool.turn + 1 } }

end PoolSystem

end ForgeDeno
