import ForgeDeno.LabelledMachine
import ForgeDeno.PoolCore
import Mathlib.Logic.Relation

namespace ForgeDeno

namespace InstancePool

open List

variable {signals : Signals} {p q : InstancePool}

/-- Everything one turn of the loop in `#pump` can do. -/
inductive PumpTurn (signals : Signals) (p : InstancePool) : InstancePool → Prop where
  | grant (w : PoolWaiter) (rest : List PoolWaiter) (e : PoolEntry) (head : p.waiters = w :: rest)
      (mem : e ∈ p.entries) (idle : e.busy = false) (live : signals w.signal = none) :
      PumpTurn signals p ({ p with waiters := rest }.grant w e)
  | reject (w : PoolWaiter) (rest : List PoolWaiter) (e : PoolEntry) (reason : Thrown)
      (head : p.waiters = w :: rest) (mem : e ∈ p.entries) (idle : e.busy = false)
      (aborted : signals w.signal = some reason) : PumpTurn signals p (p.dropWaiter w reason)
  | create (busy : ∀ e ∈ p.entries, e.busy = true) (demand : p.creating < p.waiters.length)
      (room : p.entries.length + p.creating < p.max) : PumpTurn signals p p.startCreate

theorem pumpStep_turn (h : p.pumpStep signals = some q) : PumpTurn signals p q := by
  unfold pumpStep at h
  split at h
  · cases h
  · next w rest head =>
    split at h
    · next e he =>
      have mem := mem_of_find?_eq_some he
      have idle : e.busy = false := by simpa using find?_some he
      split at h
      · next reason aborted =>
        have drop : { p with waiters := rest }.reject w reason = p.dropWaiter w reason := by
          simp [dropWaiter, head]
        rw [← Option.some.inj h, drop]
        exact .reject w rest e reason head mem idle aborted
      · next live =>
        rw [← Option.some.inj h]
        exact .grant w rest e head mem idle live
    · next none_idle =>
      have busy : ∀ e ∈ p.entries, e.busy = true := by simpa using none_idle
      split_ifs at h with full room
      rw [← Option.some.inj h]
      exact .create busy (by omega) (by omega)

theorem pumpStep_none (h : p.pumpStep signals = none) : p.waiters = [] ∨ ((∀ e ∈ p.entries, e.busy = true) ∧
      (p.waiters.length ≤ p.creating ∨ p.max ≤ p.entries.length + p.creating)) := by
  unfold pumpStep at h
  split at h
  · next empty => exact .inl empty
  · split at h
    · split at h <;> cases h
    · next none_idle =>
      have busy : ∀ e ∈ p.entries, e.busy = true := by simpa using none_idle
      split_ifs at h with full room
      · exact .inr ⟨busy, .inl full⟩
      · exact .inr ⟨busy, .inr room⟩

theorem pumpLoop_rule {I : InstancePool → Prop}
    (keep : ∀ p q, I p → PumpTurn signals p q → I q) (n : Nat) (hi : I p) : I (pumpLoop signals n p) := by
  induction n generalizing p with
  | zero => exact hi
  | succ n ih =>
    unfold pumpLoop
    split
    · exact hi
    · next q hq => exact ih (keep p q hi (pumpStep_turn hq))

def pumpWork (p : InstancePool) : Nat := p.waiters.length + (p.waiters.length - p.creating)

theorem pumpWork_lt (h : PumpTurn signals p q) : pumpWork q < pumpWork p := by
  cases h with
  | grant w rest e head =>
    simp only [pumpWork, grant, setBusy, head, length_cons]
    omega
  | reject w rest e reason head =>
    simp only [pumpWork, dropWaiter, InstancePool.reject, head, erase_cons_head, length_cons]
    omega
  | create busy demand room =>
    simp only [pumpWork, startCreate]
    omega

theorem pumpLoop_stuck (n : Nat) (h : pumpWork p ≤ n) : (pumpLoop signals n p).pumpStep signals = none := by
  induction n generalizing p with
  | zero =>
    have empty : p.waiters = [] := eq_nil_of_length_eq_zero (by unfold pumpWork at h; omega)
    simp [pumpLoop, pumpStep, empty]
  | succ n ih =>
    unfold pumpLoop
    split
    · next stuck => exact stuck
    · next q hq =>
      have less := pumpWork_lt (pumpStep_turn hq)
      exact ih (by omega)

theorem pump_stuck (alive : p.closed = false) : (p.pump signals).pumpStep signals = none := by
  have enough : pumpWork p ≤ 2 * p.waiters.length := by unfold pumpWork; omega
  simpa [pump, alive] using pumpLoop_stuck _ enough

/-- What only `close()` and the end of an instance's `close()` change. -/
structure Keeps (p q : InstancePool) : Prop where
  closed : q.closed = p.closed
  settledCloses : q.settledCloses = p.settledCloses

theorem Keeps.refl (p : InstancePool) : p.Keeps p := ⟨rfl, rfl⟩

theorem Keeps.trans {p q r : InstancePool} (first : p.Keeps q) (second : q.Keeps r) : p.Keeps r :=
  ⟨second.closed.trans first.closed, second.settledCloses.trans first.settledCloses⟩

theorem pumpLoop_keeps (n : Nat) : p.Keeps (pumpLoop signals n p) := by
  refine pumpLoop_rule (I := fun q => p.Keeps q) ?_ n (.refl p)
  intro q r hq turn
  refine hq.trans ?_
  cases turn <;> exact ⟨rfl, rfl⟩

theorem maybeFinishClose_keeps : p.Keeps p.maybeFinishClose := by
  unfold maybeFinishClose
  split_ifs <;> exact ⟨rfl, rfl⟩

theorem pump_keeps : p.Keeps (p.pump signals) := by
  unfold pump
  split_ifs
  · exact maybeFinishClose_keeps
  · exact pumpLoop_keeps _

theorem Keeps.pumped (kept : p.Keeps q) : p.Keeps (q.pump signals) := kept.trans pump_keeps

theorem acquire_keeps (signal : Nat) : p.Keeps (p.acquire signals signal) := by
  unfold acquire
  split_ifs
  · exact ⟨rfl, rfl⟩
  · split
    · exact ⟨rfl, rfl⟩
    · exact .pumped ⟨rfl, rfl⟩

theorem onAbort_keeps (reason : Thrown) (w : PoolWaiter) : p.Keeps (p.onAbort signals reason w) := by
  unfold onAbort
  split_ifs
  · exact .pumped ⟨rfl, rfl⟩
  · exact .refl p

theorem abort_keeps (signal : Nat) (reason : Thrown) : p.Keeps (p.abort signals signal reason) := by
  unfold abort
  generalize p.waiters.filter (fun w => w.signal = signal) = ws
  induction ws generalizing p with
  | nil => exact .refl p
  | cons w ws ih => exact (onAbort_keeps reason w).trans ih

theorem release_keeps (ticket : Nat) (discard : Bool) : p.Keeps (p.release signals ticket discard) := by
  unfold release
  split
  · exact .refl p
  · simp only [releaseEntry]
    split_ifs
    · exact ⟨rfl, rfl⟩
    · exact .pumped ⟨rfl, rfl⟩
    · exact ⟨rfl, rfl⟩

@[simp] theorem maybeFinishClose_closed : p.maybeFinishClose.closed = p.closed :=
  maybeFinishClose_keeps.closed

@[simp] theorem pump_closed : (p.pump signals).closed = p.closed := pump_keeps.closed

def canFinalize (p : InstancePool) : Prop :=
  p.closed = true ∧ p.finalizing = false ∧ p.creating = 0 ∧ ∀ e ∈ p.entries, e.busy = false

/-- Past its guard, `#maybeFinishClose` closes the instances that are left. -/
def finalize (p : InstancePool) : InstancePool :=
  { p with finalizing := true, entries := [], closings := p.closings ++ p.entryIds.map fun id => (id, .final) }

theorem maybeFinishClose_cases : (p.canFinalize ∧ p.maybeFinishClose = p.finalize) ∨
      (¬p.canFinalize ∧ p.maybeFinishClose = p) := by
  unfold maybeFinishClose canFinalize
  split_ifs with guard busy
  · refine .inr ⟨?_, rfl⟩
    rintro ⟨closed, first, none_creating, _⟩
    simp [closed, first, none_creating] at guard
  · refine .inr ⟨?_, rfl⟩
    rintro ⟨_, _, _, idle⟩
    obtain ⟨e, he, hb⟩ := any_eq_true.mp busy
    simp [idle e he] at hb
  · refine .inl ⟨?_, rfl⟩
    simp only [Bool.or_eq_true, Bool.not_eq_true', decide_eq_true_eq, not_or] at guard
    obtain ⟨⟨closed, first⟩, none_creating⟩ := guard
    refine ⟨by simpa using closed, by simpa using first, by omega, fun e he => ?_⟩
    by_contra hb
    exact busy (any_eq_true.mpr ⟨e, he, by simpa using hb⟩)

end InstancePool

/-- The elementary moves of the pool within a turn that neither open an `acquire()` nor give back a
lease. -/
inductive PoolFlow (signals : Signals) (p : InstancePool) : InstancePool → Prop where
  | drop (w : PoolWaiter) (cause : Thrown) (mem : w ∈ p.waiters) : PoolFlow signals p (p.dropWaiter w cause)
  | grant (w : PoolWaiter) (rest : List PoolWaiter) (e : PoolEntry) (alive : p.closed = false)
      (head : p.waiters = w :: rest) (mem : e ∈ p.entries) (idle : e.busy = false)
      (live : signals w.signal = none) : PoolFlow signals p ({ p with waiters := rest }.grant w e)
  | create (alive : p.closed = false) (room : p.entries.length + p.creating < p.max) :
      PoolFlow signals p p.startCreate
  | arrive (id : Nat) (mem : id ∈ p.creations) (alive : p.closed = false) : PoolFlow signals p (p.addEntry id)
  | arriveLate (id : Nat) (mem : id ∈ p.creations) (closed : p.closed = true) : PoolFlow signals p (p.addLate id)
  | fail (id : Nat) (mem : id ∈ p.creations) : PoolFlow signals p (p.endCreation id)
  | settle (id : Nat) (why : CloseReason) (failure : Option Thrown) (mem : (id, why) ∈ p.closings) :
      PoolFlow signals p (p.recordClose id why failure)
  | close (alive : p.closed = false) : PoolFlow signals p { p with closed := true }.rejectAll
  | finalize (guard : p.canFinalize) : PoolFlow signals p p.finalize
  | finish (started : p.finalizing = true) (settled : p.closingFor .final = [])
      (first : p.closeResult = none) : PoolFlow signals p p.finishClose

inductive PoolMove (signals : Signals) (p : InstancePool) : InstancePool → Prop where
  | flow {q : InstancePool} (step : PoolFlow signals p q) : PoolMove signals p q
  | refuse (signal : Nat) (cause : Thrown) :
      PoolMove signals p ({ p with tickets := p.tickets + 1 }.reject ⟨p.tickets, signal⟩ cause)
  | enqueue (signal : Nat) (alive : p.closed = false) (live : signals signal = none) :
      PoolMove signals p (p.enqueue signal)
  | keepLease (l : InstanceLease) (mem : l ∈ p.held) (alive : p.closed = false)
      (present : l.entry ∈ p.entryIds) :
      PoolMove signals p ((p.returnLease l).setBusy l.entry false)
  | discardLease (l : InstanceLease) (mem : l ∈ p.held) (present : l.entry ∈ p.entryIds) :
      PoolMove signals p ((p.returnLease l).discard l.entry)
  | loseLease (l : InstanceLease) (mem : l ∈ p.held) (absent : l.entry ∉ p.entryIds) :
      PoolMove signals p (p.returnLease l)
  | turn : PoolMove signals p { p with turn := p.turn + 1 }

abbrev PoolFlows (signals : Signals) := Relation.ReflTransGen (PoolFlow signals)

abbrev PoolMoves (signals : Signals) := Relation.ReflTransGen (PoolMove signals)

theorem PoolFlows.invariant {I : InstancePool → Prop} {signals : Signals} {p q : InstancePool}
    (keep : ∀ p q, I p → PoolFlow signals p q → I q) (h : PoolFlows signals p q) (hi : I p) : I q := by
  induction h with
  | refl => exact hi
  | tail _ step ih => exact keep _ _ ih step

theorem PoolMoves.invariant {I : InstancePool → Prop} {signals : Signals} {p q : InstancePool}
    (keep : ∀ p q, I p → PoolMove signals p q → I q) (h : PoolMoves signals p q) (hi : I p) : I q := by
  induction h with
  | refl => exact hi
  | tail _ move ih => exact keep _ _ ih move

theorem PoolFlows.moves {signals : Signals} {p q : InstancePool} (h : PoolFlows signals p q) :
    PoolMoves signals p q := by
  induction h with
  | refl => exact .refl
  | tail _ step ih => exact .tail ih (.flow step)

namespace InstancePool

variable {signals : Signals} {p q : InstancePool}

theorem PumpTurn.flow (h : PumpTurn signals p q) (alive : p.closed = false) : PoolFlow signals p q := by
  cases h with
  | grant w rest e head mem idle live => exact .grant w rest e alive head mem idle live
  | reject w rest e reason head mem idle aborted => exact .drop w reason (by simp [head])
  | create busy demand room => exact .create alive room

theorem pumpLoop_flows (n : Nat) (alive : p.closed = false) : PoolFlows signals p (pumpLoop signals n p) := by
  induction n generalizing p with
  | zero => exact .refl
  | succ n ih =>
    unfold pumpLoop
    split
    · exact .refl
    · next q hq =>
      have turn := pumpStep_turn hq
      have still : q.closed = false := by
        cases turn <;> simpa [grant, setBusy, dropWaiter, InstancePool.reject, startCreate] using alive
      exact .head (turn.flow alive) (ih still)

theorem maybeFinishClose_flows : PoolFlows signals p p.maybeFinishClose := by
  rcases maybeFinishClose_cases (p := p) with ⟨guard, eq⟩ | ⟨_, eq⟩
  · rw [eq]
    exact .single (.finalize guard)
  · rw [eq]

theorem pump_flows : PoolFlows signals p (p.pump signals) := by
  unfold pump
  split_ifs with closed
  · exact maybeFinishClose_flows
  · exact pumpLoop_flows _ (by simpa using closed)

theorem acquire_cases (signal : Nat) : (∃ cause, p.acquire signals signal =
        { p with tickets := p.tickets + 1 }.reject ⟨p.tickets, signal⟩ cause) ∨
      (p.closed = false ∧ signals signal = none ∧
        p.acquire signals signal = (p.enqueue signal).pump signals) := by
  unfold acquire
  split_ifs with closed
  · exact .inl ⟨_, rfl⟩
  · split
    · exact .inl ⟨_, rfl⟩
    · next live => exact .inr ⟨by simpa using closed, live, rfl⟩

theorem acquire_moves (signal : Nat) : PoolMoves signals p (p.acquire signals signal) := by
  rcases acquire_cases (p := p) signal with ⟨cause, eq⟩ | ⟨alive, live, eq⟩
  · rw [eq]
    exact .single (.refuse signal cause)
  · rw [eq]
    exact .head (.enqueue signal alive live) pump_flows.moves

theorem onAbort_flows (reason : Thrown) (w : PoolWaiter) : PoolFlows signals p (p.onAbort signals reason w) := by
  unfold onAbort
  split_ifs with mem
  · exact .head (.drop w reason mem) pump_flows
  · exact .refl

theorem abort_flows (signal : Nat) (reason : Thrown) : PoolFlows signals p (p.abort signals signal reason) := by
  unfold abort
  generalize p.waiters.filter (fun w => w.signal = signal) = ws
  induction ws generalizing p with
  | nil => exact .refl
  | cons w ws ih => exact (onAbort_flows reason w).trans ih

theorem release_first {ticket : Nat} {l : InstanceLease}
    (found : p.held.find? (fun l => l.ticket = ticket) = some l) (discard : Bool) :
    ∃ q, PoolMove signals p q ∧ PoolFlows signals q (p.release signals ticket discard) ∧
      q.held = p.held.erase l ∧ q.waiters = p.waiters ∧ q.turn = p.turn := by
  have mem := List.mem_of_find?_eq_some found
  simp only [release, found, releaseEntry]
  split_ifs with present gone
  · exact ⟨_, .discardLease l mem present, .refl, rfl, rfl, rfl⟩
  · have alive : p.closed = false := by
      cases hc : p.closed with
      | false => rfl
      | true => simp [returnLease, hc] at gone
    exact ⟨_, .keepLease l mem alive present, pump_flows, rfl, rfl, rfl⟩
  · exact ⟨_, .loseLease l mem present, .refl, rfl, rfl, rfl⟩

theorem release_moves (ticket : Nat) (discard : Bool) :
    PoolMoves signals p (p.release signals ticket discard) := by
  cases found : p.held.find? fun l => l.ticket = ticket with
  | none =>
    simp only [release, found]
    exact .refl
  | some l =>
    obtain ⟨q, first, rest, _⟩ := release_first (p := p) found discard
    exact .head first rest.moves

theorem created_flows {id : Nat} (mem : id ∈ p.creations) : PoolFlows signals p (p.created signals id) := by
  unfold created
  split_ifs with closed
  · exact .single (.arriveLate id mem closed)
  · exact .head (.arrive id mem (by simpa using closed)) pump_flows

theorem rejectFirst_flows (cause : Thrown) : PoolFlows signals p (p.rejectFirst cause) := by
  unfold rejectFirst
  split
  · exact .refl
  · next w rest head =>
    have drop : { p with waiters := rest }.reject w cause = p.dropWaiter w cause := by
      simp [dropWaiter, head]
    rw [drop]
    exact .single (.drop w cause (by simp [head]))

theorem dropCreation_flows {id : Nat} (mem : id ∈ p.creations) (cause : Thrown) :
    PoolFlows signals p (p.dropCreation id cause) :=
  .head (.fail id mem) (rejectFirst_flows _)

theorem createFailed_flows {id : Nat} (mem : id ∈ p.creations) (cause : Thrown) :
    PoolFlows signals p (p.createFailed signals id cause) :=
  ((dropCreation_flows mem cause).trans pump_flows).trans maybeFinishClose_flows

theorem instanceClosed_flows {id : Nat} {why : CloseReason} (mem : (id, why) ∈ p.closings)
    (failure : Option Thrown) : PoolFlows signals p (p.instanceClosed signals id why failure) := by
  have first : PoolFlow signals p (p.recordClose id why failure) := .settle id why failure mem
  unfold instanceClosed
  split
  · exact (Relation.ReflTransGen.head first pump_flows).trans maybeFinishClose_flows
  · exact .head first maybeFinishClose_flows
  · exact .single first

theorem close_flows : PoolFlows signals p p.close := by
  unfold close
  split_ifs with closed
  · exact .refl
  · exact .head (.close (by simpa using closed)) maybeFinishClose_flows

end InstancePool

def poolMachine : LabelledMachine PoolSystem PoolEvent where
  start s := ∃ max turn, s.pool = InstancePool.new max turn
  step := PoolSystem.step

def PoolEvent.isFlow : PoolEvent → Bool
  | .acquire _ | .release _ _ | .turn => false
  | _ => true

theorem poolStep_flows {s t : PoolSystem} {e : PoolEvent} (flow : e.isFlow = true)
    (h : s.step e = some t) : PoolFlows t.signals s.pool t.pool := by
  cases e with
  | acquire | release | turn => cases flow
  | abort signal reason =>
    simp only [PoolSystem.step] at h
    split_ifs at h
    · cases h; exact .refl
    · cases h; exact InstancePool.abort_flows signal reason
  | created id =>
    simp only [PoolSystem.step] at h
    split_ifs at h with mem
    cases h; exact InstancePool.created_flows mem
  | createFailed id cause =>
    simp only [PoolSystem.step] at h
    split_ifs at h with mem
    cases h; exact InstancePool.createFailed_flows mem cause
  | instanceClosed id failure =>
    simp only [PoolSystem.step] at h
    split at h
    · next c hc =>
      have same : c.1 = id := by simpa using List.find?_some hc
      have mem : (id, c.2) ∈ s.pool.closings := by
        rw [← same]
        exact List.mem_of_find?_eq_some hc
      cases h; exact InstancePool.instanceClosed_flows mem failure
    · cases h
  | close => cases h; exact InstancePool.close_flows
  | finishClose =>
    simp only [PoolSystem.step] at h
    split_ifs at h with guard
    simp only [Bool.and_eq_true, decide_eq_true_eq, Option.isNone_iff_eq_none] at guard
    obtain ⟨⟨started, settled⟩, first⟩ := guard
    cases h; exact .single (.finish started settled first)

namespace InstancePool

variable {signals : Signals} {p q : InstancePool}

theorem step_keeps {s t : PoolSystem} {e : PoolEvent} (h : poolMachine.step s e = some t) : s.pool.Keeps t.pool ∨
      (e = .close ∧ t.pool.settledCloses = s.pool.settledCloses) ∨
      ∃ id failure, e = .instanceClosed id failure ∧ t.pool.closed = s.pool.closed ∧
        t.pool.settledCloses = ⟨id, failure, s.pool.closed⟩ :: s.pool.settledCloses := by
  change s.step e = some t at h
  cases e with
  | acquire signal =>
    cases h
    exact .inl (acquire_keeps signal)
  | abort signal reason =>
    simp only [PoolSystem.step] at h
    split_ifs at h
    · cases h
      exact .inl (.refl _)
    · cases h
      exact .inl (abort_keeps signal reason)
  | release ticket discard =>
    cases h
    exact .inl (release_keeps ticket discard)
  | created id =>
    simp only [PoolSystem.step] at h
    split_ifs at h
    cases h
    refine .inl ?_
    simp only [created]
    split_ifs
    · exact ⟨rfl, rfl⟩
    · exact .pumped ⟨rfl, rfl⟩
  | createFailed id cause =>
    simp only [PoolSystem.step] at h
    split_ifs at h
    cases h
    have dropped : s.pool.Keeps (s.pool.dropCreation id cause) := by
      simp only [dropCreation, rejectFirst]
      split <;> exact ⟨rfl, rfl⟩
    exact .inl ((dropped.trans pump_keeps).trans maybeFinishClose_keeps)
  | instanceClosed id failure =>
    simp only [PoolSystem.step] at h
    split at h
    · next c hc =>
      cases h
      have rest : (s.pool.recordClose id c.2 failure).Keeps
          (s.pool.instanceClosed s.signals id c.2 failure) := by
        unfold instanceClosed
        split
        · next why => exact why ▸ pump_keeps.trans maybeFinishClose_keeps
        · next why => exact why ▸ maybeFinishClose_keeps
        · next why => exact why ▸ .refl _
      exact .inr (.inr ⟨id, failure, rfl, rest.closed, rest.settledCloses⟩)
    · cases h
  | close =>
    cases h
    refine .inr (.inl ⟨rfl, ?_⟩)
    simp only [close]
    split_ifs
    · rfl
    · exact maybeFinishClose_keeps.settledCloses
  | finishClose =>
    simp only [PoolSystem.step] at h
    split_ifs at h
    cases h
    exact .inl ⟨rfl, rfl⟩
  | turn =>
    cases h
    exact .inl ⟨rfl, rfl⟩

theorem closed_of_step {s t : PoolSystem} {e : PoolEvent} (other : e ≠ .close)
    (h : poolMachine.step s e = some t) : t.pool.closed = s.pool.closed := by
  rcases step_keeps h with kept | ⟨rfl, _⟩ | ⟨_, _, _, closed, _⟩
  · exact kept.closed
  · exact absurd rfl other
  · exact closed

end InstancePool

theorem poolStep_moves {s t : PoolSystem} {e : PoolEvent} (h : poolMachine.step s e = some t) :
    PoolMoves t.signals s.pool t.pool := by
  change s.step e = some t at h
  cases e with
  | acquire signal => cases h; exact InstancePool.acquire_moves signal
  | release ticket discard =>
    cases h; exact InstancePool.release_moves ticket discard
  | turn => cases h; exact .single .turn
  | abort | created | createFailed | instanceClosed | close | finishClose =>
    exact (poolStep_flows rfl h).moves

theorem pool_invariant {I : InstancePool → Prop} (new : ∀ max turn, I (InstancePool.new max turn))
    (keep : ∀ signals p q, I p → PoolMove signals p q → I q) {s : PoolSystem}
    (h : poolMachine.Reachable s) : I s.pool := by
  refine h.invariant (I := fun s => I s.pool) ?_ ?_
  · rintro s ⟨max, turn, hp⟩
    rw [hp]
    exact new max turn
  · intro s e t hi hs
    exact PoolMoves.invariant (keep t.signals) (poolStep_moves hs) hi

end ForgeDeno
