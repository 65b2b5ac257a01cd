import ForgeDeno.ListRules
import ForgeDeno.PoolFairness

namespace ForgeDeno

namespace InstancePool

open List

def leases (p : InstancePool) : List InstanceLease := p.held ++ p.returned

/-- The instances that have been given to their `close()`. -/
def gone (p : InstancePool) : List Nat := p.closingIds ++ p.closedIds

structure Accountable (p : InstancePool) : Prop where
  distinct : (p.leases.map InstanceLease.ticket).Nodup
  granted : ∀ w id, .granted w id ∈ p.log → ∃ l ∈ p.leases, l.ticket = w.ticket ∧ l.entry = id
  logged : ∀ l ∈ p.leases, ∃ w, .granted w l.entry ∈ p.log ∧ w.ticket = l.ticket

structure Sound (p : InstancePool) : Prop where
  owned : p.Owned
  sealed_ : p.Sealed
  ticketed : p.Ticketed
  accountable : p.Accountable

/-- What the moves between two operations of the callers do to the leases: only a waiter is granted
one, and none is given back. -/
structure Grants (p q : InstancePool) : Prop where
  returned : q.returned = p.returned
  tickets : q.tickets = p.tickets
  kept : ∀ l ∈ p.held, l ∈ q.held
  turn : p.turn ≤ q.turn
  new : ∀ l ∈ q.held, l ∈ p.held ∨ (p.turn ≤ l.grantedAt ∧ ∃ w ∈ p.waiters, w.ticket = l.ticket)
  waiters : ∀ w ∈ q.waiters, w ∈ p.waiters

variable {signals : Signals} {p q r : InstancePool}

theorem Grants.refl (p : InstancePool) : Grants p p :=
  ⟨rfl, rfl, fun _ => id, Nat.le_refl p.turn, fun _ => .inl, fun _ => id⟩

theorem Grants.trans (first : Grants p q) (next : Grants q r) : Grants p r where
  returned := next.returned.trans first.returned
  tickets := next.tickets.trans first.tickets
  kept l mem := next.kept l (first.kept l mem)
  turn := Nat.le_trans first.turn next.turn
  new l mem := by
    rcases next.new l mem with old | ⟨later, w, waits, same⟩
    · exact first.new l old
    · exact .inr ⟨Nat.le_trans first.turn later, w, first.waiters w waits, same⟩
  waiters w mem := first.waiters w (next.waiters w mem)

theorem grants_of_flow (step : PoolFlow signals p q) : Grants p q := by
  cases step with
  | drop w cause mem =>
    exact ⟨rfl, rfl, fun _ => id, Nat.le_refl p.turn, fun _ => .inl, fun _ => mem_of_mem_erase⟩
  | grant w rest e alive head mem idle live =>
    refine ⟨rfl, rfl, fun l mem => mem_cons_of_mem _ mem, Nat.le_refl p.turn,
      fun l held => ?_, fun v waits => ?_⟩
    · rcases mem_cons.mp held with rfl | old
      · exact .inr ⟨Nat.le_refl p.turn, w, by simp [head], rfl⟩
      · exact .inl old
    · rw [head]
      exact mem_cons_of_mem w waits
  | close alive =>
    exact ⟨rfl, rfl, fun _ => id, Nat.le_refl p.turn, fun _ => .inl, nofun⟩
  | _ => exact ⟨rfl, rfl, fun _ => id, Nat.le_refl p.turn, fun _ => .inl, fun _ => id⟩

theorem grants_of_turn (p : InstancePool) : Grants p { p with turn := p.turn + 1 } :=
  ⟨rfl, rfl, fun _ => id, Nat.le_succ p.turn, fun _ => .inl, fun _ => id⟩

theorem grants_of_flows (steps : PoolFlows signals p q) : Grants p q := by
  induction steps with
  | refl => exact Grants.refl p
  | tail _ step ih => exact ih.trans (grants_of_flow step)

theorem mem_gone_iff {id : Nat} : id ∈ p.gone ↔ id ∈ p.closingIds ∨ id ∈ p.closedIds :=
  mem_append

theorem gone_move {id : Nat} (mem : id ∈ p.gone) (move : PoolMove signals p q) : id ∈ q.gone := by
  rw [mem_gone_iff] at mem ⊢
  have extended {why : List (Nat × CloseReason)} (closings : q.closings = p.closings ++ why)
      (settled : q.settledCloses = p.settledCloses) : id ∈ q.closingIds ∨ id ∈ q.closedIds := by
    rcases mem with pending | done
    · refine .inl ?_
      simp only [closingIds, closings, map_append]
      exact mem_append_left _ pending
    · refine .inr ?_
      simp only [closedIds, settled]
      exact done
  cases move with
  | discardLease l mem present => exact extended rfl rfl
  | flow step =>
    cases step with
    | arriveLate id mem closed => exact extended rfl rfl
    | finalize guard => exact extended rfl rfl
    | settle other why failure _ =>
      rcases mem with pending | done
      · by_cases same : id = other
        · exact .inr (by simp [closedIds, recordClose, same])
        · refine .inl ?_
          obtain ⟨c, there, rfl⟩ := mem_map.mp pending
          exact mem_map_of_mem (mem_filter.mpr ⟨there, by simpa using same⟩)
      · exact .inr (mem_cons_of_mem _ done)
    | _ => exact mem
  | _ => exact mem

theorem Owned.not_entry_of_gone (h : p.Owned) {id : Nat} (mem : id ∈ p.gone) : id ∉ p.entryIds := by
  intro present
  have apart := h.apart_of_entry present
  rcases mem_gone_iff.mp mem with pending | done
  · exact apart.1 pending
  · exact apart.2 done

theorem Owned.not_held_of_gone (h : p.Owned) {l : InstanceLease} (gone : l.entry ∈ p.gone) : l ∉ p.held :=
  fun held => h.not_entry_of_gone gone (h.present_of_held held)

namespace Accountable

theorem settled (h : p.Accountable) {l : InstanceLease} (mem : l ∈ p.leases) :
    0 < settlements l.ticket p.log := by
  obtain ⟨w, logged, same⟩ := h.logged l mem
  exact countP_pos_iff.mpr ⟨_, logged, by simp [PoolRecord.settles, same]⟩

theorem issued (h : p.Accountable) (ticketed : p.Ticketed) {l : InstanceLease}
    (mem : l ∈ p.leases) : l.ticket < p.tickets := by
  obtain ⟨w, logged, same⟩ := h.logged l mem
  rw [← same]
  exact ticketed.fresh _ logged

theorem lease_unique (h : p.Accountable) {l m : InstanceLease} (hl : l ∈ p.leases)
    (hm : m ∈ p.leases) (same : l.ticket = m.ticket) : l = m :=
  inj_on_of_nodup_map h.distinct hl hm same

theorem not_rejected (h : p.Accountable) (ticketed : p.Ticketed) {l : InstanceLease}
    (mem : l ∈ p.leases) {w : PoolWaiter} {cause : Thrown} (rejected : .rejected w cause ∈ p.log) :
    w.ticket ≠ l.ticket := by
  intro same
  obtain ⟨v, logged, eq⟩ := h.logged l mem
  have only := ListRules.eq_of_countP_le_one (ticketed.once l.ticket) logged rejected
    (by simp [PoolRecord.settles, eq]) (by simp [PoolRecord.settles, same])
  cases only

theorem not_waiting (h : p.Accountable) (ticketed : p.Ticketed) {l : InstanceLease}
    (mem : l ∈ p.leases) {w : PoolWaiter} (waits : w ∈ p.waiters) : w.ticket ≠ l.ticket := by
  intro same
  have settled := h.settled mem
  rw [← same, ticketed.waiting w waits] at settled
  exact Nat.lt_irrefl 0 settled

theorem held_apart (h : p.Accountable) {l m : InstanceLease} (held : l ∈ p.held)
    (returned : m ∈ p.returned) : l.ticket ≠ m.ticket := by
  have distinct := h.distinct
  rw [leases, map_append] at distinct
  exact (nodup_append.mp distinct).2.2 _ (mem_map_of_mem held) _ (mem_map_of_mem returned)

theorem held_nodup (h : p.Accountable) : p.held.Nodup :=
  (nodup_append.mp (List.Nodup.of_map InstanceLease.ticket h.distinct)).1

theorem new (max : PoolSize) (turn : Nat) : (InstancePool.new max turn).Accountable where
  distinct := nodup_nil
  granted w id mem := by cases mem
  logged l mem := by cases mem

theorem of_same (h : p.Accountable) (leases : q.leases.Perm p.leases)
    (grants : ∀ w id, .granted w id ∈ q.log ↔ .granted w id ∈ p.log) : q.Accountable where
  distinct := (leases.map InstanceLease.ticket).nodup_iff.mpr h.distinct
  granted w id mem := by
    obtain ⟨l, listed, same⟩ := h.granted w id ((grants w id).mp mem)
    exact ⟨l, leases.mem_iff.mpr listed, same⟩
  logged l mem := by
    obtain ⟨w, logged, same⟩ := h.logged l (leases.mem_iff.mp mem)
    exact ⟨w, (grants w l.entry).mpr logged, same⟩

theorem grant (h : p.Accountable) (ticketed : p.Ticketed) {w : PoolWaiter}
    {rest : List PoolWaiter} {e : PoolEntry} (head : p.waiters = w :: rest) :
    ({ p with waiters := rest }.grant w e).Accountable := by
  have waits : w ∈ p.waiters := by simp [head]
  refine ⟨?_, fun v id mem => ?_, fun l mem => ?_⟩
  · refine nodup_cons.mpr ⟨fun listed => ?_, h.distinct⟩
    obtain ⟨l, mem, same⟩ := mem_map.mp listed
    have settled := h.settled mem
    rw [same, ticketed.waiting w waits] at settled
    exact Nat.lt_irrefl 0 settled
  · rcases mem_cons.mp mem with new | old
    · cases new
      exact ⟨_, mem_cons_self, rfl, rfl⟩
    · obtain ⟨l, listed, same⟩ := h.granted v id old
      exact ⟨l, mem_cons_of_mem _ listed, same⟩
  · rcases mem_cons.mp mem with rfl | old
    · exact ⟨w, mem_cons_self, rfl⟩
    · obtain ⟨v, logged, same⟩ := h.logged l old
      exact ⟨v, mem_cons_of_mem _ logged, same⟩

theorem flow (h : p.Accountable) (ticketed : p.Ticketed) (step : PoolFlow signals p q) : q.Accountable := by
  cases step with
  | grant w rest e alive head => exact h.grant ticketed head
  | drop w cause mem =>
    exact h.of_same (.refl _) fun v id => by simp [dropWaiter, InstancePool.reject]
  | close alive => exact h.of_same (.refl _) fun v id => by simp [rejectAll]
  | _ => exact h.of_same (.refl _) fun _ _ => Iff.rfl

theorem return_perm {l : InstanceLease} (mem : l ∈ p.held) : (p.returnLease l).leases.Perm p.leases := by
  have split := (perm_cons_erase mem).append_right p.returned
  exact perm_middle.trans split.symm

theorem move (h : p.Accountable) (ticketed : p.Ticketed) (step : PoolMove signals p q) : q.Accountable := by
  cases step with
  | flow step => exact h.flow ticketed step
  | turn => exact h.of_same (.refl _) fun _ _ => Iff.rfl
  | refuse signal cause => exact h.of_same (.refl _) fun v id => by simp [InstancePool.reject]
  | enqueue signal => exact h.of_same (.refl _) fun v id => by simp [InstancePool.enqueue]
  | keepLease l mem | discardLease l mem | loseLease l mem =>
    exact h.of_same (return_perm mem) fun _ _ => Iff.rfl

end Accountable

namespace Sound

theorem new (max : PoolSize) (turn : Nat) : (InstancePool.new max turn).Sound :=
  ⟨Owned.new max turn, Sealed.new max turn, Ticketed.new max turn, Accountable.new max turn⟩

theorem move (h : p.Sound) (step : PoolMove signals p q) : q.Sound :=
  ⟨h.owned.move step, h.sealed_.move h.owned step, h.ticketed.move step, h.accountable.move h.ticketed step⟩

theorem moves (h : p.Sound) (steps : PoolMoves signals p q) : q.Sound :=
  steps.invariant (fun _ _ => move) h

end Sound

structure Returns (l : InstanceLease) (p q : InstancePool) : Prop where
  held : q.held = p.held.erase l
  returned : q.returned = l :: p.returned
  tickets : q.tickets = p.tickets
  waiters : q.waiters = p.waiters

theorem pump_entryIds (alive : p.closed = false) : (p.pump signals).entryIds = p.entryIds := by
  simp only [pump, alive, Bool.false_eq_true, ↓reduceIte]
  refine pumpLoop_rule (I := fun q => q.entryIds = p.entryIds) ?_ _ rfl
  intro q r hq turn
  cases turn with
  | grant w rest e => exact (entryIds_setBusy e.id true).trans hq
  | reject => exact hq
  | create => exact hq

/-- `release()` of a lease gives it back first; its instance goes to its `close()`, or it is free
for the next waiter. -/
theorem release_returns (signals : Signals) (h : p.Owned) {ticket : Nat} {l : InstanceLease}
    (found : p.held.find? (fun l => l.ticket = ticket) = some l) (discard : Bool) :
    ∃ q, Returns l p q ∧ PoolMove signals p q ∧ PoolFlows signals q (p.release signals ticket discard) ∧
      (discard = true → l.entry ∈ q.gone) ∧
      (discard = false → p.closed = false → l.entry ∈ (p.release signals ticket discard).entryIds) := by
  have mem := mem_of_find?_eq_some found
  have present := h.present_of_held mem
  by_cases gone : discard = true ∨ p.closed = true
  · have eq : p.release signals ticket discard = (p.returnLease l).discard l.entry := by
      simp only [release, found, releaseEntry]
      rw [if_pos (by exact present), if_pos (by simpa [returnLease] using gone)]
    rw [eq]
    refine ⟨(p.returnLease l).discard l.entry, ⟨rfl, rfl, rfl, rfl⟩, .discardLease l mem present,
      .refl, fun _ => ?_, ?_⟩
    · exact mem_gone_iff.mpr (.inl (by simp [closingIds, InstancePool.discard]))
    · intro keep alive
      rw [keep, alive] at gone
      simp at gone
  · obtain ⟨keep, alive⟩ := not_or.mp gone
    have still : p.closed = false := by simpa using alive
    have eq : p.release signals ticket discard =
        ((p.returnLease l).setBusy l.entry false).pump signals := by
      simp only [release, found, releaseEntry]
      rw [if_pos (by exact present), if_neg (by simpa [returnLease] using gone)]
    rw [eq]
    refine ⟨(p.returnLease l).setBusy l.entry false, ⟨rfl, rfl, rfl, rfl⟩,
      .keepLease l mem still present, pump_flows, fun bad => absurd bad keep, fun _ _ => ?_⟩
    rw [pump_entryIds (p := (p.returnLease l).setBusy l.entry false) still, entryIds_setBusy]
    exact present

end InstancePool

end ForgeDeno
