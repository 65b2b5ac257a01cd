import ForgeDeno.PoolMoves
import Mathlib.Data.List.Nodup

namespace ForgeDeno

namespace InstancePool

open List

/-- The instances whose `close()` is pending, and those whose `close()` has settled. -/
def closingIds (p : InstancePool) : List Nat := p.closings.map Prod.fst

def closedIds (p : InstancePool) : List Nat := p.settledCloses.map CloseRecord.id

structure Owned (p : InstancePool) : Prop where
  counted : p.creating = p.creations.length
  balance : ∀ id, p.received.count id = p.entryIds.count id + p.closingIds.count id + p.closedIds.count id
  once : ∀ id, p.creations.count id + p.received.count id ≤ 1
  below : ∀ id, p.nextId ≤ id → p.creations.count id + p.received.count id = 0
  exclusive : (p.held.map InstanceLease.entry).Nodup
  leased : ∀ id, id ∈ p.held.map InstanceLease.entry ↔ id ∈ p.busyIds

structure Sealed (p : InstancePool) : Prop where
  drained : p.closed = true → p.waiters = []
  discarding : p.closed = false → ∀ c ∈ p.closings, c.2 = .discarded
  finalized : p.finalizing = true → p.closed = true ∧ p.creations = [] ∧ p.entries = []
  finished : p.closeResult.isSome → p.finalizing = true ∧ p.closingFor .final = []

variable {signals : Signals} {p q : InstancePool}

theorem count_filter_ne (l : List Nat) (a x : Nat) :
    (l.filter fun y => y ≠ a).count x = if x = a then 0 else l.count x := by
  by_cases same : x = a
  · rw [if_pos same, count_eq_zero]
    intro mem
    exact of_decide_eq_true (mem_filter.mp mem).2 same
  · rw [if_neg same]
    exact count_filter (by simpa using same)

theorem mem_busyIds {id : Nat} : id ∈ p.busyIds ↔ ∃ e ∈ p.entries, e.busy = true ∧ e.id = id := by
  simp [busyIds, and_assoc]

theorem busyIds_sub_entryIds {id : Nat} (h : id ∈ p.busyIds) : id ∈ p.entryIds := by
  obtain ⟨e, he, _, rfl⟩ := mem_busyIds.mp h
  exact mem_map_of_mem he

@[simp] theorem entryIds_setBusy (id : Nat) (busy : Bool) : (p.setBusy id busy).entryIds = p.entryIds := by
  simp only [entryIds, setBusy, map_map]
  refine map_congr_left fun e _ => ?_
  by_cases same : e.id = id <;> simp [same]

theorem mem_busyIds_setBusy_true {id x : Nat} :
    x ∈ (p.setBusy id true).busyIds ↔ x ∈ p.busyIds ∨ (x = id ∧ id ∈ p.entryIds) := by
  simp only [mem_busyIds, setBusy, mem_map, entryIds]
  constructor
  · rintro ⟨_, ⟨e, he, rfl⟩, busy, rfl⟩
    by_cases same : e.id = id
    · exact .inr ⟨by simp [same], e, he, same⟩
    · exact .inl ⟨e, he, by simpa [same] using busy, by simp [same]⟩
  · rintro (⟨e, he, busy, rfl⟩ | ⟨rfl, e, he, same⟩)
    · refine ⟨_, ⟨e, he, rfl⟩, ?_, ?_⟩ <;> by_cases same : e.id = id <;> simp [same, busy]
    · exact ⟨_, ⟨e, he, rfl⟩, by simp [same], by simp [same]⟩

theorem mem_busyIds_setBusy_false {id x : Nat} : x ∈ (p.setBusy id false).busyIds ↔ x ∈ p.busyIds ∧ x ≠ id := by
  simp only [mem_busyIds, setBusy, mem_map]
  constructor
  · rintro ⟨_, ⟨e, he, rfl⟩, busy, rfl⟩
    by_cases same : e.id = id
    · simp [same] at busy
    · exact ⟨⟨e, he, by simpa [same] using busy, by simp [same]⟩, by simp [same]⟩
  · rintro ⟨⟨e, he, busy, rfl⟩, other⟩
    exact ⟨_, ⟨e, he, rfl⟩, by simp [other, busy], by simp [other]⟩

theorem mem_busyIds_discard {id x : Nat} : x ∈ (p.discard id).busyIds ↔ x ∈ p.busyIds ∧ x ≠ id := by
  simp only [mem_busyIds, discard, mem_filter, decide_eq_true_eq]
  constructor
  · rintro ⟨e, ⟨he, other⟩, busy, rfl⟩
    exact ⟨⟨e, he, busy, rfl⟩, other⟩
  · rintro ⟨⟨e, he, busy, rfl⟩, other⟩
    exact ⟨e, ⟨he, other⟩, busy, rfl⟩

@[simp] theorem entryIds_discard (id : Nat) : (p.discard id).entryIds = p.entryIds.filter fun x => x ≠ id := by
  simp [entryIds, discard, filter_map, Function.comp_def]

theorem mem_held_erase {held : List InstanceLease} {l : InstanceLease} {id : Nat}
    (mem : l ∈ held) (exclusive : (held.map InstanceLease.entry).Nodup) :
    id ∈ (held.erase l).map InstanceLease.entry ↔ id ∈ held.map InstanceLease.entry ∧ id ≠ l.entry := by
  have split := (perm_cons_erase mem).map InstanceLease.entry
  rw [map_cons] at split
  have apart := (nodup_cons.mp (split.nodup_iff.mp exclusive)).1
  rw [split.mem_iff, mem_cons]
  constructor
  · intro h
    exact ⟨.inr h, fun same => apart (same ▸ h)⟩
  · rintro ⟨same | h, other⟩
    · exact absurd same other
    · exact h

theorem held_erase_nodup {held : List InstanceLease} {l : InstanceLease}
    (exclusive : (held.map InstanceLease.entry).Nodup) : ((held.erase l).map InstanceLease.entry).Nodup :=
  (List.Sublist.map _ erase_sublist).nodup exclusive

theorem closingIds_finalize : p.finalize.closingIds = p.closingIds ++ p.entryIds := by
  simp [finalize, closingIds, Function.comp_def]

namespace Owned

theorem entryIds_once (h : p.Owned) (id : Nat) : p.entryIds.count id ≤ 1 := by
  have balance := h.balance id
  have once := h.once id
  omega

theorem apart_of_entry (h : p.Owned) {id : Nat} (mem : id ∈ p.entryIds) :
    id ∉ p.closingIds ∧ id ∉ p.closedIds := by
  have balance := h.balance id
  have once := h.once id
  have here := count_pos_iff.mpr mem
  constructor <;> intro there <;> have more := count_pos_iff.mpr there <;> omega

theorem entry_unique (h : p.Owned) {e f : PoolEntry} (he : e ∈ p.entries) (hf : f ∈ p.entries)
    (same : e.id = f.id) : e = f := by
  have nodup : (p.entries.map PoolEntry.id).Nodup := nodup_iff_count_le_one.mpr h.entryIds_once
  exact inj_on_of_nodup_map nodup he hf same

theorem idle_not_leased (h : p.Owned) {e : PoolEntry} (mem : e ∈ p.entries)
    (idle : e.busy = false) : e.id ∉ p.held.map InstanceLease.entry := by
  intro leased
  obtain ⟨f, hf, busy, same⟩ := mem_busyIds.mp ((h.leased e.id).mp leased)
  have eq := h.entry_unique hf mem same
  rw [eq, idle] at busy
  cases busy

theorem new (max : PoolSize) (turn : Nat) : (InstancePool.new max turn).Owned := by
  refine ⟨rfl, fun id => rfl, fun id => Nat.zero_le 1, fun id _ => rfl, nodup_nil, ?_⟩
  intro id
  simp [InstancePool.new, busyIds]

theorem grant (h : p.Owned) {w : PoolWaiter} {rest : List PoolWaiter} {e : PoolEntry}
    (mem : e ∈ p.entries) (idle : e.busy = false) : ({ p with waiters := rest }.grant w e).Owned := by
  refine ⟨h.counted, fun id => ?_, h.once, h.below, ?_, fun id => ?_⟩
  · have same : ({ p with waiters := rest }.grant w e).entryIds = p.entryIds :=
      entryIds_setBusy e.id true
    rw [same]
    exact h.balance id
  · exact nodup_cons.mpr ⟨h.idle_not_leased mem idle, h.exclusive⟩
  · have busy : id ∈ ({ p with waiters := rest }.grant w e).busyIds ↔
        id ∈ p.busyIds ∨ (id = e.id ∧ e.id ∈ p.entryIds) := mem_busyIds_setBusy_true
    have here : e.id ∈ p.entryIds := mem_map_of_mem mem
    rw [busy, ← h.leased id]
    simp only [InstancePool.grant, setBusy, map_cons, mem_cons, here, and_true]
    exact Or.comm

theorem keepLease (h : p.Owned) {l : InstanceLease} (mem : l ∈ p.held) :
    ((p.returnLease l).setBusy l.entry false).Owned := by
  refine ⟨h.counted, fun id => ?_, h.once, h.below, held_erase_nodup h.exclusive, fun id => ?_⟩
  · rw [entryIds_setBusy]
    exact h.balance id
  · rw [mem_busyIds_setBusy_false]
    exact (mem_held_erase mem h.exclusive).trans (and_congr_left' (h.leased id))

theorem discardLease (h : p.Owned) {l : InstanceLease} (mem : l ∈ p.held)
    (present : l.entry ∈ p.entryIds) : ((p.returnLease l).discard l.entry).Owned := by
  refine ⟨h.counted, fun id => ?_, h.once, h.below, held_erase_nodup h.exclusive, fun id => ?_⟩
  · have balance := h.balance id
    have one := h.entryIds_once id
    have here := count_pos_iff.mpr present
    rw [entryIds_discard, count_filter_ne]
    simp only [closingIds, closedIds, discard, returnLease, entryIds, map_append,
      count_append, map_cons, map_nil] at balance one here ⊢
    by_cases same : id = l.entry
    · subst same
      simp only [if_true, count_cons_self, count_nil]
      omega
    · have other : [l.entry].count id = 0 := count_eq_zero.mpr (by simpa using same)
      simp only [same, if_false, other]
      omega
  · rw [mem_busyIds_discard]
    exact (mem_held_erase mem h.exclusive).trans (and_congr_left' (h.leased id))

theorem present_of_held (h : p.Owned) {l : InstanceLease} (mem : l ∈ p.held) : l.entry ∈ p.entryIds :=
  busyIds_sub_entryIds ((h.leased l.entry).mp (mem_map_of_mem mem))

theorem finalize (h : p.Owned) (guard : p.canFinalize) : p.finalize.Owned := by
  refine ⟨h.counted, fun id => ?_, h.once, h.below, h.exclusive, fun id => ?_⟩
  · have balance := h.balance id
    have none_left : p.finalize.entryIds = [] := rfl
    have closed : p.finalize.closedIds = p.closedIds := rfl
    have received : p.finalize.received = p.received := rfl
    rw [none_left, closed, received, closingIds_finalize, count_append, count_nil]
    omega
  · have none_busy : ¬id ∈ p.busyIds := by
      intro busy
      obtain ⟨e, he, hb, _⟩ := mem_busyIds.mp busy
      simp [guard.2.2.2 e he] at hb
    have none_held := (not_congr (h.leased id)).mpr none_busy
    exact iff_of_false none_held (by simp [InstancePool.finalize, busyIds])

theorem endCreation_count {id : Nat} (mem : id ∈ p.creations) (x : Nat) :
    (p.creations.erase id).count x + [id].count x = p.creations.count x := by
  have split := (perm_cons_erase mem).count_eq x
  rw [count_cons] at split
  rw [count_singleton, split]

theorem endCreation_length (h : p.Owned) {id : Nat} (mem : id ∈ p.creations) :
    (p.endCreation id).creating = (p.endCreation id).creations.length := by
  have counted := h.counted
  simp only [endCreation, length_erase_of_mem mem]
  omega

theorem fail (h : p.Owned) {id : Nat} (mem : id ∈ p.creations) : (p.endCreation id).Owned := by
  refine ⟨h.endCreation_length mem, h.balance, fun x => ?_, fun x hx => ?_, h.exclusive, h.leased⟩
  · have once := h.once x
    have erased := endCreation_count mem x
    simp only [endCreation]
    omega
  · have below := h.below x hx
    have erased := endCreation_count mem x
    simp only [endCreation]
    omega

theorem received_once {id : Nat} (mem : id ∈ p.creations) (x : Nat) :
    (p.creations.erase id).count x + (p.received ++ [id]).count x = p.creations.count x + p.received.count x := by
  have erased := endCreation_count mem x
  rw [count_append]
  omega

theorem arrive (h : p.Owned) {id : Nat} (mem : id ∈ p.creations) : (p.addEntry id).Owned := by
  refine ⟨h.endCreation_length mem, fun x => ?_, fun x => ?_, fun x hx => ?_, h.exclusive, ?_⟩
  · have balance := h.balance x
    simp only [addEntry, endCreation, entryIds, closingIds, closedIds, map_append,
      map_cons, map_nil, count_append] at balance ⊢
    omega
  · exact le_of_eq_of_le (received_once mem x) (h.once x)
  · exact (received_once mem x).trans (h.below x hx)
  · intro x
    have same : (p.addEntry id).busyIds = p.busyIds := by simp [addEntry, busyIds]
    rw [same]
    exact h.leased x

theorem arriveLate (h : p.Owned) {id : Nat} (mem : id ∈ p.creations) : (p.addLate id).Owned := by
  refine ⟨h.endCreation_length mem, fun x => ?_, fun x => ?_, fun x hx => ?_, h.exclusive, h.leased⟩
  · have balance := h.balance x
    simp only [addLate, endCreation, entryIds, closingIds, closedIds, map_append,
      map_cons, map_nil, count_append] at balance ⊢
    omega
  · exact le_of_eq_of_le (received_once mem x) (h.once x)
  · exact (received_once mem x).trans (h.below x hx)

theorem create (h : p.Owned) : p.startCreate.Owned := by
  refine ⟨?_, h.balance, fun x => ?_, fun x hx => ?_, h.exclusive, h.leased⟩
  · have counted := h.counted
    simp only [startCreate, length_append, length_singleton]
    omega
  · simp only [startCreate, count_append]
    by_cases next : x = p.nextId
    · have unused := h.below x (by omega)
      rw [next] at unused ⊢
      rw [count_singleton_self]
      omega
    · have once := h.once x
      have other : [p.nextId].count x = 0 := count_eq_zero.mpr (by simpa using next)
      omega
  · have unused := h.below x (by simp only [startCreate] at hx; omega)
    have next : x ≠ p.nextId := by simp only [startCreate] at hx; omega
    have other : [p.nextId].count x = 0 := count_eq_zero.mpr (by simpa using next)
    simp only [startCreate, count_append]
    omega

theorem settle (h : p.Owned) {id : Nat} {why : CloseReason} {failure : Option Thrown}
    (mem : (id, why) ∈ p.closings) : (p.recordClose id why failure).Owned := by
  refine ⟨h.counted, fun x => ?_, h.once, h.below, h.exclusive, h.leased⟩
  have balance := h.balance x
  have once := h.once x
  have here : 0 < p.closingIds.count id := count_pos_iff.mpr (mem_map_of_mem mem)
  have kept : (p.recordClose id why failure).closingIds = p.closingIds.filter fun y => y ≠ id := by
    simp [closingIds, recordClose, filter_map, Function.comp_def]
  have added : (p.recordClose id why failure).closedIds.count x =
      p.closedIds.count x + [id].count x := by
    simp [closedIds, recordClose, count_cons]
  have entries : (p.recordClose id why failure).entryIds = p.entryIds := rfl
  have received : (p.recordClose id why failure).received = p.received := rfl
  rw [kept, added, entries, received, count_filter_ne]
  by_cases same : x = id
  · subst same
    rw [if_pos rfl, count_singleton_self]
    omega
  · have other : [id].count x = 0 := count_eq_zero.mpr (by simpa using same)
    rw [if_neg same]
    omega

theorem flow (h : p.Owned) (step : PoolFlow signals p q) : q.Owned := by
  cases step with
  | drop | close | finish =>
    exact ⟨h.counted, h.balance, h.once, h.below, h.exclusive, h.leased⟩
  | grant w rest e alive head mem idle live => exact h.grant mem idle
  | create alive room => exact h.create
  | arrive id mem alive => exact h.arrive mem
  | arriveLate id mem closed => exact h.arriveLate mem
  | fail id mem => exact h.fail mem
  | settle id why failure mem => exact h.settle mem
  | finalize guard => exact h.finalize guard

theorem move (h : p.Owned) (step : PoolMove signals p q) : q.Owned := by
  cases step with
  | flow step => exact h.flow step
  | refuse | enqueue | turn =>
    exact ⟨h.counted, h.balance, h.once, h.below, h.exclusive, h.leased⟩
  | keepLease l mem alive present => exact h.keepLease mem
  | discardLease l mem present => exact h.discardLease mem present
  | loseLease l mem absent => exact absurd (h.present_of_held mem) absent

end Owned

namespace Sealed

theorem new (max : PoolSize) (turn : Nat) : (InstancePool.new max turn).Sealed where
  drained closed := by cases closed
  discarding _ := by simp [InstancePool.new]
  finalized started := by cases started
  finished done := by cases done

theorem not_started (h : p.Sealed) (alive : p.closed = false) : p.finalizing = false ∧ p.closeResult = none := by
  have first : p.finalizing = false := by
    cases started : p.finalizing with
    | false => rfl
    | true => simp [(h.finalized started).1] at alive
  refine ⟨first, ?_⟩
  cases done : p.closeResult with
  | none => rfl
  | some fs => simp [(h.finished (by simp [done])).1] at first

theorem of_open (h : p.Sealed) (alive : p.closed = false) (closed : q.closed = p.closed)
    (finalizing : q.finalizing = p.finalizing) (result : q.closeResult = p.closeResult)
    (closings : ∀ c ∈ q.closings, c ∈ p.closings ∨ c.2 = .discarded) : q.Sealed := by
  obtain ⟨first, pending⟩ := h.not_started alive
  refine ⟨fun c => ?_, fun _ c hc => ?_, fun started => ?_, fun done => ?_⟩
  · rw [closed, alive] at c
    cases c
  · rcases closings c hc with old | new
    · exact h.discarding alive c old
    · exact new
  · rw [finalizing, first] at started
    cases started
  · rw [result, pending] at done
    cases done

theorem settle (h : p.Sealed) {id : Nat} {why : CloseReason} {failure : Option Thrown} :
    (p.recordClose id why failure).Sealed := by
  refine ⟨h.drained, fun alive c hc => ?_, h.finalized, fun done => ⟨(h.finished done).1, ?_⟩⟩
  · exact h.discarding alive c (mem_of_mem_filter hc)
  · have none_left := (h.finished done).2
    simp only [closingFor, recordClose, map_eq_nil_iff, filter_eq_nil_iff,
      mem_filter] at none_left ⊢
    exact fun c hc => none_left c hc.1

theorem flow (h : p.Sealed) (owned : p.Owned) (step : PoolFlow signals p q) : q.Sealed := by
  cases step with
  | drop w cause mem =>
    refine ⟨fun closed => ?_, h.discarding, h.finalized, h.finished⟩
    rw [h.drained closed] at mem
    cases mem
  | grant w rest e alive | create alive | arrive id mem alive =>
    exact h.of_open alive rfl rfl rfl fun _ hc => .inl hc
  | arriveLate id mem closed =>
    refine ⟨h.drained, fun alive => ?_, fun started => ?_, fun done => ?_⟩
    · exact absurd (closed.symm.trans alive) (by decide)
    · rw [(h.finalized started).2.1] at mem
      cases mem
    · rw [(h.finalized (h.finished done).1).2.1] at mem
      cases mem
  | fail id mem =>
    refine ⟨h.drained, h.discarding, fun started => ?_, h.finished⟩
    rw [(h.finalized started).2.1] at mem
    cases mem
  | settle id why failure mem => exact h.settle
  | close alive =>
    obtain ⟨first, pending⟩ := h.not_started alive
    refine ⟨fun _ => rfl, fun open_again => ?_, fun started => ?_, fun done => ?_⟩
    · simp [rejectAll] at open_again
    · simp [rejectAll, first] at started
    · simp [rejectAll, pending] at done
  | finalize guard =>
    have counted := owned.counted
    rw [guard.2.2.1] at counted
    have settled : p.creations = [] := eq_nil_of_length_eq_zero counted.symm
    refine ⟨h.drained, fun alive => ?_, fun _ => ⟨guard.1, settled, rfl⟩, fun done => ?_⟩
    · exact absurd (guard.1.symm.trans alive) (by decide)
    · have started := (h.finished done).1
      rw [guard.2.1] at started
      cases started
  | finish started settled first =>
    exact ⟨h.drained, h.discarding, h.finalized, fun _ => ⟨started, settled⟩⟩

theorem discardLease (h : p.Sealed) {l : InstanceLease} (present : l.entry ∈ p.entryIds) :
    ((p.returnLease l).discard l.entry).Sealed := by
  cases closed : p.closed with
  | false =>
    refine h.of_open closed rfl rfl rfl fun c hc => ?_
    rcases mem_append.mp hc with old | new
    · exact .inl old
    · exact .inr (by rw [mem_singleton.mp new])
  | true =>
    refine ⟨h.drained, fun alive => ?_, fun started => ?_, fun done => ?_⟩
    · exact absurd (closed.symm.trans alive) (by decide)
    · have none_left := (h.finalized started).2.2
      simp [entryIds, none_left] at present
    · have none_left := (h.finalized (h.finished done).1).2.2
      simp [entryIds, none_left] at present

theorem move (h : p.Sealed) (owned : p.Owned) (step : PoolMove signals p q) : q.Sealed := by
  cases step with
  | flow step => exact h.flow owned step
  | refuse | loseLease | turn => exact ⟨h.drained, h.discarding, h.finalized, h.finished⟩
  | enqueue signal alive live | keepLease l mem alive =>
    exact h.of_open alive rfl rfl rfl fun _ hc => .inl hc
  | discardLease l mem present => exact h.discardLease present

end Sealed

end InstancePool

theorem pool_sealed {s : PoolSystem} (h : poolMachine.Reachable s) : s.pool.Sealed := by
  have both : s.pool.Owned ∧ s.pool.Sealed :=
    pool_invariant (I := fun p => p.Owned ∧ p.Sealed)
      (fun max turn => ⟨InstancePool.Owned.new max turn, InstancePool.Sealed.new max turn⟩)
      (fun _ _ _ hi move => ⟨hi.1.move move, hi.2.move hi.1 move⟩) h
  exact both.2

end ForgeDeno
