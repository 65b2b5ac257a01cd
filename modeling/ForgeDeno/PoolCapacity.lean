import ForgeDeno.PoolOwnership

namespace ForgeDeno

namespace InstancePool

open List PoolSystem

variable {signals : Signals} {p q : InstancePool}

/-- The instances being created and those created whose `close()` has not settled. -/
def simultaneous (p : InstancePool) : Nat :=
  p.creations.length + (p.received.filter fun id => id ∉ p.closedIds).length

def occupied (p : InstancePool) : Nat := p.entries.length + p.creating + p.closings.length

theorem received_open_perm (h : p.Owned) :
    (p.received.filter fun id => id ∉ p.closedIds).Perm (p.entryIds ++ p.closingIds) := by
  rw [perm_iff_count]
  intro id
  have balance := h.balance id
  have once := h.once id
  rw [count_append]
  by_cases closed : id ∈ p.closedIds
  · have here := count_pos_iff.mpr closed
    have gone : (p.received.filter fun id => id ∉ p.closedIds).count id = 0 := by
      rw [count_eq_zero]
      intro mem
      exact of_decide_eq_true (mem_filter.mp mem).2 closed
    omega
  · have none_closed := count_eq_zero.mpr closed
    rw [count_filter (by simpa using closed)]
    omega

theorem simultaneous_eq_occupied (h : p.Owned) : p.simultaneous = p.occupied := by
  have length := (received_open_perm h).length_eq
  have counted := h.counted
  simp only [length_append, entryIds, closingIds, length_map] at length
  simp only [simultaneous, occupied]
  omega

theorem max_of_moves (h : PoolMoves signals p q) : q.max = p.max := by
  refine h.invariant (I := fun r => r.max = p.max) (fun r r' hr move => ?_) rfl
  cases move with
  | flow step => cases step <;> exact hr
  | refuse | enqueue | keepLease | discardLease | loseLease | turn => exact hr

theorem occupied_turn (h : PumpTurn signals p q) : (q.occupied = p.occupied ∧ q.creating = p.creating) ∨
      (q.occupied = p.occupied + 1 ∧ p.creating < q.creating) := by
  cases h with
  | grant w rest e head =>
    refine .inl ⟨?_, rfl⟩
    simp only [occupied, grant, setBusy, length_map]
  | reject w rest e reason head => exact .inl ⟨rfl, rfl⟩
  | create busy demand room =>
    refine .inr ⟨?_, Nat.lt_succ_self _⟩
    simp only [occupied, startCreate]
    omega

theorem occupied_pumpLoop_le (n : Nat) : p.occupied ≤ (pumpLoop signals n p).occupied := by
  refine pumpLoop_rule (I := fun q => p.occupied ≤ q.occupied) ?_ n (Nat.le_refl _)
  intro q r hq turn
  rcases occupied_turn turn with ⟨eq, _⟩ | ⟨eq, _⟩ <;> omega

@[simp] theorem occupied_maybeFinishClose : p.maybeFinishClose.occupied = p.occupied := by
  rcases maybeFinishClose_cases (p := p) with ⟨_, eq⟩ | ⟨_, eq⟩
  · rw [eq]
    simp only [occupied, finalize, entryIds, length_nil, length_append, length_map]
    omega
  · rw [eq]

theorem occupied_pump_le : p.occupied ≤ (p.pump signals).occupied := by
  unfold pump
  split_ifs
  · exact Nat.le_of_eq occupied_maybeFinishClose.symm
  · exact occupied_pumpLoop_le _

/-- Every `#startCreate` of the loop finds the entries, the creations in flight and the pending
closes together below the maximum. -/
def StartsWithRoom (signals : Signals) : Nat → InstancePool → Prop
  | 0, _ => True
  | fuel + 1, p =>
    match p.pumpStep signals with
    | none => True
    | some q => (p.creating < q.creating → p.occupied < p.max) ∧ StartsWithRoom signals fuel q

def PumpsWithRoom (signals : Signals) (p : InstancePool) : Prop :=
  p.closed = true ∨ StartsWithRoom signals (2 * p.waiters.length) p

instance decidableStartsWithRoom (signals : Signals) (fuel : Nat) (p : InstancePool) :
    Decidable (StartsWithRoom signals fuel p) :=
  match fuel with
  | 0 => .isTrue trivial
  | fuel + 1 =>
    match h : p.pumpStep signals with
    | none => .isTrue (by rw [StartsWithRoom, h]; trivial)
    | some q =>
      have := decidableStartsWithRoom signals fuel q
      decidable_of_iff ((p.creating < q.creating → p.occupied < p.max) ∧
        StartsWithRoom signals fuel q) (by rw [StartsWithRoom, h])

instance : Decidable (PumpsWithRoom signals p) :=
  inferInstanceAs (Decidable (p.closed = true ∨ StartsWithRoom signals (2 * p.waiters.length) p))

theorem turn_max (h : PumpTurn signals p q) : q.max = p.max := by
  cases h <;> rfl

theorem pumpLoop_room (n : Nat) (fits : p.occupied ≤ p.max) :
    (pumpLoop signals n p).occupied ≤ p.max ↔ StartsWithRoom signals n p := by
  induction n generalizing p with
  | zero => exact iff_of_true fits trivial
  | succ n ih =>
    unfold pumpLoop StartsWithRoom
    split
    · next stuck =>
      try rw [stuck]
      exact iff_of_true fits trivial
    · next q hq =>
      have turn := pumpStep_turn hq
      try rw [hq]
      by_cases room : q.occupied ≤ q.max
      · have rest := ih room
        rw [turn_max turn] at rest room
        refine rest.trans (Iff.symm (and_iff_right fun _ => ?_))
        rcases occupied_turn turn with ⟨eq, same⟩ | ⟨eq, more⟩ <;> omega
      · have grown : q.occupied ≤ (pumpLoop signals n q).occupied := occupied_pumpLoop_le n
        rw [turn_max turn] at room
        refine iff_of_false (by omega) ?_
        rintro ⟨start, _⟩
        rcases occupied_turn turn with ⟨eq, same⟩ | ⟨eq, more⟩
        · omega
        · have less := start more
          omega

theorem pump_room {m : Nat} (max : p.max.val = m) (fits : p.occupied ≤ m) :
    (p.pump signals).occupied ≤ m ↔ PumpsWithRoom signals p := by
  subst max
  unfold pump PumpsWithRoom
  split_ifs with closed
  · rw [occupied_maybeFinishClose]
    exact iff_of_true fits (.inl closed)
  · exact (pumpLoop_room _ fits).trans (Iff.symm (or_iff_right closed))

/-- The states in which the abort listeners of some waiters enter `#pump`. -/
def abortPumps (signals : Signals) (reason : Thrown) : List PoolWaiter → InstancePool → List InstancePool
  | [], _ => []
  | w :: ws, p =>
    (if w ∈ p.waiters then [p.dropWaiter w reason] else []) ++
      abortPumps signals reason ws (p.onAbort signals reason w)

theorem occupied_onAbort_le (reason : Thrown) (w : PoolWaiter) :
    p.occupied ≤ (p.onAbort signals reason w).occupied := by
  unfold onAbort
  split_ifs
  · exact occupied_pump_le (p := p.dropWaiter w reason)
  · exact Nat.le_refl _

theorem occupied_abortAll_le (reason : Thrown) (ws : List PoolWaiter) :
    p.occupied ≤ (ws.foldl (fun p w => p.onAbort signals reason w) p).occupied := by
  induction ws generalizing p with
  | nil => exact Nat.le_refl _
  | cons w ws ih => exact Nat.le_trans (occupied_onAbort_le reason w) ih

theorem abortAll_room (reason : Thrown) (ws : List PoolWaiter) (fits : p.occupied ≤ p.max) :
    (ws.foldl (fun p w => p.onAbort signals reason w) p).occupied ≤ p.max ↔
      ∀ q ∈ abortPumps signals reason ws p, PumpsWithRoom signals q := by
  induction ws generalizing p with
  | nil => exact iff_of_true fits (by simp [abortPumps])
  | cons w ws ih =>
    have still : (p.onAbort signals reason w).max = p.max := max_of_moves (onAbort_flows reason w).moves
    have first : (p.onAbort signals reason w).occupied ≤ p.max ↔
        ∀ q ∈ (if w ∈ p.waiters then [p.dropWaiter w reason] else []), PumpsWithRoom signals q := by
      unfold onAbort
      split_ifs
      · simpa using pump_room (p := p.dropWaiter w reason) (m := p.max) rfl fits
      · exact iff_of_true fits (by simp)
    simp only [foldl_cons, abortPumps, forall_mem_append]
    by_cases room : (p.onAbort signals reason w).occupied ≤ p.max
    · have rest := ih (by rw [still]; exact room)
      rw [still] at rest
      rw [rest, ← first]
      exact Iff.symm (and_iff_right room)
    · have grown : (p.onAbort signals reason w).occupied ≤ (ws.foldl
          (fun p w => p.onAbort signals reason w) (p.onAbort signals reason w)).occupied :=
        occupied_abortAll_le reason ws
      refine iff_of_false (by omega) ?_
      rw [← first]
      exact fun h => room h.1

theorem occupied_dropCreation_le (id : Nat) (cause : Thrown) :
    (p.dropCreation id cause).occupied ≤ p.occupied := by
  have ended : (p.endCreation id).occupied ≤ p.occupied := by
    simp only [occupied, endCreation]
    omega
  unfold dropCreation rejectFirst
  split
  · exact ended
  · exact ended

theorem occupied_recordClose_le (id : Nat) (why : CloseReason) (failure : Option Thrown) :
    (p.recordClose id why failure).occupied ≤ p.occupied := by
  have less := length_filter_le (fun c : Nat × CloseReason => decide (c.1 ≠ id)) p.closings
  simp only [occupied, recordClose]
  omega

theorem Owned.occupied_discard (h : p.Owned) {id : Nat} (mem : id ∈ p.entryIds) :
    (p.discard id).occupied = p.occupied := by
  have nodup : p.entryIds.Nodup := nodup_iff_count_le_one.mpr h.entryIds_once
  have fewer := length_erase_of_mem mem
  have some_left := length_pos_of_mem mem
  have erased : (p.discard id).entryIds = p.entryIds.erase id := by
    rw [entryIds_discard, nodup.erase_eq_filter]
    exact filter_congr fun x _ => by simp [bne, Bool.beq_eq_decide_eq]
  have left : (p.discard id).entries.length = p.entries.length - 1 := by
    have lengths := congrArg List.length erased
    simp only [entryIds, length_map] at lengths fewer
    omega
  simp only [entryIds, length_map] at some_left
  simp only [occupied, left]
  simp only [discard, length_append, length_singleton]
  omega

theorem Owned.occupied_arrive (h : p.Owned) {id : Nat} (mem : id ∈ p.creations) :
    (p.addEntry id).occupied = p.occupied ∧ (p.addLate id).occupied = p.occupied := by
  have counted := h.counted
  have some_left := length_pos_of_mem mem
  simp only [occupied, addEntry, addLate, endCreation, length_append, length_singleton]
  omega

end InstancePool

/-- The states in which a step enters `#pump`. -/
def PoolSystem.pumps (s : PoolSystem) : PoolEvent → List InstancePool
  | .acquire signal =>
    if s.pool.closed || (s.signals signal).isSome then [] else [s.pool.enqueue signal]
  | .abort signal reason =>
    if (s.signals signal).isSome then []
    else InstancePool.abortPumps (s.signals.abort signal reason) reason
      (s.pool.waiters.filter fun w => w.signal = signal) s.pool
  | .release ticket discard =>
    match s.pool.held.find? fun l => l.ticket = ticket with
    | none => []
    | some l =>
      if l.entry ∈ s.pool.entryIds ∧ discard = false ∧ s.pool.closed = false then
        [(s.pool.returnLease l).setBusy l.entry false]
      else []
  | .created id => if s.pool.closed then [] else [s.pool.addEntry id]
  | .createFailed id cause => [s.pool.dropCreation id cause]
  | .instanceClosed id failure =>
    match s.pool.closings.find? fun c => c.1 = id with
    | some (_, .discarded) => [s.pool.recordClose id .discarded failure]
    | _ => []
  | .close | .finishClose | .turn => []

/-- The step starts no creation while the pending closes leave no room for it. -/
def RoomToCreate (s : PoolSystem) (e : PoolEvent) (t : PoolSystem) : Prop :=
  ∀ p ∈ s.pumps e, p.PumpsWithRoom t.signals

instance (s : PoolSystem) (e : PoolEvent) (t : PoolSystem) : Decidable (RoomToCreate s e t) :=
  inferInstanceAs (Decidable (∀ p ∈ s.pumps e, p.PumpsWithRoom t.signals))

namespace InstancePool

theorem step_room {s t : PoolSystem} {e : PoolEvent} (owned : s.pool.Owned)
    (fits : s.pool.occupied ≤ s.pool.max) (h : poolMachine.step s e = some t) :
    t.pool.occupied ≤ s.pool.max ↔ RoomToCreate s e t := by
  change s.step e = some t at h
  unfold RoomToCreate
  cases e with
  | acquire signal =>
    cases h
    simp only [PoolSystem.pumps, acquire]
    cases closed : s.pool.closed with
    | true => exact iff_of_true fits (by simp)
    | false =>
      cases live : s.signals signal with
      | some reason => exact iff_of_true fits (by simp)
      | none => simpa using pump_room (p := s.pool.enqueue signal) (m := s.pool.max) rfl fits
  | abort signal reason =>
    simp only [PoolSystem.step] at h
    simp only [PoolSystem.pumps]
    split_ifs at h ⊢
    · cases h
      exact iff_of_true fits (by simp)
    · cases h
      exact abortAll_room reason _ fits
  | release ticket discard =>
    cases h
    simp only [PoolSystem.pumps, release]
    cases found : s.pool.held.find? fun l => l.ticket = ticket with
    | none => exact iff_of_true fits (by simp)
    | some l =>
      have present := owned.present_of_held (List.mem_of_find?_eq_some found)
      have here : l.entry ∈ (s.pool.returnLease l).entryIds := present
      have still : (s.pool.returnLease l).closed = s.pool.closed := rfl
      simp only [releaseEntry, here, present, if_true, still, true_and]
      by_cases keep : discard = false ∧ s.pool.closed = false
      · have same : ((s.pool.returnLease l).setBusy l.entry false).occupied = s.pool.occupied := by
          simp [occupied, setBusy, returnLease]
        rw [if_pos keep, if_neg (by simp [keep])]
        simpa using pump_room (m := s.pool.max)
          (p := (s.pool.returnLease l).setBusy l.entry false) rfl (le_of_eq_of_le same fits)
      · have gone : (discard || s.pool.closed) = true := by
          cases discard <;> cases hc : s.pool.closed <;> simp [hc] at keep ⊢
        rw [if_neg keep, if_pos gone]
        exact iff_of_true (le_of_eq_of_le (owned.occupied_discard present) fits) (by simp)
  | created id =>
    simp only [PoolSystem.step] at h
    split_ifs at h with mem
    cases h
    simp only [PoolSystem.pumps, created]
    split_ifs with closed
    · exact iff_of_true (le_of_eq_of_le (owned.occupied_arrive mem).2 fits) (by simp)
    · simpa using pump_room (p := s.pool.addEntry id) (m := s.pool.max) rfl
        (le_of_eq_of_le (owned.occupied_arrive mem).1 fits)
  | createFailed id cause =>
    simp only [PoolSystem.step] at h
    split_ifs at h with mem
    cases h
    have moves : PoolMoves s.signals s.pool (s.pool.dropCreation id cause) :=
      (dropCreation_flows mem cause).moves
    have still : (s.pool.dropCreation id cause).max = s.pool.max := max_of_moves moves
    have less := Nat.le_trans (occupied_dropCreation_le id cause) fits
    simpa [PoolSystem.pumps, createFailed] using pump_room (congrArg _ still) less
  | instanceClosed id failure =>
    simp only [PoolSystem.step] at h
    split at h
    · next c hc =>
      cases h
      have less (why : CloseReason) := Nat.le_trans (occupied_recordClose_le id why failure) fits
      obtain ⟨i, why⟩ := c
      simp only [PoolSystem.pumps, hc]
      cases why with
      | discarded =>
        simpa [instanceClosed] using pump_room (p := s.pool.recordClose id .discarded failure)
          (m := s.pool.max) rfl (less .discarded)
      | late => simpa [instanceClosed] using less .late
      | final => simpa [instanceClosed] using less .final
    · cases h
  | close =>
    cases h
    have same : s.pool.close.occupied = s.pool.occupied := by
      unfold close
      split_ifs
      · rfl
      · rw [occupied_maybeFinishClose]
        rfl
    exact iff_of_true (le_of_eq_of_le same fits) (by simp [PoolSystem.pumps])
  | finishClose =>
    simp only [PoolSystem.step] at h
    split_ifs at h
    cases h
    exact iff_of_true fits (by simp [PoolSystem.pumps])
  | turn =>
    cases h
    exact iff_of_true fits (by simp [PoolSystem.pumps])

end InstancePool

/-- From its construction on, a pool stays within its maximum exactly as long as none of its
steps starts a creation in the place of an instance whose `close()` is still pending. -/
theorem capacity_iff_roomToCreate {s : PoolSystem} (start : poolMachine.start s) (es : List PoolEvent) :
    (∀ pre t, pre <+: es → poolMachine.run s pre = some t → t.pool.simultaneous ≤ t.pool.max) ↔
      poolMachine.Along RoomToCreate s es := by
  let I : PoolSystem → Prop := fun r => r.pool.Owned ∧ r.pool.max = s.pool.max
  obtain ⟨max, turn, fresh⟩ := start
  have owned : I s := ⟨fresh ▸ InstancePool.Owned.new max turn, rfl⟩
  refine poolMachine.throughout_iff_along (I := I) ?_ ?_ owned ?_ es
  · intro r e t hi hs
    have moves := poolStep_moves hs
    exact ⟨moves.invariant (fun _ _ h move => h.move move) hi.1, (InstancePool.max_of_moves moves).trans hi.2⟩
  · intro r e t hi fits hs
    have moves := poolStep_moves hs
    have after : t.pool.Owned := moves.invariant (fun _ _ h move => h.move move) hi.1
    rw [InstancePool.simultaneous_eq_occupied hi.1] at fits
    rw [InstancePool.simultaneous_eq_occupied after, InstancePool.max_of_moves moves]
    exact InstancePool.step_room hi.1 fits hs
  · rw [fresh]
    exact Nat.zero_le _

/-- Once the discarded instance has closed, its place may be taken. -/
theorem capacity_kept_after_closing : ∃ t, poolMachine.run ⟨.new ⟨1, by decide⟩ 0, fun _ => none⟩
        [.acquire 0, .created 1, .release 0 true, .instanceClosed 1 none, .acquire 1] = some t ∧
      t.pool.simultaneous ≤ t.pool.max := by
  have kept := (capacity_iff_roomToCreate
    (s := ⟨.new ⟨1, by decide⟩ 0, fun _ => none⟩) ⟨_, _, rfl⟩
    [.acquire 0, .created 1, .release 0 true, .instanceClosed 1 none, .acquire 1]).mpr (by decide)
  exact ⟨_, rfl, kept _ _ (List.prefix_refl _) rfl⟩

/-- A discarded instance is still closing when the next `acquire()` starts a second one. -/
theorem capacity_exceeded_while_closing : ∃ t, poolMachine.run ⟨.new ⟨1, by decide⟩ 0, fun _ => none⟩
        [.acquire 0, .created 1, .release 0 true, .acquire 1] = some t ∧
      t.pool.max.val < t.pool.simultaneous := by
  refine ⟨_, rfl, ?_⟩
  decide

end ForgeDeno
