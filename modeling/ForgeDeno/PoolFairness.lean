import ForgeDeno.PoolOwnership

namespace ForgeDeno

namespace InstancePool

open List InstancePool PoolRecord PoolSystem

def settlements (ticket : Nat) (log : List PoolRecord) : Nat :=
  log.countP (PoolRecord.settles ticket)

/-- Whoever gets a lease had been queued, and everyone queued with an earlier ticket had
already been settled. -/
def GrantsInOrder : List PoolRecord → Prop
  | [] => True
  | .granted w _ :: older =>
    (.queued w ∈ older ∧ ∀ v, .queued v ∈ older → v.ticket < w.ticket → 0 < settlements v.ticket older) ∧
    GrantsInOrder older
  | _ :: older => GrantsInOrder older

structure Ticketed (p : InstancePool) : Prop where
  sorted : p.waiters.Pairwise fun v w => v.ticket < w.ticket
  queued : ∀ w ∈ p.waiters, .queued w ∈ p.log
  waiting : ∀ w ∈ p.waiters, settlements w.ticket p.log = 0
  pending : ∀ w, .queued w ∈ p.log → settlements w.ticket p.log = 0 → w ∈ p.waiters
  fresh : ∀ r ∈ p.log, r.waiter.ticket < p.tickets
  once : ∀ ticket, settlements ticket p.log ≤ 1
  inOrder : GrantsInOrder p.log

def Blocked (p : InstancePool) : Prop :=
  (∀ e ∈ p.entries, e.busy = true) ∧
    ((∃ e ∈ p.entries, e.busy = true) ∨ 0 < p.creating ∨ p.closingFor .discarded ≠ [])

instance (p : InstancePool) : Decidable p.Blocked := by
  unfold Blocked
  infer_instance

variable {signals : Signals} {p q : InstancePool}

@[simp] theorem settlements_cons (ticket : Nat) (r : PoolRecord) (log : List PoolRecord) :
    settlements ticket (r :: log) = settlements ticket log + if r.settles ticket then 1 else 0 :=
  countP_cons

namespace Ticketed

theorem ticket_inj (h : p.Ticketed) {v w : PoolWaiter} (hv : v ∈ p.waiters) (hw : w ∈ p.waiters)
    (same : v.ticket = w.ticket) : v = w := by
  have distinct : (p.waiters.map PoolWaiter.ticket).Nodup :=
    (pairwise_map.mpr h.sorted).imp Nat.ne_of_lt
  exact inj_on_of_nodup_map distinct hv hw same

theorem nodup (h : p.Ticketed) : p.waiters.Nodup :=
  h.sorted.imp fun lt same => by
    subst same
    exact Nat.lt_irrefl _ lt

theorem unissued (h : p.Ticketed) {ticket : Nat} (new : p.tickets ≤ ticket) : settlements ticket p.log = 0 := by
  refine countP_eq_zero.mpr fun r hr => ?_
  have old := h.fresh r hr
  cases r with
  | queued w => simp [settles]
  | granted w e =>
    have less : w.ticket < p.tickets := old
    simp only [settles, decide_eq_true_eq]
    omega
  | rejected w cause =>
    have less : w.ticket < p.tickets := old
    simp only [settles, decide_eq_true_eq]
    omega

theorem new (max : PoolSize) (turn : Nat) : (InstancePool.new max turn).Ticketed := by
  refine ⟨List.Pairwise.nil, ?_, ?_, ?_, ?_, fun _ => Nat.zero_le 1, trivial⟩
  all_goals simp [InstancePool.new]

theorem refuse (h : p.Ticketed) (signal : Nat) (cause : Thrown) :
    ({ p with tickets := p.tickets + 1 }.reject ⟨p.tickets, signal⟩ cause).Ticketed where
  sorted := h.sorted
  queued w hw := mem_cons_of_mem _ (h.queued w hw)
  waiting w hw := by
    have old : w.ticket < p.tickets := h.fresh _ (h.queued w hw)
    have none_yet := h.waiting w hw
    have other : p.tickets ≠ w.ticket := by omega
    simpa [reject, settles, other] using none_yet
  pending w hq none_yet := by
    rcases mem_cons.mp hq with eq | hq
    · cases eq
    · refine h.pending w hq ?_
      simp only [reject, settlements_cons] at none_yet
      omega
  fresh r hr := by
    rcases mem_cons.mp hr with rfl | hr
    · exact Nat.lt_succ_self _
    · exact Nat.lt_succ_of_lt (h.fresh r hr)
  once ticket := by
    have once := h.once ticket
    simp only [reject, settlements_cons, settles, decide_eq_true_eq]
    split_ifs with same
    · have new := h.unissued (Nat.le_of_eq same)
      omega
    · omega
  inOrder := h.inOrder

theorem enqueue (h : p.Ticketed) (signal : Nat) : (p.enqueue signal).Ticketed where
  sorted := by
    refine pairwise_append.mpr ⟨h.sorted, pairwise_singleton _ _, ?_⟩
    intro v hv w hw
    rw [mem_singleton.mp hw]
    exact h.fresh _ (h.queued v hv)
  queued w hw := by
    rcases mem_append.mp hw with hw | hw
    · exact mem_cons_of_mem _ (h.queued w hw)
    · rw [mem_singleton.mp hw]
      exact mem_cons_self
  waiting w hw := by
    simp only [InstancePool.enqueue, settlements_cons, settles]
    rcases mem_append.mp hw with hw | hw
    · exact h.waiting w hw
    · rw [mem_singleton.mp hw]
      exact h.unissued (Nat.le_refl _)
  pending w hq none_yet := by
    rcases mem_cons.mp hq with eq | hq
    · cases eq
      exact mem_append_right _ (mem_singleton_self _)
    · exact mem_append_left _ (h.pending w hq none_yet)
  fresh r hr := by
    rcases mem_cons.mp hr with rfl | hr
    · exact Nat.lt_succ_self _
    · exact Nat.lt_succ_of_lt (h.fresh r hr)
  once := h.once
  inOrder := h.inOrder

theorem settle_one (h : p.Ticketed) {w : PoolWaiter} (mem : w ∈ p.waiters) {r : PoolRecord}
    (waiter : r.waiter = w) (settles : ∀ ticket, r.settles ticket = decide (w.ticket = ticket))
    (waiters : q.waiters = p.waiters.erase w) (log : q.log = r :: p.log)
    (tickets : q.tickets = p.tickets) (order : GrantsInOrder (r :: p.log)) : q.Ticketed where
  sorted := by
    rw [waiters]
    exact h.sorted.sublist erase_sublist
  queued v hv := by
    rw [waiters] at hv
    rw [log]
    exact mem_cons_of_mem _ (h.queued v (mem_of_mem_erase hv))
  waiting v hv := by
    rw [waiters] at hv
    have before := h.waiting v (mem_of_mem_erase hv)
    have other : w.ticket ≠ v.ticket := by
      intro same
      have eq := h.ticket_inj mem (mem_of_mem_erase hv) same
      rw [← eq] at hv
      exact (h.nodup.not_mem_erase) hv
    simpa [log, settles, other] using before
  pending v hq none_yet := by
    rw [log] at hq none_yet
    rw [settlements_cons, settles] at none_yet
    have other : v ≠ w := by
      rintro rfl
      simp at none_yet
    rcases mem_cons.mp hq with eq | hq
    · rw [← eq] at waiter
      exact absurd waiter other
    · rw [waiters]
      exact (mem_erase_of_ne other).mpr (h.pending v hq (by omega))
  fresh s hs := by
    rw [log] at hs
    rw [tickets]
    rcases mem_cons.mp hs with rfl | hs
    · rw [waiter]
      exact h.fresh _ (h.queued w mem)
    · exact h.fresh s hs
  once ticket := by
    have once := h.once ticket
    rw [log, settlements_cons, settles]
    by_cases same : w.ticket = ticket
    · have before := h.waiting w mem
      rw [same] at before
      simp [before, same]
    · simpa [same] using once
  inOrder := by
    rw [log]
    exact order

theorem head_first (h : p.Ticketed) {w : PoolWaiter} {rest : List PoolWaiter}
    (head : p.waiters = w :: rest) {v : PoolWaiter} (hq : .queued v ∈ p.log)
    (earlier : v.ticket < w.ticket) : 0 < settlements v.ticket p.log := by
  by_contra unsettled
  have mem := h.pending v hq (by omega)
  have sorted := h.sorted
  rw [head] at mem sorted
  rcases mem_cons.mp mem with same | behind
  · rw [same] at earlier
    omega
  · have later := (pairwise_cons.mp sorted).1 v behind
    omega

theorem settlements_rejectAll (ticket : Nat) : settlements ticket p.rejectAll.log =
      settlements ticket p.log + p.waiters.countP fun w => w.ticket = ticket := by
  have split : settlements ticket p.rejectAll.log =
      (p.waiters.map fun w => rejected w (.wasm wasmClosedError)).reverse.countP
        (settles ticket) + settlements ticket p.log :=
    countP_append
  rw [split, countP_reverse, countP_map, Nat.add_comm]
  rfl

theorem rejectAll (h : p.Ticketed) : p.rejectAll.Ticketed where
  sorted := List.Pairwise.nil
  queued w hw := by cases hw
  waiting w hw := by cases hw
  pending w hq none_yet := by
    rw [settlements_rejectAll] at none_yet
    rcases mem_append.mp hq with new | old
    · simp at new
    · have mem := h.pending w old (by omega)
      have counted : 0 < p.waiters.countP fun v => v.ticket = w.ticket :=
        countP_pos_iff.mpr ⟨w, mem, by simp⟩
      omega
  fresh r hr := by
    rcases mem_append.mp hr with new | old
    · simp only [mem_reverse, mem_map] at new
      obtain ⟨w, hw, rfl⟩ := new
      have queued := h.fresh _ (h.queued w hw)
      exact queued
    · exact h.fresh r old
  once ticket := by
    rw [settlements_rejectAll]
    by_cases waits : ∃ w ∈ p.waiters, w.ticket = ticket
    · obtain ⟨w, hw, rfl⟩ := waits
      have before := h.waiting w hw
      have distinct : (p.waiters.map PoolWaiter.ticket).Nodup :=
        (pairwise_map.mpr h.sorted).imp Nat.ne_of_lt
      have one := nodup_iff_count_le_one.mp distinct w.ticket
      rw [count, countP_map] at one
      have same : p.waiters.countP (fun v => v.ticket = w.ticket) =
          p.waiters.countP ((fun t => t == w.ticket) ∘ PoolWaiter.ticket) :=
        countP_congr fun v _ => by simp
      omega
    · have none_waits : (p.waiters.countP fun w => w.ticket = ticket) = 0 := by
        refine countP_eq_zero.mpr fun w hw => ?_
        simpa using fun same => waits ⟨w, hw, same⟩
      have once := h.once ticket
      omega
  inOrder := by
    have all : ∀ ws : List PoolWaiter, GrantsInOrder
        ((ws.map fun w => rejected w (.wasm wasmClosedError)) ++ p.log) := by
      intro ws
      induction ws with
      | nil => exact h.inOrder
      | cons w ws ih => exact ih
    simpa only [InstancePool.rejectAll, map_reverse] using all p.waiters.reverse

theorem flow (h : p.Ticketed) (step : PoolFlow signals p q) : q.Ticketed := by
  cases step with
  | create | arrive | arriveLate | fail | settle | finalize | finish =>
    exact ⟨h.sorted, h.queued, h.waiting, h.pending, h.fresh, h.once, h.inOrder⟩
  | drop w cause mem =>
    exact h.settle_one mem (r := .rejected w cause) rfl (fun _ => rfl) rfl rfl rfl h.inOrder
  | grant w rest e alive head mem idle live =>
    have here : w ∈ p.waiters := by simp [head]
    have first : GrantsInOrder (.granted w e.id :: p.log) :=
      ⟨⟨h.queued w here, fun v hq earlier => h.head_first head hq earlier⟩, h.inOrder⟩
    refine h.settle_one here (r := .granted w e.id) rfl (fun _ => rfl) ?_ rfl rfl first
    simp [grant, setBusy, head]
  | close alive =>
    have same : ({ p with closed := true } : InstancePool).Ticketed :=
      ⟨h.sorted, h.queued, h.waiting, h.pending, h.fresh, h.once, h.inOrder⟩
    exact same.rejectAll

theorem move (h : p.Ticketed) (step : PoolMove signals p q) : q.Ticketed := by
  cases step with
  | flow step => exact h.flow step
  | keepLease | discardLease | loseLease | turn =>
    exact ⟨h.sorted, h.queued, h.waiting, h.pending, h.fresh, h.once, h.inOrder⟩
  | refuse signal cause => exact h.refuse signal cause
  | enqueue signal => exact h.enqueue signal

end Ticketed

theorem stuck_blocked (stuck : p.pumpStep signals = none) (queue : p.waiters ≠ []) :
    (∀ e ∈ p.entries, e.busy = true) ∧ ((∃ e ∈ p.entries, e.busy = true) ∨ 0 < p.creating) := by
  rcases pumpStep_none stuck with empty | ⟨busy, useless | full⟩
  · exact absurd empty queue
  · have some_waits := length_pos_of_ne_nil queue
    exact ⟨busy, .inr (by omega)⟩
  · refine ⟨busy, ?_⟩
    cases entries : p.entries with
    | nil =>
      have room := p.max.property.1
      rw [entries] at full
      exact .inr (by simpa using Nat.lt_of_lt_of_le room full)
    | cons e es =>
      have here : e ∈ p.entries := by simp [entries]
      exact .inl ⟨e, mem_cons_self, busy e here⟩

theorem blocked_of_pump (alive : p.closed = false) (queue : (p.pump signals).waiters ≠ []) :
    (p.pump signals).Blocked := by
  obtain ⟨busy, some_busy | creating⟩ := stuck_blocked (pump_stuck alive) queue
  · exact ⟨busy, .inl some_busy⟩
  · exact ⟨busy, .inr (.inl creating)⟩

theorem maybeFinishClose_open (alive : p.closed = false) : p.maybeFinishClose = p := by
  rcases maybeFinishClose_cases (p := p) with ⟨guard, _⟩ | ⟨_, eq⟩
  · exact absurd (guard.1.symm.trans alive) (by decide)
  · exact eq

theorem pump_of_busy (busy : ∀ e ∈ p.entries, e.busy = true) :
    (p.pump signals).waiters = p.waiters ∧ (p.pump signals).log = p.log := by
  unfold pump
  split_ifs
  · rcases maybeFinishClose_cases (p := p) with ⟨_, eq⟩ | ⟨_, eq⟩
    · rw [eq]
      exact ⟨rfl, rfl⟩
    · rw [eq]
      exact ⟨rfl, rfl⟩
  · have kept : (∀ e ∈ (pumpLoop signals (2 * p.waiters.length) p).entries, e.busy = true) ∧
        (pumpLoop signals (2 * p.waiters.length) p).waiters = p.waiters ∧
        (pumpLoop signals (2 * p.waiters.length) p).log = p.log := by
      refine pumpLoop_rule (I := fun q => (∀ e ∈ q.entries, e.busy = true) ∧
        q.waiters = p.waiters ∧ q.log = p.log) ?_ _ ⟨busy, rfl, rfl⟩
      rintro q r ⟨all, same⟩ turn
      cases turn with
      | grant w rest e head mem idle => exact absurd ((all e mem).symm.trans idle) (by decide)
      | reject w rest e reason head mem idle =>
        exact absurd ((all e mem).symm.trans idle) (by decide)
      | create => exact ⟨all, same⟩
    exact kept.2

theorem pump_of_empty (empty : p.waiters = []) :
    (p.pump signals).waiters = [] ∧ (p.pump signals).log = p.log := by
  unfold pump
  split_ifs
  · rcases maybeFinishClose_cases (p := p) with ⟨_, eq⟩ | ⟨_, eq⟩
    · rw [eq]
      exact ⟨empty, rfl⟩
    · rw [eq]
      exact ⟨empty, rfl⟩
  · simp [empty, pumpLoop]

theorem onAbort_waiters (reason : Thrown) (w : PoolWaiter) :
    (p.onAbort signals reason w).waiters.Sublist (p.waiters.erase w) := by
  have pumped : ∀ r : InstancePool, (r.pump signals).waiters.Sublist r.waiters := by
    intro r
    unfold pump
    split_ifs
    · rcases maybeFinishClose_cases (p := r) with ⟨_, eq⟩ | ⟨_, eq⟩
      · rw [eq]
        exact List.Sublist.refl _
      · rw [eq]
    · refine pumpLoop_rule (I := fun q => q.waiters.Sublist r.waiters) ?_ _ (List.Sublist.refl _)
      intro q q' hq turn
      cases turn with
      | grant w rest e head =>
        rw [head] at hq
        exact (sublist_cons_self w rest).trans hq
      | reject => exact erase_sublist.trans hq
      | create => exact hq
  unfold onAbort
  split_ifs with mem
  · exact pumped (p.dropWaiter w reason)
  · rw [erase_of_not_mem mem]

theorem abortAll_waiters (reason : Thrown) (ws : List PoolWaiter) (nodup : p.waiters.Nodup) :
    ∀ v ∈ (ws.foldl (fun p w => p.onAbort signals reason w) p).waiters, v ∈ p.waiters ∧ v ∉ ws := by
  induction ws generalizing p with
  | nil => exact fun v hv => ⟨hv, not_mem_nil⟩
  | cons w ws ih =>
    have sub : (p.onAbort signals reason w).waiters.Sublist (p.waiters.erase w) :=
      onAbort_waiters reason w
    intro v hv
    obtain ⟨left, other⟩ := ih (sub.nodup (nodup.erase w)) v hv
    have erased := (nodup.mem_erase_iff).mp (sub.subset left)
    exact ⟨erased.2, by simp [erased.1, other]⟩

def Listening (signals : Signals) (p : InstancePool) : Prop :=
  ∀ w ∈ p.waiters, signals w.signal = none

theorem Listening.flow (h : Listening signals p) (step : PoolFlow signals p q) : Listening signals q := by
  cases step with
  | create | arrive | arriveLate | fail | settle | finalize | finish => exact h
  | drop w cause mem => exact fun v hv => h v (mem_of_mem_erase hv)
  | grant w rest e alive head =>
    refine fun v hv => h v ?_
    rw [head]
    exact mem_cons_of_mem w hv
  | close => exact nofun

theorem Listening.moves (h : Listening signals p) (moves : PoolMoves signals p q) : Listening signals q := by
  refine moves.invariant (fun r r' hr move => ?_) h
  cases move with
  | flow step => exact hr.flow step
  | refuse | keepLease | discardLease | loseLease | turn => exact hr
  | enqueue signal alive live =>
    intro w hw
    rcases mem_append.mp hw with hw | hw
    · exact hr w hw
    · rw [mem_singleton.mp hw]
      exact live

theorem Listening.abort (h : Listening signals p) (nodup : p.waiters.Nodup) {signal : Nat}
    {reason : Thrown} : Listening (signals.abort signal reason)
      (p.abort (signals.abort signal reason) signal reason) := by
  intro w hw
  obtain ⟨mem, other⟩ := abortAll_waiters reason _ nodup w hw
  have apart : w.signal ≠ signal := by
    intro same
    exact other (mem_filter.mpr ⟨mem, by simpa using same⟩)
  rw [Signals.abort, if_neg apart]
  exact h w mem

def Progressing (p : InstancePool) : Prop := p.closed = false → p.waiters ≠ [] → p.Blocked

theorem open_of_moves (h : PoolMoves signals p q) (alive : q.closed = false) : p.closed = false := by
  cases closed : p.closed with
  | false => rfl
  | true =>
    have still : q.closed = true := by
      refine h.invariant (I := fun r => r.closed = true) (fun r r' hr move => ?_) closed
      cases move with
      | flow step => cases step <;> first | exact hr | rfl
      | refuse | enqueue | keepLease | discardLease | loseLease | turn => exact hr
    exact absurd (still.symm.trans alive) (by decide)

theorem progressing_pump : (p.pump signals).Progressing := by
  intro alive queue
  rw [pump_closed] at alive
  exact blocked_of_pump alive queue

theorem progressing_of_closed (closed : p.closed = true) : p.Progressing := by
  intro alive
  exact absurd (closed.symm.trans alive) (by decide)

theorem Progressing.maybeFinishClose (h : p.Progressing) : p.maybeFinishClose.Progressing := by
  cases closed : p.closed with
  | false =>
    rw [maybeFinishClose_open closed]
    exact h
  | true => exact progressing_of_closed (maybeFinishClose_closed.trans closed)

theorem Progressing.acquire (h : p.Progressing) (signal : Nat) : (p.acquire signals signal).Progressing := by
  unfold InstancePool.acquire
  split_ifs
  · exact h
  · split
    · exact h
    · exact progressing_pump

theorem Progressing.onAbort (h : p.Progressing) (reason : Thrown) (w : PoolWaiter) :
    (p.onAbort signals reason w).Progressing := by
  unfold InstancePool.onAbort
  split_ifs
  · exact progressing_pump
  · exact h

theorem Progressing.abort (h : p.Progressing) (signal : Nat) (reason : Thrown) :
    (p.abort signals signal reason).Progressing := by
  unfold InstancePool.abort
  generalize p.waiters.filter (fun w => w.signal = signal) = ws
  induction ws generalizing p with
  | nil => exact h
  | cons w ws ih => exact ih (h.onAbort reason w)

theorem Progressing.discard (h : p.Progressing) (id : Nat) : (p.discard id).Progressing := by
  intro alive queue
  obtain ⟨busy, _⟩ := h alive queue
  refine ⟨fun e he => busy e (mem_of_mem_filter he), .inr (.inr ?_)⟩
  simp [closingFor, InstancePool.discard]

theorem Progressing.release (h : p.Progressing) (ticket : Nat) (discard : Bool) :
    (p.release signals ticket discard).Progressing := by
  unfold InstancePool.release
  split
  · exact h
  · next l _ =>
    have same : (p.returnLease l).Progressing := h
    unfold releaseEntry
    split_ifs
    · exact same.discard l.entry
    · exact progressing_pump
    · exact same

theorem progressing_step {s t : PoolSystem} {e : PoolEvent} (h : s.pool.Progressing)
    (done : s.pool.Sealed) (hs : poolMachine.step s e = some t) : t.pool.Progressing := by
  have moves := poolStep_moves hs
  change s.step e = some t at hs
  cases e with
  | acquire signal => cases hs; exact h.acquire signal
  | abort signal reason =>
    simp only [step] at hs
    split_ifs at hs
    · cases hs; exact h
    · cases hs; exact h.abort signal reason
  | release ticket discard => cases hs; exact h.release ticket discard
  | created id =>
    simp only [step] at hs
    split_ifs at hs
    cases hs
    simp only [created]
    split_ifs with closed
    · exact progressing_of_closed closed
    · exact progressing_pump
  | createFailed id cause =>
    simp only [step] at hs
    split_ifs at hs
    cases hs
    exact progressing_pump.maybeFinishClose
  | instanceClosed id failure =>
    intro alive
    have before := open_of_moves moves alive
    simp only [step] at hs
    split at hs
    · next c hc =>
      have why := done.discarding before c (mem_of_find?_eq_some hc)
      cases hs
      rw [why] at alive ⊢
      exact progressing_pump.maybeFinishClose alive
    · cases hs
  | close =>
    cases hs
    refine progressing_of_closed ?_
    simp only [close]
    split_ifs with closed
    · exact closed
    · exact maybeFinishClose_closed
  | finishClose =>
    simp only [step] at hs
    split_ifs at hs with guard
    cases hs
    simp only [Bool.and_eq_true] at guard
    exact progressing_of_closed (done.finalized guard.1.1).1
  | turn => cases hs; exact h

theorem createFailed_rejects (h : p.Progressing) (done : p.Sealed) (id : Nat) (cause : Thrown) :
    (p.createFailed signals id cause).waiters = p.waiters.tail ∧ (p.createFailed signals id cause).log =
        (p.waiters.take 1).map (fun w => .rejected w (creationError cause)) ++ p.log := by
  have last (q : InstancePool) : q.maybeFinishClose.waiters = q.waiters ∧
      q.maybeFinishClose.log = q.log := by
    rcases maybeFinishClose_cases (p := q) with ⟨_, eq⟩ | ⟨_, eq⟩
    · rw [eq]
      exact ⟨rfl, rfl⟩
    · rw [eq]
      exact ⟨rfl, rfl⟩
  unfold createFailed
  rw [(last _).1, (last _).2]
  cases queue : p.waiters with
  | nil =>
    have dropped : p.dropCreation id cause = p.endCreation id := by
      have same : (p.endCreation id).waiters = [] := queue
      simp only [dropCreation, rejectFirst, same]
    rw [dropped]
    exact pump_of_empty (p := p.endCreation id) queue
  | cons w rest =>
    have alive : p.closed = false := by
      cases closed : p.closed with
      | false => rfl
      | true =>
        rw [done.drained closed] at queue
        cases queue
    obtain ⟨busy, _⟩ := h alive (by simp [queue])
    have dropped : p.dropCreation id cause =
        { p.endCreation id with waiters := rest }.reject w (creationError cause) := by
      have same : (p.endCreation id).waiters = w :: rest := queue
      simp only [dropCreation, rejectFirst, same]
    rw [dropped]
    exact pump_of_busy busy

theorem moves_grant (h : PoolMoves signals p q) {w : PoolWaiter} {id : Nat}
    (granted : .granted w id ∈ q.log) : .granted w id ∈ p.log ∨ signals w.signal = none := by
  refine h.invariant (I := fun r => ∀ w id, .granted w id ∈ r.log →
    .granted w id ∈ p.log ∨ signals w.signal = none) ?_ (fun _ _ mem => .inl mem) w id granted
  intro r r' hr move v i mem
  cases move with
  | flow step =>
    cases step with
    | create | arrive | arriveLate | fail | settle | finalize | finish => exact hr v i mem
    | drop =>
      rcases mem_cons.mp mem with eq | mem
      · cases eq
      · exact hr v i mem
    | grant u rest e alive head here idle live =>
      rcases mem_cons.mp mem with eq | mem
      · cases eq
        exact .inr live
      · exact hr v i mem
    | close =>
      rcases mem_append.mp mem with new | old
      · simp at new
      · exact hr v i old
  | keepLease | discardLease | loseLease | turn => exact hr v i mem
  | refuse | enqueue =>
    rcases mem_cons.mp mem with eq | mem
    · cases eq
    · exact hr v i mem

end InstancePool

theorem pool_ticketed {s : PoolSystem} (h : poolMachine.Reachable s) : s.pool.Ticketed :=
  pool_invariant InstancePool.Ticketed.new (fun _ _ _ hi move => hi.move move) h

theorem pool_progressing {s : PoolSystem} (h : poolMachine.Reachable s) : s.pool.Progressing := by
  have both : s.pool.Progressing ∧ s.pool.Owned ∧ s.pool.Sealed := by
    refine h.invariant (I := fun s => s.pool.Progressing ∧ s.pool.Owned ∧ s.pool.Sealed) ?_ ?_
    · rintro s ⟨max, turn, fresh⟩
      rw [fresh]
      exact ⟨fun _ queue => absurd rfl queue, .new max turn, .new max turn⟩
    · rintro s e t ⟨progress, owned, done⟩ hs
      refine ⟨InstancePool.progressing_step progress done hs, ?_⟩
      exact (poolStep_moves hs).invariant (I := fun p => p.Owned ∧ p.Sealed)
        (fun _ _ hi move => ⟨hi.1.move move, hi.2.move hi.1 move⟩) ⟨owned, done⟩
  exact both.1

theorem pool_listening {s : PoolSystem} (h : poolMachine.Reachable s) :
    InstancePool.Listening s.signals s.pool := by
  have both : InstancePool.Listening s.signals s.pool ∧ s.pool.Ticketed := by
    refine h.invariant (I := fun s => InstancePool.Listening s.signals s.pool ∧ s.pool.Ticketed) ?_ ?_
    · rintro s ⟨max, turn, fresh⟩
      rw [fresh]
      exact ⟨nofun, .new max turn⟩
    · rintro s e t ⟨live, ticketed⟩ hs
      have moves := poolStep_moves hs
      have after : t.pool.Ticketed := moves.invariant (fun _ _ hi move => hi.move move) ticketed
      by_cases aborts : ∃ signal reason, e = .abort signal reason
      · obtain ⟨signal, reason, rfl⟩ := aborts
        change s.step (.abort signal reason) = some t at hs
        simp only [PoolSystem.step] at hs
        split_ifs at hs
        · cases hs
          exact ⟨live, after⟩
        · cases hs
          exact ⟨live.abort ticketed.nodup, after⟩
      · have same : t.signals = s.signals := by
          change s.step e = some t at hs
          cases e with
          | abort signal reason => exact absurd ⟨signal, reason, rfl⟩ aborts
          | acquire | release | close | turn => cases hs; rfl
          | created | createFailed | finishClose =>
            simp only [PoolSystem.step] at hs
            split_ifs at hs
            cases hs; rfl
          | instanceClosed =>
            simp only [PoolSystem.step] at hs
            split at hs
            · cases hs; rfl
            · cases hs
        rw [same] at moves ⊢
        exact ⟨live.moves moves, after⟩
  exact both.1

/-- What one step owes to the waiters: no lease goes to an aborted signal, and a failed creation
rejects the oldest waiter only. -/
structure FairStep (s : PoolSystem) (e : PoolEvent) (t : PoolSystem) : Prop where
  live : ∀ w id, .granted w id ∈ t.pool.log → .granted w id ∈ s.pool.log ∨ t.signals w.signal = none
  failure : ∀ id cause, e = .createFailed id cause → t.pool.waiters = s.pool.waiters.tail ∧
    t.pool.log = (s.pool.waiters.take 1).map
      (fun w => .rejected w (InstancePool.creationError cause)) ++ s.pool.log

/-- In every reachable state of the pool nobody waits without a reason, leases have gone out in
the order of the `acquire()` calls, every call has settled at most once, and no step breaks
faith with the queue. -/
theorem pool_progress_and_fairness {s : PoolSystem} (h : poolMachine.Reachable s) :
    (s.pool.closed = false → s.pool.waiters ≠ [] → s.pool.Blocked) ∧
      (∀ w ∈ s.pool.waiters, s.signals w.signal = none) ∧ InstancePool.GrantsInOrder s.pool.log ∧
      (∀ ticket, InstancePool.settlements ticket s.pool.log ≤ 1) ∧
      ∀ e t, poolMachine.step s e = some t → FairStep s e t := by
  have progress := pool_progressing h
  have ticketed := pool_ticketed h
  refine ⟨progress, pool_listening h, ticketed.inOrder, ticketed.once, fun e t hs => ?_⟩
  refine ⟨fun w id => InstancePool.moves_grant (poolStep_moves hs), ?_⟩
  rintro id cause rfl
  change s.step (.createFailed id cause) = some t at hs
  simp only [PoolSystem.step] at hs
  split_ifs at hs
  cases Option.some.inj hs
  exact InstancePool.createFailed_rejects progress (pool_sealed h) id cause

/-- Two callers and one instance still in creation. -/
theorem pool_progress_while_creating :
    ∃ s, poolMachine.run ⟨.new ⟨1, by decide⟩ 0, fun _ => none⟩ [.acquire 0, .acquire 1] = some s ∧
      s.pool.waiters ≠ [] ∧ s.pool.Blocked := by
  refine ⟨_, rfl, by decide, (pool_progress_and_fairness ?_).1 rfl (by decide)⟩
  exact ⟨_, [.acquire 0, .acquire 1], ⟨_, _, rfl⟩, rfl⟩

end ForgeDeno
