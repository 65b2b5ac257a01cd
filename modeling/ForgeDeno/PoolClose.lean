import ForgeDeno.PoolOwnership

namespace ForgeDeno

open List PoolSystem

/-- The states in which a step enters `#maybeFinishClose` of a closed pool. -/
def PoolSystem.finalizes (s : PoolSystem) : PoolEvent → List InstancePool
  | .close => if s.pool.closed then [] else [{ s.pool with closed := true }.rejectAll]
  | .createFailed id cause => [s.pool.dropCreation id cause]
  | .instanceClosed id failure =>
    match s.pool.closings.find? fun c => c.1 = id with
    | some (_, .discarded) => [s.pool.recordClose id .discarded failure]
    | some (_, .late) => [s.pool.recordClose id .late failure]
    | _ => []
  | _ => []

instance (p : InstancePool) : Decidable p.canFinalize := by
  unfold InstancePool.canFinalize
  infer_instance

/-- The step does not get past the guard of `#maybeFinishClose` while another instance is still
closing. -/
def FinalizesQuietly (s : PoolSystem) (e : PoolEvent) (_ : PoolSystem) : Prop :=
  ∀ p ∈ s.finalizes e, p.canFinalize → p.closings = []

instance (s : PoolSystem) (e : PoolEvent) (t : PoolSystem) : Decidable (FinalizesQuietly s e t) :=
  inferInstanceAs (Decidable (∀ p ∈ s.finalizes e, p.canFinalize → p.closings = []))

namespace InstancePool

variable {signals : Signals} {p q : InstancePool}

theorem maybeFinishClose_twice : p.maybeFinishClose.maybeFinishClose = p.maybeFinishClose := by
  rcases maybeFinishClose_cases (p := p) with ⟨_, eq⟩ | ⟨_, eq⟩
  · rw [eq]
    rcases maybeFinishClose_cases (p := p.finalize) with ⟨guard, _⟩ | ⟨_, eq⟩
    · exact absurd guard.2.1 (by simp [finalize])
    · exact eq
  · rw [eq, eq]

theorem finalized_of_maybeFinishClose (first : p.finalizing = false)
    (started : p.maybeFinishClose.finalizing = true) : p.canFinalize ∧ p.maybeFinishClose = p.finalize := by
  rcases maybeFinishClose_cases (p := p) with both | ⟨_, eq⟩
  · exact both
  · rw [eq, first] at started
    cases started

structure FinalizedFrom (s : PoolSystem) (e : PoolEvent) (p : InstancePool) (t : PoolSystem) : Prop where
  entered : p ∈ s.finalizes e
  guard : p.canFinalize
  result : t.pool = p.finalize
  moves : PoolFlows s.signals s.pool p

theorem finalizedFrom_of_maybeFinishClose {s t : PoolSystem} {e : PoolEvent}
    (entered : p ∈ s.finalizes e) (moves : PoolFlows s.signals s.pool p)
    (result : t.pool = p.maybeFinishClose) (first : p.finalizing = false)
    (started : t.pool.finalizing = true) : FinalizedFrom s e p t := by
  rw [result] at started
  obtain ⟨guard, eq⟩ := finalized_of_maybeFinishClose first started
  exact ⟨entered, guard, result.trans eq, moves⟩

theorem finalizing_of_step {s t : PoolSystem} {e : PoolEvent} (owned : s.pool.Owned)
    (done : s.pool.Sealed) (hs : poolMachine.step s e = some t) (first : s.pool.finalizing = false)
    (started : t.pool.finalizing = true) : ∃ p, FinalizedFrom s e p t := by
  have after : t.pool.Owned ∧ t.pool.Sealed :=
    (poolStep_moves hs).invariant (I := fun p => p.Owned ∧ p.Sealed)
      (fun _ _ hi move => ⟨hi.1.move move, hi.2.move hi.1 move⟩) ⟨owned, done⟩
  have closed : t.pool.closed = true := (after.2.finalized started).1
  by_cases closes : e = .close
  · subst closes
    change s.step .close = some t at hs
    cases hs
    cases before : s.pool.closed with
    | true =>
      simp only [close, before, if_true] at started
      exact absurd (first.symm.trans started) (by decide)
    | false =>
      refine ⟨{ s.pool with closed := true }.rejectAll, finalizedFrom_of_maybeFinishClose
        (by simp [finalizes, before]) (.single (.close before)) ?_ first started⟩
      simp [close, before]
  · rw [closed_of_step closes hs] at closed
    have none_waits : s.pool.waiters = [] := done.drained closed
    change s.step e = some t at hs
    have unchanged (same : t.pool.finalizing = s.pool.finalizing) :
        ∃ p, FinalizedFrom s e p t :=
      absurd (first.symm.trans (same.symm.trans started)) (by decide)
    cases e with
    | acquire signal =>
      cases hs
      exact unchanged (by simp [acquire, closed, InstancePool.reject])
    | abort signal reason =>
      simp only [PoolSystem.step] at hs
      split_ifs at hs
      · cases hs
        exact unchanged rfl
      · cases hs
        exact unchanged (by simp [abort, none_waits])
    | release ticket discard =>
      cases hs
      refine unchanged ?_
      simp only [release]
      split
      · rfl
      · simp only [releaseEntry]
        split_ifs with present keep
        · rfl
        · simp [returnLease, closed] at keep
        · rfl
    | created id =>
      simp only [PoolSystem.step] at hs
      split_ifs at hs
      cases hs
      exact unchanged (by simp [created, closed, addLate, endCreation])
    | createFailed id cause =>
      simp only [PoolSystem.step] at hs
      split_ifs at hs with mem
      cases hs
      have dropped : (s.pool.dropCreation id cause) = s.pool.endCreation id := by
        simp [dropCreation, rejectFirst, endCreation, none_waits]
      have still : (s.pool.endCreation id).closed = true := closed
      refine ⟨s.pool.dropCreation id cause, finalizedFrom_of_maybeFinishClose
        (by simp [finalizes]) (dropCreation_flows mem cause) ?_ ?_ started⟩
      · simp only [createFailed, dropped, pump, still, if_true, maybeFinishClose_twice]
      · rw [dropped]
        exact first
    | instanceClosed id failure =>
      simp only [PoolSystem.step] at hs
      split at hs
      · next c hc =>
        obtain ⟨i, why⟩ := c
        have same : i = id := by simpa using find?_some hc
        subst same
        have mem := mem_of_find?_eq_some hc
        cases hs
        have still : (s.pool.recordClose i why failure).closed = true := closed
        cases why with
        | discarded =>
          refine ⟨_, finalizedFrom_of_maybeFinishClose (by simp [finalizes, hc])
            (.single (.settle i .discarded failure mem)) ?_ first started⟩
          simp only [instanceClosed, pump, still, if_true, maybeFinishClose_twice]
        | late =>
          exact ⟨_, finalizedFrom_of_maybeFinishClose (by simp [finalizes, hc])
            (.single (.settle i .late failure mem)) rfl first started⟩
        | final => exact unchanged rfl
      · cases hs
    | close => exact absurd rfl closes
    | finishClose =>
      simp only [PoolSystem.step] at hs
      split_ifs at hs
      cases hs
      exact unchanged rfl
    | turn =>
      cases hs
      exact unchanged rfl

/-- Once the final closes have started no other close is pending, and the outcome of `close()`
is what the failures say. -/
structure Quiet (p : InstancePool) : Prop where
  pending : p.finalizing = true → ∀ c ∈ p.closings, c.2 = .final
  result : ∀ fs, p.closeResult = some fs → fs = p.closeFailures ++ p.finalFailures

/-- The kept failures are those of the closes that settled after `close()` was called. -/
def FailuresKept (p : InstancePool) : Prop :=
  p.closeFailures ++ p.finalFailures ≠ [] ↔ ∃ r ∈ p.settledCloses, r.afterClose = true ∧ r.failure.isSome

theorem FailuresKept.settle (h : p.FailuresKept) (done : p.Sealed) {id : Nat} {why : CloseReason}
    {failure : Option Thrown} (mem : (id, why) ∈ p.closings) : (p.recordClose id why failure).FailuresKept := by
  have known : p.closed = false → why = .discarded := fun alive => done.discarding alive _ mem
  unfold FailuresKept at h ⊢
  simp only [recordClose, mem_cons, exists_eq_or_imp]
  rw [← h]
  cases closed : p.closed with
  | false =>
    rw [known closed]
    simp
  | true =>
    cases why <;> cases failure <;> simp

theorem FailuresKept.move (h : p.FailuresKept) (done : p.Sealed) (step : PoolMove signals p q) :
    q.FailuresKept := by
  cases step with
  | flow step =>
    cases step with
    | settle id why failure mem => exact h.settle done mem
    | drop | grant | create | arrive | arriveLate | fail | close | finalize | finish => exact h
  | refuse | enqueue | keepLease | discardLease | loseLease | turn => exact h

theorem Quiet.flow (h : p.Quiet) (done : p.Sealed) (started : p.finalizing = true)
    (step : PoolFlow signals p q) : q.Quiet ∧ q.finalizing = true := by
  obtain ⟨closed, none_created, none_left⟩ := done.finalized started
  cases step with
  | drop | fail => exact ⟨⟨h.pending, h.result⟩, started⟩
  | grant w rest e alive | create alive | arrive id mem alive | close alive =>
    exact absurd (closed.symm.trans alive) (by decide)
  | arriveLate id mem => rw [none_created] at mem; cases mem
  | settle id why failure mem =>
    refine ⟨⟨fun _ c hc => h.pending started c (mem_of_mem_filter hc), ?_⟩, started⟩
    intro fs settled
    have same : p.closeResult = some fs := settled
    have none_final := (done.finished (by simp [same])).2
    have why_final := h.pending started _ mem
    simp only [closingFor, map_eq_nil_iff, filter_eq_nil_iff] at none_final
    exact absurd (none_final _ mem) (by simpa using why_final)
  | finalize guard => exact absurd (started.symm.trans guard.2.1) (by decide)
  | finish _ settled first =>
    exact ⟨⟨h.pending, fun fs eq => (Option.some.inj eq).symm⟩, started⟩

theorem Quiet.move (h : p.Quiet) (done : p.Sealed) (started : p.finalizing = true)
    (step : PoolMove signals p q) : q.Quiet ∧ q.finalizing = true := by
  obtain ⟨closed, none_created, none_left⟩ := done.finalized started
  cases step with
  | flow step => exact h.flow done started step
  | refuse | loseLease | turn => exact ⟨⟨h.pending, h.result⟩, started⟩
  | enqueue signal alive | keepLease l mem alive =>
    exact absurd (closed.symm.trans alive) (by decide)
  | discardLease l mem present => simp [entryIds, none_left] at present

theorem result_of_moves (h : PoolMoves signals p q) (first : p.closeResult = none)
    (last : q.finalizing = false) : q.closeResult = none := by
  have either : q.finalizing = true ∨ q.closeResult = none := by
    refine h.invariant (I := fun r => r.finalizing = true ∨ r.closeResult = none) ?_ (.inr first)
    intro r r' hr move
    cases move with
    | flow step =>
      cases step with
      | finish started => exact .inl started
      | finalize => exact .inl rfl
      | drop | grant | create | arrive | arriveLate | fail | settle | close => exact hr
    | refuse | enqueue | keepLease | discardLease | loseLease | turn => exact hr
  rcases either with started | pending
  · exact absurd (started.symm.trans last) (by decide)
  · exact pending

theorem Sealed.no_result (h : p.Sealed) (first : p.finalizing = false) : p.closeResult = none := by
  cases settled : p.closeResult with
  | none => rfl
  | some fs =>
    have started := (h.finished (by simp [settled])).1
    exact absurd (started.symm.trans first) (by decide)

theorem quiet_step {s t : PoolSystem} {e : PoolEvent} (h : s.pool.Quiet) (owned : s.pool.Owned)
    (done : s.pool.Sealed) (quietly : FinalizesQuietly s e t)
    (hs : poolMachine.step s e = some t) : t.pool.Quiet := by
  have moves := poolStep_moves hs
  cases first : s.pool.finalizing with
  | true =>
    have kept := moves.invariant
      (I := fun p => (p.Quiet ∧ p.finalizing = true) ∧ p.Owned ∧ p.Sealed)
      (fun _ _ hi move => ⟨hi.1.1.move hi.2.2 hi.1.2 move, hi.2.1.move move,
        hi.2.2.move hi.2.1 move⟩) ⟨⟨h, first⟩, owned, done⟩
    exact kept.1.1
  | false =>
    have pending := done.no_result first
    cases started : t.pool.finalizing with
    | false =>
      have still := result_of_moves moves pending started
      refine ⟨fun begun => ?_, fun fs settled => ?_⟩
      · cases started.symm.trans begun
      · cases still.symm.trans settled
    | true =>
      obtain ⟨p, entered, guard, result, before⟩ := finalizing_of_step owned done hs first started
      have none_closing := quietly p entered guard
      have still := result_of_moves before.moves pending guard.2.1
      rw [result]
      refine ⟨fun _ c hc => ?_, fun fs settled => ?_⟩
      · simp only [InstancePool.finalize, none_closing, nil_append, mem_map] at hc
        obtain ⟨id, _, rfl⟩ := hc
        rfl
      · rw [show p.finalize.closeResult = none from still] at settled
        cases settled

theorem complete_of_quiet (h : p.Quiet) (owned : p.Owned) (done : p.Sealed)
    (kept : p.FailuresKept) {fs : List Thrown} (settled : p.closeResult = some fs) :
    (∀ id ∈ p.received, id ∈ p.closedIds) ∧
      (fs ≠ [] ↔ ∃ r ∈ p.settledCloses, r.afterClose = true ∧ r.failure.isSome) := by
  obtain ⟨started, none_final⟩ := done.finished (by simp [settled])
  have none_left := (done.finalized started).2.2
  have none_closing : p.closings = [] := by
    refine eq_nil_iff_forall_not_mem.mpr fun c hc => ?_
    simp only [closingFor, map_eq_nil_iff, filter_eq_nil_iff] at none_final
    exact none_final c hc (by simpa using h.pending started c hc)
  refine ⟨fun id mem => ?_, ?_⟩
  · have balance := owned.balance id
    have here := count_pos_iff.mpr mem
    simp only [entryIds, closingIds, none_left, none_closing, map_nil, count_nil] at balance
    exact count_pos_iff.mp (by omega)
  · rw [h.result fs settled]
    exact kept

end InstancePool

/-- A run in which the guard of `#maybeFinishClose` never lets a step pass while an instance is
still closing settles the promise of `close()` after every instance, with the right verdict. -/
theorem close_complete_of_quiet {s t : PoolSystem} {es : List PoolEvent}
    (start : poolMachine.start s) (quietly : poolMachine.Along FinalizesQuietly s es)
    (run : poolMachine.run s es = some t) :
    ∀ fs, t.pool.closeResult = some fs → (∀ id ∈ t.pool.received, id ∈ t.pool.closedIds) ∧
      (fs ≠ [] ↔ ∃ r ∈ t.pool.settledCloses, r.afterClose = true ∧ r.failure.isSome) := by
  intro fs settled
  let I : PoolSystem → Prop := fun r =>
    r.pool.Quiet ∧ r.pool.Owned ∧ r.pool.Sealed ∧ r.pool.FailuresKept
  have holds : I t := by
    refine LabelledMachine.run_invariant_along (I := I) ?_ ?_ quietly run
    · rintro r e r' ⟨quiet, owned, done, kept⟩ cond hs
      have after := (poolStep_moves hs).invariant
        (I := fun p => p.Owned ∧ p.Sealed ∧ p.FailuresKept)
        (fun _ _ hi move => ⟨hi.1.move move, hi.2.1.move hi.1 move, hi.2.2.move hi.2.1 move⟩)
        ⟨owned, done, kept⟩
      exact ⟨InstancePool.quiet_step quiet owned done cond hs, after⟩
    · obtain ⟨max, turn, fresh⟩ := start
      have new : (InstancePool.new max turn).Quiet ∧ (InstancePool.new max turn).FailuresKept := by
        refine ⟨⟨?_, ?_⟩, ?_⟩
        · simp [InstancePool.new]
        · simp [InstancePool.new]
        · simp [InstancePool.FailuresKept, InstancePool.new]
      rw [← fresh] at new
      exact ⟨new.1, fresh ▸ .new max turn, fresh ▸ .new max turn, new.2⟩
  exact InstancePool.complete_of_quiet holds.1 holds.2.1 holds.2.2.1 holds.2.2.2 settled

/-- One instance arrives after `close()` and fails to close; the verdict is a rejection. -/
theorem close_complete_one_late : ∃ t, poolMachine.run ⟨.new ⟨2, by decide⟩ 0, fun _ => none⟩
        [.acquire 0, .close, .created 1, .instanceClosed 1 (some (.foreign 0)), .finishClose] = some t ∧
      t.pool.closeResult = some [.foreign 0] ∧ ∀ id ∈ t.pool.received, id ∈ t.pool.closedIds := by
  have quietly : poolMachine.Along FinalizesQuietly ⟨.new ⟨2, by decide⟩ 0, fun _ => none⟩
      [.acquire 0, .close, .created 1, .instanceClosed 1 (some (.foreign 0)), .finishClose] := by
    decide
  have complete := close_complete_of_quiet ⟨_, _, rfl⟩ quietly rfl
  exact ⟨_, rfl, rfl, (complete _ rfl).1⟩

/-- Two instances arrive after `close()`: the final closes start when the first of them has
closed, and the failure of the second comes too late. -/
theorem close_settles_before_second_late : ∃ t, poolMachine.run ⟨.new ⟨2, by decide⟩ 0, fun _ => none⟩
        [.acquire 0, .acquire 1, .close, .created 1, .created 2, .instanceClosed 1 none,
          .finishClose, .instanceClosed 2 (some (.foreign 0))] = some t ∧ t.pool.closeResult = some [] ∧
      ∃ r ∈ t.pool.settledCloses, r.afterClose = true ∧ r.failure.isSome := by
  refine ⟨_, rfl, rfl, ⟨2, some (.foreign 0), true⟩, ?_, rfl, rfl⟩
  exact List.mem_cons_self

end ForgeDeno
