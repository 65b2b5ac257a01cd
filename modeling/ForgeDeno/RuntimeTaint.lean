import ForgeDeno.RuntimeInstances

namespace ForgeDeno

open List Option

/-- The dispatch rejected, settled behind the abort of its call, or came back with a response that
`parseAbiResponse` rejects. -/
def Dispatch.Spoiled (d : Dispatch) (outcome : Except Thrown JsString)
    (reason : Option WasmRuntimeError) : Prop :=
  (∃ cause, outcome = .error cause) ∨ reason.isSome = true ∨
    ∃ responseJson cause, outcome = .ok responseJson ∧ parseAbiResponse responseJson d.requestId = .error cause

/-- From here on the instance is neither in the pool nor under a lease, and whatever lease was ever
granted on it has been granted already. -/
def NeverLeased (r : GoforgeWasmRuntime) (id : Nat) : Prop :=
  ∀ p, r.pool = some p → ∀ es u q, runtimeMachine.run r es = some u → u.pool = some q →
    id ∉ q.entryIds ∧ (∀ l ∈ q.held, l.entry ≠ id) ∧ ∀ l ∈ q.leases, l.entry = id → l ∈ p.leases

/-- The instance is idle in the pool `q`, or under a lease that the pool `p` did not have yet. -/
def InstancePool.TakesBack (p q : InstancePool) (id : Nat) : Prop :=
  ⟨id, false⟩ ∈ q.entries ∨ ∃ l ∈ q.held, l.entry = id ∧ l ∉ p.held

/-- The leases of a pool, in the state a runtime is in: no instance has two, every grant has one
of its own, and one that is held has a call or a running dispatch to give it back. -/
structure LeasesInOrder (r : GoforgeWasmRuntime) (p : InstancePool) : Prop where
  exclusive : (p.held.map InstanceLease.entry).Nodup
  once : ∀ w id, .granted w id ∈ p.log →
    p.held.countP (fun l => l.ticket = w.ticket) + p.returned.countP (fun l => l.ticket = w.ticket) = 1
  owner : ∀ l ∈ p.held,
    (∃ (c : Nat) (call : Call) (request : LeaseRequest), r.calls[c]? = some call ∧
      call.phase = .leasing request ∧ request.ticket = l.ticket) ∨
    ∃ (d : Nat) (dispatch : Dispatch), r.dispatches[d]? = some dispatch ∧
      dispatch.phase = .running ∧ dispatch.granted = l
  settled : ∀ (d : Nat) (dispatch : Dispatch), r.dispatches[d]? = some dispatch →
    dispatch.phase ≠ .running → dispatch.granted ∈ p.returned ∧ dispatch.granted ∉ p.held

theorem Dispatch.discards_iff_spoiled {d : Dispatch} {outcome : Except Thrown JsString}
    {reason : Option WasmRuntimeError} :
    (d.verdict outcome reason).discards = true ↔ d.Spoiled outcome reason := by
  unfold Dispatch.verdict Dispatch.Spoiled
  cases outcome with
  | error cause => simp [Verdict.discards]
  | ok responseJson =>
    cases reason with
    | some reason => simp [Verdict.discards]
    | none =>
      cases parsed : parseAbiResponse responseJson d.requestId with
      | error cause => simp [Verdict.discards, parsed]
      | ok response => simp [Verdict.discards, parsed]

theorem DispatchPhase.isRunning_iff {phase : DispatchPhase} : phase.isRunning = true ↔ phase = .running := by
  cases phase <;> simp [DispatchPhase.isRunning]

namespace InstancePool

variable {signals : Signals} {p q : InstancePool}

theorem leases_move_new (move : PoolMove signals p q) {l : InstanceLease} (mem : l ∈ q.leases) :
    l ∈ p.leases ∨ l.entry ∈ p.entryIds := by
  cases move with
  | keepLease m held | discardLease m held | loseLease m held =>
    exact .inl ((Accountable.return_perm held).mem_iff.mp mem)
  | flow step =>
    cases step with
    | grant w rest e alive head there =>
      rcases mem_append.mp mem with held | returned
      · rcases mem_cons.mp held with rfl | old
        · exact .inr (mem_map_of_mem there)
        · exact .inl (mem_append_left _ old)
      · exact .inl (mem_append_right _ returned)
    | _ => exact .inl mem
  | _ => exact .inl mem

theorem gone_moves {id : Nat} (moves : PoolMoves signals p q) (sound : p.Sound) (gone : id ∈ p.gone) :
    q.Sound ∧ id ∈ q.gone ∧ ∀ l ∈ q.leases, l.entry = id → l ∈ p.leases := by
  refine moves.invariant (I := fun q => q.Sound ∧ id ∈ q.gone ∧
    ∀ l ∈ q.leases, l.entry = id → l ∈ p.leases) (fun q u hq move => ?_) ⟨sound, gone, fun _ mem _ => mem⟩
  obtain ⟨sound, gone, known⟩ := hq
  refine ⟨sound.move move, gone_move gone move, fun l mem same => ?_⟩
  rcases leases_move_new move mem with old | present
  · exact known l old same
  · rw [same] at present
    exact absurd present (sound.owned.not_entry_of_gone gone)

end InstancePool

namespace GoforgeWasmRuntime

variable {r t : GoforgeWasmRuntime} {e : RuntimeEvent} {c : Nat} {call : Call} {seams : Seams}
  {p q : InstancePool}

theorem callMove_poolMoves (some_pool : r.pool = some p) (move : CallMove c seams r t) :
    ∃ q, t.pool = some q ∧ PoolMoves r.signals p q := by
  rcases callMove_pool move with same | ⟨p', before, eq⟩ | ⟨p', ticket, before, eq⟩
  · exact ⟨p, same.trans some_pool, .refl⟩
  · cases before.symm.trans some_pool
    exact ⟨_, eq, InstancePool.acquire_moves c⟩
  · cases before.symm.trans some_pool
    exact ⟨_, eq, InstancePool.release_moves ticket true⟩

theorem move_poolMoves (leases : Leases r) (some_pool : r.pool = some p)
    (move : RuntimeMove e r t) : ∃ q signals, t.pool = some q ∧ PoolMoves signals p q := by
  rcases move_pool leases some_pool move with ⟨c, seams, _, move⟩ | ⟨d, dispatch, outcome, _, rfl⟩ |
      ⟨q, signals, some_q, flows⟩ | rfl
  · obtain ⟨q, some_q, moves⟩ := callMove_poolMoves some_pool move
    exact ⟨q, r.signals, some_q, moves⟩
  · exact ⟨_, r.signals, rfl, InstancePool.release_moves _ _⟩
  · exact ⟨q, signals, some_q, flows.moves⟩
  · exact ⟨_, r.signals, nextTurn_pool some_pool, .single .turn⟩

structure Lost (id : Nat) (known : List InstanceLease) (r : GoforgeWasmRuntime) : Prop where
  leases : Leases r
  lost : ∃ p, r.pool = some p ∧ id ∈ p.gone ∧ ∀ l ∈ p.leases, l.entry = id → l ∈ known

theorem lost_step {id : Nat} {known : List InstanceLease} (h : Lost id known r)
    (stepped : r.step e = some t) : Lost id known t := by
  refine (step_moves stepped).invariant (I := Lost id known) (fun r t hr move => ?_) h
  obtain ⟨leases, p, some_pool, gone, old⟩ := hr
  obtain ⟨q, signals, some_q, moves⟩ := move_poolMoves leases some_pool move
  obtain ⟨_, still, same⟩ := InstancePool.gone_moves moves (leases.booked p some_pool).1 gone
  exact ⟨leases_move leases move, q, some_q, still, fun l mem eq => old l (same l mem eq) eq⟩

theorem neverLeased_of_gone (h : Leases r) (some_pool : r.pool = some p) {id : Nat}
    (gone : id ∈ p.gone) : NeverLeased r id := by
  intro p' here es u q ran some_q
  cases here.symm.trans some_pool
  have start : Lost id p.leases r := ⟨h, p, some_pool, gone, fun _ mem _ => mem⟩
  obtain ⟨leases, q', here_q, still, known⟩ := LabelledMachine.run_invariant
    (I := Lost id p.leases) (fun _ _ _ hr stepped => lost_step hr stepped) start ran
  cases here_q.symm.trans some_q
  have owned := (leases.booked q some_q).1.owned
  refine ⟨owned.not_entry_of_gone still, fun l held same => ?_, known⟩
  exact owned.not_held_of_gone (same.symm ▸ still) held

/-- The pool is open until `close()` has been called. -/
def PoolOpen (r : GoforgeWasmRuntime) : Prop :=
  r.closing = .open → ∀ p, r.pool = some p → p.closed = false

theorem Steady.open_before (steady : r.Steady t) (still : t.closing = .open) : r.closing = .open := by
  rcases steady.closing with same | ⟨_, woken⟩
  · exact same.symm.trans still
  · cases woken.symm.trans still

theorem open_before (move : RuntimeMove e r t) (still : t.closing = .open) : r.closing = .open := by
  cases move with
  | call c seams event move => exact (callMove_steady move).open_before still
  | giveUp c call outcome => exact (finish_steady c call outcome).open_before still
  | interrupt c call reason => exact (abortCall_steady c reason).open_before still
  | awaitCalls | closed => cases still
  | await closing later unfinished begun => exact absurd still begun
  | _ => exact still

inductive PoolKept (e : RuntimeEvent) (r : GoforgeWasmRuntime) (q : InstancePool) : Prop where
  | kept (p : InstancePool) (before : r.pool = some p) (keeps : p.Keeps q)
  | new (alive : q.closed = false) (unseen : q.settledCloses = [])
  | closed (p : InstancePool) (before : r.pool = some p) (begun : r.closing ≠ .open)
      (same : q.settledCloses = p.settledCloses)
  | settled (p : InstancePool) (id : Nat) (failure : Option Thrown) (before : r.pool = some p)
      (event : e = .instanceClosed id failure) (same : q.closed = p.closed)
      (seen : q.settledCloses = ⟨id, failure, p.closed⟩ :: p.settledCloses)

theorem move_poolKept (move : RuntimeMove e r t) (some_q : t.pool = some q) :
    r.PoolKept e q := by
  cases move with
  | call c seams event move =>
    rcases callMove_pool move with same | ⟨p, some_pool, eq⟩ | ⟨p, ticket, some_pool, eq⟩
    · exact .kept q (same ▸ some_q) (.refl q)
    · cases eq.symm.trans some_q
      exact .kept p some_pool (InstancePool.acquire_keeps c)
    · cases eq.symm.trans some_q
      exact .kept p some_pool (InstancePool.release_keeps ticket true)
  | giveUp c call outcome =>
    rw [finish_pool] at some_q
    exact .kept q some_q (.refl q)
  | poolReady =>
    cases some_q
    exact .new rfl rfl
  | settleDispatch d dispatch pool outcome event there some_pool =>
    cases some_q
    exact .kept pool some_pool (InstancePool.release_keeps _ _)
  | environment step pool system flow some_pool stepped same begun closes =>
    cases some_q
    rcases InstancePool.step_keeps stepped with keeps | ⟨close, settled⟩ |
      ⟨id, failure, event, closed, settled⟩
    · exact .kept pool some_pool keeps
    · exact .closed pool some_pool (begun close) settled
    · exact .settled pool id failure some_pool (closes id failure event) closed settled
  | interrupt c call reason =>
    unfold abortCall at some_q
    split at some_q
    · split_ifs at some_q
      · exact .kept q some_q (.refl q)
      · obtain ⟨p, some_pool, rfl⟩ := map_eq_some_iff.mp some_q
        exact .kept p some_pool (InstancePool.abort_keeps c (.wasm reason))
    · exact .kept q some_q (.refl q)
  | turn =>
    obtain ⟨p, some_pool, rfl⟩ := map_eq_some_iff.mp some_q
    exact .kept p some_pool ⟨rfl, rfl⟩
  | _ => exact .kept q some_q (.refl q)

theorem poolOpen_move (h : PoolOpen r) (move : RuntimeMove e r t) : PoolOpen t := by
  intro still q some_q
  have first := open_before move still
  cases move_poolKept move some_q with
  | kept p before keeps => exact keeps.closed.trans (h first p before)
  | new alive => exact alive
  | closed p before begun => exact absurd first begun
  | settled p id failure before event same => exact same.trans (h first p before)

theorem poolOpen_step (h : PoolOpen r) (stepped : r.step e = some t) : PoolOpen t :=
  (step_moves stepped).invariant (fun _ _ => poolOpen_move) h

theorem leasesInOrder (h : Leases r) (some_pool : r.pool = some p) : LeasesInOrder r p := by
  obtain ⟨sound, booked⟩ := h.booked p some_pool
  refine ⟨sound.owned.exclusive, fun w id granted => ?_, fun l held => ?_, fun d dispatch there past => ?_⟩
  · rw [← countP_append]
    obtain ⟨l, mem, same, _⟩ := sound.accountable.granted w id granted
    have counted : (p.leases.map InstanceLease.ticket).count w.ticket = 1 :=
      count_eq_one_of_mem sound.accountable.distinct (same ▸ mem_map_of_mem mem)
    rw [count, countP_map] at counted
    rw [← counted]
    exact countP_congr fun l _ => by simp
  · rcases booked.owner l held with ⟨c, call, here, awaits⟩ | ⟨d, dispatch, there, active, same⟩
    · refine .inl ⟨c, call, ?_⟩
      unfold Call.awaits at awaits
      split at awaits
      · next request phase => exact ⟨request, here, phase, of_decide_eq_true awaits⟩
      · cases awaits
    · exact .inr ⟨d, dispatch, there, DispatchPhase.isRunning_iff.mp active, same⟩
  · have idle : dispatch.phase.isRunning = false := by
      rw [← Bool.not_eq_true, DispatchPhase.isRunning_iff]
      exact past
    have returned := booked.settled d dispatch there idle
    exact ⟨returned, fun held => sound.accountable.held_apart held returned rfl⟩

variable {outcome : Except Thrown JsString} {dispatch : Dispatch}

theorem settled_dispatch {d : Nat}
    (some_pool : r.pool = some p) (there : r.dispatches[d]? = some dispatch)
    (stepped : r.step (.dispatchSettles d outcome) = some t) : t = (r.settleDispatch d dispatch p
      (dispatch.verdict outcome (r.reasonOf dispatch.call))).nextTurn ∧ dispatch.phase = .running := by
  obtain ⟨u, performed, rfl⟩ := map_eq_some_iff.mp stepped
  have settles : r.dispatchSettles d outcome = some u := performed
  simp only [dispatchSettles, there, some_pool, bind_eq_bind, bind_some] at settles
  split at settles
  · next running =>
    cases settles
    exact ⟨rfl, running⟩
  · cases settles

theorem neverLeased_of_tainted (h : Leases r) {d : Nat}
    (there : r.dispatches[d]? = some dispatch) (bad : dispatch.phase.tainted = true) :
    NeverLeased r dispatch.entry := by
  cases some_pool : r.pool with
  | none =>
    rw [(h.unloaded some_pool).2] at there
    cases there
  | some p => exact neverLeased_of_gone h some_pool ((h.booked p some_pool).2.tainted d dispatch there bad)

theorem neverLeased_of_spoiled (h : Leases r) (some_pool : r.pool = some p) {d : Nat}
      (there : r.dispatches[d]? = some dispatch)
    (stepped : r.step (.dispatchSettles d outcome) = some t)
    (spoiled : dispatch.Spoiled outcome (r.reasonOf dispatch.call)) : NeverLeased t dispatch.entry := by
  have leases := leases_step h stepped
  obtain ⟨rfl, running⟩ := settled_dispatch some_pool there stepped
  have discards := Dispatch.discards_iff_spoiled.mpr spoiled
  let verdict := dispatch.verdict outcome (r.reasonOf dispatch.call)
  let settled : Dispatch := { dispatch with
    phase := .releasing verdict (decide (dispatch.entry ∈ p.entryIds) && (verdict.discards || p.closed)) }
  obtain ⟨bound, _⟩ := List.getElem?_eq_some_iff.mp there
  have after : (r.settleDispatch d dispatch p verdict).nextTurn.dispatches[d]? = some settled :=
    getElem?_set_self bound
  have lost : NeverLeased _ settled.entry := neverLeased_of_tainted leases after discards
  exact lost

theorem takesBack_of_present (owned : p.Owned) (owned' : q.Owned) {l : InstanceLease} (held : l ∈ p.held)
    (returned : l ∉ q.held) (present : l.entry ∈ q.entryIds) : p.TakesBack q l.entry := by
  obtain ⟨e, mem, id⟩ := mem_map.mp present
  cases busy : e.busy with
  | false =>
    have idle : e = ⟨l.entry, false⟩ := by
      rw [← id, ← busy]
    exact .inl (idle ▸ mem)
  | true =>
    have taken : l.entry ∈ q.busyIds := mem_map.mpr ⟨e, mem_filter.mpr ⟨mem, busy⟩, id⟩
    obtain ⟨m, held', same⟩ := mem_map.mp ((owned'.leased l.entry).mpr taken)
    refine .inr ⟨m, held', same, fun before => returned ?_⟩
    rw [← inj_on_of_nodup_map owned.exclusive before held same]
    exact held'

theorem kept_of_wellFormed (h : Leases r) (poolOpen : PoolOpen r) (shutFirst : r.ShutFirst)
    (some_pool : r.pool = some p) {d : Nat} (there : r.dispatches[d]? = some dispatch)
    (stepped : r.step (.dispatchSettles d outcome) = some t)
    (well : ¬dispatch.Spoiled outcome (r.reasonOf dispatch.call)) (live : r.shutdown = false)
    (some_q : t.pool = some q) : p.TakesBack q dispatch.entry := by
  obtain ⟨sound, booked⟩ := h.booked p some_pool
  have leases := leases_step h stepped
  obtain ⟨rfl, running⟩ := settled_dispatch some_pool there stepped
  have keeps : (dispatch.verdict outcome (r.reasonOf dispatch.call)).discards = false := by
    rw [← Bool.not_eq_true, Dispatch.discards_iff_spoiled]
    exact well
  have alive : p.closed = false := by
    refine poolOpen ?_ p some_pool
    by_contra begun
    rw [shutFirst begun] at live
    cases live
  obtain ⟨_, _, _, _, _, back⟩ := InstancePool.release_returns r.signals sound.owned
    (found_running sound booked there running) false
  obtain ⟨bound, _⟩ := List.getElem?_eq_some_iff.mp there
  have held := mem_of_find?_eq_some (found_running sound booked there running)
  refine takesBack_of_present sound.owned (leases.booked q some_q).1.owned held
    ((leasesInOrder leases some_q).settled d _ (getElem?_set_self bound) nofun).2 ?_
  cases some_q
  simp only [keeps]
  exact back rfl alive

end GoforgeWasmRuntime

/-- In every reachable state of a runtime the leases are in order, and every step releases exactly
the leases whose dispatch it settles or cannot start. The instance of a dispatch that went wrong
leaves the pool for good; that of a good one is idle in the pool or leased again by that very step, as
long as `close()` has not been called. -/
theorem instance_exclusivity_and_taint {r : GoforgeWasmRuntime}
    (reachable : runtimeMachine.Reachable r) {p : InstancePool} (some_pool : r.pool = some p) :
    LeasesInOrder r p ∧ (∀ (d : Nat) (dispatch : Dispatch) (fault : Thrown), r.dispatches[d]? = some dispatch →
      dispatch.phase = .threw fault → NeverLeased r dispatch.entry) ∧
    ∀ e t, r.step e = some t → ∃ q, t.pool = some q ∧ ReleasedOnTime r e p q ∧
      ∀ (d : Nat) (outcome : Except Thrown JsString) (dispatch : Dispatch),
        e = .dispatchSettles d outcome → r.dispatches[d]? = some dispatch →
        (dispatch.Spoiled outcome (r.reasonOf dispatch.call) → NeverLeased t dispatch.entry) ∧
        (¬dispatch.Spoiled outcome (r.reasonOf dispatch.call) → r.shutdown = false →
          p.TakesBack q dispatch.entry) := by
  have leases := runtime_leases reachable
  have closing : r.PoolOpen ∧ r.ShutFirst := by
    refine reachable.invariant (I := fun r => r.PoolOpen ∧ r.ShutFirst) ?_ ?_
    · rintro r ⟨options, constructed⟩
      have fresh := GoforgeWasmRuntime.new_fresh constructed
      refine ⟨fun _ p some_pool => ?_, fun begun => absurd fresh.closing begun⟩
      rw [fresh.pool] at some_pool
      cases some_pool
    · intro r e t h stepped
      exact ⟨GoforgeWasmRuntime.poolOpen_step h.1 stepped, GoforgeWasmRuntime.shutFirst_step h.2 stepped⟩
  refine ⟨GoforgeWasmRuntime.leasesInOrder leases some_pool, fun d dispatch fault there phase => ?_,
    fun e t stepped => ?_⟩
  · exact GoforgeWasmRuntime.neverLeased_of_tainted leases there (by rw [phase]; rfl)
  · obtain ⟨q, some_q, on_time⟩ := GoforgeWasmRuntime.released_step leases some_pool stepped
    refine ⟨q, some_q, on_time, ?_⟩
    rintro d outcome dispatch rfl there
    exact ⟨GoforgeWasmRuntime.neverLeased_of_spoiled leases some_pool there stepped,
      fun well live => GoforgeWasmRuntime.kept_of_wellFormed leases closing.1 closing.2 some_pool
        there stepped well live some_q⟩

def dispatchedRun : List RuntimeEvent :=
  [.invoke (js "crypto.sha256") .null .empty .calm,
    .loadThen (.ok (.offering (js "crypto.sha256") false)) .calm, .deliver 0, .resume 0 .calm,
    .instanceCreated 1, .resume 0 .calm]

theorem instance_of_rejected_dispatch_lost :
    ∃ r p t, runtimeMachine.Reachable r ∧ r.pool = some p ∧ LeasesInOrder r p ∧
      p.held.map InstanceLease.entry = [1] ∧
      r.step (.dispatchSettles 0 (.error (.foreign 0))) = some t ∧ NeverLeased t 1 := by
  let rejection : RuntimeEvent := .dispatchSettles 0 (.error (.foreign 0))
  have shown : (GoforgeWasmRuntimeOptions.defaults fun _ => 0).shows dispatchedRun (fun r =>
      r.pool.any (fun p => p.held.map InstanceLease.entry = [1]) && (r.step rejection).isSome &&
        (r.dispatches[0]?).any fun dispatch => dispatch.entry = 1) = true := by decide +kernel
  obtain ⟨r₀, r, constructed, reached, holds⟩ := run_of_shows shown
  simp only [Bool.and_eq_true, Option.any_eq_true, decide_eq_true_eq] at holds
  obtain ⟨⟨⟨p, some_pool, held⟩, steps⟩, dispatch, there, entry⟩ := holds
  obtain ⟨t, stepped⟩ := Option.isSome_iff_exists.mp steps
  have reachable : runtimeMachine.Reachable r := ⟨r₀, dispatchedRun, ⟨_, constructed⟩, reached⟩
  obtain ⟨order, _, settles⟩ := instance_exclusivity_and_taint reachable some_pool
  obtain ⟨q, _, _, outcomes⟩ := settles rejection t stepped
  have lost := (outcomes 0 _ dispatch rfl there).1 (Or.inl ⟨_, rfl⟩)
  exact ⟨r, p, t, reachable, some_pool, order, held, stepped, entry ▸ lost⟩

end ForgeDeno
