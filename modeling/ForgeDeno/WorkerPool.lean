import ForgeDeno.JsNumber
import ForgeDeno.LabelledMachine

namespace JsNumber

/-- `count < x` for a counter; no count is below `NaN`. -/
def exceeds (x : JsNumber) (count : Nat) : Bool :=
  match x with
  | .nan => false
  | .infinity negative => !negative
  | .finite value => decide ((count : ℚ) < value.toRat)

/-- `count >= x` for a counter; no count reaches `NaN`. -/
def reachedBy (x : JsNumber) (count : Nat) : Bool :=
  match x with
  | .nan => false
  | .infinity negative => negative
  | .finite value => decide (value.toRat ≤ count)

theorem reached_or_nan {x : JsNumber} {count : Nat} (h : x.exceeds count = false) :
    x.reachedBy count = true ∨ x = .nan := by
  cases x with
  | nan => exact .inr rfl
  | infinity negative => exact .inl (by simpa [exceeds, reachedBy] using h)
  | finite value =>
    have le : value.toRat ≤ count := by simpa [exceeds] using h
    exact .inl (by simpa [reachedBy] using le)

theorem min_eq (x y : JsNumber) : min x y = x ∨ min x y = y := by
  unfold min
  split
  · exact .inl rfl
  · exact .inr rfl
  · split
    · exact .inr rfl
    · exact .inl rfl

end JsNumber

namespace ForgeDeno

/-- Where a task that `pump` has pulled off the queue stands: its microtask is scheduled, the task
has been called, its promise has settled and `finally` has not run yet. -/
inductive FlightStage where
  | dispatched
  | called
  | settled (failed : Bool)
deriving DecidableEq

structure Flight where
  task : Nat
  stage : FlightStage
deriving DecidableEq

structure TaskStart where
  task : Nat
  unfinished : Nat
  slots : JsNumber

/-- The worker loop. Tasks have the numbers in which `addTask` took them; `added`, `starts`, `called`
and `dropped` are the history of the pool. -/
structure Workers where
  limit : JsNumber
  queue : List Nat
  active : Nat
  running : Bool
  parallel : Bool
  inFlight : List Flight
  added : Nat
  starts : List TaskStart
  called : List Nat
  dropped : List Nat

def defaultWorkerLimit (hardwareConcurrency : JsNumber) : JsNumber :=
  JsNumber.max 1 hardwareConcurrency

namespace Workers

def new (hardwareConcurrency : JsNumber) : Workers :=
  { limit := defaultWorkerLimit hardwareConcurrency, queue := [], active := 0, running := false,
    parallel := true, inFlight := [], added := 0, starts := [], called := [], dropped := [] }

def started (s : Workers) : List Nat := s.starts.map TaskStart.task

def slots (s : Workers) : JsNumber := if s.parallel then s.limit else JsNumber.min s.limit 1

/-- One turn of the loop in `pump`. -/
def start (task : Nat) (rest : List Nat) (s : Workers) : Workers :=
  { s with
    queue := rest
    active := s.active + 1
    inFlight := s.inFlight ++ [⟨task, .dispatched⟩]
    starts := s.starts ++ [⟨task, s.inFlight.length, s.slots⟩] }

/-- The loop in `pump`, over what the queue holds. -/
def pumpLoop (slots : JsNumber) : List Nat → Workers → Workers
  | [], s => s
  | task :: rest, s =>
    if s.running && slots.exceeds s.active then pumpLoop slots rest (s.start task rest) else s

def pump (s : Workers) : Workers := pumpLoop s.slots s.queue s

def pumpIfRunning (s : Workers) : Workers := if s.running then s.pump else s

def addTask (s : Workers) : Workers :=
  { s with queue := s.queue ++ [s.added], added := s.added + 1 }.pumpIfRunning

def setWorkersLimit (value : JsNumber) (s : Workers) : Workers :=
  { s with limit := value }.pumpIfRunning

def setParallelism (value : Bool) (s : Workers) : Workers :=
  { s with parallel := value }.pumpIfRunning

def runWorkers (s : Workers) : Workers :=
  if s.running then s else { s with running := true }.pump

def stopWorkers (s : Workers) : Workers := { s with running := false }

def restartWorkers (s : Workers) : Workers := s.stopWorkers.runWorkers

def resetWorkers (hardwareConcurrency : JsNumber) (s : Workers) : Workers :=
  { s.stopWorkers with
    queue := [], limit := defaultWorkerLimit hardwareConcurrency, parallel := true
    dropped := s.dropped ++ s.queue }

def callFirst : List Flight → Option (Nat × List Flight)
  | [] => none
  | flight :: rest =>
    if flight.stage = .dispatched then some (flight.task, { flight with stage := .called } :: rest)
    else (callFirst rest).map fun found => (found.1, flight :: found.2)

/-- The `finally` handler of a task. -/
def finish (i : Nat) (s : Workers) : Workers :=
  { s with active := s.active - 1, inFlight := s.inFlight.eraseIdx i }.pumpIfRunning

end Workers

/-- The calls of the API, and what happens to the tasks in flight; `settle` and `finish` name a task
by its place in the list of them. -/
inductive WorkerEvent where
  | addTask
  | setWorkersLimit (value : JsNumber)
  | setParallelism (value : Bool)
  | runWorkers
  | stopWorkers
  | restartWorkers
  | resetWorkers
  | call
  | settle (i : Nat) (failed : Bool)
  | finish (i : Nat)

namespace Workers

def step (hardwareConcurrency : JsNumber) (s : Workers) : WorkerEvent → Option Workers
  | .addTask => some s.addTask
  | .setWorkersLimit value => some (s.setWorkersLimit value)
  | .setParallelism value => some (s.setParallelism value)
  | .runWorkers => some s.runWorkers
  | .stopWorkers => some s.stopWorkers
  | .restartWorkers => some s.restartWorkers
  | .resetWorkers => some (s.resetWorkers hardwareConcurrency)
  | .call => (callFirst s.inFlight).map fun found =>
      { s with inFlight := found.2, called := s.called ++ [found.1] }
  | .settle i failed =>
    match s.inFlight[i]? with
    | some ⟨task, .called⟩ =>
      some { s with inFlight := s.inFlight.set i ⟨task, .settled failed⟩ }
    | _ => none
  | .finish i =>
    match s.inFlight[i]? with
    | some ⟨_, .settled _⟩ => some (s.finish i)
    | _ => none

end Workers

def workerMachine (hardwareConcurrency : JsNumber) : LabelledMachine Workers WorkerEvent where
  start s := s = .new hardwareConcurrency
  step := Workers.step hardwareConcurrency

namespace Workers

variable {s t : Workers}

def scheduled (flights : List Flight) : List Nat :=
  (flights.filter fun flight => flight.stage = .dispatched).map Flight.task

structure Kept (s : Workers) : Prop where
  counted : s.active = s.inFlight.length
  ordered : (s.started ++ s.queue).Pairwise (· < ·)
  complete : (s.started ++ s.queue ++ s.dropped).Perm (List.range s.added)
  bounded : ∀ start ∈ s.starts, start.slots.exceeds start.unfinished = true
  inOrder : s.started = s.called ++ scheduled s.inFlight

def Busy (s : Workers) : Prop := s.running = true → s.queue = [] ∨ s.slots.exceeds s.active = false

theorem Kept.start (h : Kept s) {task : Nat} {rest : List Nat} (queue : s.queue = task :: rest)
    (room : s.slots.exceeds s.active = true) : Kept (s.start task rest) := by
  have started : (s.start task rest).started = s.started ++ [task] := by simp [started, Workers.start]
  have same : (s.start task rest).started ++ rest = s.started ++ s.queue := by
    rw [started, queue, List.append_assoc]
    rfl
  constructor
  · show s.active + 1 = (s.inFlight ++ [_]).length
    rw [h.counted, List.length_append]
    rfl
  · show ((s.start task rest).started ++ rest).Pairwise (· < ·)
    rw [same]
    exact h.ordered
  · show ((s.start task rest).started ++ rest ++ s.dropped).Perm (List.range s.added)
    rw [same]
    exact h.complete
  · intro start mem
    rcases List.mem_append.mp mem with old | new
    · exact h.bounded start old
    · rw [List.mem_singleton.mp new]
      show s.slots.exceeds s.inFlight.length = true
      rw [← h.counted]
      exact room
  · rw [started, h.inOrder]
    show s.called ++ scheduled s.inFlight ++ [task] = s.called ++ scheduled (s.inFlight ++ [_])
    simp [scheduled, List.filter_append]

theorem Kept.pumpLoop (queue : List Nat) (h : Kept s) (here : s.queue = queue) :
    Kept (pumpLoop s.slots queue s) := by
  induction queue generalizing s with
  | nil => exact h
  | cons task rest ih =>
    unfold Workers.pumpLoop
    split
    next open_ =>
      have room : s.slots.exceeds s.active = true := by
        rw [Bool.and_eq_true] at open_
        exact open_.2
      exact ih (h.start here room) rfl
    next => exact h

theorem busy_pumpLoop (queue : List Nat) (here : s.queue = queue) : Busy (pumpLoop s.slots queue s) := by
  induction queue generalizing s with
  | nil => exact fun _ => .inl here
  | cons task rest ih =>
    unfold Workers.pumpLoop
    split
    next => exact ih (s := s.start task rest) rfl
    next closed =>
      intro running
      rw [running, Bool.true_and, Bool.not_eq_true] at closed
      exact .inr closed

theorem Kept.pump (h : Kept s) : Kept s.pump := h.pumpLoop s.queue rfl

theorem busy_pump (s : Workers) : Busy s.pump := busy_pumpLoop s.queue rfl

theorem Kept.pumpIfRunning (h : Kept s) : Kept s.pumpIfRunning := by
  unfold Workers.pumpIfRunning
  split
  · exact h.pump
  · exact h

theorem busy_pumpIfRunning (s : Workers) : Busy s.pumpIfRunning := by
  unfold Workers.pumpIfRunning
  split
  next => exact busy_pump s
  next stopped => exact fun running => absurd running stopped

theorem Kept.same (h : Kept s) (queue : t.queue = s.queue) (active : t.active = s.active)
    (inFlight : t.inFlight = s.inFlight) (added : t.added = s.added) (starts : t.starts = s.starts)
    (called : t.called = s.called) (dropped : t.dropped = s.dropped) : Kept t := by
  have started : t.started = s.started := congrArg (List.map TaskStart.task) starts
  constructor
  · rw [active, inFlight]
    exact h.counted
  · rw [started, queue]
    exact h.ordered
  · rw [started, queue, dropped, added]
    exact h.complete
  · rw [starts]
    exact h.bounded
  · rw [started, called, inFlight]
    exact h.inOrder

theorem Kept.addTask (h : Kept s) : Kept s.addTask := by
  apply Kept.pumpIfRunning
  have below : ∀ task ∈ s.started ++ s.queue, task < s.added := by
    intro task mem
    exact List.mem_range.mp (h.complete.subset (List.mem_append_left _ mem))
  constructor
  · exact h.counted
  · show (s.started ++ (s.queue ++ [s.added])).Pairwise (· < ·)
    rw [← List.append_assoc]
    apply List.pairwise_append.mpr
    refine ⟨h.ordered, List.pairwise_singleton _ _, ?_⟩
    intro task mem last here
    rw [List.mem_singleton.mp here]
    exact below task mem
  · show (s.started ++ (s.queue ++ [s.added]) ++ s.dropped).Perm (List.range (s.added + 1))
    rw [List.range_succ, ← List.append_assoc]
    have moved : (s.started ++ s.queue ++ [s.added] ++ s.dropped).Perm
        (s.started ++ s.queue ++ s.dropped ++ [s.added]) := by
      rw [List.append_assoc, List.append_assoc (s.started ++ s.queue)]
      exact List.Perm.append_left _ List.perm_append_comm
    exact moved.trans (h.complete.append_right _)
  · exact h.bounded
  · exact h.inOrder

theorem Kept.runWorkers (h : Kept s) : Kept s.runWorkers := by
  unfold Workers.runWorkers
  split
  · exact h
  · exact Kept.pump (h.same rfl rfl rfl rfl rfl rfl rfl)

theorem Kept.resetWorkers (h : Kept s) (hardwareConcurrency : JsNumber) :
    Kept (s.resetWorkers hardwareConcurrency) := by
  constructor
  · exact h.counted
  · show (s.started ++ []).Pairwise (· < ·)
    rw [List.append_nil]
    exact (List.pairwise_append.mp h.ordered).1
  · show (s.started ++ [] ++ (s.dropped ++ s.queue)).Perm (List.range s.added)
    rw [List.append_nil]
    have moved : (s.started ++ (s.dropped ++ s.queue)).Perm (s.started ++ (s.queue ++ s.dropped)) :=
      List.Perm.append_left _ List.perm_append_comm
    rw [← List.append_assoc s.started s.queue] at moved
    exact moved.trans h.complete
  · exact h.bounded
  · exact h.inOrder

variable {flights : List Flight}

theorem scheduled_callFirst {found : Nat × List Flight} (h : callFirst flights = some found) :
    scheduled flights = found.1 :: scheduled found.2 ∧ found.2.length = flights.length := by
  induction flights generalizing found with
  | nil => simp [callFirst] at h
  | cons flight rest ih =>
    unfold callFirst at h
    split at h
    next first =>
      cases h
      simp [scheduled, first]
    next later =>
      obtain ⟨found', here, rfl⟩ := Option.map_eq_some_iff.mp h
      obtain ⟨order, length⟩ := ih here
      simp only [scheduled, List.filter_cons, later, decide_false, Bool.false_eq_true, if_false,
        List.length_cons, length, and_true] at order ⊢
      exact order

theorem scheduled_append (before after : List Flight) :
    scheduled (before ++ after) = scheduled before ++ scheduled after := by
  simp [scheduled]

theorem scheduled_split {i : Nat} {flight : Flight} (h : flights[i]? = some flight) :
    scheduled flights = scheduled (flights.take i) ++ scheduled (flight :: flights.drop (i + 1)) := by
  obtain ⟨inside, here⟩ := List.getElem?_eq_some_iff.mp h
  rw [← scheduled_append, ← here, ← List.drop_eq_getElem_cons inside, List.take_append_drop]

theorem scheduled_set {i : Nat} {task : Nat} {failed : Bool} (h : flights[i]? = some ⟨task, .called⟩) :
    scheduled (flights.set i ⟨task, .settled failed⟩) = scheduled flights := by
  rw [List.set_eq_take_append_cons_drop, if_pos (List.getElem?_eq_some_iff.mp h).1, scheduled_append,
    scheduled_split h]
  rfl

theorem scheduled_eraseIdx {i : Nat} {task : Nat} {failed : Bool}
    (h : flights[i]? = some ⟨task, .settled failed⟩) : scheduled (flights.eraseIdx i) = scheduled flights := by
  rw [List.eraseIdx_eq_take_drop_succ, scheduled_append, scheduled_split h]
  rfl

theorem Kept.finish (h : Kept s) {i task : Nat} {failed : Bool}
    (here : s.inFlight[i]? = some ⟨task, .settled failed⟩) : Kept (s.finish i) := by
  apply Kept.pumpIfRunning
  obtain ⟨inside, _⟩ := List.getElem?_eq_some_iff.mp here
  constructor
  · show s.active - 1 = (s.inFlight.eraseIdx i).length
    rw [h.counted, List.length_eraseIdx_of_lt inside]
  · exact h.ordered
  · exact h.complete
  · exact h.bounded
  · show s.started = s.called ++ scheduled (s.inFlight.eraseIdx i)
    rw [scheduled_eraseIdx here]
    exact h.inOrder

theorem Kept.step {hardwareConcurrency : JsNumber} {e : WorkerEvent} (h : Kept s)
    (hs : s.step hardwareConcurrency e = some t) : Kept t := by
  cases e with
  | addTask => cases hs; exact h.addTask
  | setWorkersLimit value =>
    cases hs
    exact Kept.pumpIfRunning (h.same rfl rfl rfl rfl rfl rfl rfl)
  | setParallelism value =>
    cases hs
    exact Kept.pumpIfRunning (h.same rfl rfl rfl rfl rfl rfl rfl)
  | runWorkers => cases hs; exact h.runWorkers
  | stopWorkers => cases hs; exact h.same rfl rfl rfl rfl rfl rfl rfl
  | restartWorkers =>
    cases hs
    have stopped : Kept s.stopWorkers := h.same rfl rfl rfl rfl rfl rfl rfl
    exact stopped.runWorkers
  | resetWorkers => cases hs; exact h.resetWorkers hardwareConcurrency
  | call =>
    obtain ⟨found, here, rfl⟩ := Option.map_eq_some_iff.mp hs
    obtain ⟨order, length⟩ := scheduled_callFirst here
    refine ⟨h.counted.trans length.symm, h.ordered, h.complete, h.bounded, ?_⟩
    show s.started = s.called ++ [found.1] ++ scheduled found.2
    rw [h.inOrder, order, List.append_assoc]
    rfl
  | settle i failed =>
    dsimp only [Workers.step] at hs
    split at hs
    next task here =>
      cases hs
      refine ⟨?_, h.ordered, h.complete, h.bounded, ?_⟩
      · show s.active = (s.inFlight.set i _).length
        rw [List.length_set]
        exact h.counted
      · show s.started = s.called ++ scheduled (s.inFlight.set i _)
        rw [scheduled_set here]
        exact h.inOrder
    next => cases hs
  | finish i =>
    dsimp only [Workers.step] at hs
    split at hs
    next task failed here => cases hs; exact h.finish here
    next => cases hs

theorem Busy.step {hardwareConcurrency : JsNumber} {e : WorkerEvent} (h : Busy s)
    (hs : s.step hardwareConcurrency e = some t) : Busy t := by
  have stopped : ∀ r : Workers, r.running = false → Busy r :=
    fun r halted running => absurd (halted.symm.trans running) Bool.false_ne_true
  have run : ∀ r : Workers, Busy r → Busy r.runWorkers := by
    intro r busy
    unfold Workers.runWorkers
    split
    · exact busy
    · exact busy_pump _
  cases e with
  | addTask => cases hs; exact busy_pumpIfRunning _
  | setWorkersLimit value => cases hs; exact busy_pumpIfRunning _
  | setParallelism value => cases hs; exact busy_pumpIfRunning _
  | runWorkers => cases hs; exact run s h
  | stopWorkers => cases hs; exact stopped _ rfl
  | restartWorkers => cases hs; exact run _ (stopped _ rfl)
  | resetWorkers => cases hs; exact stopped _ rfl
  | call => obtain ⟨found, here, rfl⟩ := Option.map_eq_some_iff.mp hs; exact h
  | settle i failed =>
    dsimp only [Workers.step] at hs
    split at hs
    · cases hs; exact h
    · cases hs
  | finish i =>
    dsimp only [Workers.step] at hs
    split at hs
    · cases hs; exact busy_pumpIfRunning _
    · cases hs

theorem kept_new (hardwareConcurrency : JsNumber) : Kept (.new hardwareConcurrency) :=
  ⟨rfl, .nil, .nil, fun _ mem => absurd mem List.not_mem_nil, rfl⟩

variable {hardwareConcurrency : JsNumber}

theorem kept_reachable
    (reachable : (workerMachine hardwareConcurrency).Reachable s) : Kept s :=
  reachable.invariant (fun _ start => start ▸ kept_new hardwareConcurrency) (fun _ _ _ kept hs => kept.step hs)

theorem busy_reachable
    (reachable : (workerMachine hardwareConcurrency).Reachable s) : Busy s :=
  reachable.invariant (fun _ start => start ▸ fun _ => .inl rfl) (fun _ _ _ busy hs => busy.step hs)

/-- Tasks start once and in the order in which they were added, all of them are started, queued or
dropped by a reset, and each start finds a slot that no unfinished task takes. -/
theorem worker_pool_safe {hardwareConcurrency : JsNumber}
    (reachable : (workerMachine hardwareConcurrency).Reachable s) :
    (s.started ++ s.queue).Pairwise (· < ·) ∧ s.called <+: s.started ∧
      (s.started ++ s.queue ++ s.dropped).Perm (List.range s.added) ∧
      ∀ start ∈ s.starts, start.slots.exceeds start.unfinished = true := by
  have kept := kept_reachable reachable
  exact ⟨kept.ordered, ⟨_, kept.inOrder.symm⟩, kept.complete, kept.bounded⟩

/-- Two tasks on one slot; the second starts when the first has failed, after a reset and restart. -/
def oneSlot : List WorkerEvent :=
  [.setWorkersLimit 1, .addTask, .runWorkers, .call, .resetWorkers, .setWorkersLimit 1, .addTask,
    .runWorkers, .settle 0 true, .finish 0]

theorem one_slot_safe : ∃ s, (workerMachine 4).run (.new 4) oneSlot = some s ∧ s.started = [0, 1] ∧
      ∀ start ∈ s.starts, start.slots.exceeds start.unfinished = true := by
  have finished : ((workerMachine 4).run (.new 4) oneSlot).map started = some [0, 1] := by
    decide +kernel
  obtain ⟨s, reached, started⟩ := Option.map_eq_some_iff.mp finished
  exact ⟨s, reached, started, (worker_pool_safe ⟨_, _, rfl, reached⟩).2.2.2⟩

theorem slot_of_positive (positive : s.limit.exceeds 0 = true) : s.slots.exceeds 0 = true := by
  have one : JsNumber.exceeds 1 0 = true := by decide +kernel
  unfold slots
  split
  · exact positive
  · rcases JsNumber.min_eq s.limit 1 with same | same
    · rw [same]; exact positive
    · rw [same]; exact one

theorem queue_empty_when_idle
    (reachable : (workerMachine hardwareConcurrency).Reachable s) (running : s.running = true)
    (positive : s.limit.exceeds 0 = true) (idle : s.inFlight = []) : s.queue = [] := by
  have busy := busy_reachable reachable running
  have none_active : s.active = 0 := by rw [(kept_reachable reachable).counted, idle]; rfl
  rw [none_active, slot_of_positive positive] at busy
  exact busy.resolve_right Bool.noConfusion

/-- While the loop runs, tasks wait only while all slots are taken, or for a limit that is `NaN`. With
a positive limit none waits once every task in flight has settled and been seen off. -/
theorem worker_pool_busy {hardwareConcurrency : JsNumber}
    (reachable : (workerMachine hardwareConcurrency).Reachable s) (running : s.running = true) :
    (s.queue = [] ∨ s.slots.reachedBy s.inFlight.length = true ∨ s.slots = .nan) ∧
      (s.limit.exceeds 0 = true → s.inFlight = [] → s.queue = []) := by
  refine ⟨?_, queue_empty_when_idle reachable running⟩
  rcases busy_reachable reachable running with empty | full
  · exact .inl empty
  · rw [← (kept_reachable reachable).counted]
    exact .inr (JsNumber.reached_or_nan full)

/-- A task waits and nothing runs: no number of tasks reaches `NaN`. -/
def limitedByNaN : List WorkerEvent := [.addTask, .setWorkersLimit .nan, .runWorkers]

theorem nan_limit_starves :
    ∃ s, (workerMachine 4).run (.new 4) limitedByNaN = some s ∧ s.running = true ∧ s.queue = [0] ∧
      s.slots.reachedBy s.inFlight.length = false :=
  ⟨_, rfl, rfl, rfl, rfl⟩

theorem one_slot_busy : ∃ s, (workerMachine 4).run (.new 4) (oneSlot.take 8) = some s ∧ s.queue = [1] ∧
      (s.queue = [] ∨ s.slots.reachedBy s.inFlight.length = true ∨ s.slots = .nan) := by
  have facts : ((workerMachine 4).run (.new 4) (oneSlot.take 8)).map
      (fun s => (s.running, s.queue)) = some (true, [1]) := by decide +kernel
  obtain ⟨s, reached, facts⟩ := Option.map_eq_some_iff.mp facts
  exact ⟨s, reached, congrArg Prod.snd facts, (worker_pool_busy ⟨_, _, rfl, reached⟩ (congrArg Prod.fst facts)).1⟩

end Workers

end ForgeDeno
