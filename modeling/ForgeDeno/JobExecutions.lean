import ForgeDeno.JobArming

namespace ForgeDeno

namespace JobControl

/-- The tick gets as far as `#execute`. -/
def fires (date : JobClock) (control : JobControl) : Bool :=
  match control.kind with
  | .interval => true
  | .cron trigger intervalMs lastFired =>
    matchesTrigger date trigger && !(0 < intervalMs && date.now - lastFired < intervalMs)

/-- The guard of `#execute` lets an execution through. -/
def free (control : JobControl) : Bool := !(control.paused || control.stopped || control.running)

theorem execute_running (control : JobControl) : control.execute.running = (control.running || control.free) := by
  unfold execute free
  cases control.paused <;> cases control.stopped <;> cases running : control.running <;> simp [running]

def fired (date : JobClock) (control : JobControl) : JobControl :=
  match control.kind with
  | .interval => control
  | .cron trigger intervalMs _ => { control with kind := .cron trigger intervalMs date.now }

theorem tick_eq (date : JobClock) (control : JobControl) :
    control.tick date = if control.fires date then (control.fired date).execute else control := by
  unfold tick fires fired
  cases control.kind with
  | interval => simp
  | cron trigger intervalMs lastFired =>
    cases due : matchesTrigger date trigger with
    | false => simp [due]
    | true =>
      by_cases throttled : 0 < intervalMs ∧ date.now - lastFired < intervalMs
      · simp [due, throttled]
      · have passed : (decide (0 < intervalMs) && decide (date.now - lastFired < intervalMs)) = false := by
          simpa using throttled
        simp [due, passed]

theorem fired_flags (date : JobClock) (control : JobControl) :
    (control.fired date).running = control.running ∧ (control.fired date).free = control.free := by
  unfold fired free
  cases control.kind <;> simp

theorem tick_running (date : JobClock) (control : JobControl) :
    (control.tick date).running = (control.running || (control.fires date && control.free)) := by
  obtain ⟨running, free⟩ := fired_flags date control
  rw [tick_eq]
  cases control.fires date with
  | false => simp
  | true => simp [execute_running, running, free]

end JobControl

/-- What has become of the promise `Promise.resolve().then(fn)`. -/
inductive CallbackPhase where
  | queued
  | unfinished
  | settled (failed : Bool)
deriving DecidableEq

def CallbackPhase.isSettled : CallbackPhase → Bool
  | .settled _ => true
  | _ => false

/-- Where `#execute` is: in its `try`, at the `await` of its `finally`, or behind it. -/
inductive ExecutePhase where
  | waiting
  | draining
  | finished
deriving DecidableEq

/-- An execution that the guard of `#execute` has let through. -/
structure JobExecution where
  control : Nat
  timeoutMs : Option Int
  callback : CallbackPhase
  phase : ExecutePhase
deriving DecidableEq

structure JobRuns where
  jobs : JobSystem
  timeouts : List (Option Int)
  executions : List JobExecution

inductive JobRunEvent where
  | call (e : JobEvent) (timeoutMs : Option Int)
  | invoke (n : Nat)
  | settle (n : Nat) (failed : Bool)
  | deadline (n : Nat)
  | proceed (n : Nat)
  | release (n : Nat)

namespace JobRuns

def new : JobRuns := { jobs := .new, timeouts := [], executions := [] }

def starts (s : JobSystem) : JobEvent → Option Nat
  | .tick timer date =>
    if s.heap[timer.control]?.any fun control => control.fires date && control.free then
      some timer.control
    else none
  | _ => none

def execution (s : JobRuns) (c : Nat) : JobExecution :=
  { control := c, timeoutMs := (s.timeouts[c]?).join, callback := .queued, phase := .waiting }

def called (s : JobRuns) (e : JobEvent) (timeoutMs : Option Int) (jobs : JobSystem) : JobRuns :=
  { jobs
    timeouts := if s.jobs.heap.length < jobs.heap.length then s.timeouts ++ [timeoutMs] else s.timeouts
    executions := s.executions ++ ((starts s.jobs e).map s.execution).toList }

def setExecution (s : JobRuns) (n : Nat) (x : JobExecution) : JobRuns :=
  { s with executions := s.executions.set n x }

def advance (s : JobRuns) (n : Nat) (x : JobExecution) : JobRunEvent → Option JobRuns
  | .invoke _ =>
    if x.callback = .queued then some (s.setExecution n { x with callback := .unfinished }) else none
  | .settle _ failed =>
    if x.callback = .unfinished then some (s.setExecution n { x with callback := .settled failed })
    else none
  | .deadline _ =>
    -- `withTimeout` rejects, which is reported, and the `finally` begins
    if x.phase = .waiting ∧ x.timeoutMs.any (0 < ·) then
      some (s.setExecution n { x with phase := .draining })
    else none
  | .proceed _ =>
    if x.phase = .waiting ∧ x.callback.isSettled then
      some (s.setExecution n { x with phase := .draining })
    else none
  | .release _ =>
    if x.phase = .draining ∧ x.callback.isSettled then
      some { s.setExecution n { x with phase := .finished } with
        jobs := s.jobs.update x.control fun control => { control with running := false } }
    else none
  | .call _ _ => none

def step (s : JobRuns) : JobRunEvent → Option JobRuns
  | .call (.executed _) _ => none
  | .call e timeoutMs => (s.jobs.step e).map (s.called e timeoutMs)
  | .invoke n => s.executions[n]?.bind fun x => s.advance n x (.invoke n)
  | .settle n failed => s.executions[n]?.bind fun x => s.advance n x (.settle n failed)
  | .deadline n => s.executions[n]?.bind fun x => s.advance n x (.deadline n)
  | .proceed n => s.executions[n]?.bind fun x => s.advance n x (.proceed n)
  | .release n => s.executions[n]?.bind fun x => s.advance n x (.release n)

end JobRuns

def jobRunMachine : LabelledMachine JobRuns JobRunEvent where
  start s := s = .new
  step := JobRuns.step

namespace JobExecution

/-- An execution of the job that `#execute` has not left. -/
def pendingOf (c : Nat) (x : JobExecution) : Bool := x.control = c && x.phase ≠ .finished

def openOf (c : Nat) (x : JobExecution) : Bool := x.control = c && !x.callback.isSettled

end JobExecution

namespace JobRuns

variable {s t : JobRuns} {e : JobRunEvent} {c n : Nat} {x : JobExecution}

def Running (s : JobSystem) (c : Nat) : Prop :=
  ∃ control, s.heap[c]? = some control ∧ control.running = true

theorem running_core {s t : JobSystem} (same : t.coreAt c = s.coreAt c) (h : Running s c) : Running t c := by
  obtain ⟨control, here, runs⟩ := h
  unfold JobSystem.coreAt at same
  rw [here] at same
  cases there : t.heap[c]? with
  | none => simp [there] at same
  | some control' =>
    refine ⟨control', there, ?_⟩
    simp only [there, Option.map_some, Option.some.injEq] at same
    have running : control'.core.running = control.core.running := by rw [same]
    exact running.trans runs

theorem running_update {s : JobSystem} {c x : Nat} {change : JobControl → JobControl}
    (kept : x = c → ∀ control, control.running = true → (change control).running = true)
    (h : Running s x) : Running (s.update c change) x := by
  obtain ⟨control, here, runs⟩ := h
  unfold Running JobSystem.update
  rw [List.getElem?_modify, here]
  by_cases same : c = x
  · exact ⟨change control, by simp [same], kept same.symm control runs⟩
  · exact ⟨control, by simp [same], runs⟩

theorem call_running {s t : JobSystem} {e : JobEvent} (g : s.Sound) (hs : s.step e = some t)
    (executes : ∀ c, e ≠ .executed c) (h : Running s c) : Running t c := by
  by_cases ticks : ∃ timer date, e = .tick timer date
  · obtain ⟨timer, date, rfl⟩ := ticks
    dsimp only [JobSystem.step] at hs
    split at hs
    · cases hs
      apply running_update _ h
      intro _ control runs
      rw [JobControl.tick_running, runs]
      rfl
    · cases hs
  · have below : c < s.heap.length := by
      obtain ⟨control, here, _⟩ := h
      exact (List.getElem?_eq_some_iff.mp here).1
    rcases JobSystem.step_cores g hs (fun timer date same => ticks ⟨timer, date, same⟩) executes c with
      same | ⟨beyond, _⟩
    · exact running_core same h
    · omega

theorem starts_running {s t : JobSystem} {e : JobEvent} (hs : s.step e = some t)
    (started : starts s e = some c) : ¬Running s c ∧ Running t c := by
  unfold starts at started
  split at started
  next timer date =>
    split at started
    next passes =>
      cases started
      dsimp only [JobSystem.step] at hs
      split at hs
      · cases hs
        cases here : s.heap[timer.control]? with
        | none => simp [here] at passes
        | some control =>
          simp only [here, Option.any_some, Bool.and_eq_true] at passes
          constructor
          · rintro ⟨control', here', runs⟩
            cases here.symm.trans here'
            simp [JobControl.free, runs] at passes
          · refine ⟨control.tick date, ?_, ?_⟩
            · simp [JobSystem.update, here]
            · simp [JobControl.tick_running, passes]
      · cases hs
    next => cases started
  next => cases started

/-- The executions that go on have their jobs running, one for each job, and one that is over has
seen its callback settle. -/
structure Guarded (s : JobRuns) : Prop where
  sound : s.jobs.Sound
  running : ∀ x ∈ s.executions, x.phase ≠ .finished → Running s.jobs x.control
  alone : ∀ c, s.executions.countP (JobExecution.pendingOf c) ≤ 1
  settled : ∀ x ∈ s.executions, x.phase = .finished → x.callback.isSettled

theorem Guarded.pending_running (h : Guarded s) (idle : ¬Running s.jobs c) :
    s.executions.countP (JobExecution.pendingOf c) = 0 := by
  rw [List.countP_eq_zero]
  intro x mem pending
  simp only [JobExecution.pendingOf, Bool.and_eq_true, decide_eq_true_eq] at pending
  exact idle (pending.1 ▸ h.running x mem pending.2)

theorem guarded_called {jobs : JobSystem} {e : JobEvent} (h : Guarded s) (timeoutMs : Option Int)
    (executes : ∀ c, e ≠ .executed c) (hs : s.jobs.step e = some jobs) : Guarded (s.called e timeoutMs jobs) := by
  have sound := (JobSystem.step_sound h.sound hs).1
  have kept : ∀ x ∈ s.executions, x.phase ≠ .finished → Running jobs x.control :=
    fun x mem going => call_running h.sound hs executes (h.running x mem going)
  cases started : starts s.jobs e with
  | none =>
    have same : (s.called e timeoutMs jobs).executions = s.executions := by simp [called, started]
    exact ⟨sound, same ▸ kept, same ▸ h.alone, same ▸ h.settled⟩
  | some c =>
    have more : (s.called e timeoutMs jobs).executions = s.executions ++ [s.execution c] := by
      simp [called, started]
    obtain ⟨idle, runs⟩ := starts_running hs started
    refine ⟨sound, fun x mem going => ?_, fun d => ?_, fun x mem ended => ?_⟩
    · rw [more] at mem
      rcases List.mem_append.mp mem with old | new
      · exact kept x old going
      · rw [List.mem_singleton.mp new]
        exact runs
    · rw [more, List.countP_append, List.countP_singleton]
      by_cases same : d = c
      · subst same
        rw [h.pending_running idle]
        split <;> omega
      · have other : (s.execution c).pendingOf d = false := by
          simp [JobExecution.pendingOf, execution, Ne.symm same]
        rw [other]
        simpa using h.alone d
    · rw [more] at mem
      rcases List.mem_append.mp mem with old | new
      · exact h.settled x old ended
      · rw [List.mem_singleton.mp new] at ended
        cases ended

theorem guarded_going {y : JobExecution} (h : Guarded s) (here : s.executions[n]? = some x)
    (control : y.control = x.control) (phase : y.phase = .finished ↔ x.phase = .finished)
    (settled : x.callback.isSettled → y.callback.isSettled) : Guarded (s.setExecution n y) := by
  have mem_x := List.mem_of_getElem? here
  have cases_mem : ∀ z ∈ s.executions.set n y, z = y ∨ z ∈ s.executions := by
    intro z mem
    rcases List.mem_or_eq_of_mem_set mem with old | new
    · exact .inr old
    · exact .inl new
  refine ⟨h.sound, fun z mem going => ?_, fun c => ?_, fun z mem ended => ?_⟩
  · rcases cases_mem z mem with rfl | old
    · rw [control]
      exact h.running x mem_x fun ended => going (phase.mpr ended)
    · exact h.running z old going
  · have same : y.pendingOf c = x.pendingOf c := by
      simp only [JobExecution.pendingOf, control, ne_eq, phase]
    show (s.executions.set n y).countP _ ≤ 1
    rw [ListRules.countP_set_same here same]
    exact h.alone c
  · rcases cases_mem z mem with rfl | old
    · exact settled (h.settled x mem_x (phase.mp ended))
    · exact h.settled z old ended

theorem guarded_release (h : Guarded s) (here : s.executions[n]? = some x) (going : x.phase ≠ .finished)
    (settled : x.callback.isSettled) : Guarded { s.setExecution n { x with phase := .finished } with
      jobs := s.jobs.update x.control fun control => { control with running := false } } := by
  have executed : s.jobs.step (.executed x.control) =
      some (s.jobs.update x.control fun control => { control with running := false }) := rfl
  have was : x.pendingOf x.control = true := by simp [JobExecution.pendingOf, going]
  have gone : ({ x with phase := .finished } : JobExecution).pendingOf x.control = false := by
    simp [JobExecution.pendingOf]
  have drop := ListRules.countP_set_drop here was gone
  have cases_mem : ∀ z ∈ s.executions.set n { x with phase := .finished },
      z = { x with phase := .finished } ∨ z ∈ s.executions := by
    intro z mem
    rcases List.mem_or_eq_of_mem_set mem with old | new
    · exact .inr old
    · exact .inl new
  refine ⟨(JobSystem.step_sound h.sound executed).1, fun z mem left => ?_, fun c => ?_, fun z mem ended => ?_⟩
  · have other : z.control ≠ x.control := by
      intro same
      have counted : z.pendingOf x.control = true := by simp [JobExecution.pendingOf, same, left]
      have positive : 0 < (s.executions.set n { x with phase := .finished }).countP
          (JobExecution.pendingOf x.control) := List.countP_pos_iff.mpr ⟨z, mem, counted⟩
      have most := h.alone x.control
      omega
    rcases cases_mem z mem with rfl | old
    · exact absurd rfl left
    · exact running_update (fun same => absurd same other) (h.running z old left)
  · show (s.executions.set n _).countP _ ≤ 1
    by_cases same : c = x.control
    · rw [same]
      have most := h.alone x.control
      omega
    · have equal : ({ x with phase := .finished } : JobExecution).pendingOf c = x.pendingOf c := by
        simp [JobExecution.pendingOf, Ne.symm same]
      rw [ListRules.countP_set_same here equal]
      exact h.alone c
  · rcases cases_mem z mem with rfl | old
    · exact settled
    · exact h.settled z old ended

theorem guarded_advance (h : Guarded s) (here : s.executions[n]? = some x)
    (hs : s.advance n x e = some t) : Guarded t := by
  have mem := List.mem_of_getElem? here
  cases e with
  | call e timeoutMs => cases hs
  | invoke m =>
    dsimp only [advance] at hs
    split at hs
    next queued =>
      cases hs
      refine guarded_going h here rfl Iff.rfl fun settled => ?_
      rw [queued] at settled
      cases settled
    next => cases hs
  | settle m failed =>
    dsimp only [advance] at hs
    split at hs
    · cases hs
      exact guarded_going h here rfl Iff.rfl fun _ => rfl
    · cases hs
  | deadline m =>
    dsimp only [advance] at hs
    split at hs
    next waiting =>
      cases hs
      refine guarded_going h here rfl ?_ id
      simp [waiting.1]
    next => cases hs
  | proceed m =>
    dsimp only [advance] at hs
    split at hs
    next waiting =>
      cases hs
      refine guarded_going h here rfl ?_ id
      simp [waiting.1]
    next => cases hs
  | release m =>
    dsimp only [advance] at hs
    split at hs
    next draining =>
      cases hs
      exact guarded_release h here (by simp [draining.1]) draining.2
    next => cases hs

theorem step_cases (hs : s.step e = some t) :
    (∃ e' timeoutMs jobs, e = .call e' timeoutMs ∧ (∀ c, e' ≠ .executed c) ∧
      s.jobs.step e' = some jobs ∧ t = s.called e' timeoutMs jobs) ∨
    ∃ n x, s.executions[n]? = some x ∧ s.advance n x e = some t := by
  cases e with
  | call e' timeoutMs =>
    by_cases executes : ∃ c, e' = .executed c
    · obtain ⟨c, rfl⟩ := executes
      cases hs
    · have mapped : (s.jobs.step e').map (s.called e' timeoutMs) = some t := by
        cases e' with
        | executed c => exact absurd ⟨c, rfl⟩ executes
        | _ => exact hs
      obtain ⟨jobs, hs', rfl⟩ := Option.map_eq_some_iff.mp mapped
      exact .inl ⟨e', timeoutMs, jobs, rfl, fun c same => executes ⟨c, same⟩, hs', rfl⟩
  | invoke n =>
    obtain ⟨x, here, hs⟩ := Option.bind_eq_some_iff.mp hs
    exact .inr ⟨n, x, here, hs⟩
  | settle n failed =>
    obtain ⟨x, here, hs⟩ := Option.bind_eq_some_iff.mp hs
    exact .inr ⟨n, x, here, hs⟩
  | deadline n =>
    obtain ⟨x, here, hs⟩ := Option.bind_eq_some_iff.mp hs
    exact .inr ⟨n, x, here, hs⟩
  | proceed n =>
    obtain ⟨x, here, hs⟩ := Option.bind_eq_some_iff.mp hs
    exact .inr ⟨n, x, here, hs⟩
  | release n =>
    obtain ⟨x, here, hs⟩ := Option.bind_eq_some_iff.mp hs
    exact .inr ⟨n, x, here, hs⟩

theorem step_guarded (h : Guarded s) (hs : s.step e = some t) : Guarded t := by
  rcases step_cases hs with ⟨e', timeoutMs, jobs, _, executes, hs', rfl⟩ | ⟨n, x, here, hs'⟩
  · exact guarded_called h timeoutMs executes hs'
  · exact guarded_advance h here hs'

theorem guarded_new : Guarded .new :=
  ⟨JobSystem.sound_new, nofun, fun _ => Nat.zero_le _, nofun⟩

/-- Of every registered job at most one callback is not settled, and none while the job is not
running. -/
theorem executions_never_overlap {es : List JobRunEvent} (reached : jobRunMachine.run .new es = some t)
    (c : Nat) : t.executions.countP (JobExecution.openOf c) ≤ 1 ∧
      ∀ control, t.jobs.heap[c]? = some control → control.running = false →
        t.executions.countP (JobExecution.openOf c) = 0 := by
  have guarded : Guarded t :=
    LabelledMachine.run_invariant (I := Guarded) (fun _ _ _ h hs => step_guarded h hs) guarded_new reached
  have fewer : t.executions.countP (JobExecution.openOf c) ≤
      t.executions.countP (JobExecution.pendingOf c) := by
    apply List.countP_mono_left
    intro x mem unsettled
    simp only [JobExecution.openOf, Bool.and_eq_true, decide_eq_true_eq, Bool.not_eq_true'] at unsettled
    simp only [JobExecution.pendingOf, Bool.and_eq_true, decide_eq_true_eq]
    refine ⟨unsettled.1, fun ended => ?_⟩
    have settled := guarded.settled x mem ended
    rw [unsettled.2] at settled
    cases settled
  refine ⟨fewer.trans (guarded.alone c), fun control here idle => ?_⟩
  have none_pending := guarded.pending_running (c := c) fun ⟨control', here', runs⟩ => by
    cases Option.some.inj (here.symm.trans here')
    rw [idle] at runs
    cases runs
  omega

def noon : JobClock :=
  { year := 2026, month := 1, day := 1, hour := 12, minute := 0, second := 0, now := 1767268800000 }

def timedOutRun : List JobRunEvent :=
  [.call .newJobs none, .call (.jobWithID 1 (js "a") 30) (some 10), .call (.startJobs 1) none,
    .call (.tick ⟨0, 0, 30⟩ noon) none, .invoke 0, .deadline 0, .call (.tick ⟨0, 0, 30⟩ noon) none]

theorem timed_out_run_never_overlaps : ∃ t, jobRunMachine.run .new timedOutRun = some t ∧
    t.executions.countP (JobExecution.openOf 0) = 1 ∧ (t.executions.countP (JobExecution.openOf 0) ≤ 1 ∧
      ∀ control, t.jobs.heap[0]? = some control → control.running = false →
        t.executions.countP (JobExecution.openOf 0) = 0) := by
  have run : jobRunMachine.run .new timedOutRun = some _ := rfl
  refine ⟨_, run, ?_, executions_never_overlap run 0⟩
  decide

end JobRuns

end ForgeDeno
