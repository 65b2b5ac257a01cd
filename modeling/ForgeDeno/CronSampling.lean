import ForgeDeno.CronThrottle
import Mathlib.Data.Nat.Find
import Mathlib.Order.Monotone.Basic

namespace ForgeDeno

open List

/-- A sequence that never falls and outgrows every bound takes a value past its first exactly once when
it neither jumps over it nor stays at it. -/
theorem visited_once_iff {g : Nat → Int} (start : g 0 = 0) (rises : ∀ k, g k ≤ g (k + 1))
    (grows : ∀ k : Nat, (k : Int) ≤ g k) {d : Int} (positive : 0 < d) : (∃! k, g (k + 1) = d) ↔
      ∀ k, ¬(g k < d ∧ d < g (k + 1)) ∧ ¬(g k = d ∧ g (k + 1) = d) := by
  have mono : Monotone g := monotone_nat_of_le_succ rises
  constructor
  · rintro ⟨found, here, once⟩ k
    constructor
    · rintro ⟨below, above⟩
      have after : found + 1 ≤ k := by
        by_contra less
        have := mono (show k + 1 ≤ found + 1 by omega)
        omega
      have := mono after
      omega
    · rintro ⟨first, second⟩
      cases k with
      | zero => omega
      | succ j =>
        have same : j = j + 1 := (once j first).trans (once (j + 1) second).symm
        omega
  · intro steps
    have reached : ∃ k, d ≤ g k := ⟨d.toNat, by have := grows d.toNat; omega⟩
    have least := Nat.find_spec reached
    cases first : Nat.find reached with
    | zero =>
      rw [first, start] at least
      omega
    | succ k =>
      rw [first] at least
      have below : ¬ d ≤ g k := Nat.find_min reached (by omega)
      have here : g (k + 1) = d := by
        have := (steps k).1
        omega
      refine ⟨k, here, fun other there => ?_⟩
      dsimp only at there
      have after : k + 1 ≤ other + 1 := by
        rw [← first]
        exact Nat.find_min' reached there.ge
      by_contra differs
      have := mono (show k + 1 + 1 ≤ other + 1 by omega)
      have := rises (k + 1)
      exact (steps (k + 1)).2 ⟨here, by omega⟩

structure Calendar where
  clock : Int → JobClock
  now : ∀ time, (clock time).now = time
  seconds : ∀ time trigger,
    matchesTrigger (clock time) trigger = matchesTrigger (clock (1000 * (time / 1000))) trigger

def Calendar.matches (calendar : Calendar) (trigger : CronTrigger) (second : Int) : Bool :=
  matchesTrigger (calendar.clock (1000 * second)) trigger

/-- A timer that `setInterval` has armed, with how late every callback of it runs. A timer that drifts
schedules a callback after the one before it has run, another one keeps to its grid. -/
structure CallbackTimer where
  armed : Int
  drifts : Bool
  late : Nat → Int
  inTime : ∀ k, 0 ≤ late k ∧ late k < 1000

namespace CallbackTimer

variable (timer : CallbackTimer)

def lag : Nat → Int
  | 0 => timer.late 0
  | k + 1 => (if timer.drifts then lag k else 0) + timer.late (k + 1)

def time (k : Nat) : Int := timer.armed + cronResolutionMs * (k + 1) + timer.lag k

def carried : Nat → Int
  | 0 => 0
  | k + 1 => (timer.armed % 1000 + timer.lag k) / 1000

/-- A second after that of arming at which the lag of no callback is carried into another second. -/
def Keeps (second : Int) : Prop :=
  timer.armed / 1000 < second ∧ ∀ k, timer.carried (k + 1) ≠ timer.carried k →
    second ≠ timer.armed / 1000 + (k + 1) + min (timer.carried k) (timer.carried (k + 1))

theorem lag_succ (k : Nat) :
    timer.lag (k + 1) = (if timer.drifts then timer.lag k else 0) + timer.late (k + 1) := rfl

theorem carried_zero : timer.carried 0 = 0 := rfl

theorem carried_succ (k : Nat) : timer.carried (k + 1) = (timer.armed % 1000 + timer.lag k) / 1000 := rfl

theorem lag_nonneg (k : Nat) : 0 ≤ timer.lag k := by
  induction k with
  | zero => exact (timer.inTime 0).1
  | succ k ih =>
    have here := (timer.inTime (k + 1)).1
    rw [lag_succ]
    split
    · omega
    · omega

theorem carried_nonneg (k : Nat) : 0 ≤ timer.carried k := by
  cases k with
  | zero => exact Int.le_refl 0
  | succ k =>
    have := timer.lag_nonneg k
    rw [carried_succ]
    omega

theorem carried_step (k : Nat) : timer.carried k ≤ timer.carried (k + 1) + 1 ∧
    timer.carried (k + 1) ≤ timer.carried k + 1 := by
  cases k with
  | zero =>
    have first := timer.inTime 0
    have own : timer.lag 0 = timer.late 0 := rfl
    rw [carried_succ, carried_zero, own]
    omega
  | succ k =>
    have here := timer.inTime (k + 1)
    have before := timer.inTime k
    have behind := timer.lag_nonneg k
    rw [carried_succ, carried_succ, lag_succ]
    split
    next => omega
    next grid =>
      have own : timer.lag k = timer.late k := by
        cases k with
        | zero => rfl
        | succ k => simp [lag_succ, grid]
      omega

theorem time_second (k : Nat) : timer.time k / 1000 = timer.armed / 1000 + (k + 1) + timer.carried (k + 1) := by
  rw [carried_succ]
  unfold time cronResolutionMs
  omega

theorem sampled_once_iff {second : Int} (after : timer.armed / 1000 ≤ second) :
    (∃! k, timer.time k / 1000 = second) ↔ timer.Keeps second := by
  unfold Keeps
  by_cases later : timer.armed / 1000 < second
  · have counted := @visited_once_iff (fun k => k + timer.carried k) (by rfl)
      (fun k => by have := timer.carried_step k; push_cast; omega)
      (fun k => by have := timer.carried_nonneg k; omega) (second - timer.armed / 1000) (by omega)
    have callbacks : (∃! k, timer.time k / 1000 = second) ↔
        ∃! k : Nat, ((k + 1 : Nat) : Int) + timer.carried (k + 1) = second - timer.armed / 1000 := by
      apply existsUnique_congr
      intro k
      have := timer.time_second k
      push_cast
      omega
    rw [callbacks, counted, and_iff_right later]
    apply forall_congr'
    intro k
    have := timer.carried_step k
    push_cast
    omega
  · constructor
    · rintro ⟨k, here, _⟩
      have := timer.time_second k
      have := timer.carried_nonneg (k + 1)
      omega
    · rintro ⟨later', _⟩
      exact absurd later' later

end CallbackTimer

namespace JobSystem

variable {s t : JobSystem} {e : JobEvent} {c : Nat} {log log' : JobSystem × List Int}
  {trigger : CronTrigger} {intervalMs : Int}

def tickDate? (c : Nat) : JobEvent → Option JobClock
  | .tick timer date => if timer.control = c then some date else none
  | _ => none

theorem tickDate?_tick (timer : LiveTimer) (date : JobClock) :
    tickDate? c (.tick timer date) = if timer.control = c then some date else none := rfl

/-- At its ticks the job is not paused or stopped, and its last execution is over. -/
def ReadyTick (c : Nat) (log : JobSystem × List Int) (e : JobEvent) (_ : JobSystem × List Int) : Prop :=
  ∀ timer date, e = .tick timer date → timer.control = c →
    ∃ control, log.1.heap[c]? = some control ∧ control.free = true

def HasTrigger (c : Nat) (trigger : CronTrigger) (s : JobSystem) : Prop :=
  ∃ control intervalMs lastFired, s.heap[c]? = some control ∧
    control.kind = .cron trigger intervalMs lastFired ∧ intervalMs ≤ 0

theorem step_sampled (g : Sound log.1) (job : HasTrigger c trigger log.1)
    (hs : (cronLog c).step log e = some log') (ready : ReadyTick c log e log') :
    HasTrigger c trigger log'.1 ∧ log'.2 = log.2 ++
      (((tickDate? c e).filter fun date => matchesTrigger date trigger).map JobClock.now).toList := by
  obtain ⟨stepped, times⟩ := cronLog_step hs
  obtain ⟨control, intervalMs, lastFired, here, kind, off⟩ := job
  have below : c < log.1.heap.length := (List.getElem?_eq_some_iff.mp here).1
  have grows := (step_introduces g stepped).grows
  obtain ⟨later, now⟩ : ∃ later, log'.1.heap[c]? = some later :=
    ⟨_, getElem?_eq_getElem (by omega)⟩
  obtain ⟨before, found, kept | ⟨timer, date, rfl, same, after⟩⟩ := step_kind g stepped now below
  · cases here.symm.trans found
    refine ⟨⟨_, intervalMs, lastFired, now, kept.1.trans kind, off⟩, ?_⟩
    rw [times, kept.2]
    have silent : ((tickDate? c e).filter fun date => matchesTrigger date trigger) = none := by
      cases e with
      | tick timer date =>
        by_cases same : timer.control = c
        · obtain ⟨ready_control, there, free⟩ := ready timer date rfl same
          cases here.symm.trans there
          have started := kept.2
          rw [startTime?_tick same here, free, Bool.and_true] at started
          have unmatched : matchesTrigger date trigger = false := by
            cases due : matchesTrigger date trigger with
            | false => rfl
            | true =>
              have fires : control.fires date = true := by
                unfold JobControl.fires
                rw [kind]
                have passes : decide (0 < intervalMs) = false := decide_eq_false (by omega)
                simp [due, passes]
              rw [fires] at started
              cases started
          rw [tickDate?_tick, if_pos same, Option.filter_some, unmatched]
          rfl
        · rw [tickDate?_tick, if_neg same]
          rfl
      | _ => rfl
    rw [silent]
    rfl
  · cases here.symm.trans found
    obtain ⟨ready_control, there, free⟩ := ready timer date rfl same
    cases here.symm.trans there
    have fires : control.fires date = matchesTrigger date trigger := by
      unfold JobControl.fires
      rw [kind]
      have passes : decide (0 < intervalMs) = false := decide_eq_false (by omega)
      simp [passes]
    constructor
    · rw [after, JobControl.tick_eq] at now
      refine ⟨_, intervalMs, if control.fires date then date.now else lastFired, now, ?_, off⟩
      cases control.fires date with
      | false => exact kind
      | true =>
        rw [if_pos rfl, if_pos rfl, JobControl.execute_kind]
        unfold JobControl.fired
        rw [kind]
    · rw [times, startTime?_tick same here, free, Bool.and_true, fires]
      rw [tickDate?_tick, if_pos same, Option.filter_some]
      cases matchesTrigger date trigger with
      | false => rfl
      | true => rfl

theorem run_sampled (g : Sound log.1) (job : HasTrigger c trigger log.1) {es : List JobEvent}
    (ready : (cronLog c).Along (ReadyTick c) log es) (hr : (cronLog c).run log es = some log') :
    log'.2 = log.2 ++ ((es.filterMap (tickDate? c)).filter fun date => matchesTrigger date trigger).map
      JobClock.now := by
  induction es generalizing log with
  | nil =>
    cases hr
    simp
  | cons e es ih =>
    obtain ⟨r, hs, hr⟩ := LabelledMachine.run_cons_some hr
    obtain ⟨first, later⟩ := LabelledMachine.along_cons ready hs
    obtain ⟨kept, times⟩ := step_sampled g job hs first
    rw [ih (step_sound g (cronLog_step hs).1).1 kept later hr, times, append_assoc]
    cases ticks : tickDate? c e with
    | none => rw [filterMap_cons_none ticks]; rfl
    | some date =>
      rw [filterMap_cons_some ticks, Option.filter_some]
      cases due : matchesTrigger date trigger with
      | false => simp [due]
      | true => simp [due]

variable {calendar : Calendar} {timer : CallbackTimer} {stop second : Int} {n : Nat}

def startsIn (second : Int) (times : List Int) : List Int := times.filter fun start => start / 1000 = second

theorem length_eq_one_iff {l : List Nat} (distinct : l.Nodup) : l.length = 1 ↔ ∃! k, k ∈ l := by
  constructor
  · intro one
    obtain ⟨k, rfl⟩ := List.length_eq_one_iff.mp one
    exact ⟨k, mem_singleton.mpr rfl, fun other mem => mem_singleton.mp mem⟩
  · rintro ⟨k, here, once⟩
    cases l with
    | nil => cases here
    | cons first rest =>
      cases rest with
      | nil => rfl
      | cons second rest =>
        have equal := (once first mem_cons_self).trans
          (once second (mem_cons_of_mem _ mem_cons_self)).symm
        rw [equal] at distinct
        exact absurd mem_cons_self (nodup_cons.mp distinct).1

theorem starts_once_iff {times : List Int} (within : ∀ k, k < n ↔ timer.time k < stop)
    (started : times = (((List.range n).map fun k => calendar.clock (timer.time k)).filter fun date =>
      matchesTrigger date trigger).map JobClock.now)
    (due : calendar.matches trigger second = true) (from_armed : timer.armed ≤ 1000 * second)
    (to_stop : 1000 * second + 1000 ≤ stop) : (startsIn second times).length = 1 ↔ timer.Keeps second := by
  have callbacks : startsIn second times = ((range n).filter fun k =>
      timer.time k / 1000 = second).map timer.time := by
    have one : ∀ k, matchesTrigger (calendar.clock (timer.time k)) trigger =
        calendar.matches trigger (timer.time k / 1000) := fun k => calendar.seconds _ trigger
    unfold startsIn
    rw [started, filter_map, filter_map, filter_map, map_map, filter_filter]
    have now : JobClock.now ∘ (fun k => calendar.clock (timer.time k)) = timer.time :=
      funext fun k => calendar.now _
    rw [now]
    congr 1
    apply filter_congr
    intro k _
    show (decide ((calendar.clock (timer.time k)).now / 1000 = second) &&
      matchesTrigger (calendar.clock (timer.time k)) trigger) = decide (timer.time k / 1000 = second)
    rw [calendar.now]
    by_cases here : timer.time k / 1000 = second
    · rw [one, here, due, Bool.and_true]
    · simp [here]
  rw [callbacks, length_map, length_eq_one_iff (nodup_range.filter _),
    ← timer.sampled_once_iff (by omega)]
  apply existsUnique_congr
  intro k
  rw [mem_filter, mem_range, decide_eq_true_iff, within]
  constructor
  · exact fun both => both.2
  · intro here
    exact ⟨by omega, here⟩

/-- A cron job whose callback is over before its timer ticks again is executed exactly once in every
matching second of the armed period exactly when the timer keeps each of these seconds. -/
theorem cron_once_iff {s t : JobSystem} {times : List Int} {es : List JobEvent}
    (reached : jobMachine.Reachable s) (job : HasTrigger c trigger s)
    (ran : (cronLog c).run (s, []) es = some (t, times)) (ready : (cronLog c).Along (ReadyTick c) (s, []) es)
    (within : ∀ k, k < n ↔ timer.time k < stop)
    (ticks : es.filterMap (tickDate? c) = (List.range n).map fun k => calendar.clock (timer.time k)) :
    (∀ second, calendar.matches trigger second = true → timer.armed ≤ 1000 * second →
      1000 * second + 1000 ≤ stop → (startsIn second times).length = 1) ↔
    ∀ second, calendar.matches trigger second = true → timer.armed ≤ 1000 * second →
      1000 * second + 1000 ≤ stop → timer.Keeps second := by
  have sound : Sound s := by
    apply LabelledMachine.Reachable.invariant (I := Sound) _ _ reached
    · intro s start
      rw [show s = .new from start]
      exact sound_new
    · intro s e t g hs
      exact (step_sound g hs).1
  have started := run_sampled sound job ready ran
  rw [List.nil_append, ticks] at started
  constructor
  · intro all second due from_armed to_stop
    exact (starts_once_iff within started due from_armed to_stop).mp (all second due from_armed to_stop)
  · intro all second due from_armed to_stop
    exact (starts_once_iff within started due from_armed to_stop).mpr (all second due from_armed to_stop)

def utcCalendar : Calendar where
  clock time :=
    { year := 1970, month := 1, day := 1, hour := time / 3600000, minute := time / 60000 % 60,
      second := time / 1000 % 60, now := time }
  now _ := rfl
  seconds time trigger := by
    have hour : 1000 * (time / 1000) / 3600000 = time / 3600000 := by omega
    have minute : 1000 * (time / 1000) / 60000 % 60 = time / 60000 % 60 := by omega
    have second : 1000 * (time / 1000) / 1000 % 60 = time / 1000 % 60 := by omega
    dsimp only [matchesTrigger]
    rw [hour, minute, second]

def secondSecond : CronTrigger :=
  { year := none, month := none, day := none, hour := 0, minute := 0, second := 1 }

def halfPast (late : Int) (inTime : 0 ≤ late ∧ late < 1000) : CallbackTimer :=
  ⟨500, false, fun _ => late, fun _ => inTime⟩

def armedJob : List JobEvent :=
  [.newJobs, .cronJobWithID 1 (js "a") secondSecond 0, .startJobs 1]

/-- A callback that is on time, and the second that it is in. -/
theorem prompt_callback_once : ∃ s t times, jobMachine.run .new armedJob = some s ∧
    (cronLog 0).run (s, []) [.tick ⟨0, 0, 1000⟩ (utcCalendar.clock 1500)] = some (t, times) ∧
    ((∀ second, utcCalendar.matches secondSecond second = true → 500 ≤ 1000 * second →
        1000 * second + 1000 ≤ 2000 → (startsIn second times).length = 1) ↔
      ∀ second, utcCalendar.matches secondSecond second = true → 500 ≤ 1000 * second →
        1000 * second + 1000 ≤ 2000 → (halfPast 0 (by decide)).Keeps second) := by
  obtain ⟨s, armed⟩ : ∃ s, jobMachine.run .new armedJob = some s := ⟨_, rfl⟩
  have job : HasTrigger 0 secondSecond s := by
    cases Option.some.inj armed
    exact ⟨_, 0, 0, rfl, rfl, by decide⟩
  obtain ⟨t, times, ran⟩ : ∃ t times,
      (cronLog 0).run (s, []) [.tick ⟨0, 0, 1000⟩ (utcCalendar.clock 1500)] = some (t, times) := by
    cases Option.some.inj armed
    exact ⟨_, _, rfl⟩
  have ready : (cronLog 0).Along (ReadyTick 0) (s, []) [.tick ⟨0, 0, 1000⟩ (utcCalendar.clock 1500)] := by
    cases Option.some.inj armed
    refine fun log _ => ⟨fun timer date _ same => ⟨_, rfl, rfl⟩, trivial⟩
  have within : ∀ k, k < 1 ↔ (halfPast 0 (by decide)).time k < 2000 := by
    intro k
    have lag : (halfPast 0 (by decide)).lag k = 0 := by
      cases k with
      | zero => rfl
      | succ k => rfl
    unfold CallbackTimer.time cronResolutionMs
    rw [lag]
    show k < 1 ↔ (500 : Int) + 1000 * (k + 1) + 0 < 2000
    omega
  exact ⟨s, t, times, armed, ran, cron_once_iff ⟨.new, armedJob, rfl, armed⟩ job ran ready within rfl⟩

/-- A callback that is 600 ms late misses the second. -/
theorem late_callback_misses_second : ∃ s t times, jobMachine.run .new armedJob = some s ∧
    (cronLog 0).run (s, []) [.tick ⟨0, 0, 1000⟩ (utcCalendar.clock ((halfPast 600 (by decide)).time 0))] =
      some (t, times) ∧ (halfPast 600 (by decide)).time 0 = 2100 ∧ 2400 ≤ (halfPast 600 (by decide)).time 1 ∧
    utcCalendar.matches secondSecond 1 = true ∧ (startsIn 1 times).length = 0 := by
  obtain ⟨s, armed⟩ : ∃ s, jobMachine.run .new armedJob = some s := ⟨_, rfl⟩
  cases Option.some.inj armed
  exact ⟨_, _, _, rfl, rfl, by decide, by decide, by decide, by decide⟩

end JobSystem

end ForgeDeno
