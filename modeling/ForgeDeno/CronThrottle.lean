import ForgeDeno.JobExecutions

namespace ForgeDeno

open Option

def startTime? (c : Nat) (s : JobSystem) : JobEvent → Option Int
  | .tick timer date =>
    if JobRuns.starts s (.tick timer date) = some c then some date.now else none
  | _ => none

def cronLog (c : Nat) : LabelledMachine (JobSystem × List Int) JobEvent where
  start s := s = (.new, [])
  step s e := (s.1.step e).map fun t => (t, s.2 ++ (startTime? c s.1 e).toList)

namespace JobControl

variable {control : JobControl} {date : JobClock} {trigger : CronTrigger} {intervalMs lastFired : Int}

theorem execute_kind (control : JobControl) : control.execute.kind = control.kind := by
  unfold execute
  split <;> rfl

theorem fires_cron (kind : control.kind = .cron trigger intervalMs lastFired)
    (throttles : 0 < intervalMs) : control.fires date = true ↔
      matchesTrigger date trigger = true ∧ intervalMs ≤ date.now - lastFired := by
  unfold fires
  rw [kind]
  simp only [Bool.and_eq_true, Bool.not_eq_true', Bool.and_eq_false_iff, decide_eq_false_iff_not]
  constructor
  · rintro ⟨due, off | passed⟩
    · exact absurd throttles off
    · exact ⟨due, by omega⟩
  · rintro ⟨due, passed⟩
    exact ⟨due, .inr (by omega)⟩

theorem tick_cron (kind : (control.tick date).kind = .cron trigger intervalMs lastFired) :
    ∃ before, control.kind = .cron trigger intervalMs before ∧
      lastFired = if control.fires date then date.now else before := by
  rw [tick_eq] at kind
  cases fires : control.fires date with
  | false =>
    simp only [fires, Bool.false_eq_true, if_false] at kind
    exact ⟨lastFired, kind, rfl⟩
  | true =>
    simp only [fires, if_true, execute_kind] at kind
    unfold fired at kind
    cases was : control.kind with
    | interval => simp [was] at kind
    | cron trigger' intervalMs' before =>
      simp only [was, JobKind.cron.injEq] at kind
      obtain ⟨rfl, rfl, rfl⟩ := kind
      exact ⟨before, rfl, rfl⟩

end JobControl

namespace JobSystem

variable {s t : JobSystem} {e : JobEvent} {c : Nat} {log log' : JobSystem × List Int}

theorem cronLog_step (hs : (cronLog c).step log e = some log') :
    log.1.step e = some log'.1 ∧ log'.2 = log.2 ++ (startTime? c log.1 e).toList := by
  obtain ⟨t, stepped, rfl⟩ := map_eq_some_iff.mp hs
  exact ⟨stepped, rfl⟩

theorem step_kind (g : Sound s) (hs : s.step e = some t) {after : JobControl}
    (here : t.heap[c]? = some after) (below : c < s.heap.length) :
    ∃ before, s.heap[c]? = some before ∧ (after.kind = before.kind ∧ startTime? c s e = none ∨
      ∃ timer date, e = .tick timer date ∧ timer.control = c ∧ after = before.tick date) := by
  have found : s.heap[c]? = some s.heap[c] := List.getElem?_eq_getElem below
  refine ⟨s.heap[c], found, ?_⟩
  by_cases ticks : ∃ timer date, e = .tick timer date
  · obtain ⟨timer, date, rfl⟩ := ticks
    dsimp only [step] at hs
    split at hs
    next =>
      cases hs
      by_cases same : timer.control = c
      · refine .inr ⟨timer, date, rfl, same, ?_⟩
        simp only [update, List.getElem?_modify, same, found, if_true, map_eq_map,
          map_some, some.injEq] at here
        exact here.symm
      · refine .inl ⟨?_, ?_⟩
        · simp only [update, List.getElem?_modify, same, found, if_false, map_eq_map,
            map_some, some.injEq] at here
          rw [← here]
        · have elsewhere : JobRuns.starts s (.tick timer date) ≠ some c := by
            unfold JobRuns.starts
            dsimp only
            split
            · exact fun equal => same (some.inj equal)
            · exact fun equal => by cases equal
          exact if_neg elsewhere
    next => cases hs
  · have none_started : startTime? c s e = none := by
      cases e with
      | tick timer date => exact absurd ⟨timer, date, rfl⟩ ticks
      | _ => rfl
    refine .inl ⟨?_, none_started⟩
    by_cases executes : ∃ x, e = .executed x
    · obtain ⟨x, rfl⟩ := executes
      cases hs
      simp only [update, List.getElem?_modify, found, map_eq_map, map_some, some.injEq] at here
      rw [← here]
      split <;> rfl
    · have cores : t.coreAt c = s.coreAt c := by
        rcases step_cores g hs (fun timer date same => ticks ⟨timer, date, same⟩)
          (fun x same => executes ⟨x, same⟩) c with same | ⟨beyond, _⟩
        · exact same
        · omega
      simp only [coreAt, here, found, map_some, some.injEq] at cores
      have kinds : after.core.kind = s.heap[c].core.kind := by rw [cores]
      exact kinds

theorem startTime?_tick {timer : LiveTimer} {date : JobClock} {control : JobControl}
    (same : timer.control = c) (here : s.heap[c]? = some control) : startTime? c s (.tick timer date) =
      if control.fires date && control.free then some date.now else none := by
  unfold startTime? JobRuns.starts
  simp only [same, here, any_some]
  cases control.fires date && control.free <;> simp

theorem startTime?_unborn (missing : s.heap[c]? = none) : startTime? c s e = none := by
  cases e with
  | tick timer date =>
    apply if_neg
    unfold JobRuns.starts
    dsimp only
    split
    next passes =>
      intro same
      rw [some.inj same, missing] at passes
      cases passes
    next => exact nofun
  | _ => rfl

/-- No execution of a throttled job has started later than the job notes, and any two have started
`intervalMs` apart. -/
structure Throttled (c : Nat) (log : JobSystem × List Int) : Prop where
  sound : Sound log.1
  unborn : log.1.heap[c]? = none → log.2 = []
  noted : ∀ control trigger intervalMs lastFired, log.1.heap[c]? = some control →
    control.kind = .cron trigger intervalMs lastFired → 0 < intervalMs →
    (∀ start ∈ log.2, start ≤ lastFired) ∧ log.2.Pairwise fun first second => first + intervalMs ≤ second

theorem Throttled.unborn_step (h : Throttled c log) (hs : (cronLog c).step log e = some log')
    (missing : log.1.heap[c]? = none) : log'.2 = [] := by
  rw [(cronLog_step hs).2, h.unborn missing, startTime?_unborn missing]
  rfl

theorem step_throttled (h : Throttled c log) (hs : (cronLog c).step log e = some log') : Throttled c log' := by
  obtain ⟨stepped, times⟩ := cronLog_step hs
  by_cases below : c < log.1.heap.length
  · refine ⟨(step_sound h.sound stepped).1, fun missing => ?_, ?_⟩
    · have grows := (step_introduces h.sound stepped).grows
      have beyond := List.getElem?_eq_none_iff.mp missing
      omega
    · intro after trigger intervalMs lastFired here kind throttles
      obtain ⟨before, found, kept | ⟨timer, date, rfl, same, rfl⟩⟩ := step_kind h.sound stepped here below
      · rw [times, kept.2]
        simpa using h.noted before trigger intervalMs lastFired found (kept.1 ▸ kind) throttles
      · obtain ⟨last, was, now⟩ := JobControl.tick_cron kind
        obtain ⟨earlier, spaced⟩ := h.noted before trigger intervalMs last found was throttles
        rw [times, startTime?_tick same found]
        cases fires : before.fires date with
        | false =>
          rw [fires] at now
          simp only [Bool.false_and, Bool.false_eq_true, if_false, toList_none, List.append_nil]
          rw [now]
          exact ⟨earlier, spaced⟩
        | true =>
          rw [fires, if_pos rfl] at now
          have passed := ((JobControl.fires_cron was throttles).mp fires).2
          have noted : ∀ start ∈ log.2, start ≤ lastFired := by
            intro start mem
            have := earlier start mem
            omega
          cases before.free with
          | false => simpa using ⟨noted, spaced⟩
          | true =>
            simp only [Bool.and_self, if_true, toList_some]
            refine ⟨fun start mem => ?_, List.pairwise_append.mpr ⟨spaced, List.pairwise_singleton _ _, ?_⟩⟩
            · rcases List.mem_append.mp mem with old | new
              · exact noted start old
              · have := List.mem_singleton.mp new
                omega
            · intro start mem second last_start
              have := earlier start mem
              rw [List.mem_singleton.mp last_start]
              omega
  · have missing : log.1.heap[c]? = none := List.getElem?_eq_none_iff.mpr (by omega)
    have empty := h.unborn_step hs missing
    refine ⟨(step_sound h.sound stepped).1, fun _ => empty, fun _ _ _ _ _ _ _ => ?_⟩
    rw [empty]
    exact ⟨nofun, List.Pairwise.nil⟩

theorem throttled_new (c : Nat) : Throttled c (.new, []) :=
  ⟨sound_new, fun _ => rfl, fun _ _ _ _ _ _ _ =>
    ⟨nofun, List.Pairwise.nil⟩⟩

/-- What `P` says of the ticks of a job that is throttled, at times that match its trigger. -/
def MatchingTick (c : Nat) (P : JobControl → JobClock → Int → Int → Prop) (s : JobSystem) (e : JobEvent) : Prop :=
  ∀ timer date control trigger intervalMs lastFired, e = .tick timer date → timer.control = c →
    s.heap[c]? = some control → control.kind = .cron trigger intervalMs lastFired → 0 < intervalMs →
    matchesTrigger date trigger = true → P control date intervalMs lastFired

def Quiet (times : List Int) (now intervalMs : Int) : Prop :=
  ∀ start ∈ times, ¬(now - intervalMs < start ∧ start ≤ now)

/-- A tick at which the job is free and no execution has started within the interval starts one. -/
def Prompt (c : Nat) (log : JobSystem × List Int) (e : JobEvent) (_ : JobSystem × List Int) : Prop :=
  MatchingTick c (fun control date intervalMs _ => control.free = true →
    Quiet log.2 date.now intervalMs → JobRuns.starts log.1 e = some c) log.1 e

/-- The clock has not been set back behind the last firing and shows the whole interval before the
first, and a firing finds the job free. -/
structure FiresFree (control : JobControl) (date : JobClock) (intervalMs lastFired : Int) : Prop where
  forward : lastFired ≤ date.now
  first : lastFired = 0 → intervalMs ≤ date.now
  free : intervalMs ≤ date.now - lastFired → control.free = true

def FiringsExecute (c : Nat) (log : JobSystem × List Int) (e : JobEvent) (_ : JobSystem × List Int) :
    Prop := MatchingTick c FiresFree log.1 e

structure Recorded (c : Nat) (log : JobSystem × List Int) : Prop where
  throttled : Throttled c log
  last : ∀ control trigger intervalMs lastFired, log.1.heap[c]? = some control →
    control.kind = .cron trigger intervalMs lastFired → 0 < intervalMs → lastFired = log.2.getLastD 0

theorem step_born (g : Sound s) (hs : s.step e = some t) {control : JobControl}
    (here : t.heap[c]? = some control) (beyond : s.heap.length ≤ c) {trigger : CronTrigger}
    {intervalMs lastFired : Int} (kind : control.kind = .cron trigger intervalMs lastFired) : lastFired = 0 := by
  have missing : s.heap[c]? = none := List.getElem?_eq_none_iff.mpr beyond
  have inside := (List.getElem?_eq_some_iff.mp here).1
  by_cases ticks : ∃ timer date, e = .tick timer date
  · obtain ⟨timer, date, rfl⟩ := ticks
    dsimp only [step] at hs
    split at hs
    · cases hs
      have same : (s.update timer.control (JobControl.tick date)).heap.length = s.heap.length :=
        List.length_modify ..
      omega
    · cases hs
  · by_cases executes : ∃ x, e = .executed x
    · obtain ⟨x, rfl⟩ := executes
      cases hs
      have same : (s.update x fun control => { control with running := false }).heap.length =
          s.heap.length := List.length_modify ..
      omega
    · rcases step_cores g hs (fun timer date same => ticks ⟨timer, date, same⟩)
        (fun x same => executes ⟨x, same⟩) c with same | ⟨_, i, made, registers, new⟩
      · simp [coreAt, here, missing] at same
      · simp only [coreAt, here, map_some, some.injEq] at new
        have kinds : control.core.kind = made.core.kind := by rw [new]
        have made_kind : made.kind = .cron trigger intervalMs lastFired := kinds.symm.trans kind
        have fresh : made.kind = .interval ∨ ∃ trigger intervalMs, made.kind = .cron trigger intervalMs 0 := by
          cases e with
          | job j id intervalMs => cases registers; exact .inl rfl
          | cronJob j id trigger intervalMs => cases registers; exact .inr ⟨_, _, rfl⟩
          | jobWithID j id intervalMs =>
            obtain ⟨jobs, _, found⟩ := bind_eq_some_iff.mp registers
            split at found
            · cases found
            · cases found; exact .inl rfl
          | cronJobWithID j id trigger intervalMs =>
            obtain ⟨jobs, _, found⟩ := bind_eq_some_iff.mp registers
            split at found
            · cases found
            · cases found; exact .inr ⟨_, _, rfl⟩
          | _ => cases registers
        rcases fresh with interval | ⟨_, _, cron⟩
        · cases interval.symm.trans made_kind
        · cases cron.symm.trans made_kind
          rfl

theorem step_recorded (h : Recorded c log) (condition : FiringsExecute c log e log')
    (hs : (cronLog c).step log e = some log') : Recorded c log' := by
  obtain ⟨stepped, times⟩ := cronLog_step hs
  refine ⟨step_throttled h.throttled hs, fun after trigger intervalMs lastFired here kind throttles => ?_⟩
  by_cases below : c < log.1.heap.length
  · obtain ⟨before, found, kept | ⟨timer, date, rfl, same, rfl⟩⟩ :=
      step_kind h.throttled.sound stepped here below
    · rw [times, kept.2]
      simpa using h.last before trigger intervalMs lastFired found (kept.1 ▸ kind) throttles
    · obtain ⟨last, was, now⟩ := JobControl.tick_cron kind
      rw [times, startTime?_tick same found]
      cases fires : before.fires date with
      | false =>
        rw [fires] at now
        simpa [now] using h.last before trigger intervalMs last found was throttles
      | true =>
        obtain ⟨due, passed⟩ := (JobControl.fires_cron was throttles).mp fires
        have free := (condition timer date before trigger intervalMs last rfl same found was throttles
          due).free passed
        rw [fires, if_pos rfl] at now
        simp [free, now]
  · have missing : log.1.heap[c]? = none := List.getElem?_eq_none_iff.mpr (by omega)
    rw [h.throttled.unborn_step hs missing]
    exact step_born h.throttled.sound stepped here (by omega) kind

theorem recorded_prompt (h : Recorded c log) (condition : FiringsExecute c log e log') : Prompt c log e log' := by
  intro timer date control trigger intervalMs lastFired ticks same here kind throttles due free quiet
  have fires_free := condition timer date control trigger intervalMs lastFired ticks same here kind
    throttles due
  have last := h.last control trigger intervalMs lastFired here kind throttles
  have passed : intervalMs ≤ date.now - lastFired := by
    cases earlier : log.2.getLast? with
    | none =>
      have never : lastFired = 0 := by
        rw [last, List.getLastD_eq_getLast?, earlier]
        rfl
      have := fires_free.first never
      omega
    | some start =>
      have noted : lastFired = start := by
        rw [last, List.getLastD_eq_getLast?, earlier]
        rfl
      have outside := quiet start (List.mem_of_getLast? earlier)
      have := fires_free.forward
      omega
  have fires : control.fires date = true := (JobControl.fires_cron kind throttles).mpr ⟨due, passed⟩
  subst ticks
  unfold JobRuns.starts
  simp [same, here, fires, free]

/-- Two executions of a throttled cron job start `intervalMs` apart. Where every firing finds the job
free, a tick starts an execution whenever the job is free and none has started within the interval. -/
theorem cron_interval_kept (c : Nat) (es : List JobEvent) :
    (∀ log control trigger intervalMs lastFired, (cronLog c).run (.new, []) es = some log →
      log.1.heap[c]? = some control → control.kind = .cron trigger intervalMs lastFired →
      0 < intervalMs → log.2.Pairwise fun first second => first + intervalMs ≤ second) ∧
    ((cronLog c).Along (FiringsExecute c) (.new, []) es → (cronLog c).Along (Prompt c) (.new, []) es) := by
  constructor
  · intro log control trigger intervalMs lastFired reached here kind throttles
    have throttled : Throttled c log :=
      LabelledMachine.run_invariant (fun _ _ _ h hs => step_throttled h hs) (throttled_new c) reached
    exact (throttled.noted control trigger intervalMs lastFired here kind throttles).2
  · have start : Recorded c (.new, []) :=
      ⟨throttled_new c, fun _ _ _ _ here => by cases here⟩
    generalize ((JobSystem.new, []) : JobSystem × List Int) = log at start
    intro condition
    induction es generalizing log with
    | nil => trivial
    | cons e es ih =>
      intro log' hs
      obtain ⟨now, later⟩ := LabelledMachine.along_cons condition hs
      exact ⟨recorded_prompt start now, ih log' (step_recorded start now hs) later⟩

theorem matching_other {P : JobControl → JobClock → Int → Int → Prop}
    (ticks : ∀ timer date, e ≠ .tick timer date) : MatchingTick c P s e :=
  fun timer date _ _ _ _ same => absurd same (ticks timer date)

def dayMs : Int := 86400000

def dailyNoon : CronTrigger :=
  { year := none, month := none, day := none, hour := 12, minute := 0, second := 0 }

def nextNoon : JobClock := { JobRuns.noon with day := 2, now := JobRuns.noon.now + dayMs }

def noonRun : List JobEvent :=
  [.newJobs, .cronJobWithID 1 (js "a") dailyNoon (dayMs + 43200000), .startJobs 1,
    .tick ⟨0, 0, 1000⟩ JobRuns.noon]

theorem noon_run_prompt : (cronLog 0).Along (Prompt 0) (.new, []) noonRun := by
  apply (cron_interval_kept 0 noonRun).2
  intro log hs
  cases Option.some.inj hs
  refine ⟨matching_other fun _ _ same => (by cases same), fun log hs => ?_⟩
  cases Option.some.inj hs
  refine ⟨matching_other fun _ _ same => (by cases same), fun log hs => ?_⟩
  cases Option.some.inj hs
  refine ⟨matching_other fun _ _ same => (by cases same), fun log hs => ?_⟩
  cases Option.some.inj hs
  refine ⟨fun timer date control trigger intervalMs lastFired ticks _ here kind _ _ => ?_, trivial⟩
  cases ticks
  cases Option.some.inj here
  cases kind
  exact ⟨by decide, by decide, by decide⟩

def pausedNoonRun : List JobEvent :=
  [.newJobs, .cronJobWithID 1 (js "a") dailyNoon (dayMs + 43200000), .startJobs 1,
    .pauseJob 1 (js "a"), .tick ⟨0, 0, 1000⟩ JobRuns.noon, .resumeJob 1 (js "a"),
    .tick ⟨0, 0, 1000⟩ nextNoon]

theorem paused_noon_not_prompt : ¬(cronLog 0).Along (Prompt 0) (.new, []) pausedNoonRun := by
  intro along
  have steps := ((((((along _ rfl).2 _ rfl).2 _ rfl).2 _ rfl).2 _ rfl).2 _ rfl).2 _ rfl
  have started := steps.1 ⟨0, 0, 1000⟩ nextNoon _ dailyNoon _ _ rfl rfl rfl rfl (by decide) rfl rfl
    fun _ mem => absurd mem List.not_mem_nil
  cases started

end JobSystem

end ForgeDeno
