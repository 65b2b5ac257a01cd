import ForgeDeno.JsString
import ForgeDeno.LabelledMachine
import ForgeDeno.ListRules

namespace ForgeDeno

structure CronTrigger where
  year : Option Int
  month : Option Int
  day : Option Int
  hour : Int
  minute : Int
  second : Int

structure JobClock where
  year : Int
  month : Int
  day : Int
  hour : Int
  minute : Int
  second : Int
  now : Int

def matchesTrigger (date : JobClock) (trigger : CronTrigger) : Bool :=
  trigger.year.all (date.year == ·) && trigger.month.all (date.month == ·) &&
    trigger.day.all (date.day == ·) && date.hour == trigger.hour && date.minute == trigger.minute &&
    date.second == trigger.second

/-- The kind of a job, with what its `tick` closes over. -/
inductive JobKind where
  | interval
  | cron (trigger : CronTrigger) (intervalMs lastFired : Int)

structure JobControl where
  id : JsString
  kind : JobKind
  timerIntervalMs : Int
  paused : Bool
  stopped : Bool
  running : Bool
  timer : Option Nat

inductive JobStatusKind where
  | interval
  | cron

structure JobStatus where
  id : JsString
  kind : JobStatusKind
  paused : Bool
  stopped : Bool
  running : Bool

/-- A timer that `setInterval` has returned and nobody has cleared, with the control it ticks. -/
structure LiveTimer where
  id : Nat
  control : Nat
  intervalMs : Int

/-- An instance of `Jobs`. A control is the object of that number; the map is keyed by their ids. -/
structure Jobs where
  controls : List Nat
  started : Bool

/-- All instances of `Jobs`, the default one first. -/
structure JobSystem where
  heap : List JobControl
  instances : List Jobs
  registry : List Nat
  modeTest : Bool
  timers : List LiveTimer
  nextTimer : Nat

def cronResolutionMs : Int := 1000

def defaultJobs : Nat := 0

namespace JobControl

def interval (id : JsString) (intervalMs : Int) : JobControl :=
  { id, kind := .interval, timerIntervalMs := intervalMs, paused := false, stopped := false,
    running := false, timer := none }

def cron (id : JsString) (trigger : CronTrigger) (intervalMs : Int) : JobControl :=
  { id, kind := .cron trigger intervalMs 0, timerIntervalMs := cronResolutionMs, paused := false,
    stopped := false, running := false, timer := none }

def status (control : JobControl) : JobStatus :=
  { id := control.id
    kind := match control.kind with
      | .interval => .interval
      | .cron _ _ _ => .cron
    paused := control.paused, stopped := control.stopped, running := control.running }

def execute (control : JobControl) : JobControl :=
  if control.paused || control.stopped || control.running then control
  else { control with running := true }

def tick (date : JobClock) (control : JobControl) : JobControl :=
  match control.kind with
  | .interval => control.execute
  | .cron trigger intervalMs lastFired =>
    if !matchesTrigger date trigger then control
    else if 0 < intervalMs && date.now - lastFired < intervalMs then control
    else { control with kind := .cron trigger intervalMs date.now }.execute

end JobControl

namespace JobSystem

def new : JobSystem :=
  { heap := [], instances := [⟨[], false⟩], registry := [defaultJobs], modeTest := false,
    timers := [], nextTimer := 0 }

def update (c : Nat) (change : JobControl → JobControl) (s : JobSystem) : JobSystem :=
  { s with heap := s.heap.modify c change }

def setJobs (i : Nat) (jobs : Jobs) (s : JobSystem) : JobSystem :=
  { s with instances := s.instances.set i jobs }

def control? (s : JobSystem) (jobs : Jobs) (id : JsString) : Option Nat :=
  jobs.controls.find? fun c => s.heap[c]?.any fun control => control.id = id

def arm (s : JobSystem) (c : Nat) : JobSystem :=
  match s.heap[c]? with
  | none => s
  | some control =>
    match control.timer with
    | some _ => s
    | none =>
      { s with
        heap := s.heap.set c { control with timer := some s.nextTimer }
        timers := s.timers ++ [⟨s.nextTimer, c, control.timerIntervalMs⟩]
        nextTimer := s.nextTimer + 1 }

def disarm (s : JobSystem) (c : Nat) : JobSystem :=
  match s.heap[c]? with
  | none => s
  | some control =>
    match control.timer with
    | none => s
    | some timer =>
      { s with
        heap := s.heap.set c { control with timer := none }
        timers := s.timers.filter fun live => live.id ≠ timer }

def register (i : Nat) (control : JobControl) (s : JobSystem) : JobSystem :=
  match s.instances[i]? with
  | none => s
  | some jobs =>
    let t := { s with heap := s.heap ++ [control] }.setJobs i
      { jobs with controls := jobs.controls ++ [s.heap.length] }
    if jobs.started && !s.modeTest then t.arm s.heap.length else t

def startJobs (i : Nat) (s : JobSystem) : JobSystem :=
  match s.instances[i]? with
  | none => s
  | some jobs =>
    if jobs.started || s.modeTest then s
    else jobs.controls.foldl arm (s.setJobs i { jobs with started := true })

def stopJob (i : Nat) (id : JsString) (s : JobSystem) : JobSystem :=
  match s.instances[i]? with
  | none => s
  | some jobs =>
    match s.control? jobs id with
    | none => s
    | some c =>
      ((s.update c fun control => { control with stopped := true }).disarm c).setJobs i
        { jobs with controls := jobs.controls.erase c }

def setPaused (i : Nat) (id : JsString) (paused : Bool) (s : JobSystem) : JobSystem :=
  match s.instances[i]? with
  | none => s
  | some jobs =>
    match s.control? jobs id with
    | none => s
    | some c => s.update c fun control => { control with paused }

def pauseJob (i : Nat) (id : JsString) : JobSystem → JobSystem := setPaused i id true

def resumeJob (i : Nat) (id : JsString) : JobSystem → JobSystem := setPaused i id false

def stopTimers (i : Nat) (s : JobSystem) : JobSystem :=
  match s.instances[i]? with
  | none => s
  | some jobs => (jobs.controls.foldl disarm s).setJobs i { jobs with started := false }

def stopControl (i : Nat) (s : JobSystem) (c : Nat) : JobSystem :=
  match s.heap[c]? with
  | none => s
  | some control => s.stopJob i control.id

def controlsOf (s : JobSystem) (i : Nat) : List Nat :=
  match s.instances[i]? with
  | none => []
  | some jobs => jobs.controls

def destroy (s : JobSystem) (i : Nat) : JobSystem :=
  let stopped := s.stopTimers i
  let cleared := (stopped.controlsOf i).foldl (stopControl i) stopped
  { cleared with registry := cleared.registry.filter fun j => j ≠ i }

def restartJobs (s : JobSystem) : JobSystem := (s.stopTimers defaultJobs).startJobs defaultJobs

def stopAllJobs (s : JobSystem) : JobSystem :=
  let t := s.registry.foldl destroy s
  { t with
    registry := if defaultJobs ∈ t.registry then t.registry else t.registry ++ [defaultJobs] }

/-- The jobs that `checkStatusJobs` goes through. -/
def listed (s : JobSystem) : List Nat := s.registry.flatMap s.controlsOf

def checkStatusJobs (s : JobSystem) : List JobStatus :=
  s.listed.filterMap fun c => s.heap[c]?.map JobControl.status

end JobSystem

inductive JobEvent where
  | newJobs
  | job (i : Nat) (id : JsString) (intervalMs : Int)
  | jobWithID (i : Nat) (id : JsString) (intervalMs : Int)
  | cronJob (i : Nat) (id : JsString) (trigger : CronTrigger) (intervalMs : Int)
  | cronJobWithID (i : Nat) (id : JsString) (trigger : CronTrigger) (intervalMs : Int)
  | startJobs (i : Nat)
  | stopJob (i : Nat) (id : JsString)
  | pauseJob (i : Nat) (id : JsString)
  | resumeJob (i : Nat) (id : JsString)
  | destroy (i : Nat)
  | restartJobs
  | stopAllJobs
  | setModeTest (enabled : Bool)
  | tick (timer : LiveTimer) (date : JobClock)
  | executed (c : Nat)

namespace JobSystem

/-- The instance on which a control is registered, and the control, unless the call throws. -/
def registers (s : JobSystem) : JobEvent → Option (Nat × JobControl)
  | .job i id intervalMs => some (i, .interval id intervalMs)
  | .cronJob i id trigger intervalMs => some (i, .cron id trigger intervalMs)
  | .jobWithID i id intervalMs =>
    s.instances[i]?.bind fun jobs =>
      if (s.control? jobs id).isSome then none else some (i, .interval id intervalMs)
  | .cronJobWithID i id trigger intervalMs =>
    s.instances[i]?.bind fun jobs =>
      if (s.control? jobs id).isSome then none else some (i, .cron id trigger intervalMs)
  | _ => none

def registered (s : JobSystem) (e : JobEvent) : JobSystem :=
  match s.registers e with
  | none => s
  | some (i, control) => s.register i control

/-- `crypto.randomUUID()` gives an id that no job of the instance has. -/
def unused (s : JobSystem) (i : Nat) (id : JsString) : Bool :=
  s.instances[i]?.all fun jobs => (s.control? jobs id).isNone

def step (s : JobSystem) (e : JobEvent) : Option JobSystem :=
  match e with
  | .newJobs => some { s with
      instances := s.instances ++ [⟨[], false⟩], registry := s.registry ++ [s.instances.length] }
  | .job i id _ | .cronJob i id _ _ => if s.unused i id then some (s.registered e) else none
  | .jobWithID _ _ _ | .cronJobWithID _ _ _ _ => some (s.registered e)
  | .startJobs i => some (s.startJobs i)
  | .stopJob i id => some (s.stopJob i id)
  | .pauseJob i id => some (s.pauseJob i id)
  | .resumeJob i id => some (s.resumeJob i id)
  | .destroy i => if i = defaultJobs then none else some (s.destroy i)
  | .restartJobs => some s.restartJobs
  | .stopAllJobs => some s.stopAllJobs
  | .setModeTest enabled => some { s with modeTest := enabled }
  | .tick timer date =>
    if s.timers.any fun live => live.id = timer.id ∧ live.control = timer.control then
      some (s.update timer.control (JobControl.tick date))
    else none
  | .executed c => some (s.update c fun control => { control with running := false })

end JobSystem

def jobMachine : LabelledMachine JobSystem JobEvent where
  start s := s = .new
  step := JobSystem.step

end ForgeDeno
