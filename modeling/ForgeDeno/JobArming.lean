import ForgeDeno.JobShutdown
import Mathlib.Data.List.Nodup

namespace ForgeDeno

open List ListRules Option JobSystem

def JobControl.core (control : JobControl) : JobControl :=
  { control with paused := false, stopped := false, timer := none }

/-- What a history of calls makes of the instances: which are started, and the registry. -/
structure Roster where
  started : List Bool
  registry : List Nat

namespace Roster

def new : Roster := ⟨[false], [defaultJobs]⟩

def start (r : Roster) (i : Nat) : Roster := { r with started := r.started.set i true }

def destroy (r : Roster) (i : Nat) : Roster := ⟨r.started.set i false, r.registry.filter fun j => j ≠ i⟩

/-- `startJobs` and `restartJobs` start an instance, and nothing else does; `destroy` stops it, and
`stopAllJobs` each one in the registry. -/
def after (r : Roster) : JobEvent → Roster
  | .newJobs => ⟨r.started ++ [false], r.registry ++ [r.started.length]⟩
  | .startJobs i => r.start i
  | .restartJobs => r.start defaultJobs
  | .destroy i => r.destroy i
  | .stopAllJobs => ⟨(r.registry.foldl destroy r).started, [defaultJobs]⟩
  | _ => r

end Roster

namespace JobSystem

variable {s t r : JobSystem} {e : JobEvent} {i j c x : Nat}

def idAt (s : JobSystem) (c : Nat) : Option JsString := s.heap[c]?.map JobControl.id

def coreAt (s : JobSystem) (c : Nat) : Option JobControl := s.heap[c]?.map JobControl.core

theorem idAt_eq (s : JobSystem) (c : Nat) : s.idAt c = (s.coreAt c).map JobControl.id := by
  unfold idAt coreAt
  rw [Option.map_map]
  rfl

/-- No timer is listed twice, the jobs of an instance have different ids, and a job has a live timer
exactly when its instance is started. -/
structure Timed (s : JobSystem) : Prop where
  mode : s.modeTest = false
  timers : (s.timers.map LiveTimer.id).Nodup
  ids : ∀ (i : Nat) (jobs : Jobs), s.instances[i]? = some jobs → (jobs.controls.map s.idAt).Nodup
  armed : ∀ (i : Nat) (jobs : Jobs), s.instances[i]? = some jobs → ∀ c ∈ jobs.controls,
    (Armed s c ↔ jobs.started = true)

/-- The mode and the jobs are as they were, and no timer has been listed twice. -/
structure Orderly (s t : JobSystem) : Prop where
  mode : t.modeTest = s.modeTest
  cores : ∀ c, t.coreAt c = s.coreAt c
  timers : (s.timers.map LiveTimer.id).Nodup → (t.timers.map LiveTimer.id).Nodup

theorem Orderly.refl (s : JobSystem) : Orderly s s := ⟨rfl, fun _ => rfl, id⟩

theorem Orderly.trans (h : Orderly s t) (g : Orderly t r) : Orderly s r :=
  ⟨g.mode.trans h.mode, fun c => (g.cores c).trans (h.cores c), fun once => g.timers (h.timers once)⟩

theorem Orderly.ids (h : Orderly s t) : t.idAt = s.idAt := by
  funext c
  rw [idAt_eq, idAt_eq, h.cores]

theorem coreAt_set {control : JobControl} (here : s.heap[c]? = some control) (control' : JobControl)
    (same : control'.core = control.core) (x : Nat) :
    ((s.heap.set c control')[x]?).map JobControl.core = s.coreAt x := by
  obtain ⟨bound, found⟩ := List.getElem?_eq_some_iff.mp here
  unfold coreAt
  by_cases equal : x = c
  · subst equal
    simp [getElem?_set_self bound, here, same]
  · rw [getElem?_set_ne (Ne.symm equal)]

theorem orderly_arm (h : Linked s) (c : Nat) : Orderly s (s.arm c) := by
  unfold arm
  split
  next => exact .refl s
  next control here =>
    split
    next => exact .refl s
    next =>
      refine ⟨rfl, fun x => coreAt_set here { control with timer := some s.nextTimer } rfl x, fun once => ?_⟩
      have new : s.nextTimer ∉ s.timers.map LiveTimer.id := by
        intro mem
        obtain ⟨live, inside, same⟩ := mem_map.mp mem
        have := h.fresh live inside
        omega
      rw [map_append]
      refine nodup_append.mpr ⟨once, nodup_cons.mpr ⟨not_mem_nil, nodup_nil⟩, ?_⟩
      intro a mem b mem' same
      have last : b = s.nextTimer := mem_singleton.mp mem'
      exact new (last ▸ same ▸ mem)

theorem orderly_disarm (s : JobSystem) (c : Nat) : Orderly s (s.disarm c) := by
  unfold disarm
  split
  next => exact .refl s
  next control here =>
    split
    next => exact .refl s
    next =>
      refine ⟨rfl, fun x => coreAt_set here { control with timer := none } rfl x, fun once => ?_⟩
      exact once.sublist (filter_sublist.map _)

theorem orderly_update (s : JobSystem) (c : Nat) (change : JobControl → JobControl)
    (same : ∀ control, (change control).core = control.core) : Orderly s (s.update c change) := by
  refine ⟨rfl, fun x => ?_, id⟩
  unfold coreAt update
  rw [getElem?_modify]
  split
  · cases s.heap[x]? <;> simp [same]
  · simp

theorem orderly_setJobs (s : JobSystem) (i : Nat) (jobs : Jobs) : Orderly s (s.setJobs i jobs) :=
  ⟨rfl, fun _ => rfl, id⟩

theorem orderly_arms (controls : List Nat) (h : Linked s) : Orderly s (controls.foldl arm s) := by
  induction controls generalizing s with
  | nil => exact .refl s
  | cons c rest ih => exact (orderly_arm h c).trans (ih (h.arm c))

theorem orderly_disarms (controls : List Nat) (s : JobSystem) : Orderly s (controls.foldl disarm s) := by
  induction controls generalizing s with
  | nil => exact .refl s
  | cons c rest ih => exact (orderly_disarm s c).trans (ih (s.disarm c))

theorem orderly_setPaused (s : JobSystem) (i : Nat) (id : JsString) (paused : Bool) :
    Orderly s (s.setPaused i id paused) := by
  unfold setPaused
  split
  · exact .refl s
  · split
    · exact .refl s
    · exact orderly_update s _ _ fun _ => rfl

theorem orderly_startJobs (l : Linked s) (i : Nat) : Orderly s (s.startJobs i) := by
  unfold startJobs
  split
  next => exact .refl s
  next jobs _ =>
    split
    next => exact .refl s
    next =>
      have linked : Linked (s.setJobs i { jobs with started := true }) :=
        ⟨l.mine, l.live, l.fresh, l.unique⟩
      exact (orderly_setJobs s i _).trans (orderly_arms jobs.controls linked)

theorem orderly_stopTimers (s : JobSystem) (i : Nat) : Orderly s (s.stopTimers i) := by
  unfold stopTimers
  split
  · exact .refl s
  · exact (orderly_disarms _ s).trans (orderly_setJobs _ i _)

theorem orderly_stopJob (s : JobSystem) (i : Nat) (id : JsString) : Orderly s (s.stopJob i id) := by
  unfold stopJob
  split
  next => exact .refl s
  next =>
    split
    next => exact .refl s
    next c _ =>
      have stopped := orderly_update s c (fun control => { control with stopped := true }) fun _ => rfl
      exact (stopped.trans (orderly_disarm _ c)).trans (orderly_setJobs _ i _)

theorem orderly_stopControls (i : Nat) (controls : List Nat) (s : JobSystem) :
    Orderly s (controls.foldl (stopControl i) s) := by
  induction controls generalizing s with
  | nil => exact .refl s
  | cons c rest ih =>
    have first : Orderly s (s.stopControl i c) := by
      unfold stopControl
      split
      · exact .refl s
      · exact orderly_stopJob s i _
    exact first.trans (ih (s.stopControl i c))

theorem orderly_registry (h : Orderly s t) (registry : List Nat) : Orderly s { t with registry } :=
  ⟨h.mode, h.cores, h.timers⟩

theorem orderly_destroy (s : JobSystem) (i : Nat) : Orderly s (s.destroy i) :=
  orderly_registry ((orderly_stopTimers s i).trans (orderly_stopControls i _ _)) _

theorem orderly_destroys (instances : List Nat) (s : JobSystem) : Orderly s (instances.foldl destroy s) := by
  induction instances generalizing s with
  | nil => exact .refl s
  | cons i rest ih => exact (orderly_destroy s i).trans (ih (s.destroy i))

theorem Timed.one (h : Timed s) {jobs : Jobs} (here : s.instances[i]? = some jobs)
    (mem : c ∈ jobs.controls) (mem' : x ∈ jobs.controls) (same : s.idAt c = s.idAt x) : c = x :=
  inj_on_of_nodup_map (h.ids i jobs here) mem mem' same

theorem Timed.set (h : Timed s) (o : Orderly s t) {jobs after : Jobs}
    (here : s.instances[i]? = some jobs) (instances : t.instances = s.instances.set i after)
    (fewer : after.controls.Sublist jobs.controls)
    (mine : ∀ c ∈ after.controls, (Armed t c ↔ after.started = true))
    (others : ∀ j c, j ≠ i → Owns s j c → (Armed t c ↔ Armed s c)) : Timed t := by
  refine ⟨o.mode.trans h.mode, o.timers h.timers, fun j jobs' here' => ?_, fun j jobs' here' c mem => ?_⟩
  · rw [instances] at here'
    rw [o.ids]
    rcases (getElem?_set_iff here).mp here' with ⟨_, rfl⟩ | ⟨_, old⟩
    · exact (h.ids i jobs here).sublist (fewer.map _)
    · exact h.ids j jobs' old
  · rw [instances] at here'
    rcases (getElem?_set_iff here).mp here' with ⟨_, rfl⟩ | ⟨differs, old⟩
    · exact mine c mem
    · exact (others j c differs ⟨jobs', old, mem⟩).trans (h.armed j jobs' old c mem)

theorem Timed.same (h : Timed s) (mode : t.modeTest = s.modeTest) (ids : t.idAt = s.idAt)
    (instances : t.instances = s.instances) (timers : t.timers = s.timers) : Timed t := by
  refine ⟨mode.trans h.mode, timers ▸ h.timers, fun j jobs here => ?_, fun j jobs here c mem => ?_⟩
  · rw [ids]
    exact h.ids j jobs (instances ▸ here)
  · unfold Armed
    rw [timers]
    exact h.armed j jobs (instances ▸ here) c mem

section registering

variable {jobs : Jobs} {control : JobControl}

def grown (s : JobSystem) (i : Nat) (jobs : Jobs) (control : JobControl) : JobSystem :=
  setJobs i { jobs with controls := jobs.controls ++ [s.heap.length] } { s with heap := s.heap ++ [control] }

end registering

def SameOrNew (s t : JobSystem) (e : JobEvent) (c : Nat) : Prop :=
  t.coreAt c = s.coreAt c ∨ (s.heap.length ≤ c ∧
    ∃ i control, s.registers e = some (i, control) ∧ t.coreAt c = some control.core)

theorem cores_registered (l : Linked s) (c : Nat) : SameOrNew s (s.registered e) e c := by
  unfold registered
  split
  next => exact .inl rfl
  next i control made =>
    have grown : ∀ {u : JobSystem}, u.heap = s.heap ++ [control] → SameOrNew s u e c := by
      intro u heap
      unfold SameOrNew coreAt
      rw [heap]
      by_cases below : c < s.heap.length
      · rw [getElem?_append_left below]
        exact .inl rfl
      · by_cases last : c = s.heap.length
        · refine .inr ⟨by omega, i, control, made, ?_⟩
          simp [last]
        · have beyond : (s.heap ++ [control])[c]? = none := getElem?_eq_none (by simp; omega)
          have before : s.heap[c]? = none := getElem?_eq_none (by omega)
          rw [beyond, before]
          exact .inl rfl
    unfold register
    split
    next => exact .inl rfl
    next jobs here =>
      have linked := l.grow (registers_unarmed made)
      dsimp only
      split
      · have armed := (orderly_arm (⟨linked.mine, linked.live, linked.fresh, linked.unique⟩ :
          Linked (setJobs i { jobs with controls := jobs.controls ++ [s.heap.length] }
            { s with heap := s.heap ++ [control] })) s.heap.length).cores c
        unfold SameOrNew
        rw [armed]
        exact grown rfl
      · exact grown rfl

theorem step_cores (g : Sound s) (hs : s.step e = some t) (ticks : ∀ timer date, e ≠ .tick timer date)
    (executes : ∀ x, e ≠ .executed x) (c : Nat) : SameOrNew s t e c := by
  cases e with
  | newJobs => cases hs; exact .inl rfl
  | job i id intervalMs =>
    dsimp only [step] at hs
    split at hs
    · cases hs; exact cores_registered g.linked c
    · cases hs
  | cronJob i id trigger intervalMs =>
    dsimp only [step] at hs
    split at hs
    · cases hs; exact cores_registered g.linked c
    · cases hs
  | jobWithID i id intervalMs => cases hs; exact cores_registered g.linked c
  | cronJobWithID i id trigger intervalMs =>
    cases hs; exact cores_registered g.linked c
  | startJobs i => cases hs; exact .inl ((orderly_startJobs g.linked i).cores c)
  | stopJob i id => cases hs; exact .inl ((orderly_stopJob s i id).cores c)
  | pauseJob i id => cases hs; exact .inl ((orderly_setPaused s i id true).cores c)
  | resumeJob i id => cases hs; exact .inl ((orderly_setPaused s i id false).cores c)
  | destroy i =>
    dsimp only [step] at hs
    split at hs
    · cases hs
    · cases hs
      exact .inl ((orderly_destroy s i).cores c)
  | restartJobs =>
    cases hs
    have stopped := shrinks_stopTimers g.linked defaultJobs
    exact .inl (((orderly_startJobs stopped.linked defaultJobs).cores c).trans
      ((orderly_stopTimers s defaultJobs).cores c))
  | stopAllJobs => cases hs; exact .inl ((orderly_destroys s.registry s).cores c)
  | setModeTest enabled => cases hs; exact .inl rfl
  | tick timer date => exact absurd rfl (ticks timer date)
  | executed x => exact absurd rfl (executes x)

def Gone (s : JobSystem) (c : Nat) : Prop := c < s.heap.length ∧ ∀ i, ¬Owns s i c

structure Introduces (s t : JobSystem) : Prop where
  grows : s.heap.length ≤ t.heap.length
  owns : ∀ i c, Owns t i c → Owns s i c ∨ c = s.heap.length

theorem Shrinks.introduces (h : Shrinks s t) : Introduces s t :=
  ⟨Nat.le_of_eq h.heap.symm, fun i c owns => .inl (h.owns i c owns)⟩

theorem introduces_startJobs (h : Shrinks s t) (o : Owned s) (i : Nat) : Introduces s (t.startJobs i) := by
  by_cases starts : ∃ jobs : Jobs, t.instances[i]? = some jobs ∧ jobs.started = false ∧ t.modeTest = false
  · obtain ⟨jobs, here, off, mode⟩ := starts
    obtain ⟨_, same, owns, _⟩ := startJobs_does h.linked (h.owned o) here off mode
    refine ⟨?_, fun j c mem => .inl (h.owns j c ((owns j c).mp mem))⟩
    rw [same.heap]
    exact Nat.le_of_eq h.heap.symm
  · rw [startJobs_idle fun jobs here off => starts ⟨jobs, here, off⟩]
    exact h.introduces

theorem introduces_registered (l : Linked s) : Introduces s (s.registered e) := by
  unfold registered
  cases made : s.registers e with
  | none => exact (Shrinks.refl l).introduces
  | some pair =>
    obtain ⟨i, control⟩ := pair
    dsimp only
    cases here : s.instances[i]? with
    | none =>
      have same : s.register i control = s := by
        unfold register
        rw [here]
      rw [same]
      exact (Shrinks.refl l).introduces
    | some jobs =>
      obtain ⟨_, _, heap, owns, _⟩ := register_does l here (registers_unarmed made)
      refine ⟨by omega, fun j c mem => ?_⟩
      rcases (owns j c).mp mem with old | ⟨_, new⟩
      · exact .inl old
      · exact .inr new

theorem step_introduces (g : Sound s) (hs : s.step e = some t) : Introduces s t := by
  cases e with
  | newJobs =>
    cases hs
    refine ⟨Nat.le_refl _, fun i c owns => ?_⟩
    obtain ⟨jobs, here, mem⟩ := owns
    rcases getElem?_concat_iff.mp here with old | ⟨_, rfl⟩
    · exact .inl ⟨jobs, old, mem⟩
    · cases mem
  | job i id intervalMs =>
    dsimp only [step] at hs
    split at hs
    · cases hs; exact introduces_registered g.linked
    · cases hs
  | cronJob i id trigger intervalMs =>
    dsimp only [step] at hs
    split at hs
    · cases hs; exact introduces_registered g.linked
    · cases hs
  | jobWithID i id intervalMs => cases hs; exact introduces_registered g.linked
  | cronJobWithID i id trigger intervalMs =>
    cases hs; exact introduces_registered g.linked
  | startJobs i =>
    cases hs
    exact introduces_startJobs (.refl g.linked) g.owned i
  | stopJob i id => cases hs; exact (shrinks_stopJob g.linked i id).introduces
  | pauseJob i id => cases hs; exact (shrinks_setPaused g.linked i id true).introduces
  | resumeJob i id => cases hs; exact (shrinks_setPaused g.linked i id false).introduces
  | destroy i =>
    dsimp only [step] at hs
    split at hs
    · cases hs
    · cases hs
      exact (shrinks_destroy g.linked i).introduces
  | restartJobs =>
    cases hs
    exact introduces_startJobs (shrinks_stopTimers g.linked defaultJobs) g.owned defaultJobs
  | stopAllJobs =>
    cases hs
    have all := (destroy_all s.registry g.linked).1
    exact (shrinks_registry all s.stopAllJobs.registry).introduces
  | setModeTest enabled =>
    cases hs
    exact ⟨Nat.le_refl _, fun _ _ => .inl⟩
  | tick timer date =>
    dsimp only [step] at hs
    split at hs
    · cases hs
      exact ⟨Nat.le_of_eq (length_modify ..).symm, fun _ _ => .inl⟩
    · cases hs
  | executed c =>
    cases hs
    exact ⟨Nat.le_of_eq (length_modify ..).symm, fun _ _ => .inl⟩

def stops (s : JobSystem) : JobEvent → List Nat
  | .stopJob i id => (s.instances[i]?.bind fun jobs => s.control? jobs id).toList
  | .destroy i => s.controlsOf i
  | .stopAllJobs => s.listed
  | _ => []

theorem Shrinks.gone (h : Shrinks s t) (o : Owned s) (owns : Owns s i c) (lost : ¬Owns t i c) : Gone t c := by
  refine ⟨?_, fun j mem => ?_⟩
  · rw [h.heap]
    exact o.inHeap i c owns
  · have same := o.single i j c owns (h.owns j c mem)
    exact lost (same ▸ mem)

def Starts (s t : JobSystem) (c : Nat) : Prop :=
  ∃ before after, s.heap[c]? = some before ∧ t.heap[c]? = some after ∧ before.running = false ∧
    after.running = true

theorem Gone.unarmed (h : Gone s c) (o : Owned s) : ¬Armed s c := by
  intro armed
  obtain ⟨i, owns⟩ := o.owned c armed
  exact h.2 i owns

section rosters

variable {jobs j : Jobs}

end rosters

end JobSystem

end ForgeDeno
