import ForgeDeno.JobTimers

namespace ForgeDeno

namespace JobSystem

open List

variable {s t : JobSystem} {e : JobEvent}

def armsOn (s : JobSystem) : JobEvent → Option Nat
  | .startJobs i =>
    if !s.modeTest && s.instances[i]?.any fun jobs => !jobs.started && !jobs.controls.isEmpty then some i
    else none
  | e =>
    match s.registers e with
    | none => none
    | some (i, _) => if !s.modeTest && s.instances[i]?.any Jobs.started then some i else none

def ArmsRegistered (s : JobSystem) (e : JobEvent) (_ : JobSystem) : Prop :=
  ∀ i, s.armsOn e = some i → i ∈ s.registry

structure Sound (s : JobSystem) : Prop where
  linked : Linked s
  owned : Owned s
  default : defaultJobs ∈ s.registry

theorem registers_unarmed {i : Nat} {control : JobControl} (h : s.registers e = some (i, control)) :
    control.timer = none := by
  cases e with
  | job j id intervalMs => cases h; rfl
  | cronJob j id trigger intervalMs => cases h; rfl
  | jobWithID j id intervalMs =>
    obtain ⟨jobs, _, made⟩ := Option.bind_eq_some_iff.mp h
    split at made
    · cases made
    · cases made; rfl
  | cronJobWithID j id trigger intervalMs =>
    obtain ⟨jobs, _, made⟩ := Option.bind_eq_some_iff.mp h
    split at made
    · cases made
    · cases made; rfl
  | _ => cases h

theorem step_registers (h : Sound s) (starts : ∀ i, e ≠ .startJobs i) : Sound (s.registered e) ∧
      (Registered s → (Registered (s.registered e) ↔ ArmsRegistered s e (s.registered e))) := by
  have arms : s.armsOn e = match s.registers e with
      | none => none
      | some (i, _) => if !s.modeTest && s.instances[i]?.any Jobs.started then some i else none := by
    cases e with
    | startJobs i => exact absurd rfl (starts i)
    | _ => rfl
  unfold registered
  cases found : s.registers e with
  | none =>
    refine ⟨h, fun b => ⟨fun _ i here => ?_, fun _ => b⟩⟩
    rw [arms, found] at here
    cases here
  | some made =>
    obtain ⟨i, control⟩ := made
    cases here : s.instances[i]? with
    | none =>
      have same : s.register i control = s := by
        unfold register
        rw [here]
      dsimp only
      rw [same]
      refine ⟨h, fun b => ⟨fun _ j on => ?_, fun _ => b⟩⟩
      rw [arms, found] at on
      simp [here] at on
    | some jobs =>
      have arming := arming_register h.linked h.owned here (registers_unarmed found)
      refine ⟨⟨arming.linked, arming.owned, ?_⟩, fun b => (arming.registered b).trans ?_⟩
      · rw [arming.registry]
        exact h.default
      · unfold ArmsRegistered
        rw [arms, found]
        dsimp only
        rw [here]
        cases started : jobs.started <;> cases mode : s.modeTest <;> simp [started]

theorem Shrinks.sound (h : Shrinks s t) (g : Sound s) (default : defaultJobs ∈ t.registry) : Sound t :=
  ⟨h.linked, h.owned g.owned, default⟩

theorem quiet_step (g : Sound s) (h : Shrinks s t) (registry : t.registry = s.registry)
    (quiet : s.armsOn e = none) : Sound t ∧ (Registered s → (Registered t ↔ ArmsRegistered s e t)) := by
  refine ⟨h.sound g (registry ▸ g.default), fun b => ⟨fun _ i here => ?_, fun _ => h.registered registry b⟩⟩
  cases quiet.symm.trans here

theorem sound_newJobs (h : Sound s) : Sound { s with
    instances := s.instances ++ [⟨[], false⟩], registry := s.registry ++ [s.instances.length] } ∧
    (Registered s → Registered { s with
      instances := s.instances ++ [⟨[], false⟩], registry := s.registry ++ [s.instances.length] }) := by
  have owns : ∀ i c, Owns { s with
      instances := s.instances ++ [⟨[], false⟩], registry := s.registry ++ [s.instances.length] } i c ↔
      Owns s i c := by
    intro i c
    constructor
    · intro ⟨jobs, here, mem⟩
      rcases ListRules.getElem?_concat_iff.mp here with old | ⟨_, rfl⟩
      · exact ⟨jobs, old, mem⟩
      · cases mem
    · intro ⟨jobs, here, mem⟩
      exact ⟨jobs, ListRules.getElem?_concat_iff.mpr (.inl here), mem⟩
  refine ⟨⟨⟨h.linked.mine, h.linked.live, h.linked.fresh, h.linked.unique⟩, ?_,
    mem_append_left _ h.default⟩, fun b c armed => ?_⟩
  · constructor
    · exact fun i c mem => h.owned.inHeap i c ((owns i c).mp mem)
    · exact fun i j c mem mem' => h.owned.single i j c ((owns i c).mp mem) ((owns j c).mp mem')
    · intro c armed
      obtain ⟨i, mem⟩ := h.owned.owned c armed
      exact ⟨i, (owns i c).mpr mem⟩
  · obtain ⟨i, mem, inside⟩ := b c armed
    exact ⟨i, mem_append_left _ mem, (owns i c).mpr inside⟩

theorem sound_startJobs (h : Sound s) (i : Nat) : Sound (s.startJobs i) ∧
    (Registered s → (Registered (s.startJobs i) ↔ ArmsRegistered s (.startJobs i) (s.startJobs i))) := by
  cases here : s.instances[i]? with
  | none =>
    have same : s.startJobs i = s := by
      unfold startJobs
      rw [here]
    rw [same]
    exact quiet_step h (.refl h.linked) rfl (by simp [armsOn, here])
  | some jobs =>
    have arming := arming_startJobs h.linked h.owned here
    refine ⟨⟨arming.linked, arming.owned, ?_⟩, fun b => (arming.registered b).trans ?_⟩
    · rw [arming.registry]
      exact h.default
    · unfold ArmsRegistered armsOn
      dsimp only
      rw [here]
      cases started : jobs.started <;> cases mode : s.modeTest <;> simp [started]

theorem sound_restartJobs (h : Sound s) : Sound s.restartJobs ∧
    (Registered s → (Registered s.restartJobs ↔ ArmsRegistered s .restartJobs s.restartJobs)) := by
  have stopped := shrinks_stopTimers h.linked defaultJobs
  have registry := registry_stopTimers s defaultJobs
  have sound := stopped.sound h (registry ▸ h.default)
  cases here : (s.stopTimers defaultJobs).instances[defaultJobs]? with
  | none =>
    have same : s.restartJobs = s.stopTimers defaultJobs := by
      unfold restartJobs startJobs
      rw [here]
    rw [same]
    exact quiet_step h stopped registry rfl
  | some jobs =>
    have arming := arming_startJobs sound.linked sound.owned here
    refine ⟨⟨arming.linked, arming.owned, ?_⟩, fun b => ⟨nofun, fun _ => ?_⟩⟩
    · rw [show s.restartJobs.registry = _ from arming.registry]
      exact sound.default
    · exact (arming.registered (stopped.registered registry b)).mpr fun _ => sound.default

theorem timer_tick (date : JobClock) (control : JobControl) : (control.tick date).timer = control.timer := by
  have execute : ∀ control : JobControl, control.execute.timer = control.timer := by
    intro control
    unfold JobControl.execute
    split <;> rfl
  unfold JobControl.tick
  split
  · exact execute control
  · split
    · rfl
    · split
      · rfl
      · exact execute _

theorem step_sound (h : Sound s) (hs : s.step e = some t) :
    Sound t ∧ (Registered s → (Registered t ↔ ArmsRegistered s e t)) := by
  cases e with
  | newJobs =>
    cases hs
    have made := sound_newJobs h
    exact ⟨made.1, fun b => ⟨nofun, fun _ => made.2 b⟩⟩
  | job i id intervalMs =>
    dsimp only [step] at hs
    split at hs
    · cases hs; exact step_registers h fun _ => by simp
    · cases hs
  | cronJob i id trigger intervalMs =>
    dsimp only [step] at hs
    split at hs
    · cases hs; exact step_registers h fun _ => by simp
    · cases hs
  | jobWithID i id intervalMs => cases hs; exact step_registers h fun _ => by simp
  | cronJobWithID i id trigger intervalMs =>
    cases hs; exact step_registers h fun _ => by simp
  | startJobs i =>
    cases hs
    exact sound_startJobs h i
  | stopJob i id =>
    cases hs
    exact quiet_step h (shrinks_stopJob h.linked i id) (registry_stopJob s i id) rfl
  | pauseJob i id =>
    cases hs
    exact quiet_step h (shrinks_setPaused h.linked i id true) (registry_setPaused s i id true) rfl
  | resumeJob i id =>
    cases hs
    exact quiet_step h (shrinks_setPaused h.linked i id false) (registry_setPaused s i id false) rfl
  | destroy i =>
    dsimp only [step] at hs
    split at hs
    next => cases hs
    next other =>
      cases hs
      refine ⟨(shrinks_destroy h.linked i).sound h ?_, fun b => ⟨nofun, fun _ => ?_⟩⟩
      · rw [registry_destroy]
        exact mem_filter.mpr ⟨h.default, decide_eq_true (Ne.symm other)⟩
      · exact registered_destroy h.linked b i
  | restartJobs =>
    cases hs
    exact sound_restartJobs h
  | stopAllJobs =>
    cases hs
    have shrinks := shrinks_registry (destroy_all s.registry h.linked).1 s.stopAllJobs.registry
    refine ⟨shrinks.sound h ?_, fun b => ⟨nofun, fun _ c armed => ?_⟩⟩
    · show defaultJobs ∈ ite _ _ _
      split
      · assumption
      · exact mem_append_right _ (mem_singleton_self _)
    · exact absurd armed (stopAllJobs_clears h.linked b c)
  | setModeTest enabled =>
    cases hs
    exact quiet_step h ⟨⟨h.linked.mine, h.linked.live, h.linked.fresh, h.linked.unique⟩, rfl,
      fun _ => id, fun _ _ => id, fun _ _ _ => id⟩ rfl rfl
  | tick timer date =>
    dsimp only [step] at hs
    split at hs
    · cases hs
      exact quiet_step h (shrinks_update h.linked _ (timer_tick date)) rfl rfl
    · cases hs
  | executed c =>
    cases hs
    exact quiet_step h (shrinks_update h.linked c fun _ => rfl) rfl rfl

theorem sound_new : Sound .new := by
  refine ⟨⟨?_, ?_, ?_, ?_⟩, ⟨?_, ?_, ?_⟩, mem_singleton_self _⟩
  · exact nofun
  · exact fun c control timer here => by cases here
  · exact nofun
  · exact nofun
  · rintro i c ⟨jobs, here, mem⟩
    rw [mem_singleton.mp (mem_of_getElem? here)] at mem
    cases mem
  · rintro i j c ⟨jobs, here, mem⟩
    rw [mem_singleton.mp (mem_of_getElem? here)] at mem
    cases mem
  · rintro c ⟨live, mem, _⟩
    cases mem

theorem registered_iff : Registered s ↔ ∀ live ∈ s.timers, live.control ∈ s.listed := by
  constructor
  · intro b live mem
    exact mem_listed.mpr (b live.control ⟨live, mem, rfl⟩)
  · rintro all c ⟨live, mem, rfl⟩
    exact mem_listed.mp (all live mem)

theorem no_timers (clear : ∀ c, ¬Armed s c) : s.timers = [] := by
  cases timers : s.timers with
  | nil => rfl
  | cons live rest =>
    have mem : live ∈ s.timers := timers ▸ mem_cons_self
    exact absurd ⟨live, mem, rfl⟩ (clear live.control)

/-- `checkStatusJobs` lists every job with a live timer at every moment, and no timer is live after
`stopAllJobs`, exactly when no timer is set on an instance that has left the registry. -/
theorem stopAllJobs_total (es : List JobEvent) : (∀ pre t, pre <+: es → jobMachine.run .new pre = some t →
      (∀ live ∈ t.timers, live.control ∈ t.listed) ∧ (pre.getLast? = some .stopAllJobs → t.timers = [])) ↔
      jobMachine.Along ArmsRegistered .new es := by
  have along := LabelledMachine.throughout_iff_along (m := jobMachine) (I := Sound) (B := Registered)
    (C := ArmsRegistered) (fun _ _ _ h hs => (step_sound h hs).1)
    (fun _ _ _ h b hs => (step_sound h hs).2 b) sound_new
    (fun c armed => by obtain ⟨live, mem, _⟩ := armed; cases mem) es
  rw [← along]
  constructor
  · intro h pre t before reached
    exact registered_iff.mpr (h pre t before reached).1
  · intro h pre t before reached
    refine ⟨registered_iff.mp (h pre t before reached), fun last => ?_⟩
    obtain ⟨front, rfl⟩ := List.getLast?_eq_some_iff.mp last
    rw [LabelledMachine.run_append] at reached
    obtain ⟨u, middle, final⟩ := Option.bind_eq_some_iff.mp reached
    obtain ⟨r, stop, same⟩ := LabelledMachine.run_cons_some final
    cases Option.some.inj same
    cases Option.some.inj stop
    have sound := LabelledMachine.run_invariant (I := Sound) (fun _ _ _ g hs => (step_sound g hs).1)
      sound_new middle
    have within : front <+: es := (List.prefix_append front _).trans before
    exact no_timers (stopAllJobs_clears sound.linked (h front u within middle))

def destroyedInstance : List JobEvent :=
  [.newJobs, .destroy 1, .job 1 (js "a") 1000, .startJobs 1, .stopAllJobs]

theorem destroyed_instance_keeps_timer : ∃ t, jobMachine.run .new destroyedInstance = some t ∧
      destroyedInstance.getLast? = some .stopAllJobs ∧
      t.timers.map LiveTimer.control = [0] ∧ t.listed = [] ∧ t.checkStatusJobs = [] :=
  ⟨_, rfl, rfl, rfl, rfl, rfl⟩

end JobSystem

end ForgeDeno
