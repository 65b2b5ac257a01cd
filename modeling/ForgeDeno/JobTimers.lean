import ForgeDeno.JobScheduler

namespace ForgeDeno

namespace JobSystem

open List ListRules JobSystem

variable {s t r : JobSystem} {i j c x : Nat}

def Armed (s : JobSystem) (c : Nat) : Prop := ∃ live ∈ s.timers, live.control = c

def Owns (s : JobSystem) (i c : Nat) : Prop := ∃ jobs, s.instances[i]? = some jobs ∧ c ∈ jobs.controls

structure Linked (s : JobSystem) : Prop where
  mine : ∀ live ∈ s.timers, ∃ control, s.heap[live.control]? = some control ∧ control.timer = some live.id
  live : ∀ c control timer, s.heap[c]? = some control → control.timer = some timer →
    ∃ live ∈ s.timers, live.control = c ∧ live.id = timer
  fresh : ∀ live ∈ s.timers, live.id < s.nextTimer
  unique : ∀ live ∈ s.timers, ∀ other ∈ s.timers, live.id = other.id → live.control = other.control

theorem Linked.arm (h : Linked s) (c : Nat) : Linked (s.arm c) := by
  unfold JobSystem.arm
  split
  next => exact h
  next control here =>
    split
    next => exact h
    next unarmed =>
      have other : ∀ live ∈ s.timers, live.control ≠ c := by
        intro live mem same
        obtain ⟨control', here', timer⟩ := h.mine live mem
        rw [same, here] at here'
        cases here'
        cases unarmed.symm.trans timer
      constructor
      · intro live mem
        show ∃ control', (s.heap.set c _)[live.control]? = some control' ∧ _
        rcases mem_append.mp mem with old | new
        · obtain ⟨control', here', timer⟩ := h.mine live old
          exact ⟨control', (getElem?_set_iff here).mpr (.inr ⟨other live old, here'⟩), timer⟩
        · rw [mem_singleton.mp new]
          exact ⟨_, (getElem?_set_iff here).mpr (.inl ⟨rfl, rfl⟩), rfl⟩
      · intro x control' timer found armed
        rcases (getElem?_set_iff here).mp found with ⟨rfl, rfl⟩ | ⟨_, found⟩
        · refine ⟨⟨s.nextTimer, x, control.timerIntervalMs⟩, mem_append_right _ ?_, rfl, ?_⟩
          · exact mem_singleton_self _
          · exact Option.some.inj armed
        · obtain ⟨live, mem, same⟩ := h.live x control' timer found armed
          exact ⟨live, mem_append_left _ mem, same⟩
      · intro live mem
        show live.id < s.nextTimer + 1
        rcases mem_append.mp mem with old | new
        · have := h.fresh live old
          omega
        · rw [mem_singleton.mp new]
          exact Nat.lt_succ_self _
      · intro live mem live' mem' same
        rcases mem_append.mp mem with old | new <;> rcases mem_append.mp mem' with old' | new'
        · exact h.unique live old live' old' same
        · have below := h.fresh live old
          rw [mem_singleton.mp new'] at same
          exact absurd same (Nat.ne_of_lt below)
        · have below := h.fresh live' old'
          rw [mem_singleton.mp new] at same
          exact absurd same.symm (Nat.ne_of_lt below)
        · rw [mem_singleton.mp new, mem_singleton.mp new']

theorem armed_arm (h : Linked s) : Armed (s.arm c) x ↔ Armed s x ∨ (x = c ∧ c < s.heap.length) := by
  unfold arm
  split
  next missing =>
    have out : ¬c < s.heap.length := by
      have := List.getElem?_eq_none_iff.mp missing
      omega
    simp [out]
  next control here =>
    obtain ⟨inside, _⟩ := List.getElem?_eq_some_iff.mp here
    split
    next timer armed =>
      obtain ⟨live, mem, same, _⟩ := h.live c control timer here armed
      constructor
      · exact .inl
      · rintro (old | ⟨rfl, _⟩)
        · exact old
        · exact ⟨live, mem, same⟩
    next =>
      constructor
      · rintro ⟨live, mem, rfl⟩
        rcases mem_append.mp mem with old | new
        · exact .inl ⟨live, old, rfl⟩
        · rw [mem_singleton.mp new]
          exact .inr ⟨rfl, inside⟩
      · rintro (⟨live, mem, rfl⟩ | ⟨rfl, _⟩)
        · exact ⟨live, mem_append_left _ mem, rfl⟩
        · exact ⟨_, mem_append_right _ (mem_singleton_self _), rfl⟩

theorem Linked.disarm (h : Linked s) (c : Nat) : Linked (s.disarm c) := by
  unfold JobSystem.disarm
  split
  next => exact h
  next control here =>
    split
    next => exact h
    next timer armed =>
      obtain ⟨first, firstMem, firstControl, firstId⟩ := h.live c control timer here armed
      have kept : ∀ live ∈ s.timers, live.id ≠ timer → live.control ≠ c := by
        intro live mem differs same
        obtain ⟨control', here', timer'⟩ := h.mine live mem
        rw [same, here] at here'
        cases here'
        rw [armed] at timer'
        exact differs (Option.some.inj timer').symm
      constructor
      · intro live mem
        obtain ⟨old, differs⟩ := mem_filter.mp mem
        obtain ⟨control', here', timer'⟩ := h.mine live old
        have elsewhere := kept live old (of_decide_eq_true differs)
        exact ⟨control', (getElem?_set_iff here).mpr (.inr ⟨elsewhere, here'⟩), timer'⟩
      · intro x control' timer' found armed'
        rcases (getElem?_set_iff here).mp found with ⟨rfl, rfl⟩ | ⟨differs, found⟩
        · cases armed'
        · obtain ⟨live, mem, same, number⟩ := h.live x control' timer' found armed'
          refine ⟨live, mem_filter.mpr ⟨mem, decide_eq_true ?_⟩, same, number⟩
          intro equal
          have one := h.unique live mem first firstMem (equal.trans firstId.symm)
          exact differs (same.symm.trans (one.trans firstControl))
      · intro live mem
        exact h.fresh live (mem_filter.mp mem).1
      · intro live mem live' mem'
        exact h.unique live (mem_filter.mp mem).1 live' (mem_filter.mp mem').1

theorem armed_disarm (h : Linked s) : Armed (s.disarm c) x ↔ Armed s x ∧ x ≠ c := by
  unfold disarm
  split
  next missing =>
    constructor
    · rintro ⟨live, mem, rfl⟩
      refine ⟨⟨live, mem, rfl⟩, ?_⟩
      rintro rfl
      obtain ⟨control, here, _⟩ := h.mine live mem
      cases missing.symm.trans here
    · exact And.left
  next control here =>
    split
    next unarmed =>
      constructor
      · rintro ⟨live, mem, rfl⟩
        refine ⟨⟨live, mem, rfl⟩, ?_⟩
        rintro rfl
        obtain ⟨control', here', timer⟩ := h.mine live mem
        cases here.symm.trans here'
        cases unarmed.symm.trans timer
      · exact And.left
    next timer armed =>
      obtain ⟨first, firstMem, firstControl, firstId⟩ := h.live c control timer here armed
      constructor
      · rintro ⟨live, mem, rfl⟩
        obtain ⟨old, differs⟩ := mem_filter.mp mem
        refine ⟨⟨live, old, rfl⟩, ?_⟩
        intro same
        obtain ⟨control', here', timer'⟩ := h.mine live old
        rw [same, here] at here'
        cases here'
        rw [armed] at timer'
        exact of_decide_eq_true differs (Option.some.inj timer').symm
      · rintro ⟨⟨live, mem, rfl⟩, differs⟩
        refine ⟨live, mem_filter.mpr ⟨mem, decide_eq_true ?_⟩, rfl⟩
        intro equal
        exact differs ((h.unique live mem first firstMem (equal.trans firstId.symm)).trans firstControl)

structure SameJobs (s t : JobSystem) : Prop where
  instances : t.instances = s.instances
  registry : t.registry = s.registry
  modeTest : t.modeTest = s.modeTest
  heap : t.heap.length = s.heap.length

theorem SameJobs.refl (s : JobSystem) : SameJobs s s := ⟨rfl, rfl, rfl, rfl⟩

theorem SameJobs.trans (h : SameJobs s t) (g : SameJobs t r) : SameJobs s r :=
  ⟨g.instances.trans h.instances, g.registry.trans h.registry, g.modeTest.trans h.modeTest, g.heap.trans h.heap⟩

theorem same_arm (s : JobSystem) (c : Nat) : SameJobs s (s.arm c) := by
  unfold arm
  split
  · exact .refl s
  · split
    · exact .refl s
    · exact ⟨rfl, rfl, rfl, length_set⟩

theorem same_disarm (s : JobSystem) (c : Nat) : SameJobs s (s.disarm c) := by
  unfold disarm
  split
  · exact .refl s
  · split
    · exact .refl s
    · exact ⟨rfl, rfl, rfl, length_set⟩

theorem arm_all (controls : List Nat) (h : Linked s) :
    Linked (controls.foldl arm s) ∧ SameJobs s (controls.foldl arm s) ∧
      ∀ x, Armed (controls.foldl arm s) x ↔ Armed s x ∨ (x ∈ controls ∧ x < s.heap.length) := by
  induction controls generalizing s with
  | nil => exact ⟨h, .refl s, fun x => by simp⟩
  | cons c rest ih =>
    obtain ⟨linked, same, armed⟩ := ih (h.arm c)
    have first := same_arm s c
    refine ⟨linked, first.trans same, fun x => ?_⟩
    rw [foldl_cons, armed x, armed_arm h, first.heap, mem_cons]
    constructor
    · rintro ((old | ⟨rfl, inside⟩) | ⟨mem, inside⟩)
      · exact .inl old
      · exact .inr ⟨.inl rfl, inside⟩
      · exact .inr ⟨.inr mem, inside⟩
    · rintro (old | ⟨rfl | mem, inside⟩)
      · exact .inl (.inl old)
      · exact .inl (.inr ⟨rfl, inside⟩)
      · exact .inr ⟨mem, inside⟩

theorem disarm_all (controls : List Nat) (h : Linked s) :
    Linked (controls.foldl disarm s) ∧ SameJobs s (controls.foldl disarm s) ∧
      ∀ x, Armed (controls.foldl disarm s) x ↔ Armed s x ∧ x ∉ controls := by
  induction controls generalizing s with
  | nil => exact ⟨h, .refl s, fun x => by simp⟩
  | cons c rest ih =>
    obtain ⟨linked, same, armed⟩ := ih (h.disarm c)
    refine ⟨linked, (same_disarm s c).trans same, fun x => ?_⟩
    rw [foldl_cons, armed x, armed_disarm h, mem_cons, not_or, and_assoc]

theorem Linked.update (h : Linked s) (c : Nat) {change : JobControl → JobControl}
    (timer : ∀ control, (change control).timer = control.timer) : Linked (s.update c change) := by
  cases here : s.heap[c]? with
  | none =>
    have heap : s.heap.modify c change = s.heap := by
      apply ext_getElem?
      intro x
      rw [getElem?_modify]
      split
      next same => rw [← same, here]; rfl
      next => simp
    unfold JobSystem.update
    rw [heap]
    exact h
  | some control =>
    have heap : (s.update c change).heap = s.heap.set c (change control) :=
      ListRules.modify_eq_set here change
    constructor
    · intro live mem
      obtain ⟨control', here', timer'⟩ := h.mine live mem
      rw [heap]
      by_cases same : live.control = c
      · rw [same, here] at here'
        cases here'
        exact ⟨_, (getElem?_set_iff here).mpr (.inl ⟨same, rfl⟩), (timer control).trans timer'⟩
      · exact ⟨control', (getElem?_set_iff here).mpr (.inr ⟨same, here'⟩), timer'⟩
    · intro x control' timer' found armed
      rw [heap] at found
      rcases (getElem?_set_iff here).mp found with ⟨rfl, rfl⟩ | ⟨_, found⟩
      · exact h.live x control timer' here ((timer control).symm.trans armed)
      · exact h.live x control' timer' found armed
    · exact h.fresh
    · exact h.unique

variable {jobs : Jobs}

theorem owns_setJobs (here : s.instances[i]? = some jobs) (after : Jobs) :
    Owns (s.setJobs i after) j c ↔ (j = i ∧ c ∈ after.controls) ∨ (j ≠ i ∧ Owns s j c) := by
  unfold Owns
  constructor
  · rintro ⟨jobs', found, mem⟩
    rcases (getElem?_set_iff here).mp found with ⟨rfl, rfl⟩ | ⟨differs, found⟩
    · exact .inl ⟨rfl, mem⟩
    · exact .inr ⟨differs, jobs', found, mem⟩
  · rintro (⟨rfl, mem⟩ | ⟨differs, jobs', found, mem⟩)
    · exact ⟨after, (getElem?_set_iff here).mpr (.inl ⟨rfl, rfl⟩), mem⟩
    · exact ⟨jobs', (getElem?_set_iff here).mpr (.inr ⟨differs, found⟩), mem⟩

theorem owns_iff (here : s.instances[i]? = some jobs) : Owns s i c ↔ c ∈ jobs.controls := by
  constructor
  · rintro ⟨jobs', found, mem⟩
    cases here.symm.trans found
    exact mem
  · exact fun mem => ⟨jobs, here, mem⟩

theorem owns_split (here : s.instances[i]? = some jobs) :
    (j = i ∧ c ∈ jobs.controls) ∨ (j ≠ i ∧ Owns s j c) ↔ Owns s j c := by
  constructor
  · rintro (⟨rfl, mem⟩ | ⟨_, owns⟩)
    · exact (owns_iff here).mpr mem
    · exact owns
  · intro owns
    by_cases equal : j = i
    · subst equal
      exact .inl ⟨rfl, (owns_iff here).mp owns⟩
    · exact .inr ⟨equal, owns⟩

structure Owned (s : JobSystem) : Prop where
  inHeap : ∀ i c, Owns s i c → c < s.heap.length
  single : ∀ i j c, Owns s i c → Owns s j c → i = j
  owned : ∀ c, Armed s c → ∃ i, Owns s i c

/-- Timers and jobs may have gone, none has come, and no job with a live timer has left its map. -/
structure Shrinks (s t : JobSystem) : Prop where
  linked : Linked t
  heap : t.heap.length = s.heap.length
  armed : ∀ c, Armed t c → Armed s c
  owns : ∀ i c, Owns t i c → Owns s i c
  kept : ∀ i c, Armed t c → Owns s i c → Owns t i c

theorem Shrinks.refl (h : Linked s) : Shrinks s s :=
  ⟨h, rfl, fun _ => id, fun _ _ => id, fun _ _ _ => id⟩

theorem Shrinks.trans (h : Shrinks s t) (g : Shrinks t r) : Shrinks s r :=
  ⟨g.linked, g.heap.trans h.heap, fun c armed => h.armed c (g.armed c armed),
    fun i c owns => h.owns i c (g.owns i c owns),
    fun i c armed owns => g.kept i c armed (h.kept i c (g.armed c armed) owns)⟩

theorem Shrinks.owned (h : Shrinks s t) (o : Owned s) : Owned t := by
  constructor
  · intro i c owns
    rw [h.heap]
    exact o.inHeap i c (h.owns i c owns)
  · intro i j c owns owns'
    exact o.single i j c (h.owns i c owns) (h.owns j c owns')
  · intro c armed
    obtain ⟨i, owns⟩ := o.owned c (h.armed c armed)
    exact ⟨i, h.kept i c armed owns⟩

theorem shrinks_update (h : Linked s) (c : Nat) {change : JobControl → JobControl}
    (timer : ∀ control, (change control).timer = control.timer) : Shrinks s (s.update c change) :=
  ⟨h.update c timer, length_modify .., fun _ => id, fun _ _ => id, fun _ _ _ => id⟩

theorem shrinks_setPaused (h : Linked s) (i : Nat) (id : JsString) (paused : Bool) :
    Shrinks s (s.setPaused i id paused) := by
  unfold setPaused
  split
  · exact .refl h
  · split
    · exact .refl h
    · exact shrinks_update h _ fun _ => rfl

theorem shrinks_stopTimers (h : Linked s) (i : Nat) : Shrinks s (s.stopTimers i) := by
  unfold stopTimers
  split
  next => exact .refl h
  next jobs here =>
    obtain ⟨linked, same, armed⟩ := disarm_all jobs.controls h
    have here' : (jobs.controls.foldl disarm s).instances[i]? = some jobs := by
      rw [same.instances]
      exact here
    have owns : ∀ j c, Owns ((jobs.controls.foldl disarm s).setJobs i { jobs with started := false }) j c ↔
        Owns s j c := by
      intro j c
      rw [owns_setJobs here']
      have before : Owns (jobs.controls.foldl disarm s) j c ↔ Owns s j c := by
        unfold Owns
        rw [same.instances]
      rw [before]
      exact (owns_split here :)
    exact ⟨⟨linked.mine, linked.live, linked.fresh, linked.unique⟩, same.heap,
      fun c live => ((armed c).mp live).1, fun j c => (owns j c).mp, fun j c _ => (owns j c).mpr⟩

theorem stopTimers_clears (h : Linked s) (owns : Owns s i c) : ¬Armed (s.stopTimers i) c := by
  obtain ⟨jobs, here, mem⟩ := owns
  unfold stopTimers
  rw [here]
  intro armed
  exact ((disarm_all jobs.controls h).2.2 c |>.mp armed).2 mem

theorem shrinks_remove (h : Linked s) (here : s.instances[i]? = some jobs) (c : Nat) :
    Shrinks s ((s.disarm c).setJobs i { jobs with controls := jobs.controls.erase c }) := by
  have linked := h.disarm c
  have same := same_disarm s c
  have here' : (s.disarm c).instances[i]? = some jobs := by
    rw [same.instances]
    exact here
  have before : ∀ j x, Owns (s.disarm c) j x ↔ Owns s j x := by
    intro j x
    unfold Owns
    rw [same.instances]
  refine ⟨⟨linked.mine, linked.live, linked.fresh, linked.unique⟩, same.heap, ?_, ?_, ?_⟩
  · exact fun x armed => ((armed_disarm h).mp armed).1
  · intro j x owns
    rcases (owns_setJobs here' _).mp owns with ⟨rfl, mem⟩ | ⟨_, owns⟩
    · exact (owns_iff here).mpr (mem_of_mem_erase mem)
    · exact (before j x).mp owns
  · intro j x armed owns
    have differs := ((armed_disarm h).mp armed).2
    apply (owns_setJobs here' _).mpr
    by_cases equal : j = i
    · subst equal
      exact .inl ⟨rfl, (mem_erase_of_ne differs).mpr ((owns_iff here).mp owns)⟩
    · exact .inr ⟨equal, (before j x).mpr owns⟩

theorem shrinks_stopJob (h : Linked s) (i : Nat) (id : JsString) : Shrinks s (s.stopJob i id) := by
  unfold stopJob
  split
  next => exact .refl h
  next jobs here =>
    split
    next => exact .refl h
    next c found =>
      have updated : Shrinks s (s.update c fun control => { control with stopped := true }) :=
        shrinks_update h c fun _ => rfl
      exact updated.trans (shrinks_remove updated.linked here c)

theorem shrinks_stopControl (h : Linked s) (i c : Nat) : Shrinks s (s.stopControl i c) := by
  unfold stopControl
  split
  · exact .refl h
  · exact shrinks_stopJob h i _

theorem shrinks_stopControls (i : Nat) (controls : List Nat) (h : Linked s) :
    Shrinks s (controls.foldl (stopControl i) s) := by
  induction controls generalizing s with
  | nil => exact .refl h
  | cons c rest ih =>
    have first := shrinks_stopControl h i c
    exact first.trans (ih first.linked)

theorem shrinks_registry (h : Shrinks s t) (registry : List Nat) : Shrinks s { t with registry } :=
  ⟨⟨h.linked.mine, h.linked.live, h.linked.fresh, h.linked.unique⟩, h.heap, h.armed, h.owns, h.kept⟩

theorem shrinks_destroy (h : Linked s) (i : Nat) : Shrinks s (s.destroy i) := by
  have stopped := shrinks_stopTimers h i
  exact shrinks_registry (stopped.trans (shrinks_stopControls i _ stopped.linked)) _

theorem destroy_clears (h : Linked s) (owns : Owns s i c) : ¬Armed (s.destroy i) c := by
  intro armed
  have stopped := shrinks_stopTimers h i
  have cleared := shrinks_stopControls i ((s.stopTimers i).controlsOf i) stopped.linked
  exact stopTimers_clears h owns (cleared.armed c armed)

section registry

theorem registry_stopTimers (s : JobSystem) (i : Nat) : (s.stopTimers i).registry = s.registry := by
  unfold stopTimers
  split
  next => rfl
  next jobs _ =>
    have fold : ∀ (controls : List Nat) (u : JobSystem),
        (controls.foldl disarm u).registry = u.registry := by
      intro controls
      induction controls with
      | nil => exact fun _ => rfl
      | cons c rest ih => exact fun u => (ih (u.disarm c)).trans (same_disarm u c).registry
    exact fold jobs.controls s

theorem registry_stopJob (s : JobSystem) (i : Nat) (id : JsString) : (s.stopJob i id).registry = s.registry := by
  unfold stopJob
  split
  · rfl
  · split
    · rfl
    · exact (same_disarm _ _).registry

theorem registry_setPaused (s : JobSystem) (i : Nat) (id : JsString) (paused : Bool) :
    (s.setPaused i id paused).registry = s.registry := by
  unfold setPaused
  split
  · rfl
  · split <;> rfl

theorem registry_destroy (s : JobSystem) (i : Nat) :
    (s.destroy i).registry = s.registry.filter fun j => j ≠ i := by
  have fold : ∀ (controls : List Nat) (u : JobSystem),
      (controls.foldl (stopControl i) u).registry = u.registry := by
    intro controls
    induction controls with
    | nil => exact fun _ => rfl
    | cons c rest ih =>
      intro u
      have first : (u.stopControl i c).registry = u.registry := by
        unfold stopControl
        split
        · rfl
        · exact registry_stopJob u i _
      exact (ih (u.stopControl i c)).trans first
  show (filter _ (((s.stopTimers i).controlsOf i).foldl (stopControl i) (s.stopTimers i)).registry) = _
  rw [fold, registry_stopTimers]

end registry

theorem destroy_all (instances : List Nat) (h : Linked s) : Shrinks s (instances.foldl destroy s) ∧
      ∀ i ∈ instances, ∀ c, Owns s i c → ¬Armed (instances.foldl destroy s) c := by
  induction instances generalizing s with
  | nil => exact ⟨.refl h, nofun⟩
  | cons i rest ih =>
    have first := shrinks_destroy h i
    obtain ⟨others, cleared⟩ := ih first.linked
    refine ⟨first.trans others, ?_⟩
    intro j mem c owns armed
    have before : Armed (s.destroy i) c := others.armed c armed
    rcases mem_cons.mp mem with rfl | later
    · exact destroy_clears h owns before
    · exact cleared j later c (first.kept j c before owns) armed

def Registered (s : JobSystem) : Prop := ∀ c, Armed s c → ∃ i ∈ s.registry, Owns s i c

theorem mem_listed : c ∈ s.listed ↔ ∃ i ∈ s.registry, Owns s i c := by
  unfold listed
  rw [mem_flatMap]
  constructor
  · rintro ⟨i, mem, inside⟩
    refine ⟨i, mem, ?_⟩
    unfold controlsOf at inside
    split at inside
    · cases inside
    · exact ⟨_, ‹_›, inside⟩
  · rintro ⟨i, mem, jobs, here, inside⟩
    refine ⟨i, mem, ?_⟩
    unfold controlsOf
    rw [here]
    exact inside

theorem Shrinks.registered (h : Shrinks s t) (registry : t.registry = s.registry)
    (b : Registered s) : Registered t := by
  intro c armed
  obtain ⟨i, mem, owns⟩ := b c (h.armed c armed)
  exact ⟨i, registry ▸ mem, h.kept i c armed owns⟩

theorem registered_destroy (h : Linked s) (b : Registered s) (i : Nat) : Registered (s.destroy i) := by
  intro c armed
  have shrinks := shrinks_destroy h i
  obtain ⟨j, mem, owns⟩ := b c (shrinks.armed c armed)
  have differs : j ≠ i := by
    intro same
    exact destroy_clears h (same ▸ owns) armed
  refine ⟨j, ?_, shrinks.kept j c armed owns⟩
  rw [registry_destroy]
  exact mem_filter.mpr ⟨mem, decide_eq_true differs⟩

theorem stopAllJobs_clears (h : Linked s) (b : Registered s) (c : Nat) : ¬Armed s.stopAllJobs c := by
  intro armed
  obtain ⟨shrinks, cleared⟩ := destroy_all s.registry h
  obtain ⟨i, mem, owns⟩ := b c (shrinks.armed c armed)
  exact cleared i mem c owns armed

structure Arming (s t : JobSystem) (i : Nat) (arms : Prop) : Prop where
  linked : Linked t
  owned : Owned t
  registry : t.registry = s.registry
  registered : Registered s → (Registered t ↔ (arms → i ∈ s.registry))

theorem arming_none (h : Linked s) (o : Owned s) (i : Nat) : Arming s s i False :=
  ⟨h, o, rfl, fun b => ⟨fun _ impossible => impossible.elim, fun _ => b⟩⟩

theorem arming_of {controls : List Nat} (linked : Linked t) (owned : Owned t)
    (registry : t.registry = s.registry) (owns : ∀ j c, Owns s j c → Owns t j c)
    (mine : ∀ c ∈ controls, Owns t i c)
    (armed : ∀ c, Armed t c ↔ Armed s c ∨ c ∈ controls) : Arming s t i (controls ≠ []) := by
  refine ⟨linked, owned, registry, fun b => ?_⟩
  constructor
  · intro registered some_job
    obtain ⟨c, rest, here⟩ := exists_cons_of_ne_nil some_job
    have mem : c ∈ controls := here ▸ mem_cons_self
    obtain ⟨j, listed, owns'⟩ := registered c ((armed c).mpr (.inr mem))
    rw [owned.single i j c (mine c mem) owns', ← registry]
    exact listed
  · intro listed c live
    rcases (armed c).mp live with old | new
    · obtain ⟨j, mem, owns'⟩ := b c old
      exact ⟨j, registry ▸ mem, owns j c owns'⟩
    · exact ⟨i, registry ▸ listed (ne_nil_of_mem new), mine c new⟩

theorem startJobs_does (h : Linked s) (o : Owned s) (here : s.instances[i]? = some jobs)
    (off : jobs.started = false) (mode : s.modeTest = false) :
    Linked (s.startJobs i) ∧ SameJobs (s.setJobs i { jobs with started := true }) (s.startJobs i) ∧
      (∀ j c, Owns (s.startJobs i) j c ↔ Owns s j c) ∧
      ∀ c, Armed (s.startJobs i) c ↔ Armed s c ∨ c ∈ jobs.controls := by
  have made : s.startJobs i = jobs.controls.foldl arm (s.setJobs i { jobs with started := true }) := by
    unfold startJobs
    rw [here]
    simp [off, mode]
  rw [made]
  have linked : Linked (s.setJobs i { jobs with started := true }) :=
    ⟨h.mine, h.live, h.fresh, h.unique⟩
  obtain ⟨linked', same, armed⟩ := arm_all jobs.controls linked
  refine ⟨linked', same, fun j c => ?_, fun c => ?_⟩
  · have after : Owns (jobs.controls.foldl arm (s.setJobs i { jobs with started := true })) j c ↔
        Owns (s.setJobs i { jobs with started := true }) j c := by
      unfold Owns
      rw [same.instances]
    rw [after, owns_setJobs here]
    exact (owns_split here :)
  · rw [armed c]
    constructor
    · rintro (old | ⟨mem, _⟩)
      · exact .inl old
      · exact .inr mem
    · rintro (old | mem)
      · exact .inl old
      · exact .inr ⟨mem, o.inHeap i c ((owns_iff here).mpr mem)⟩

theorem startJobs_idle (idle : ∀ jobs : Jobs, s.instances[i]? = some jobs →
    ¬(jobs.started = false ∧ s.modeTest = false)) : s.startJobs i = s := by
  unfold startJobs
  split
  next => rfl
  next jobs here =>
    split
    next => rfl
    next off =>
      simp only [Bool.or_eq_true, not_or, Bool.not_eq_true] at off
      exact absurd off (idle jobs here)

theorem arming_startJobs (h : Linked s) (o : Owned s) (here : s.instances[i]? = some jobs) :
    Arming s (s.startJobs i) i (jobs.started = false ∧ s.modeTest = false ∧ jobs.controls ≠ []) := by
  by_cases off : jobs.started = false ∧ s.modeTest = false
  · simp only [off, true_and]
    obtain ⟨linked, same, owns, armed⟩ := startJobs_does h o here off.1 off.2
    have registry : (s.startJobs i).registry = s.registry := same.registry
    apply arming_of linked _ registry (fun j c => (owns j c).mpr)
      (fun c mem => (owns i c).mpr ((owns_iff here).mpr mem)) armed
    constructor
    · intro j c mem
      rw [same.heap]
      exact o.inHeap j c ((owns j c).mp mem)
    · intro j k c mem mem'
      exact o.single j k c ((owns j c).mp mem) ((owns k c).mp mem')
    · intro c live
      rcases (armed c).mp live with old | new
      · obtain ⟨j, mem⟩ := o.owned c old
        exact ⟨j, (owns j c).mpr mem⟩
      · exact ⟨i, (owns i c).mpr ((owns_iff here).mpr new)⟩
  · have same : s.startJobs i = s := by
      apply startJobs_idle
      intro jobs' here'
      cases here.symm.trans here'
      exact off
    have never : ¬(jobs.started = false ∧ s.modeTest = false ∧ jobs.controls ≠ []) :=
      fun all => off ⟨all.1, all.2.1⟩
    rw [same, eq_false never]
    exact arming_none h o i

theorem Linked.grow (h : Linked s) {control : JobControl} (unarmed : control.timer = none) :
    Linked { s with heap := s.heap ++ [control] } := by
  constructor
  · intro live mem
    obtain ⟨control', here, timer⟩ := h.mine live mem
    exact ⟨control', getElem?_concat_iff.mpr (.inl here), timer⟩
  · intro c control' timer here armed
    rcases getElem?_concat_iff.mp here with old | ⟨_, rfl⟩
    · exact h.live c control' timer old armed
    · cases unarmed.symm.trans armed
  · exact h.fresh
  · exact h.unique

theorem register_does (h : Linked s) {control : JobControl}
    (here : s.instances[i]? = some jobs) (unarmed : control.timer = none) :
    Linked (s.register i control) ∧ (s.register i control).registry = s.registry ∧
      (s.register i control).heap.length = s.heap.length + 1 ∧
      (∀ j c, Owns (s.register i control) j c ↔ Owns s j c ∨ (j = i ∧ c = s.heap.length)) ∧
      ∀ c, Armed (s.register i control) c ↔
        Armed s c ∨ ((jobs.started = true ∧ s.modeTest = false) ∧ c = s.heap.length) := by
  unfold register
  rw [here]
  dsimp only
  have grown := h.grow unarmed
  generalize made : setJobs i { jobs with controls := jobs.controls ++ [s.heap.length] }
    { s with heap := s.heap ++ [control] } = t
  have linked : Linked t := by
    rw [← made]
    exact ⟨grown.mine, grown.live, grown.fresh, grown.unique⟩
  have owns : ∀ j c, Owns t j c ↔ Owns s j c ∨ (j = i ∧ c = s.heap.length) := by
    intro j c
    rw [← made]
    have step := owns_setJobs (s := { s with heap := s.heap ++ [control] }) (j := j) (c := c) here
      { jobs with controls := jobs.controls ++ [s.heap.length] }
    rw [step]
    show _ ∨ (j ≠ i ∧ Owns s j c) ↔ _
    by_cases equal : j = i
    · subst equal
      simp [owns_iff here]
    · simp [equal]
  have heap : t.heap.length = s.heap.length + 1 := by
    rw [← made]
    exact length_append
  have registry : t.registry = s.registry := by rw [← made]; rfl
  have armed : ∀ c, Armed t c ↔ Armed s c := by
    intro c
    rw [← made]
    exact Iff.rfl
  split
  next on =>
    have started : jobs.started = true ∧ s.modeTest = false := by simpa using on
    have same := same_arm t s.heap.length
    refine ⟨linked.arm _, same.registry.trans registry, same.heap.trans heap, fun j c => ?_, fun c => ?_⟩
    · have after : Owns (t.arm s.heap.length) j c ↔ Owns t j c := by
        unfold Owns
        rw [same.instances]
      exact after.trans (owns j c)
    · rw [armed_arm linked, armed c, heap]
      simp [started]
  next off =>
    have never : ¬(jobs.started = true ∧ s.modeTest = false) := by
      rintro ⟨started, mode⟩
      rw [started, mode] at off
      exact off rfl
    refine ⟨linked, registry, heap, owns, fun c => ?_⟩
    rw [armed c]
    simp only [never, false_and, or_false]

theorem arming_register (h : Linked s) (o : Owned s) {control : JobControl}
    (here : s.instances[i]? = some jobs) (unarmed : control.timer = none) :
    Arming s (s.register i control) i (jobs.started = true ∧ s.modeTest = false) := by
  obtain ⟨linked, registry, heap, owns, armed⟩ := register_does h here unarmed
  have newest : Owns (s.register i control) i s.heap.length := (owns i _).mpr (.inr ⟨rfl, rfl⟩)
  have owned : Owned (s.register i control) := by
    constructor
    · intro j c mem
      rw [heap]
      rcases (owns j c).mp mem with old | ⟨_, rfl⟩
      · have := o.inHeap j c old
        omega
      · omega
    · intro j k c mem mem'
      rcases (owns j c).mp mem with old | ⟨same, new⟩ <;> rcases (owns k c).mp mem' with old' | ⟨same', new'⟩
      · exact o.single j k c old old'
      · exact absurd (o.inHeap j c old) (new' ▸ Nat.lt_irrefl _)
      · exact absurd (o.inHeap k c old') (new ▸ Nat.lt_irrefl _)
      · exact same.trans same'.symm
    · intro c live
      rcases (armed c).mp live with old | ⟨_, rfl⟩
      · obtain ⟨j, mem⟩ := o.owned c old
        exact ⟨j, (owns j c).mpr (.inl mem)⟩
      · exact ⟨i, newest⟩
  by_cases on : jobs.started = true ∧ s.modeTest = false
  · have same_condition : (jobs.started = true ∧ s.modeTest = false) = ([s.heap.length] ≠ []) :=
      propext ⟨fun _ => cons_ne_nil _ _, fun _ => on⟩
    rw [same_condition]
    refine arming_of linked owned registry (fun j c mem => (owns j c).mpr (.inl mem)) ?_ ?_
    · intro c mem
      rw [mem_singleton.mp mem]
      exact newest
    · intro c
      rw [armed c, mem_singleton]
      simp [on]
  · rw [eq_false on]
    refine ⟨linked, owned, registry, fun b => ⟨fun _ impossible => impossible.elim, fun _ => ?_⟩⟩
    intro c live
    have old : Armed s c := ((armed c).mp live).resolve_right fun new => on new.1
    obtain ⟨j, mem, owns'⟩ := b c old
    exact ⟨j, registry ▸ mem, (owns j c).mpr (.inl owns')⟩

end JobSystem

end ForgeDeno
