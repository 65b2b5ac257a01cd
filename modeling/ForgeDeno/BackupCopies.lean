import ForgeDeno.CalmVolumes
import ForgeDeno.ExceptRules

namespace ForgeDeno

open Program List AList FileSink

def FileSink.Spacious (sink : FileSink) : Prop :=
  sink.activePath.length < sink.backupPrefix.length + 4

theorem sinkNames_spacious {toLowerCase : JsString → JsString} {options : FileSinkOptions} {sink : FileSink}
    (valid : sinkNames toLowerCase options = .ok (sink.activePath, sink.backupPrefix)) : sink.Spacious := by
  unfold sinkNames at valid
  obtain ⟨fileName, _, valid⟩ := ExceptRules.bind_ok.mp valid
  obtain ⟨_, valid⟩ := ExceptRules.check_bind_ok.mp valid
  obtain ⟨active, backups⟩ := Prod.mk.inj (Except.ok.inj valid)
  have long : fileName.length ≤ (stripLogExtension toLowerCase fileName).length + 4 := by
    unfold stripLogExtension
    split_ifs
    · rw [length_take]
      omega
    · omega
  have dash : sink.backupPrefix.length = (stripLogExtension toLowerCase fileName).length + 1 := by
    rw [← backups, length_append]
    rfl
  unfold FileSink.Spacious
  rw [← active, dash]
  omega

def copyName (d : Directory) (b : JsString) : JsString := if gzipPath b ∈ d then gzipPath b else b

section names

variable {backupPrefix b c : JsString}

def DatedName (backupPrefix b : JsString) : Prop := ∃ time, backupName backupPrefix time = some b

theorem DatedName.shape (h : DatedName backupPrefix b) :
    ∃ time, b = backupPrefix ++ time ++ js ".log" := by
  obtain ⟨time, named⟩ := h
  exact ⟨_, (backupName_some named).2⟩

theorem DatedName.last (h : DatedName backupPrefix b) : b.getLast? = some 0x67 := by
  obtain ⟨time, rfl⟩ := h.shape
  exact getLast?_append_of_ne_nil _ (cons_ne_nil _ _)

theorem gzipPath_last (b : JsString) : (gzipPath b).getLast? = some 0x7A :=
  getLast?_append_of_ne_nil _ (cons_ne_nil _ _)

theorem temporaryPath_last (b : JsString) : (temporaryPath b).getLast? = some 0x70 :=
  getLast?_append_of_ne_nil _ (cons_ne_nil _ _)

theorem gzipPath_injective (same : gzipPath b = gzipPath c) : b = c := append_cancel_right same

theorem temporaryPath_injective (same : temporaryPath b = temporaryPath c) : b = c :=
  gzipPath_injective (append_cancel_right same)

theorem DatedName.ne_gzipPath (h : DatedName backupPrefix b) : b ≠ gzipPath c := by
  intro same
  have last := h.last
  rw [same, gzipPath_last] at last
  exact absurd last (by decide)

theorem DatedName.ne_temporaryPath (h : DatedName backupPrefix b) : b ≠ temporaryPath c := by
  intro same
  have last := h.last
  rw [same, temporaryPath_last] at last
  exact absurd last (by decide)

theorem gzipPath_ne_temporaryPath : gzipPath b ≠ temporaryPath c := by
  intro same
  have last := gzipPath_last b
  rw [same, temporaryPath_last] at last
  exact absurd last (by decide)

def StandsFor (name b : JsString) : Prop := name = b ∨ name = gzipPath b

theorem StandsFor.unique {name : JsString} (first : DatedName backupPrefix b)
    (second : DatedName backupPrefix c) (left : StandsFor name b) (right : StandsFor name c) : b = c := by
  rcases left with rfl | rfl
  · rcases right with rfl | same
    · rfl
    · exact absurd same first.ne_gzipPath
  · rcases right with same | same
    · exact absurd same.symm second.ne_gzipPath
    · exact gzipPath_injective same

theorem copyName_standsFor (d : Directory) (b : JsString) : StandsFor (copyName d b) b := by
  unfold copyName
  split_ifs
  · exact .inr rfl
  · exact .inl rfl

theorem StandsFor.listed {sink : FileSink} {name : JsString}
    (dated : DatedName sink.backupPrefix b) (stands : StandsFor name b) {entry : FileEntry}
    (regular : entry.isFile = true) : sink.listed ⟨name, entry⟩ = true := by
  obtain ⟨time, shape⟩ := dated.shape
  have front : sink.backupPrefix <+: name := by
    rcases stands with rfl | rfl
    · exact ⟨time ++ js ".log", by rw [shape, append_assoc]⟩
    · exact ⟨time ++ js ".log" ++ js ".gz", by unfold gzipPath; rw [shape]; simp⟩
  have back : js ".log" <:+ name ∨ js ".log.gz" <:+ name := by
    rcases stands with rfl | rfl
    · exact .inl ⟨sink.backupPrefix ++ time, shape.symm⟩
    · refine .inr ⟨sink.backupPrefix ++ time, ?_⟩
      unfold gzipPath
      rw [shape, append_assoc _ (js ".log")]
      rfl
  unfold FileSink.listed FileSink.isBackupName
  simp only [regular, Bool.true_and, Bool.and_eq_true, Bool.or_eq_true, isPrefixOf_iff_prefix,
    isSuffixOf_iff_suffix]
  exact ⟨front, back⟩

end names

def Dated (backupPrefix : JsString) (rotated : List JsString) (time : Nat) : Prop :=
  ∃ times : List Nat, rotated.map some = times.map (backupName backupPrefix) ∧
    times.Pairwise (· < ·) ∧ ∀ t ∈ times, t ≤ time

section dated

variable {backupPrefix : JsString} {rotated : List JsString} {time later : Nat}

theorem Dated.name (h : Dated backupPrefix rotated time) {b : JsString} (mem : b ∈ rotated) :
    DatedName backupPrefix b := by
  obtain ⟨times, names, _, _⟩ := h
  have inside : some b ∈ times.map (backupName backupPrefix) := names ▸ mem_map_of_mem mem
  obtain ⟨t, _, named⟩ := mem_map.mp inside
  exact ⟨t, named⟩

theorem Dated.nodup (h : Dated backupPrefix rotated time) : rotated.Nodup := by
  obtain ⟨times, names, ordered, _⟩ := h
  have distinct : (times.map (backupName backupPrefix)).Nodup := by
    refine List.Nodup.map_on (fun s hs t _ same => ?_) (ordered.imp fun less => Nat.ne_of_lt less)
    have inside : backupName backupPrefix s ∈ rotated.map some := names ▸ mem_map_of_mem hs
    obtain ⟨name, _, named⟩ := mem_map.mp inside
    exact backupName_injective named.symm (same ▸ named.symm)
  exact List.Nodup.of_map some (names ▸ distinct)

theorem Dated.mono (h : Dated backupPrefix rotated time) (le : time ≤ later) :
    Dated backupPrefix rotated later := by
  obtain ⟨times, names, ordered, past⟩ := h
  exact ⟨times, names, ordered, fun t mem => Nat.le_trans (past t mem) le⟩

theorem Dated.concat (h : Dated backupPrefix rotated time) (after : time < later) {path : JsString}
    (named : backupName backupPrefix later = some path) : Dated backupPrefix (rotated ++ [path]) later := by
  obtain ⟨times, names, ordered, past⟩ := h
  refine ⟨times ++ [later], ?_, ?_, fun t mem => ?_⟩
  · rw [map_append, map_append, names, map_singleton, map_singleton, named]
  · refine pairwise_append.mpr ⟨ordered, pairwise_singleton _ _, fun s hs t ht => ?_⟩
    cases mem_singleton.mp ht
    exact Nat.lt_of_le_of_lt (past s hs) after
  · rcases mem_append.mp mem with old | new
    · exact Nat.le_of_lt (Nat.lt_of_le_of_lt (past t old) after)
    · cases mem_singleton.mp new
      exact Nat.le_refl _

end dated

def phaseOf (tasks : List CompressionTask) (b : JsString) : Option CompressionPhase :=
  (tasks.find? fun task => task.path = b).map CompressionTask.phase

section tasks

variable {tasks : List CompressionTask} {b path : JsString} {phase : CompressionPhase}

theorem phaseOf_none (absent : ∀ task ∈ tasks, task.path ≠ b) : phaseOf tasks b = none := by
  have missing : tasks.find? (fun task => task.path = b) = none :=
    find?_eq_none.mpr fun task mem same => absent task mem (of_decide_eq_true same)
  unfold phaseOf
  rw [missing]
  rfl

theorem phaseOf_some (found : phaseOf tasks b = some phase) :
    ∃ task ∈ tasks, task.path = b ∧ task.phase = phase := by
  obtain ⟨task, there, rfl⟩ := Option.map_eq_some_iff.mp found
  have same := find?_some there
  exact ⟨task, mem_of_find?_eq_some there, of_decide_eq_true same, rfl⟩

theorem phaseOf_cons (task : CompressionTask) :
    phaseOf (task :: tasks) b = if task.path = b then some task.phase else phaseOf tasks b := by
  unfold phaseOf
  rw [find?_cons]
  by_cases same : task.path = b
  · rw [if_pos same, decide_eq_true same]
    rfl
  · rw [if_neg same, decide_eq_false same]

theorem phaseOf_concat (absent : ∀ task ∈ tasks, task.path ≠ path) :
    phaseOf (tasks ++ [⟨path, phase⟩]) b = if path = b then some phase else phaseOf tasks b := by
  induction tasks with
  | nil => exact phaseOf_cons _
  | cons task tasks ih =>
    rw [cons_append, phaseOf_cons, phaseOf_cons,
      ih fun other mem => absent other (mem_cons_of_mem _ mem)]
    by_cases same : task.path = b
    · have ne : path ≠ b := fun eq => absent task mem_cons_self (same.trans eq.symm)
      rw [if_pos same, if_pos same, if_neg ne]
    · rw [if_neg same, if_neg same]

theorem phaseOf_set (apart : (tasks.map CompressionTask.path).Nodup) {index : Nat}
    {task : CompressionTask} (found : tasks[index]? = some task) :
    phaseOf (tasks.set index { task with phase }) b = if task.path = b then some phase else phaseOf tasks b := by
  induction tasks generalizing index with
  | nil => cases found
  | cons first tasks ih =>
    obtain ⟨absent, apart⟩ := nodup_cons.mp apart
    cases index with
    | zero =>
      cases found
      rw [set_cons_zero, phaseOf_cons, phaseOf_cons]
      split_ifs <;> rfl
    | succ index =>
      have there : tasks[index]? = some task := found
      rw [set_cons_succ, phaseOf_cons, phaseOf_cons, ih apart there]
      have ne : first.path ≠ task.path := fun eq =>
        absent (eq ▸ mem_map_of_mem (mem_of_getElem? there))
      by_cases same : first.path = b
      · have other : task.path ≠ b := fun eq => ne (same.trans eq.symm)
        rw [if_pos same, if_pos same, if_neg other]
      · rw [if_neg same, if_neg same]

theorem phaseOf_at (apart : (tasks.map CompressionTask.path).Nodup) {index : Nat}
    {task : CompressionTask} (found : tasks[index]? = some task) : phaseOf tasks task.path = some task.phase := by
  have same : tasks.set index task = tasks := by
    obtain ⟨bound, rfl⟩ := List.getElem?_eq_some_iff.mp found
    exact set_getElem_self bound
  have set : phaseOf (tasks.set index { task with phase := task.phase }) task.path =
      if task.path = task.path then some task.phase else phaseOf tasks task.path :=
    phaseOf_set apart found
  rw [if_pos rfl] at set
  rw [← set]
  exact congrArg (fun tasks => phaseOf tasks task.path) same.symm

end tasks

/-- What holds of a backup at all times but between its removal and that of an older one: a recent
one is there, its files are regular, and it is there twice only while its compression is about to
remove the plain file. -/
structure Tracked (recent : Prop) (d : Directory) (phase : Option CompressionPhase) (b : JsString) : Prop where
  present : recent → b ∈ d ∨ gzipPath b ∈ d
  regular : ∀ name, StandsFor name b → ∀ entry, d.lookup name = some entry → entry.isFile = true
  written : phase = some .securing ∨ phase = some .publishing → ∀ entry,
    d.lookup (temporaryPath b) = some entry → entry.isFile = true
  published : phase = some .discarding → recent → gzipPath b ∈ d
  once : b ∈ d → gzipPath b ∈ d → phase = some .discarding

theorem mem_of_lookup {d d' : Directory} {name : JsString} (same : d'.lookup name = d.lookup name) :
    name ∈ d' ↔ name ∈ d := by
  rw [← lookup_isSome, ← lookup_isSome, same]

theorem Tracked.same {recent : Prop} {d d' : Directory} {phase : Option CompressionPhase}
    {b : JsString} (h : Tracked recent d phase b) (plain : d'.lookup b = d.lookup b)
    (zipped : d'.lookup (gzipPath b) = d.lookup (gzipPath b))
    (temporary : d'.lookup (temporaryPath b) = d.lookup (temporaryPath b)) : Tracked recent d' phase b where
  present now := (h.present now).imp (mem_of_lookup plain).mpr (mem_of_lookup zipped).mpr
  regular name either entry found := by
    refine h.regular name either entry ?_
    rcases either with rfl | rfl
    · exact plain ▸ found
    · exact zipped ▸ found
  written late entry found := h.written late entry (temporary ▸ found)
  published late now := (mem_of_lookup zipped).mpr (h.published late now)
  once first second := h.once ((mem_of_lookup plain).mp first) ((mem_of_lookup zipped).mp second)

namespace FileSink

variable (sink : FileSink)

def latest (rotated : List JsString) : List JsString :=
  rotated.reverse.take sink.rotation.maxBackups

def outdated (rotated : List JsString) : List JsString :=
  rotated.reverse.drop sink.rotation.maxBackups

def survivors (turn : Turn) (d : Directory) : List JsString :=
  ((newestFirst (sink.listing turn d)).take sink.rotation.maxBackups).map Backup.path

def Retains (turn : Turn) (rotated : List JsString) (d : Directory) : Prop :=
  ∀ b ∈ sink.latest rotated, copyName d b ∈ sink.survivors turn d

end FileSink

structure Managed (sink : FileSink) (rotated : List JsString) (time : Nat) (d : Directory)
    (tasks : List CompressionTask) : Prop where
  dated : Dated sink.backupPrefix rotated time
  apart : (tasks.map CompressionTask.path).Nodup
  own : ∀ task ∈ tasks, task.path ∈ rotated
  tracked : ∀ b ∈ rotated, Tracked (b ∈ sink.latest rotated) d (phaseOf tasks b) b

def Cleared (sink : FileSink) (rotated : List JsString) (d : Directory) : Prop :=
  ∀ b ∈ sink.outdated rotated, b ∉ d ∧ gzipPath b ∉ d

namespace FileSink

section pruning

variable {sink : FileSink} {turn : Turn} {d : Directory} {name : JsString}

theorem lookup_without (paths : List JsString) :
    (without d paths).lookup name = if name ∈ paths then none else d.lookup name := by
  induction paths generalizing d with
  | nil => rfl
  | cons path paths ih =>
    show (without (d.erase path) paths).lookup name = _
    rw [ih]
    by_cases later : name ∈ paths
    · rw [if_pos later, if_pos (mem_cons_of_mem _ later)]
    · by_cases same : name = path
      · rw [if_neg later, if_pos (same ▸ mem_cons_self), same, lookup_erase]
      · have absent : name ∉ path :: paths := not_mem_cons_of_ne_of_not_mem same later
        rw [if_neg later, if_neg absent, lookup_erase_ne same]

theorem survivors_nodup (turn : Turn) (d : Directory) :
    (sink.survivors turn d ++ ((newestFirst (sink.listing turn d)).drop
      sink.rotation.maxBackups).map Backup.path).Nodup := by
  unfold survivors
  rw [← map_append, take_append_drop]
  have perm : (newestFirst (sink.listing turn d)).Perm (sink.listing turn d) :=
    perm_insertionSort _ _
  exact (perm.map Backup.path).nodup_iff.mpr (sink.listing_found turn d).nodup

theorem lookup_survivor (mem : name ∈ sink.survivors turn d) :
    (sink.pruned turn d).lookup name = d.lookup name := by
  unfold pruned
  split_ifs
  · rfl
  · have nodup : (sink.survivors turn d ++ ((newestFirst (sink.listing turn d)).drop
        sink.rotation.maxBackups).map Backup.path).Nodup := survivors_nodup turn d
    have apart := (nodup_append.mp nodup).2.2
    rw [lookup_without, if_neg fun removed => apart name mem name removed rfl]

theorem lookup_pruned {entry : FileEntry} (found : (sink.pruned turn d).lookup name = some entry) :
    d.lookup name = some entry := by
  unfold pruned at found
  split_ifs at found
  · exact found
  · rw [lookup_without] at found
    split_ifs at found
    exact found

theorem mem_of_pruned (there : name ∈ sink.pruned turn d) : name ∈ d := by
  obtain ⟨entry, found⟩ := Option.isSome_iff_exists.mp (lookup_isSome.mpr there)
  exact lookup_isSome.mp (by rw [lookup_pruned found]; rfl)

theorem survivor_of_listed (positive : sink.rotation.maxBackups ≠ 0) (there : name ∈ sink.pruned turn d)
    (listed : ∀ entry, d.lookup name = some entry → sink.listed ⟨name, entry⟩ = true) :
    name ∈ sink.survivors turn d := by
  obtain ⟨entry, found⟩ := Option.isSome_iff_exists.mp (lookup_isSome.mpr there)
  have before := lookup_pruned found
  have inside : name ∈ (newestFirst (sink.listing turn d)).map Backup.path := by
    refine mem_map.mpr ⟨⟨name, entry.modified⟩, ?_, rfl⟩
    refine (perm_insertionSort _ _).mem_iff.mpr ?_
    refine mem_map.mpr ⟨⟨name, entry⟩, mem_filter.mpr ⟨?_, listed entry before⟩, rfl⟩
    exact (perm_insertionSort _ _).mem_iff.mpr (mem_lookup_iff.mp before)
  rw [← take_append_drop sink.rotation.maxBackups (newestFirst (sink.listing turn d)),
    map_append] at inside
  refine (mem_append.mp inside).resolve_right fun removed => ?_
  unfold pruned at found
  rw [if_neg positive, lookup_without, if_pos removed] at found
  cases found

end pruning

end FileSink

section pruning

variable {sink : FileSink} {turn : Turn} {d : Directory} {rotated : List JsString} {time : Nat}
  {tasks : List CompressionTask}

theorem Managed.pruned (h : Managed sink rotated time d tasks) (retains : sink.Retains turn rotated d) :
    Managed sink rotated time (sink.pruned turn d) tasks := by
  refine ⟨h.dated, h.apart, h.own, fun b mem => ?_⟩
  have tracked := h.tracked b mem
  refine ⟨fun recent => ?_, fun name stands entry found => ?_, fun late entry found => ?_,
    fun late recent => ?_, fun first second => ?_⟩
  · have same := lookup_survivor (retains b recent)
    by_cases zipped : gzipPath b ∈ d
    · have eq : copyName d b = gzipPath b := if_pos zipped
      rw [eq] at same
      exact .inr ((mem_of_lookup same).mpr zipped)
    · have eq : copyName d b = b := if_neg zipped
      rw [eq] at same
      exact .inl ((mem_of_lookup same).mpr ((tracked.present recent).resolve_right zipped))
  · exact tracked.regular name stands entry (lookup_pruned found)
  · exact tracked.written late entry (lookup_pruned found)
  · have zipped := tracked.published late recent
    have eq : copyName d b = gzipPath b := if_pos zipped
    have same := lookup_survivor (retains b recent)
    rw [eq] at same
    exact (mem_of_lookup same).mpr zipped
  · exact tracked.once (mem_of_pruned first) (mem_of_pruned second)

theorem Dated.latest_apart {backupPrefix : JsString} (h : Dated backupPrefix rotated time)
    {b c : JsString} (recent : b ∈ sink.latest rotated) (old : c ∈ sink.outdated rotated) : b ≠ c := by
  have nodup : (rotated.reverse.take sink.rotation.maxBackups ++
      rotated.reverse.drop sink.rotation.maxBackups).Nodup := by
    rw [take_append_drop]
    exact nodup_reverse.mpr h.nodup
  exact (nodup_append.mp nodup).2.2 b recent c old

theorem mem_of_latest {b : JsString} (recent : b ∈ sink.latest rotated) : b ∈ rotated :=
  mem_reverse.mp (mem_of_mem_take recent)

theorem mem_of_outdated {b : JsString} (old : b ∈ sink.outdated rotated) : b ∈ rotated :=
  mem_reverse.mp (mem_of_mem_drop old)

theorem Managed.cleared (h : Managed sink rotated time d tasks)
    (positive : sink.rotation.maxBackups ≠ 0) (retains : sink.Retains turn rotated d) :
    Cleared sink rotated (sink.pruned turn d) := by
  intro b old
  have dated := h.dated.name (mem_of_outdated old)
  have gone : ∀ name, StandsFor name b → name ∉ sink.pruned turn d := by
    intro name stands there
    have survives : name ∈ sink.survivors turn d :=
      survivor_of_listed positive there fun entry found =>
        stands.listed dated ((h.tracked b (mem_of_outdated old)).regular name stands entry found)
    have nodup : (name :: (sink.latest rotated).map (copyName d)).Nodup := by
      refine nodup_cons.mpr ⟨fun inside => ?_, ?_⟩
      · obtain ⟨c, recent, same⟩ := mem_map.mp inside
        have other := copyName_standsFor d c
        rw [same] at other
        exact h.dated.latest_apart recent old (other.unique (h.dated.name (mem_of_latest recent)) dated stands)
      · refine List.Nodup.map_on (fun c hc e he same => ?_) ?_
        · have left := copyName_standsFor d c
          rw [same] at left
          exact left.unique (h.dated.name (mem_of_latest hc)) (h.dated.name (mem_of_latest he))
            (copyName_standsFor d e)
        · exact (nodup_reverse.mpr h.dated.nodup).sublist (take_sublist _ _)
    have inside : name :: (sink.latest rotated).map (copyName d) ⊆ sink.survivors turn d := by
      refine cons_subset.mpr ⟨survives, fun copy mem => ?_⟩
      obtain ⟨c, recent, rfl⟩ := mem_map.mp mem
      exact retains c recent
    have counted := (List.Nodup.subperm nodup inside).length_le
    have many : sink.rotation.maxBackups < rotated.reverse.length := by
      have := length_pos_of_mem old
      unfold outdated at this
      rw [length_drop] at this
      omega
    unfold survivors latest at counted
    rw [length_cons, length_map, length_map, length_take, length_take] at counted
    omega
  exact ⟨gone b (.inl rfl), gone (gzipPath b) (.inr rfl)⟩

end pruning

end ForgeDeno
