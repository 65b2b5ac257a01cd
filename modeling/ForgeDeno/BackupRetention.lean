import ForgeDeno.BackupCopies
import ForgeDeno.BackupOwnership

namespace ForgeDeno

open Program List AList Option

section frame

variable {sink : FileSink} {rotated : List JsString} {time : Nat} {d d' : Directory}
  {tasks : List CompressionTask} {b : JsString}

theorem DatedName.ne_active (spacious : sink.Spacious) (h : DatedName sink.backupPrefix b) :
    b ≠ sink.activePath ∧ gzipPath b ≠ sink.activePath ∧ temporaryPath b ≠ sink.activePath := by
  obtain ⟨time, shape⟩ := h.shape
  have long : sink.activePath.length < b.length := by
    rw [shape, length_append, length_append]
    have ending : (js ".log").length = 4 := rfl
    unfold FileSink.Spacious at spacious
    omega
  have longer : sink.activePath.length < (gzipPath b).length := by
    unfold gzipPath
    rw [length_append]
    omega
  have longest : sink.activePath.length < (temporaryPath b).length := by
    unfold temporaryPath
    rw [length_append]
    omega
  refine ⟨fun eq => ?_, fun eq => ?_, fun eq => ?_⟩
  · rw [eq] at long
    exact Nat.lt_irrefl _ long
  · rw [eq] at longer
    exact Nat.lt_irrefl _ longer
  · rw [eq] at longest
    exact Nat.lt_irrefl _ longest

theorem Managed.frame (spacious : sink.Spacious) (h : Managed sink rotated time d tasks)
    (same : ∀ name, name ≠ sink.activePath → d'.lookup name = d.lookup name) :
    Managed sink rotated time d' tasks := by
  refine ⟨h.dated, h.apart, h.own, fun b mem => ?_⟩
  obtain ⟨plain, zipped, temporary⟩ := (h.dated.name mem).ne_active spacious
  exact (h.tracked b mem).same (same b plain) (same _ zipped) (same _ temporary)

theorem Cleared.imp (h : Cleared sink rotated d) (less : ∀ b ∈ sink.outdated rotated, ∀ name,
    StandsFor name b → name ∈ d' → name ∈ d) : Cleared sink rotated d' := by
  intro b old
  obtain ⟨plain, zipped⟩ := h b old
  exact ⟨fun there => plain (less b old b (.inl rfl) there),
    fun there => zipped (less b old _ (.inr rfl) there)⟩

theorem Cleared.frame (spacious : sink.Spacious) (dated : Dated sink.backupPrefix rotated time)
    (h : Cleared sink rotated d) (same : ∀ name, name ≠ sink.activePath → d'.lookup name = d.lookup name) :
    Cleared sink rotated d' := by
  refine h.imp fun b old name stands there => ?_
  obtain ⟨plain, zipped, _⟩ := (dated.name (mem_of_outdated old)).ne_active spacious
  rcases stands with rfl | rfl
  · exact (mem_of_lookup (same _ plain)).mp there
  · exact (mem_of_lookup (same _ zipped)).mp there

theorem latest_concat {path : JsString} (recent : b ∈ sink.latest (rotated ++ [path])) :
    b = path ∨ b ∈ sink.latest rotated := by
  unfold FileSink.latest at recent ⊢
  rw [reverse_append, reverse_singleton, singleton_append] at recent
  rcases keep : sink.rotation.maxBackups with _ | most
  · rw [keep] at recent
    exact absurd recent not_mem_nil
  · rw [keep, take_succ_cons] at recent
    refine (mem_cons.mp recent).imp_right fun inside => ?_
    have shorter : rotated.reverse.take most = (rotated.reverse.take (most + 1)).take most := by
      rw [take_take, Nat.min_eq_left (Nat.le_succ most)]
    rw [shorter] at inside
    exact mem_of_mem_take inside

theorem Tracked.recent {recent recent' : Prop} {phase : Option CompressionPhase}
    (h : Tracked recent d phase b) (imp : recent' → recent) : Tracked recent' d phase b where
  present now := h.present (imp now)
  regular := h.regular
  written := h.written
  published late now := h.published late (imp now)
  once := h.once

theorem Managed.moved (spacious : sink.Spacious) (h : Managed sink rotated time d tasks)
    {later : Nat} (after : time < later) {path : JsString}
    (named : backupName sink.backupPrefix later = some path) {turn : Turn} {entry : FileEntry}
    (regular : entry.isFile = true) (free : gzipPath path ∉ sink.moved turn d path entry) :
    Managed sink (rotated ++ [path]) later (sink.moved turn d path entry) tasks := by
  have dated := h.dated.concat after named
  have nodup := nodup_append.mp dated.nodup
  have new : path ∉ rotated := fun mem => nodup.2.2 path mem path mem_cons_self rfl
  have newName : DatedName sink.backupPrefix path := ⟨later, named⟩
  refine ⟨dated, h.apart, fun task mem => mem_append_left _ (h.own task mem), fun b mem => ?_⟩
  have others : ∀ name, name ≠ sink.activePath → name ≠ path →
      (sink.moved turn d path entry).lookup name = d.lookup name := by
    intro name active other
    unfold FileSink.moved
    rw [lookup_insert_ne active, lookup_insert_ne other, lookup_erase_ne active]
  rcases mem_append.mp mem with old | last
  · obtain ⟨plain, zipped, temporary⟩ := (h.dated.name old).ne_active spacious
    have ne : b ≠ path := fun eq => new (eq ▸ old)
    have tracked := (h.tracked b old).same (others b plain ne)
      (others _ zipped newName.ne_gzipPath.symm) (others _ temporary newName.ne_temporaryPath.symm)
    exact tracked.recent fun now => (latest_concat now).resolve_left ne
  · cases mem_singleton.mp last
    obtain ⟨plain, zipped, _⟩ := newName.ne_active spacious
    have found : (sink.moved turn d path entry).lookup path = some entry := by
      unfold FileSink.moved
      rw [lookup_insert_ne plain, lookup_insert]
    have idle : phaseOf tasks path = none :=
      phaseOf_none fun task mem eq => new (eq ▸ h.own task mem)
    refine ⟨fun _ => .inl (lookup_isSome.mp (by rw [found]; rfl)),
      fun name stands other there => ?_, fun late => ?_, fun late => ?_, fun _ twice => absurd twice free⟩
    · rcases stands with rfl | rfl
      · cases found.symm.trans there
        exact regular
      · exact absurd (lookup_isSome.mp (by rw [there]; rfl)) free
    · rw [idle] at late
      exact late.elim (fun eq => by cases eq) fun eq => by cases eq
    · cases idle.symm.trans late

theorem Managed.queue {path : JsString} (h : Managed sink rotated time d tasks) (mem : path ∈ rotated)
    (new : ∀ task ∈ tasks, task.path ≠ path) : Managed sink rotated time d (tasks ++ [⟨path, .reading⟩]) := by
  refine ⟨h.dated, ?_, fun task inside => ?_, fun b there => ?_⟩
  · rw [map_append, map_singleton]
    refine nodup_append.mpr ⟨h.apart, nodup_singleton _, fun name first other last => ?_⟩
    obtain ⟨task, inside, rfl⟩ := mem_map.mp first
    cases mem_singleton.mp last
    exact new task inside
  · rcases mem_append.mp inside with old | last
    · exact h.own task old
    · cases mem_singleton.mp last
      exact mem
  · have tracked := h.tracked b there
    rw [phaseOf_concat new]
    split_ifs with same
    · cases same
      rw [phaseOf_none new] at tracked
      refine ⟨tracked.present, tracked.regular, fun late => ?_, fun late => ?_, fun first second => ?_⟩
      · exact late.elim (fun eq => by cases eq) fun eq => by cases eq
      · cases late
      · cases tracked.once first second
    · exact tracked

theorem Managed.step (h : Managed sink rotated time d tasks) {index : Nat} {task : CompressionTask}
    (found : tasks[index]? = some task) {phase : CompressionPhase}
    (others : ∀ name, name ≠ task.path → name ≠ gzipPath task.path → name ≠ temporaryPath task.path →
      d'.lookup name = d.lookup name)
    (this : Tracked (task.path ∈ sink.latest rotated) d' (some phase) task.path) :
    Managed sink rotated time d' (tasks.set index { task with phase }) := by
  have own := h.own task (mem_of_getElem? found)
  have dated := h.dated.name own
  refine ⟨h.dated, ?_, fun other inside => ?_, fun b there => ?_⟩
  · have same : (tasks.set index { task with phase }).map CompressionTask.path =
        tasks.map CompressionTask.path := by
      obtain ⟨bound, rfl⟩ := List.getElem?_eq_some_iff.mp found
      have mapped : index < (tasks.map CompressionTask.path).length := by rwa [length_map]
      have self := set_getElem_self mapped
      rw [getElem_map] at self
      rw [map_set]
      exact self
    rw [same]
    exact h.apart
  · rcases mem_or_eq_of_mem_set inside with old | rfl
    · exact h.own other old
    · exact own
  · rw [phaseOf_set h.apart found]
    split_ifs with same
    · exact same ▸ this
    · have name := h.dated.name there
      have ne : b ≠ task.path := fun eq => same eq.symm
      refine (h.tracked b there).same (others b ne name.ne_gzipPath name.ne_temporaryPath) ?_ ?_
      · exact others _ dated.ne_gzipPath.symm (fun eq => ne (gzipPath_injective eq)) gzipPath_ne_temporaryPath
      · exact others _ dated.ne_temporaryPath.symm gzipPath_ne_temporaryPath.symm
          fun eq => ne (temporaryPath_injective eq)

end frame

structure Upheld (sink : FileSink) (tasks : List CompressionTask) (v : Volume) : Prop where
  managed : Managed sink v.rotated v.state.lastRotationTime v.files tasks
  cleared : Cleared sink v.rotated v.files

def withQueue (tasks : List CompressionTask) (v : Volume) : List CompressionTask :=
  tasks ++ v.queued.map fun path => ⟨path, .reading⟩

section line

variable {sink : FileSink} {tasks : List CompressionTask} {turn : Turn}

theorem Upheld.frame (spacious : sink.Spacious) {v : Volume} (h : Upheld sink tasks v) {d : Directory}
    (same : ∀ name, name ≠ sink.activePath → d.lookup name = v.files.lookup name) :
    Upheld sink tasks { v with files := d } :=
  ⟨h.managed.frame spacious same, h.cleared.frame spacious h.managed.dated same⟩

theorem openSync_upheld (spacious : sink.Spacious) :
    Meets (fun v => Upheld sink (withQueue tasks v) v) (openSync turn sink.activePath)
      (fun _ v => Upheld sink (withQueue tasks v) v) fun v => Upheld sink (withQueue tasks v) v := by
  refine meets_fileCall (fun _ _ h => ⟨h.managed, h.cleared⟩) fun v faults a files h called => ?_
  cases called
  have framed := h.frame spacious (d := if sink.activePath ∈ v.files then v.files
    else v.files.insert sink.activePath ⟨true, [], turn.stamp⟩) fun name ne => by
      split_ifs
      · rfl
      · exact lookup_insert_ne ne
  exact ⟨framed.managed, framed.cleared⟩

theorem append_frame (turn : Turn) (path : JsString) (bytes : List UInt8) (d : Directory)
    {name : JsString} (ne : name ≠ path) : (append turn path bytes d).lookup name = d.lookup name := by
  unfold append
  split
  · exact lookup_insert_ne ne
  · rfl

theorem appendBytes_upheld (spacious : sink.Spacious) (bytes : List UInt8) :
    Meets (fun v => Upheld sink (withQueue tasks v) v) (appendBytes turn sink.activePath bytes)
      (fun _ v => Upheld sink (withQueue tasks v) v) fun v => Upheld sink (withQueue tasks v) v := by
  refine appendBytes_meets (fun v faults h => ⟨h.managed, h.cleared⟩) (openSync_upheld spacious)
    (fun bytes v h => ?_) bytes
  exact h.frame spacious fun name ne => append_frame turn _ bytes v.files ne

/-- A rotation is in order where nothing fails in its turn, the active file is a regular one, no file
has the compressed name of the new backup, and the pruning finds the latest backups first. -/
def SafeRotation (sink : FileSink) (turn : Turn) (v : Volume) : Prop :=
  turn.faults = [] ∧ (∀ entry, v.files.lookup sink.activePath = some entry → entry.isFile = true) ∧
    ∀ path w, (sink.moveActiveFile turn).run (v.during turn) = (.ok path, w) →
      gzipPath path ∉ w.files ∧ sink.Retains turn w.rotated w.files

theorem rotateActiveFile_upheld (spacious : sink.Spacious) (positive : sink.rotation.maxBackups ≠ 0)
    (ageless : sink.rotation.maxAge = 0) {v : Volume} (h : Upheld sink tasks v)
    (safe : SafeRotation sink turn v) : Meets (fun u => u = v.during turn) (sink.rotateActiveFile turn)
      (fun _ v => Upheld sink (withQueue tasks v) v) fun v => Upheld sink (withQueue tasks v) v := by
  obtain ⟨faultless, regular, safe⟩ := safe
  have calm : Calm v.state v.rotated [] (fun d => d = v.files) (v.during turn) :=
    ⟨faultless, rfl, rfl, rfl, rfl⟩
  obtain ⟨moved, unmoved⟩ := moveActiveFile_moved (v.during turn) calm
  have moves : Meets (fun u => u = v.during turn) (sink.moveActiveFile turn)
      (fun path w => ∃ time, Calm { v.state.at time with currentSize := 0 } (v.rotated ++ [path]) []
          (fun d => d = w.files) w ∧ Managed sink (v.rotated ++ [path]) time w.files tasks ∧
        path ∉ v.rotated ∧ sink.Retains turn (v.rotated ++ [path]) w.files)
      fun v => Upheld sink (withQueue tasks v) v := by
    rintro u rfl
    refine ⟨fun path w ran => ?_, fun e w ran => ?_⟩
    · obtain ⟨time, entry, later, named, free, found, after⟩ := moved path w ran
      obtain ⟨apart, retains⟩ := safe path w ran
      rw [after.rotated] at retains
      have next : Managed sink (v.rotated ++ [path]) time w.files tasks := by
        rw [after.files] at apart ⊢
        exact h.managed.moved spacious later named (regular entry found) apart
      have nodup := nodup_append.mp next.dated.nodup
      refine ⟨time, ⟨after.faults, after.state, after.rotated, after.queued, rfl⟩, next, fun mem => ?_, retains⟩
      exact nodup.2.2 path mem path mem_cons_self rfl
    · obtain ⟨time, later, after, _⟩ := unmoved e w ran
      have tasks_same : withQueue tasks w = tasks := by
        unfold withQueue
        rw [after.queued]
        exact append_nil _
      rw [tasks_same]
      refine ⟨?_, ?_⟩
      · rw [after.rotated, after.state, after.files]
        exact ⟨h.managed.dated.mono (Nat.le_of_lt later), h.managed.apart, h.managed.own, h.managed.tracked⟩
      · rw [after.rotated, after.files]
        exact h.cleared
  refine moves.bind fun path => ?_
  rintro w ⟨time, calm, managed, new, retains⟩
  refine Meets.bind (FileSink.pruneBackups_pruned ageless) (fun _ => ?_) w calm
  have kept := managed.pruned retains
  have cleared := managed.cleared positive retains
  have fresh : ∀ task ∈ tasks, task.path ≠ path := fun task mem eq => new (eq ▸ h.managed.own task mem)
  refine Meets.ite (fun _ => Meets.modify fun u after => ?_) fun _ => Meets.pure fun u after => ?_
  · have queued : withQueue tasks { u with queued := u.queued ++ [path] } =
        tasks ++ [⟨path, .reading⟩] := by
      show tasks ++ (u.queued ++ [path]).map _ = _
      rw [after.queued]
      rfl
    rw [queued]
    refine ⟨?_, ?_⟩
    · show Managed sink u.rotated u.state.lastRotationTime u.files _
      rw [after.rotated, after.state, after.files]
      exact kept.queue (mem_append_right _ mem_cons_self) fresh
    · show Cleared sink u.rotated u.files
      rw [after.rotated, after.files]
      exact cleared
  · have queued : withQueue tasks u = tasks := by
      unfold withQueue
      rw [after.queued]
      exact append_nil _
    rw [queued]
    refine ⟨?_, ?_⟩
    · rw [after.rotated, after.state, after.files]
      exact kept
    · rw [after.rotated, after.files]
      exact cleared

theorem write_upheld (spacious : sink.Spacious) (positive : sink.rotation.maxBackups ≠ 0)
    (ageless : sink.rotation.maxAge = 0) {v : Volume} {text : JsString} (h : Upheld sink tasks v)
    (safe : sink.Rotates v text → SafeRotation sink turn v) {E : Volume → Prop} :
    Meets (fun u => u = v.during turn) (sink.write turn text)
      (fun _ v => Upheld sink (withQueue tasks v) v) E := by
  have start : Upheld sink (withQueue tasks (v.during turn)) (v.during turn) := by
    have none_queued : withQueue tasks (v.during turn) = tasks := append_nil _
    rw [none_queued]
    exact ⟨h.managed, h.cleared⟩
  refine FileSink.write_meets start (fun rotates => ?_) (appendBytes_upheld spacious)
    (fun w state upheld same => ?_) fun w _ upheld => ⟨upheld.managed, upheld.cleared⟩
  · exact rotateActiveFile_upheld spacious positive ageless h (safe rotates)
  · refine ⟨?_, upheld.cleared⟩
    show Managed sink w.rotated state.lastRotationTime w.files _
    rw [same]
    exact upheld.managed

end line

/-- The files of `w` are those of `v`, and so are the backups and the state. -/
structure Unchanged (v w : Volume) : Prop where
  files : w.files = v.files
  rotated : w.rotated = v.rotated
  state : w.state = v.state

/-- A call of a compression is in order: only one of the latest backups gets its compressed file, the
removal of a plain file does not fail while it is there, and a pruning finds the latest first. -/
def SafeCall (sink : FileSink) (turn : Turn) (v : Volume) (task : CompressionTask) : Prop :=
  (task.phase = .publishing → failing turn.faults = true ∨ task.path ∈ sink.latest v.rotated) ∧
    (task.phase = .discarding → failing turn.faults = false ∨ task.path ∉ v.files) ∧
      (task.phase = .pruning → turn.faults = [] ∧ sink.Retains turn v.rotated v.files)

section compression

variable {sink : FileSink} {tasks : List CompressionTask} {turn : Turn} {v : Volume} {index : Nat}
  {task : CompressionTask}

theorem Upheld.step (h : Upheld sink tasks v) (found : tasks[index]? = some task) {w : Volume}
    (rotated : w.rotated = v.rotated) (state : w.state = v.state) {phase : CompressionPhase}
    (others : ∀ name, name ≠ task.path → name ≠ gzipPath task.path → name ≠ temporaryPath task.path →
      w.files.lookup name = v.files.lookup name)
    (this : Tracked (task.path ∈ sink.latest v.rotated) w.files (some phase) task.path)
    (made : ∀ name, StandsFor name task.path → name ∈ w.files →
      name ∈ v.files ∨ task.path ∈ sink.latest v.rotated) :
    Upheld sink (tasks.set index { task with phase }) w := by
  have managed := h.managed.step found others this
  refine ⟨by rw [rotated, state]; exact managed, ?_⟩
  rw [rotated]
  refine h.cleared.imp fun b old name stands there => ?_
  have dated := h.managed.dated
  have own := h.managed.own task (mem_of_getElem? found)
  by_cases same : b = task.path
  · rw [same] at old stands
    refine (made name stands there).resolve_right fun recent => ?_
    exact dated.latest_apart recent old rfl
  · have name_b := dated.name (mem_of_outdated old)
    have apart : ¬StandsFor name task.path := fun stands' =>
      same (stands.unique name_b (dated.name own) stands')
    have temporary : name ≠ temporaryPath task.path := by
      rcases stands with rfl | rfl
      · exact name_b.ne_temporaryPath
      · exact gzipPath_ne_temporaryPath
    exact (mem_of_lookup (others name (fun eq => apart (.inl eq)) (fun eq => apart (.inr eq))
      temporary)).mp there

theorem Tracked.next {recent : Prop} {d d' : Directory} {phase phase' : CompressionPhase} {b : JsString}
    (h : Tracked recent d (some phase) b) (plain : d'.lookup b = d.lookup b)
    (zipped : d'.lookup (gzipPath b) = d.lookup (gzipPath b))
    (temporary : phase' = .securing ∨ phase' = .publishing → ∀ entry,
      d'.lookup (temporaryPath b) = some entry → entry.isFile = true)
    (other : phase' ≠ .discarding) (apart : phase = .discarding → b ∉ d) : Tracked recent d' (some phase') b where
  present now := (h.present now).imp (mem_of_lookup plain).mpr (mem_of_lookup zipped).mpr
  regular name stands entry found := by
    refine h.regular name stands entry ?_
    rcases stands with rfl | rfl
    · exact plain ▸ found
    · exact zipped ▸ found
  written late := temporary (late.imp some.inj some.inj)
  published late := absurd (some.inj late) other
  once first second := by
    have there := (mem_of_lookup plain).mp first
    have same := some.inj (h.once there ((mem_of_lookup zipped).mp second))
    exact absurd there (apart same)

def CompressionPhase.plain : CompressionPhase → Bool
  | .securing | .publishing | .discarding => false
  | _ => true

theorem Upheld.pass (h : Upheld sink tasks v) (found : tasks[index]? = some task) {w : Volume}
    (same : Unchanged v w) {phase : CompressionPhase} (plain : phase.plain = true)
    (apart : task.phase = .discarding → task.path ∉ v.files) :
    Upheld sink (tasks.set index { task with phase }) w := by
  have own := h.managed.own task (mem_of_getElem? found)
  have before := h.managed.tracked task.path own
  rw [phaseOf_at h.managed.apart found] at before
  refine h.step found same.rotated same.state (fun name _ _ _ => by rw [same.files]) ?_
    fun name _ there => .inl (same.files ▸ there)
  rw [same.files]
  refine before.next rfl rfl (fun late => ?_) (fun eq => ?_) apart
  · rcases late with rfl | rfl <;> cases plain
  · rw [eq] at plain
    cases plain

theorem statSync_unchanged (path : JsString) : Meets (fun u => u = v.during turn) (statSync path)
    (fun _ => Unchanged v) (Unchanged v) := by
  refine meets_fileCall (fun u faults eq => ?_) fun u faults entry files eq called => ?_
  · cases eq
    exact ⟨rfl, rfl, rfl⟩
  · cases eq
    split at called
    · cases called
      exact ⟨rfl, rfl, rfl⟩
    · cases called

theorem otherCall_unchanged : Meets (fun u => u = v.during turn) otherCall
    (fun _ => Unchanged v) (Unchanged v) := by
  refine meets_fileCall (fun u faults eq => ?_) fun u faults a files eq called => ?_
  · cases eq
    exact ⟨rfl, rfl, rfl⟩
  · cases eq
    cases called
    exact ⟨rfl, rfl, rfl⟩

theorem giveUp_keeps {I : Volume → Prop} (reports : ∀ w reportedFailures, I w →
    I { w with reportedFailures }) (e : JsString) {E : Volume → Prop} :
    Meets I (giveUp e) (fun phase w => phase = .done ∧ I w) E := by
  refine Meets.bind (Q := fun _ => I) (Meets.modify fun w h => ?_) fun _ => Meets.pure fun w h => ⟨rfl, h⟩
  show I (if _ then w else _)
  split_ifs
  · exact h
  · exact reports w _ h

theorem guarded_meets {P : Volume → Prop} {R : CompressionPhase → Volume → Prop} {call : Io Unit}
    {next : CompressionPhase} {E : Volume → Prop}
    (h : Meets P call (fun _ => R next) fun w => ∀ e, R (.cleaning e) w) : Meets P (guarded call next) R E := by
  refine Meets.bind h.attempt fun r => ?_
  cases r with
  | ok _ => exact Meets.pure fun _ h => h.1 () rfl
  | error e => exact Meets.pure fun _ h => h.2 e rfl e

section

variable (h : Upheld sink tasks v) (found : tasks[index]? = some task)

include h found

theorem Upheld.current :
    DatedName sink.backupPrefix task.path ∧
      Tracked (task.path ∈ sink.latest v.rotated) v.files (some task.phase) task.path := by
  have own := h.managed.own task (mem_of_getElem? found)
  have tracked := h.managed.tracked task.path own
  rw [phaseOf_at h.managed.apart found] at tracked
  exact ⟨h.managed.dated.name own, tracked⟩

theorem writeTemporary_upheld
    {bytes : List UInt8} (at_phase : task.phase = .writing bytes) :
    Meets (fun u => u = v.during turn) (writeTemporary turn task.path bytes)
      (fun _ w => Upheld sink (tasks.set index { task with phase := .securing }) w)
      fun w => ∀ e, Upheld sink (tasks.set index { task with phase := .cleaning e }) w := by
  obtain ⟨dated, tracked⟩ := h.current found
  have wrote : ∀ phase content faults produced, phase ≠ .discarding →
      Upheld sink (tasks.set index { task with phase }) { v.during turn with
        faults
        files := v.files.insert (temporaryPath task.path) ⟨true, content, turn.stamp⟩
        produced } := by
    intro phase content faults produced other
    have plain : (v.files.insert (temporaryPath task.path) ⟨true, content, turn.stamp⟩).lookup
        task.path = v.files.lookup task.path := lookup_insert_ne dated.ne_temporaryPath
    have zipped : (v.files.insert (temporaryPath task.path) ⟨true, content, turn.stamp⟩).lookup
        (gzipPath task.path) = v.files.lookup (gzipPath task.path) :=
      lookup_insert_ne gzipPath_ne_temporaryPath
    refine h.step found (by rfl) (by rfl) (fun name _ _ ne => lookup_insert_ne ne) ?_
      fun name stands there => .inl ?_
    · refine tracked.next plain zipped (fun _ entry there => ?_) other fun eq => ?_
      · have same : some entry = some (FileEntry.mk true content turn.stamp) :=
          there.symm.trans (lookup_insert _)
        cases same
        rfl
      · cases at_phase.symm.trans eq
    · rcases stands with rfl | rfl
      · exact (mem_of_lookup plain).mp there
      · exact (mem_of_lookup zipped).mp there
  have failed : ∀ faults e, Upheld sink (tasks.set index { task with phase := .cleaning e })
      { v.during turn with faults } := fun faults e =>
    h.pass found ⟨by rfl, by rfl, by rfl⟩ (by rfl) fun eq => by rw [at_phase] at eq; cases eq
  apply Meets.act
  rintro u rfl
  split
  · refine ⟨nofun, fun _ w eq e => ?_⟩
    cases eq
    exact failed _ e
  · refine ⟨nofun, fun _ w eq e => ?_⟩
    cases eq
    exact wrote _ _ _ _ (by intro eq; cases eq)
  · refine ⟨fun _ w eq => ?_, nofun⟩
    cases eq
    exact wrote _ _ _ _ (by intro eq; cases eq)

theorem publish_upheld
    (at_phase : task.phase = .publishing)
    (safe : failing turn.faults = true ∨ task.path ∈ sink.latest v.rotated) :
    Meets (fun u => u = v.during turn) (publish task.path)
      (fun _ w => Upheld sink (tasks.set index { task with phase := .discarding }) w)
      fun w => ∀ e, Upheld sink (tasks.set index { task with phase := .cleaning e }) w := by
  obtain ⟨dated, tracked⟩ := h.current found
  refine Meets.bind (Q := fun _ w => Upheld sink (tasks.set index { task with phase := .discarding }) w)
    ?_ fun _ => Meets.modify fun w h => ⟨h.managed, h.cleared⟩
  refine meets_call (fun u faults eq _ e => ?_) fun u faults a files eq calm called => ?_
  · cases eq
    exact h.pass found ⟨by rfl, by rfl, by rfl⟩ (by rfl) fun eq => by rw [at_phase] at eq; cases eq
  · cases eq
    have recent : task.path ∈ sink.latest v.rotated := safe.resolve_left fun fails => by
      have calm : failing turn.faults = false := calm
      cases calm.symm.trans fails
    split at called
    · next entry there =>
      cases called
      have regular : entry.isFile = true := tracked.written (.inr (by rw [at_phase])) entry there
      have gz : ((v.files.erase (temporaryPath task.path)).insert (gzipPath task.path) entry).lookup
          (gzipPath task.path) = some entry := lookup_insert _
      have zipped : gzipPath task.path ∈
          (v.files.erase (temporaryPath task.path)).insert (gzipPath task.path) entry :=
        lookup_isSome.mp (by rw [gz]; rfl)
      refine h.step found (by rfl) (by rfl) (fun name _ gzip temporary => ?_) ?_ fun _ _ _ => .inr recent
      · show ((v.files.erase _).insert _ _).lookup name = _
        rw [lookup_insert_ne gzip, lookup_erase_ne temporary]
      · refine ⟨fun _ => .inr zipped, fun name stands other found' => ?_, fun late => ?_,
          fun _ _ => zipped, fun _ _ => rfl⟩
        · rcases stands with rfl | rfl
          · refine tracked.regular _ (.inl rfl) other ?_
            rw [← found']
            show _ = ((v.files.erase _).insert _ _).lookup _
            rw [lookup_insert_ne dated.ne_gzipPath, lookup_erase_ne dated.ne_temporaryPath]
          · cases gz.symm.trans found'
            exact regular
        · rcases late with eq | eq <;> cases eq
    · cases called

theorem discard_upheld
    (at_phase : task.phase = .discarding) (safe : failing turn.faults = false ∨ task.path ∉ v.files) :
    Meets (fun u => u = v.during turn) (discard task.path)
      (fun _ w => Upheld sink (tasks.set index { task with phase := .pruning }) w)
      fun w => ∀ e, Upheld sink (tasks.set index { task with phase := .cleaning e }) w := by
  obtain ⟨dated, tracked⟩ := h.current found
  refine Meets.bind (Q := fun _ w => Upheld sink (tasks.set index { task with phase := .pruning }) w)
    ?_ fun _ => Meets.modify fun w h => ⟨h.managed, h.cleared⟩
  refine meets_call (fun u faults eq reason e => ?_) fun u faults a files eq calm called => ?_
  · cases eq
    refine h.pass found ⟨by rfl, by rfl, by rfl⟩ (by rfl) fun _ there => ?_
    have calm := safe.resolve_right fun absent => absent there
    rcases reason with fails | ⟨e, called⟩
    · have fails : failing turn.faults = true := fails
      cases calm.symm.trans fails
    · have there : task.path ∈ (v.during turn).files := there
      rw [if_pos there] at called
      cases called
  · cases eq
    split_ifs at called
    cases called
    refine h.step found (by rfl) (by rfl) (fun name ne _ _ => lookup_erase_ne ne) ?_
      fun name _ there => .inl (mem_erase.mp there).2
    refine ⟨fun recent => .inr ?_, fun name stands entry there => ?_, fun late => ?_, fun late => ?_,
      fun first _ => absurd rfl (mem_erase.mp first).1⟩
    · exact mem_erase.mpr ⟨dated.ne_gzipPath.symm, tracked.published (by rw [at_phase]) recent⟩
    · have ne : name ≠ task.path := fun eq => by
        rw [eq] at there
        have gone : (v.files.erase task.path).lookup task.path = none := lookup_erase _ _
        cases gone.symm.trans there
      refine tracked.regular name stands entry ?_
      rw [← there]
      exact (lookup_erase_ne ne).symm
    · rcases late with eq | eq <;> cases eq
    · cases late

theorem cleanUp_upheld {e : JsString}
    (at_phase : task.phase = .cleaning e) : Meets (fun u => u = v.during turn) (discard (temporaryPath task.path))
      (fun _ w => Upheld sink (tasks.set index { task with phase := .done }) w)
      fun w => Upheld sink (tasks.set index { task with phase := .done }) w := by
  obtain ⟨dated, tracked⟩ := h.current found
  have apart : task.phase = .discarding → task.path ∉ v.files := fun eq => by
    cases at_phase.symm.trans eq
  refine Meets.bind (Q := fun _ w => Upheld sink (tasks.set index { task with phase := .done }) w)
    ?_ fun _ => Meets.modify fun w h => ⟨h.managed, h.cleared⟩
  refine meets_fileCall (fun u faults eq => ?_) fun u faults a files eq called => ?_
  · cases eq
    exact h.pass found ⟨by rfl, by rfl, by rfl⟩ (by rfl) apart
  · cases eq
    split_ifs at called
    cases called
    refine h.step found (by rfl) (by rfl) (fun name _ _ ne => lookup_erase_ne ne) ?_
      fun name _ there => .inl (mem_erase.mp there).2
    refine tracked.next (lookup_erase_ne dated.ne_temporaryPath)
      (lookup_erase_ne gzipPath_ne_temporaryPath) (fun late => ?_) nofun apart
    rcases late with eq | eq <;> cases eq

end

theorem advance_upheld (positive : sink.rotation.maxBackups ≠ 0) (ageless : sink.rotation.maxAge = 0)
    {gzip : List UInt8 → List UInt8} (h : Upheld sink tasks v) (found : tasks[index]? = some task)
    (safe : SafeCall sink turn v task) {E : Volume → Prop} :
    Meets (fun u => u = v.during turn) (advanceTask sink gzip turn task.path task.phase)
      (fun phase w => Upheld sink (tasks.set index { task with phase }) w) E := by
  have passes : ∀ phase : CompressionPhase, phase.plain = true → task.phase ≠ .discarding →
      ∀ w, Unchanged v w → Upheld sink (tasks.set index { task with phase }) w :=
    fun phase plain other w same => h.pass found same plain fun eq => absurd eq other
  have ends : task.phase ≠ .discarding → ∀ e, Meets (Unchanged v) (giveUp e)
      (fun phase w => Upheld sink (tasks.set index { task with phase }) w) E := fun other e =>
    (giveUp_keeps (fun w _ same => ⟨same.files, same.rotated, same.state⟩) e).weaken
      (fun phase w done => by rw [done.1]; exact passes .done rfl other w done.2) fun _ h => h
  unfold SafeCall at safe
  rcases at_phase : task.phase with _ | source | bytes | _ | _ | _ | e | _ | _
  all_goals rw [at_phase] at safe passes ends
  · refine Meets.bind (statSync_unchanged task.path).attempt fun r => ?_
    cases r with
    | ok entry =>
      exact Meets.pure fun w same => passes _ rfl (by intro eq; cases eq) w (same.1 entry rfl)
    | error e => exact (ends (by intro eq; cases eq) e).before fun w same => same.2 e rfl
  · refine Meets.bind otherCall_unchanged.attempt fun r => ?_
    cases r with
    | ok _ => exact Meets.pure fun w same => passes _ rfl (by intro eq; cases eq) w (same.1 () rfl)
    | error e => exact (ends (by intro eq; cases eq) e).before fun w same => same.2 e rfl
  · exact guarded_meets (writeTemporary_upheld h found at_phase)
  · have looks : Meets (fun u => u = v.during turn)
        (do let _ ← statSync (temporaryPath task.path) : Io Unit) (fun _ => Unchanged v) (Unchanged v) :=
      (statSync_unchanged _).bind fun _ => Meets.pure fun _ h => h
    refine guarded_meets (looks.weaken (fun _ w same => ?_) fun w same e =>
      passes _ rfl (by intro eq; cases eq) w same)
    obtain ⟨_, tracked⟩ := h.current found
    refine h.step found same.rotated same.state (fun name _ _ _ => by rw [same.files]) ?_
      fun name _ there => .inl (same.files ▸ there)
    rw [same.files]
    refine tracked.next rfl rfl (fun _ => tracked.written (.inl (by rw [at_phase])))
      (by intro eq; cases eq) fun eq => ?_
    cases at_phase.symm.trans eq
  · exact guarded_meets (publish_upheld h found at_phase (safe.1 rfl))
  · exact guarded_meets (discard_upheld h found at_phase (safe.2.1 rfl))
  · refine Meets.bind (cleanUp_upheld h found at_phase).attempt fun r => ?_
    refine Meets.before (P := Upheld sink (tasks.set index { task with phase := .done })) ?_ fun w done => ?_
    · refine (giveUp_keeps (fun w _ up => ⟨up.managed, up.cleared⟩) e).weaken
        (fun phase w done => ?_) fun _ h => h
      rw [done.1]
      exact done.2
    · cases r with
      | ok a => exact done.1 a rfl
      | error e => exact done.2 e rfl
  · obtain ⟨faultless, retains⟩ := safe.2.2 rfl
    have calm : Calm v.state v.rotated [] (fun d => d = v.files) (v.during turn) :=
      ⟨faultless, rfl, rfl, rfl, rfl⟩
    rintro u rfl
    refine Meets.bind (FileSink.pruneBackups_pruned ageless) (fun _ => Meets.pure fun w after => ?_)
      (v.during turn) calm
    have up : Upheld sink tasks w := by
      refine ⟨?_, ?_⟩
      · rw [after.rotated, after.state, after.files]
        exact h.managed.pruned retains
      · rw [after.rotated, after.files]
        exact h.managed.cleared positive retains
    exact up.pass found ⟨rfl, rfl, rfl⟩ rfl fun eq => by rw [at_phase] at eq; cases eq
  · exact Meets.pure fun w same => passes _ rfl (by intro eq; cases eq) w (by rw [same]; exact ⟨rfl, rfl, rfl⟩)

end compression

instance (sink : FileSink) (turn : Turn) (rotated : List JsString) (d : Directory) :
    Decidable (sink.Retains turn rotated d) :=
  inferInstanceAs (Decidable (∀ b ∈ sink.latest rotated, copyName d b ∈ sink.survivors turn d))

instance (sink : FileSink) (turn : Turn) (v : Volume) (task : CompressionTask) :
    Decidable (SafeCall sink turn v task) :=
  inferInstanceAs (Decidable (_ ∧ _ ∧ _))

/-- What holds of the result of a computation if it has one. -/
instance decidableOfResult {σ ε α : Type} (r : Except ε α × σ) (p : α → σ → Prop) [∀ a t, Decidable (p a t)] :
    Decidable (∀ a t, r = (.ok a, t) → p a t) :=
  match r with
  | (.ok a, t) => decidable_of_iff (p a t) ⟨fun h _ _ eq => by cases eq; exact h, fun h => h a t rfl⟩
  | (.error _, _) => .isTrue fun _ _ eq => by cases eq

instance (sink : FileSink) (turn : Turn) (v : Volume) : Decidable (SafeRotation sink turn v) :=
  have _ : Decidable (∀ entry, v.files.lookup sink.activePath = some entry → entry.isFile = true) :=
    inferInstanceAs (Decidable (∀ entry ∈ v.files.lookup sink.activePath, entry.isFile = true))
  inferInstanceAs (Decidable (_ ∧ _ ∧ _))

/-- A step of the sink is in order, and nobody else changes the directory. -/
def Orderly (sink : FileSink) (s : SinkSystem) : SinkEvent → SinkSystem → Prop
  | .line turn text, _ => sink.Rotates s.volume text → SafeRotation sink turn s.volume
  | .task index turn, _ => ∀ task, s.tasks[index]? = some task → SafeCall sink turn s.volume task
  | .outside _, _ => False

instance (sink : FileSink) (s : SinkSystem) (e : SinkEvent) (t : SinkSystem) : Decidable (Orderly sink s e t) :=
  match e with
  | .line turn text =>
    have _ : Decidable (sink.Rotates s.volume text) := inferInstanceAs (Decidable (_ ∧ _ ∧ _))
    inferInstanceAs (Decidable (sink.Rotates s.volume text → SafeRotation sink turn s.volume))
  | .task index turn =>
    inferInstanceAs (Decidable (∀ task ∈ s.tasks[index]?, SafeCall sink turn s.volume task))
  | .outside _ => .isFalse id

theorem upheld_step {sink : FileSink} {gzip : List UInt8 → List UInt8} (spacious : sink.Spacious)
    (positive : sink.rotation.maxBackups ≠ 0) (ageless : sink.rotation.maxAge = 0)
    {s t : SinkSystem} {e : SinkEvent} (h : Upheld sink s.tasks s.volume) (orderly : Orderly sink s e t)
    (stepped : (sinkMachine sink gzip).step s e = some t) : Upheld sink t.tasks t.volume := by
  cases e with
  | outside files => exact orderly.elim
  | line turn text =>
    cases stepped
    exact (write_upheld (E := fun v => Upheld sink (withQueue s.tasks v) v) spacious positive ageless h
      orderly).ends rfl
  | task index turn =>
    simp only [sinkMachine] at stepped
    split at stepped
    · cases stepped
    · next task found =>
      split_ifs at stepped
      split at stepped
      · next phase v ran =>
        cases stepped
        exact ((advance_upheld (E := fun _ => True) positive ageless h found (orderly task found))
          _ rfl).1 phase v ran
      · cases stepped

structure Retained (sink : FileSink) (v : Volume) : Prop where
  latest : ∀ b ∈ sink.latest v.rotated,
    (b ∈ v.files ∧ gzipPath b ∉ v.files) ∨ (b ∉ v.files ∧ gzipPath b ∈ v.files)
  outdated : ∀ b ∈ sink.outdated v.rotated, b ∉ v.files ∧ gzipPath b ∉ v.files
  apart : v.rotated.Nodup

theorem Upheld.retained {sink : FileSink} {tasks : List CompressionTask} {v : Volume}
    (h : Upheld sink tasks v) (quiet : ∀ task ∈ tasks, task.phase = .done) : Retained sink v := by
  refine ⟨fun b recent => ?_, h.cleared, h.managed.dated.nodup⟩
  have tracked := h.managed.tracked b (mem_of_latest recent)
  have once : ¬(b ∈ v.files ∧ gzipPath b ∈ v.files) := by
    rintro ⟨first, second⟩
    obtain ⟨task, mem, _, phase⟩ := phaseOf_some (tracked.once first second)
    rw [quiet task mem] at phase
    cases phase
  rcases tracked.present recent with plain | zipped
  · exact .inl ⟨plain, fun zipped => once ⟨plain, zipped⟩⟩
  · exact .inr ⟨fun plain => once ⟨plain, zipped⟩, zipped⟩

/-- A new sink, in any directory, that rotates and compresses in order leaves the latest backups
wherever no compression is on its way. -/
theorem retention_keeps_newest {toLowerCase : JsString → JsString} {options : FileSinkOptions} {sink : FileSink}
    (valid : sinkNames toLowerCase options = .ok (sink.activePath, sink.backupPrefix))
    (positive : sink.rotation.maxBackups ≠ 0) (ageless : sink.rotation.maxAge = 0)
    {gzip : List UInt8 → List UInt8} {s : SinkSystem} (idle : s.tasks = [])
    (fresh : s.volume.rotated = []) {es : List SinkEvent}
    (orderly : (sinkMachine sink gzip).Along (Orderly sink) s es) {t : SinkSystem}
    (ran : (sinkMachine sink gzip).run s es = some t)
    (quiet : ∀ task ∈ t.tasks, task.phase = .done) : Retained sink t.volume := by
  have start : Upheld sink s.tasks s.volume := by
    refine ⟨⟨?_, ?_, ?_, ?_⟩, ?_⟩
    · rw [fresh]
      exact ⟨[], rfl, List.Pairwise.nil, fun _ mem => absurd mem List.not_mem_nil⟩
    · rw [idle]
      exact List.nodup_nil
    · rw [idle]
      exact fun _ mem => absurd mem List.not_mem_nil
    · rw [fresh]
      exact fun _ mem => absurd mem List.not_mem_nil
    · rw [fresh]
      intro b old
      exact absurd (mem_of_outdated old) List.not_mem_nil
  have kept := LabelledMachine.run_invariant_along (I := fun s => Upheld sink s.tasks s.volume)
    (fun _ _ _ h orderly stepped => upheld_step (sinkNames_spacious valid) positive ageless h orderly
      stepped) start orderly ran
  exact kept.retained quiet

def turnAt (time : Int) : Turn := quietTurn time time

/-- The sink of `app.log` that keeps one backup and compresses it. -/
def gzipSink : FileSink := ⟨js "app.log", js "app-", ⟨true, 3, 1, 0, true⟩, false⟩

/-- The log of `app` with its first bytes. -/
def newSystem : SinkSystem :=
  ⟨⟨(∅ : Directory).insert (js "app.log") ⟨true, [0x61, 0x62], 10⟩, [], ⟨true, 2, 0⟩, [], [], [], []⟩, [], ⟨[], []⟩⟩

def rotatedOnce : List SinkEvent :=
  .line (turnAt 20) (js "x") :: [21, 22, 23, 24, 25, 26, 27].map (fun time => .task 0 (turnAt time)) ++
    [.line (turnAt 28) []]

def writtenLate : List SinkEvent :=
  rotatedOnce ++ [.line (turnAt 30) (js "y")] ++
    [31, 32, 33, 34, 35, 36, 37].map fun time => .task 1 (turnAt time)

def writtenEarly : List SinkEvent :=
  .line (turnAt 20) (js "x") :: [21, 22, 23, 24, 25, 26, 27].map (fun time => .task 0 (turnAt time)) ++
    [.line (turnAt 30) (js "yz"), .task 1 (turnAt 31)]

def after (es : List SinkEvent) : SinkSystem :=
  ((sinkMachine gzipSink id).run newSystem es).getD newSystem

theorem run_after {es : List SinkEvent} (runs : ((sinkMachine gzipSink id).run newSystem es).isSome = true) :
    (sinkMachine gzipSink id).run newSystem es = some (after es) := by
  obtain ⟨t, eq⟩ := isSome_iff_exists.mp runs
  unfold after
  rw [eq]
  rfl

theorem compressed_in_turn : Retained gzipSink (after writtenLate).volume :=
  @retention_keeps_newest id ⟨js "logs", js "app.log", ⟨none, none, none, none, none⟩, false⟩
    gzipSink (by decide +kernel) (by decide) rfl id newSystem rfl rfl writtenLate (by decide +kernel)
    (after writtenLate) (run_after (by decide +kernel)) (by decide +kernel)

/-- The newest backup is removed, since its plain file is older than the compressed one of the backup
before it, which stays. -/
theorem newest_removed : (sinkMachine gzipSink id).run newSystem writtenEarly = some (after writtenEarly) ∧
      (∀ task ∈ (after writtenEarly).tasks, task.phase = .done) ∧
      ¬Retained gzipSink (after writtenEarly).volume := by
  refine ⟨run_after (by decide +kernel), by decide +kernel, fun retained => ?_⟩
  have gone : ¬∀ b ∈ gzipSink.latest (after writtenEarly).volume.rotated,
      (b ∈ (after writtenEarly).volume.files ∧ gzipPath b ∉ (after writtenEarly).volume.files) ∨
        (b ∉ (after writtenEarly).volume.files ∧ gzipPath b ∈ (after writtenEarly).volume.files) := by
    decide +kernel
  exact gone retained.latest

end ForgeDeno
