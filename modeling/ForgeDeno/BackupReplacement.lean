import ForgeDeno.BackupRetention
import ForgeDeno.DirectoryRules
import ForgeDeno.RotationRuns

namespace ForgeDeno

open Program List AList

/-- A log directory over the lifetimes of its sinks: the present one, and the compressions that were queued,
each with its sink. -/
structure LogDirectory where
  volume : Volume
  sink : FileSink
  tasks : List (FileSink × CompressionTask)

inductive LifetimeEvent where
  /-- a sink takes the place of the last one; at a restart the compressions of that are lost -/
  | opened (options : FileSinkOptions) (turn : Turn) (restart : Bool)
  | line (turn : Turn) (text : JsString)
  | task (index : Nat) (turn : Turn)
  /-- others change the directory -/
  | outside (files : Directory)

/-- The machine of a log directory; `gzip` is what `CompressionStream` makes of a file. At the start no sink
has been opened. -/
def lifetimes (toLowerCase : JsString → JsString) (gzip : List UInt8 → List UInt8) :
    LabelledMachine LogDirectory LifetimeEvent where
  start s := s.tasks = [] ∧ s.volume.state.active = false ∧ s.sink.activePath = []
  step s
    | .opened options turn restart =>
      match (newFileSink toLowerCase options turn).run { s.volume.during turn with reportedFailures := [] } with
      | (.ok sink, v) => some ⟨v, sink, if restart then [] else s.tasks⟩
      | (.error _, _) => none
    | .line turn text =>
      let v := ((s.sink.write turn text).run (s.volume.during turn)).2
      some ⟨v, s.sink, s.tasks ++ v.queued.map fun path => (s.sink, ⟨path, .reading⟩)⟩
    | .task index turn =>
      match s.tasks[index]? with
      | none => none
      | some (sink, task) =>
        if task.phase = .done then none
        else
          match (advanceTask sink gzip turn task.path task.phase).run (s.volume.during turn) with
          | (.ok phase, v) => some ⟨v, s.sink, s.tasks.set index (sink, { task with phase })⟩
          | (.error _, _) => none
    | .outside files => some { s with volume := { s.volume with files } }

def LogName (name : JsString) : Prop := js ".log" <:+ name ∨ js ".log.gz" <:+ name

/-- Nothing has taken the place of a log other than the active one: each is as it was, or has been removed. -/
def Spared (active : JsString) (before after : Directory) : Prop :=
  ∀ name entry, LogName name → name ≠ active → before.lookup name = some entry →
    after.lookup name = some entry ∨ after.lookup name = none

def SparesLogs (s : LogDirectory) : LifetimeEvent → LogDirectory → Prop
  | .line turn _, t =>
    (∀ name, name ≠ s.sink.activePath → name ∈ s.volume.files →
        ((s.sink.moveActiveFile turn).run (s.volume.during turn)).2.files.lookup name = s.volume.files.lookup name) ∧
      Spared s.sink.activePath s.volume.files t.volume.files
  | .task _ _, t => Spared s.sink.activePath s.volume.files t.volume.files
  | _, _ => True

def unpublished : CompressionPhase → Bool
  | .reading | .compressing _ | .writing _ | .securing | .publishing => true
  | _ => false

/-- Where a backup that is to be compressed gets its name, no compressed one has it, nor will one of a
compression under way; and none of those is put there by others. -/
def FreshNames (toLowerCase : JsString → JsString) (s : LogDirectory) : LifetimeEvent → LogDirectory → Prop
  | .line turn text, _ => s.sink.Rotates s.volume text → s.sink.rotation.compress = true →
    ∀ path, NextFree s.volume.files s.sink.backupPrefix
        (max turn.now (s.volume.state.lastRotationTime + 1)).toNat path →
      gzipPath path ∉ s.volume.files ∧ ∀ task ∈ s.tasks, unpublished task.2.phase = true → task.2.path ≠ path
  | .opened options _ restart, _ => restart = false → ∀ names, sinkNames toLowerCase options = .ok names →
    ∀ task ∈ s.tasks, unpublished task.2.phase = true → names.1 ≠ gzipPath task.2.path
  | .outside files, _ => ∀ task ∈ s.tasks, unpublished task.2.phase = true → gzipPath task.2.path ∉ files
  | .task _ _, _ => True

section frames

variable {active path : JsString} {before after : Directory} {paths : List JsString}

structure Framed (active : JsString) (before : Directory) (paths : List JsString) (after : Directory) : Prop where
  fresh : ∀ path ∈ paths, path ∉ before
  same : ∀ name, name ≠ active → name ∉ paths → after.lookup name = before.lookup name

structure Turned (active : JsString) (before : Directory) (paths : List JsString) (after : Directory) : Prop where
  spared : ∀ name entry, name ≠ active → before.lookup name = some entry →
    after.lookup name = some entry ∨ after.lookup name = none
  known : ∀ name ∈ after, name ∈ before ∨ name = active ∨ name ∈ paths

theorem Framed.refl : Framed active before [] before := ⟨nofun, fun _ _ _ => rfl⟩

theorem Framed.insert_active (h : Framed active before paths after) (entry : FileEntry) :
    Framed active before paths (after.insert active entry) :=
  ⟨h.fresh, fun name other new => (lookup_insert_ne other).trans (h.same name other new)⟩

theorem Framed.kept (h : Framed active before paths after) {name : JsString} (other : name ≠ active)
    (there : name ∈ before) : after.lookup name = before.lookup name :=
  h.same name other fun mem => h.fresh name mem there

theorem Framed.turned (h : Framed active before paths after) : Turned active before paths after := by
  refine ⟨fun name entry other found => .inl ?_, fun name mem => ?_⟩
  · rw [h.kept other (lookup_isSome.mp (by rw [found]; rfl)), found]
  · by_cases same : name = active
    · exact .inr (.inl same)
    · by_cases new : name ∈ paths
      · exact .inr (.inr new)
      · exact .inl ((mem_of_lookup (h.same name same new)).mp mem)

theorem Turned.erase (h : Turned active before paths after) (path : JsString) :
    Turned active before paths (after.erase path) := by
  refine ⟨fun name entry other found => ?_, fun name mem => h.known name (mem_erase.mp mem).2⟩
  by_cases same : name = path
  · rw [same]
    exact .inr (lookup_erase _ _)
  · rw [lookup_erase_ne same]
    exact h.spared name entry other found

theorem Turned.insert_active (h : Turned active before paths after) (entry : FileEntry) :
    Turned active before paths (after.insert active entry) := by
  refine ⟨fun name old other found => ?_, fun name mem => ?_⟩
  · rw [lookup_insert_ne other]
    exact h.spared name old other found
  · rcases (mem_insert _).mp mem with same | mem
    · exact .inr (.inl same)
    · exact h.known name mem

end frames

namespace FileSink

variable {sink : FileSink} {turn : Turn} {v : Volume}

def Picks (sink : FileSink) (turn : Turn) (v : Volume) (path : JsString) : Prop :=
  NextFree v.files sink.backupPrefix (max turn.now (v.state.lastRotationTime + 1)).toNat path

theorem Picks.fresh {path : JsString} (h : sink.Picks turn v path) : path ∉ v.files := by
  obtain ⟨-, -, -, absent, -⟩ := h
  exact absent

theorem Picks.dated {path : JsString} (h : sink.Picks turn v path) : DatedName sink.backupPrefix path := by
  obtain ⟨time, -, named, -⟩ := h
  exact ⟨time, named⟩

/-- The entries are those of `v`, but for the active file and a backup with the name that was picked. -/
def Moved (sink : FileSink) (turn : Turn) (v : Volume) (queued : List JsString) (d : Directory) : Prop :=
  queued = v.queued ∧ ∃ paths, (∀ path ∈ paths, sink.Picks turn v path) ∧ Framed sink.activePath v.files paths d

theorem moveActiveFile_moved_on : Meets (fun u => u = v) (sink.moveActiveFile turn)
    (fun path w => sink.Picks turn v path ∧ w.queued = v.queued ∧ Framed sink.activePath v.files [path] w.files)
    (fun w => sink.Moved turn v w.queued w.files) := by
  have stays : ∀ queued d, queued = v.queued ∧ d = v.files → sink.Moved turn v queued d := by
    rintro queued d ⟨same, rfl⟩
    exact ⟨same, [], nofun, .refl⟩
  refine ((nextBackupPath_next sink.backupPrefix).weaken (fun _ _ h => h) fun w h => stays _ _ h).bind fun path => ?_
  refine Meets.known fun picked => ?_
  have picked : sink.Picks turn v path := picked
  have framed : ∀ queued d, queued = v.queued ∧ Framed sink.activePath v.files [path] d →
      sink.Moved turn v queued d := fun queued d h =>
    ⟨h.1, [path], fun other mem => (mem_singleton.mp mem) ▸ picked, h.2⟩
  have renames := @rename_files (fun queued d => queued = v.queued ∧ d = v.files)
    (fun queued d => queued = v.queued ∧ Framed sink.activePath v.files [path] d) sink.activePath path (by
      rintro queued d entry ⟨same, rfl⟩ found
      refine ⟨same, fun other mem => (mem_singleton.mp mem) ▸ picked.fresh, fun name other new => ?_⟩
      rw [lookup_insert_ne fun eq => new (mem_singleton.mpr eq), lookup_erase_ne other])
  refine (renames.weaken (fun _ _ h => h) fun w h => stays _ _ h).bind fun _ => ?_
  refine Meets.bind (Q := fun _ w => w.queued = v.queued ∧ Framed sink.activePath v.files [path] w.files)
    (Meets.modify fun w h => ?_) fun _ => ?_
  · exact h
  have made := @prepareActiveFile_files (fun queued d => queued = v.queued ∧ Framed sink.activePath v.files [path] d) turn
    (fun queued d => queued = v.queued ∧ Framed sink.activePath v.files [path] d) sink.activePath
    (fun _ _ h _ => h) fun _ _ h _ => ⟨h.1, h.2.insert_active _⟩
  refine (made.weaken (fun _ _ h => h) fun w h => h.elim (framed _ _) (framed _ _)).bind fun _ => ?_
  refine Meets.bind (Q := fun _ w => w.queued = v.queued ∧ Framed sink.activePath v.files [path] w.files)
    (Meets.modify fun w h => ?_) fun _ => Meets.pure fun _ h => ⟨picked, h⟩
  exact h

/-- What a line leaves that is written to the file: a backup with the name that was picked may be new, and be
queued. -/
def Rotated (sink : FileSink) (turn : Turn) (v : Volume) (line : JsString) (w : Volume) : Prop :=
  ∃ paths, (∀ path ∈ paths, sink.Picks turn v path ∧ sink.Rotates v line) ∧
    Turned sink.activePath v.files paths w.files ∧
      (w.queued = [] ∨ sink.rotation.compress = true ∧ ∃ path ∈ paths, w.queued = [path])

theorem write_rotated {line : JsString} (calm : v.queued = []) :
    Meets (fun u => u = v) (sink.write turn line) (fun _ => sink.Rotated turn v line) (fun _ => False) := by
  have start : sink.Rotated turn v line v :=
    ⟨[], nofun, Framed.refl.turned, .inl calm⟩
  refine write_meets start (fun rotates => ?_) (fun bytes => ?_) (fun w state h _ => h) fun w _ h => h
  · have moves : Meets (fun u => u = v) (sink.moveActiveFile turn)
        (fun path w => (w.queued = [] ∧ Turned sink.activePath v.files [path] w.files) ∧ sink.Picks turn v path)
        (sink.Rotated turn v line) := by
      refine moveActiveFile_moved_on.weaken (fun path w h => ?_) fun w h => ?_
      · obtain ⟨picked, queued, framed⟩ := h
        exact ⟨⟨queued.trans calm, framed.turned⟩, picked⟩
      · obtain ⟨queued, paths, picked, framed⟩ := h
        exact ⟨paths, fun path mem => ⟨picked path mem, rotates⟩, framed.turned, .inl (queued.trans calm)⟩
    refine moves.bind fun path => Meets.known fun picked => ?_
    have known : ∀ other ∈ [path], sink.Picks turn v other ∧ sink.Rotates v line :=
      fun other mem => (mem_singleton.mp mem) ▸ ⟨picked, rotates⟩
    refine (pruneBackups_files (D := fun queued d => queued = [] ∧ Turned sink.activePath v.files [path] d)
      fun other queued d h => ⟨h.1, h.2.erase other⟩).bind fun _ => ?_
    refine Meets.ite (fun compress => Meets.modify fun w h => ?_) fun _ => Meets.pure fun w h => ?_
    · refine ⟨[path], known, h.2, .inr ⟨compress, path, mem_singleton_self path, ?_⟩⟩
      show w.queued ++ [path] = [path]
      rw [h.1]
      rfl
    · exact ⟨[path], known, h.2, .inl h.1⟩
  · refine appendBytes_meets (fun _ _ h => h) ?_ (fun more w h => ?_) bytes
    · let D : List JsString → Directory → Prop := fun queued d =>
        ∃ paths, (∀ path ∈ paths, sink.Picks turn v path ∧ sink.Rotates v line) ∧
          Turned sink.activePath v.files paths d ∧
            (queued = [] ∨ sink.rotation.compress = true ∧ ∃ path ∈ paths, queued = [path])
      refine @openSync_files D turn D sink.activePath (fun _ _ h _ => h) fun queued d h _ => ?_
      obtain ⟨paths, picked, turned, waiting⟩ := h
      exact ⟨paths, picked, turned.insert_active _, waiting⟩
    · obtain ⟨paths, picked, turned, waiting⟩ := h
      refine ⟨paths, picked, ?_, waiting⟩
      show Turned _ _ _ (append turn sink.activePath more w.files)
      unfold append
      split
      · exact turned.insert_active _
      · exact turned

end FileSink

section compression

variable {path : JsString} {phase : CompressionPhase} {before after : Directory} {turn : Turn}

theorem LogName.ne_temporaryPath {name : JsString} (h : LogName name) : name ≠ temporaryPath path := by
  intro same
  have last := temporaryPath_last path
  rw [← same] at last
  rcases h with ⟨front, rfl⟩ | ⟨front, rfl⟩
  · have ending : (front ++ js ".log").getLast? = some 0x67 := getLast?_append_of_ne_nil _ (cons_ne_nil _ _)
    rw [ending] at last
    exact absurd last (by decide)
  · have ending : (front ++ js ".log.gz").getLast? = some 0x7A :=
      getLast?_append_of_ne_nil _ (cons_ne_nil _ _)
    rw [ending] at last
    exact absurd last (by decide)

/-- A step of a compression leaves the logs or removes them, and only its last one makes the gzip file. -/
structure Touched (path : JsString) (phase : CompressionPhase) (before after : Directory) : Prop where
  spared : ∀ name entry, LogName name → before.lookup name = some entry →
    after.lookup name = some entry ∨ after.lookup name = none
  known : ∀ name ∈ after, name ∈ before ∨ name = temporaryPath path ∨ (phase = .publishing ∧ name = gzipPath path)

theorem Touched.refl : Touched path phase before before := ⟨fun _ _ _ found => .inl found, fun _ mem => .inl mem⟩

theorem Touched.erase (h : Touched path phase before after) (other : JsString) :
    Touched path phase before (after.erase other) := by
  refine ⟨fun name entry log found => ?_, fun name mem => h.known name (mem_erase.mp mem).2⟩
  by_cases same : name = other
  · rw [same]
    exact .inr (lookup_erase _ _)
  · rw [lookup_erase_ne same]
    exact h.spared name entry log found

theorem Touched.insert_temporary (h : Touched path phase before after) (entry : FileEntry) :
    Touched path phase before (after.insert (temporaryPath path) entry) := by
  refine ⟨fun name old log found => ?_, fun name mem => ?_⟩
  · rw [lookup_insert_ne log.ne_temporaryPath]
    exact h.spared name old log found
  · rcases (mem_insert _).mp mem with same | mem
    · exact .inr (.inl same)
    · exact h.known name mem

theorem Touched.publish (free : gzipPath path ∉ before) (h : Touched path .publishing before after)
    (entry : FileEntry) : Touched path .publishing before (after.insert (gzipPath path) entry) := by
  refine ⟨fun name old log found => ?_, fun name mem => ?_⟩
  · have other : name ≠ gzipPath path := by
      intro same
      rw [same, lookup_eq_none.mpr free] at found
      cases found
    rw [lookup_insert_ne other]
    exact h.spared name old log found
  · rcases (mem_insert _).mp mem with same | mem
    · exact .inr (.inr ⟨rfl, same⟩)
    · exact h.known name mem

variable {D : List JsString → Directory → Prop}

theorem writeTemporary_files {bytes : List UInt8}
    (made : ∀ queued d entry, D queued d → D queued (d.insert (temporaryPath path) entry)) :
    Meets (fun v => D v.queued v.files) (writeTemporary turn path bytes) (fun _ v => D v.queued v.files)
      (fun v => D v.queued v.files) := by
  apply Meets.act
  intro v h
  dsimp only
  split
  · refine ⟨nofun, fun e t eq => ?_⟩
    cases eq
    exact h
  · refine ⟨nofun, fun e t eq => ?_⟩
    cases eq
    exact made _ _ _ h
  · refine ⟨fun a t eq => ?_, nofun⟩
    cases eq
    exact made _ _ _ h

theorem publish_files
    (erased : ∀ other queued d, D queued d → D queued (d.erase other))
    (made : ∀ queued d entry, D queued d → D queued (d.insert (gzipPath path) entry)) :
    Meets (fun v => D v.queued v.files) (publish path) (fun _ v => D v.queued v.files)
      (fun v => D v.queued v.files) := by
  refine Meets.bind (Q := fun _ v => D v.queued v.files) ?_ fun _ => Meets.modify fun _ h => h
  exact rename_files fun queued d entry h _ => made queued _ entry (erased _ queued d h)

theorem discard_files
    (erased : ∀ other queued d, D queued d → D queued (d.erase other)) (name : JsString) :
    Meets (fun v => D v.queued v.files) (discard name) (fun _ v => D v.queued v.files)
      (fun v => D v.queued v.files) := by
  refine Meets.bind (Q := fun _ v => D v.queued v.files) ?_ fun _ => Meets.modify fun _ h => h
  exact remove_files (erased name)

theorem advance_touched {sink : FileSink} {gzip : List UInt8 → List UInt8} {v : Volume}
    (free : unpublished phase = true → gzipPath path ∉ v.files) :
    Meets (fun u => u = v) (advanceTask sink gzip turn path phase)
      (fun next w => Touched path phase v.files w.files ∧
        (unpublished next = true → unpublished phase = true ∧ phase ≠ .publishing)) (fun _ => False) := by
  let D : List JsString → Directory → Prop := fun _ d => Touched path phase v.files d
  have here : ∀ u, u = v → D u.queued u.files := by
    rintro u rfl
    exact Touched.refl
  have erased : ∀ other queued d, D queued d → D queued (d.erase other) := fun other _ _ h => Touched.erase h other
  -- a phase that gives up or goes on, after a call that only touches what it may
  have gives : ∀ e, Meets (fun w => D w.queued w.files) (giveUp e)
      (fun next w => Touched path phase v.files w.files ∧
        (unpublished next = true → unpublished phase = true ∧ phase ≠ .publishing)) (fun _ => False) := by
    intro e
    refine Meets.bind (Q := fun _ w => D w.queued w.files) (reportFailure_files _ _) fun _ => ?_
    exact Meets.pure fun w h => ⟨h, nofun⟩
  have goes : ∀ (call : Io Unit) next, (unpublished next = true → unpublished phase = true ∧ phase ≠ .publishing) →
      Meets (fun u => u = v) call (fun _ w => D w.queued w.files) (fun w => D w.queued w.files) →
        Meets (fun u => u = v) (guarded call next) (fun next w => Touched path phase v.files w.files ∧
          (unpublished next = true → unpublished phase = true ∧ phase ≠ .publishing)) (fun _ => False) := by
    intro call next order meets
    refine meets.attempt.bind fun r => ?_
    cases r with
    | ok _ => exact Meets.pure fun w h => ⟨h.1 _ rfl, order⟩
    | error e => exact Meets.pure fun w h => ⟨h.2 _ rfl, nofun⟩
  cases phase with
  | reading =>
    refine ((statSync_files path).before here).attempt.bind fun r => ?_
    cases r with
    | ok entry => exact Meets.pure fun w h => ⟨h.1 _ rfl, fun _ => ⟨rfl, nofun⟩⟩
    | error e => exact (gives e).before fun w h => h.2 _ rfl
  | compressing source =>
    refine (otherCall_files.before here).attempt.bind fun r => ?_
    cases r with
    | ok _ => exact Meets.pure fun w h => ⟨h.1 _ rfl, fun _ => ⟨rfl, nofun⟩⟩
    | error e => exact (gives e).before fun w h => h.2 _ rfl
  | writing bytes =>
    refine goes _ _ (fun _ => ⟨rfl, nofun⟩) ?_
    exact (writeTemporary_files (D := D) fun _ _ entry h => Touched.insert_temporary h entry).before here
  | securing =>
    refine goes _ _ (fun _ => ⟨rfl, nofun⟩) ?_
    exact ((statSync_files (D := D) _).before here).bind fun _ => Meets.pure fun _ h => h
  | publishing =>
    refine goes _ _ nofun ?_
    exact (publish_files erased fun _ _ entry h => Touched.publish (free rfl) h entry).before here
  | discarding =>
    refine goes _ _ nofun ?_
    exact (discard_files erased _).before here
  | cleaning e =>
    refine ((discard_files erased _).before here).attempt.bind fun r => (gives e).before fun w h => ?_
    cases r with
    | ok a => exact h.1 a rfl
    | error e => exact h.2 e rfl
  | pruning =>
    refine Meets.bind (Q := fun _ w => D w.queued w.files) ?_ fun _ =>
      Meets.pure fun w h => ⟨h, nofun⟩
    exact (FileSink.pruneBackups_files (D := D) erased).before here
  | done => exact Meets.pure fun w h => ⟨here w h, nofun⟩

end compression

theorem newFileSink_opened {toLowerCase : JsString → JsString} {options : FileSinkOptions} {turn : Turn}
    {v : Volume} : Meets (fun u => u = v) (newFileSink toLowerCase options turn)
      (fun sink w => (∀ name ∈ w.files, name ∈ v.files ∨
          ∃ names, sinkNames toLowerCase options = .ok names ∧ name = names.1) ∧ sink.Spacious ∧
        (sink.activePath = [] ∨ ∃ names, sinkNames toLowerCase options = .ok names ∧ sink.activePath = names.1))
      (fun _ => False) := by
  let D : List JsString → Directory → Prop := fun _ d => ∀ name ∈ d, name ∈ v.files ∨
    ∃ names, sinkNames toLowerCase options = .ok names ∧ name = names.1
  refine Meets.bind (Q := fun _ w => D w.queued w.files) (Meets.modify fun u same => ?_) fun _ => ?_
  · rw [same]
    exact fun name mem => .inl mem
  dsimp only
  have reported : ∀ (e : JsString) (made : FileSink), made.Spacious ∧ (made.activePath = [] ∨
      ∃ names, sinkNames toLowerCase options = .ok names ∧ made.activePath = names.1) →
        Meets (fun w => D w.queued w.files) (do
            reportFailure (js "file sink unavailable; using stdout") e
            pure made) (fun sink w => D w.queued w.files ∧ sink.Spacious ∧ (sink.activePath = [] ∨
              ∃ names, sinkNames toLowerCase options = .ok names ∧ sink.activePath = names.1)) (fun _ => False) := by
    intro e made named
    refine Meets.bind (Q := fun _ w => D w.queued w.files) (reportFailure_files _ _) fun _ => ?_
    exact Meets.pure fun _ h => ⟨h, named⟩
  cases names : sinkNames toLowerCase options with
  | error e =>
    refine (reported e _ ⟨?_, .inl rfl⟩).weaken (fun _ _ h => ?_) fun _ h => h
    · exact Nat.succ_pos 3
    · rw [← names]
      exact h
  | ok found =>
    have opens : Meets (fun w => D w.queued w.files) (openActiveFile turn found.1) (fun _ w => D w.queued w.files)
        (fun w => D w.queued w.files) := by
      have prepares := @prepareActiveFile_files D turn D found.1 (fun _ _ h _ => h)
        fun _ d h _ name mem => by
          rcases (mem_insert _).mp mem with same | mem
          · exact .inr ⟨found, names, same⟩
          · exact h name mem
      refine (prepares.weaken (fun _ _ h => h) fun w h => h.elim id id).bind fun _ => ?_
      refine (statSync_files (D := D) found.1).bind fun info => Meets.modify fun w h => ?_
      exact h
    have spacious : ∀ rotation, FileSink.Spacious ⟨found.1, found.2, rotation, options.tee⟩ := fun rotation =>
      @sinkNames_spacious toLowerCase options ⟨found.1, found.2, rotation, options.tee⟩ names
    refine Meets.weaken (Q := fun sink w => D w.queued w.files ∧ sink.Spacious ∧ (sink.activePath = [] ∨
      ∃ names, sinkNames toLowerCase options = .ok names ∧ sink.activePath = names.1)) ?_ (fun _ _ h => ?_) fun _ h => h
    swap
    · rw [← names]
      exact h
    refine opens.attempt.bind fun r => ?_
    cases r with
    | ok _ => exact Meets.pure fun w h => ⟨h.1 _ rfl, spacious _, .inr ⟨found, names, rfl⟩⟩
    | error e => exact (reported e _ ⟨spacious _, .inr ⟨found, names, rfl⟩⟩).before fun w h => h.2 _ rfl

/-- The gzip files that are still to be made have names of their own, which no file has. -/
structure Settled (s : LogDirectory) : Prop where
  spacious : s.sink.Spacious
  free : ∀ task ∈ s.tasks, unpublished task.2.phase = true →
    gzipPath task.2.path ∉ s.volume.files ∧ gzipPath task.2.path ≠ s.sink.activePath
  apart : ∀ i j : Nat, ∀ a b, s.tasks[i]? = some a → s.tasks[j]? = some b → unpublished a.2.phase = true →
    unpublished b.2.phase = true → a.2.path = b.2.path → i = j

section steps

variable {toLowerCase : JsString → JsString} {gzip : List UInt8 → List UInt8} {s t : LogDirectory} {turn : Turn}

theorem gzipPath_ne_nil (path : JsString) : gzipPath path ≠ [] := by
  unfold gzipPath
  exact fun empty => absurd (append_eq_nil_iff.mp empty).2 (cons_ne_nil _ _)

theorem opened_settled {options : FileSinkOptions} {restart : Bool} (h : Settled s)
    (fresh : FreshNames toLowerCase s (.opened options turn restart) t)
    (stepped : (lifetimes toLowerCase gzip).step s (.opened options turn restart) = some t) : Settled t := by
  obtain ⟨sink, w, ran, known, spacious, named⟩ :=
    (@newFileSink_opened toLowerCase options turn { s.volume.during turn with reportedFailures := [] }).returns rfl
  simp only [lifetimes, ran] at stepped
  cases stepped
  cases restart with
  | true =>
    refine ⟨spacious, fun _ mem => absurd mem not_mem_nil, fun i j a b found => ?_⟩
    cases found
  | false =>
    refine ⟨spacious, fun task mem waits => ⟨fun there => ?_, fun same => ?_⟩, h.apart⟩
    · rcases known _ there with old | ⟨names, given, same⟩
      · exact (h.free task mem waits).1 old
      · exact fresh rfl names given task mem waits same.symm
    · rcases named with empty | ⟨names, given, active⟩
      · exact gzipPath_ne_nil _ (same.trans empty)
      · exact fresh rfl names given task mem waits (active ▸ same.symm)

theorem line_settled {text : JsString} (h : Settled s) (fresh : FreshNames toLowerCase s (.line turn text) t)
    (stepped : (lifetimes toLowerCase gzip).step s (.line turn text) = some t) :
    SparesLogs s (.line turn text) t ∧ Settled t := by
  have calm : (s.volume.during turn).queued = [] := rfl
  obtain ⟨delivery, w, ran, paths, picked, turned, waiting⟩ :=
    (@FileSink.write_rotated s.sink turn _ text calm).returns rfl
  simp only [lifetimes, ran] at stepped
  cases stepped
  have moved : ∃ paths, Framed s.sink.activePath s.volume.files paths
      ((s.sink.moveActiveFile turn).run (s.volume.during turn)).2.files := by
    refine Meets.ends (I := fun w => ∃ paths, Framed s.sink.activePath s.volume.files paths w.files)
      ((FileSink.moveActiveFile_moved_on (v := s.volume.during turn)).weaken (fun path w h => ⟨[path], h.2.2⟩)
        fun w h => ?_) rfl
    obtain ⟨-, paths, -, framed⟩ := h
    exact ⟨paths, framed⟩
  refine ⟨⟨fun name other there => ?_, fun name entry _ other found => turned.spared name entry other found⟩,
    h.spacious, fun task mem waits => ?_, ?_⟩
  · obtain ⟨paths, framed⟩ := moved
    exact framed.kept other there
  · have unlike : ∀ path ∈ paths, path ≠ gzipPath task.2.path := fun path new => (picked path new).1.dated.ne_gzipPath
    have free : gzipPath task.2.path ∉ s.volume.files ∧ gzipPath task.2.path ≠ s.sink.activePath := by
      rcases mem_append.mp mem with old | new
      · exact h.free task old waits
      · obtain ⟨path, queued, rfl⟩ := mem_map.mp new
        rcases waiting with none | ⟨compress, only, inside, one⟩
        · rw [none] at queued
          cases queued
        · rw [one] at queued
          obtain ⟨pick, rotates⟩ := picked only inside
          rw [mem_singleton.mp queued]
          exact ⟨(fresh rotates compress only pick).1, (pick.dated.ne_active h.spacious).2.1⟩
    refine ⟨fun there => ?_, free.2⟩
    rcases turned.known _ there with old | same | new
    · exact free.1 old
    · exact free.2 same
    · exact unlike _ new rfl
  · -- a new compression is the only one, and of another backup than those under way
    have new_task : ∀ k a, (w.queued.map fun path => (s.sink, (⟨path, .reading⟩ : CompressionTask)))[k]? = some a →
        k = 0 ∧ ∀ task ∈ s.tasks, unpublished task.2.phase = true → task.2.path ≠ a.2.path := by
      intro k a found
      rcases waiting with none | ⟨compress, only, inside, one⟩
      · rw [none] at found
        cases found
      · rw [one] at found
        obtain ⟨pick, rotates⟩ := picked only inside
        cases k with
        | zero =>
          cases found
          exact ⟨rfl, (fresh rotates compress only pick).2⟩
        | succ k => cases found
    intro i j a b first second waits waits' same
    rw [getElem?_append] at first second
    split at first
    · split at second
      · exact h.apart i j a b first second waits waits' same
      · exact absurd same ((new_task _ b second).2 a (mem_of_getElem? first) waits)
    · split at second
      · exact absurd same.symm ((new_task _ a first).2 b (mem_of_getElem? second) waits')
      · have zero := (new_task _ a first).1
        have zero' := (new_task _ b second).1
        omega

theorem task_settled {index : Nat} (h : Settled s)
    (stepped : (lifetimes toLowerCase gzip).step s (.task index turn) = some t) :
    SparesLogs s (.task index turn) t ∧ Settled t := by
  simp only [lifetimes] at stepped
  cases there : s.tasks[index]? with
  | none =>
    rw [there] at stepped
    cases stepped
  | some entry =>
    obtain ⟨sink, task⟩ := entry
    rw [there] at stepped
    dsimp only at stepped
    have free : unpublished task.phase = true → gzipPath task.path ∉ (s.volume.during turn).files :=
      fun waits => (h.free _ (mem_of_getElem? there) waits).1
    obtain ⟨next, w, ran, touched, order⟩ :=
      (@advance_touched _ _ turn sink gzip _ free).returns rfl
    split_ifs at stepped with finished
    rw [ran] at stepped
    cases stepped
    refine ⟨fun name entry log _ found => touched.spared name entry log found, h.spacious, fun other mem waits => ?_, ?_⟩
    · obtain ⟨j, found⟩ := mem_iff_getElem?.mp mem
      rw [getElem?_set] at found
      split_ifs at found with same bound
      · rw [← Option.some.inj found] at waits ⊢
        obtain ⟨waited, earlier⟩ := order waits
        have own := h.free (sink, task) (mem_of_getElem? there) waited
        refine ⟨fun made => ?_, own.2⟩
        rcases touched.known _ made with old | temporary | ⟨publishing, -⟩
        · exact free waited old
        · exact gzipPath_ne_temporaryPath temporary
        · exact earlier publishing
      · refine ⟨fun made => ?_, (h.free other (mem_of_getElem? found) waits).2⟩
        rcases touched.known _ made with old | temporary | ⟨publishing, gz⟩
        · exact (h.free other (mem_of_getElem? found) waits).1 old
        · exact gzipPath_ne_temporaryPath temporary
        · refine same (h.apart index j _ _ there found ?_ waits (gzipPath_injective gz).symm)
          rw [publishing]
          rfl
    · intro i j a b first second waits waits' same
      have former : ∀ (k : Nat) c, (s.tasks.set index (sink, { task with phase := next }))[k]? = some c →
          unpublished c.2.phase = true → ∃ c', s.tasks[k]? = some c' ∧ unpublished c'.2.phase = true ∧
            c'.2.path = c.2.path := by
        intro k c found waits
        rw [getElem?_set] at found
        split_ifs at found with same bound
        · rw [← Option.some.inj found] at waits ⊢
          exact ⟨(sink, task), same ▸ there, (order waits).1, rfl⟩
        · exact ⟨c, found, waits, rfl⟩
      obtain ⟨a', first', waited, path⟩ := former i a first waits
      obtain ⟨b', second', waited', path'⟩ := former j b second waits'
      exact h.apart i j a' b' first' second' waited waited' (path.trans (same.trans path'.symm))

theorem settled_step {e : LifetimeEvent} (h : Settled s) (fresh : FreshNames toLowerCase s e t)
    (stepped : (lifetimes toLowerCase gzip).step s e = some t) : SparesLogs s e t ∧ Settled t := by
  cases e with
  | opened options turn restart => exact ⟨trivial, opened_settled h fresh stepped⟩
  | line turn text => exact line_settled h fresh stepped
  | task index turn => exact task_settled h stepped
  | outside files =>
    cases stepped
    exact ⟨trivial, h.spacious, fun task mem waits => ⟨fresh task mem waits, (h.free task mem waits).2⟩, h.apart⟩

end steps

/-- Over all lifetimes of its sinks, no log of a directory is replaced where new backups have fresh names. -/
theorem lifetimes_spare_logs (toLowerCase : JsString → JsString) (gzip : List UInt8 → List UInt8) (s : LogDirectory)
    (start : (lifetimes toLowerCase gzip).start s) (es : List LifetimeEvent)
    (fresh : (lifetimes toLowerCase gzip).Along (FreshNames toLowerCase) s es) :
    (lifetimes toLowerCase gzip).Along SparesLogs s es := by
  have settled : Settled s := by
    obtain ⟨none, -, unnamed⟩ := start
    refine ⟨?_, fun task mem => ?_, fun i j a b found => ?_⟩
    · unfold FileSink.Spacious
      rw [unnamed]
      exact Nat.succ_pos _
    · rw [none] at mem
      cases mem
    · rw [none] at found
      cases found
  clear start
  induction es generalizing s with
  | nil => trivial
  | cons e es ih =>
    intro t stepped
    obtain ⟨named, later⟩ := fresh t stepped
    obtain ⟨spared, next⟩ := settled_step settled named stepped
    exact ⟨spared, ih t later next⟩

/-- A sink that moves every line but the last into a backup, and compresses it. -/
def gzipOptions : FileSinkOptions :=
  { byteOptions with rotate := { byteOptions.rotate with compress := some true } }

def noSink : LogDirectory := ⟨emptyVolume, ⟨[], [], resolveRotation byteOptions.rotate, false⟩, []⟩

def oneBackup (now : Int) : List LifetimeEvent :=
  [.opened gzipOptions (clockTurn now) true, .line (clockTurn now) (js "a"), .line (clockTurn now) (js "b")]

def oneGzip (now : Int) : List LifetimeEvent := oneBackup now ++ List.replicate 7 (.task 0 (clockTurn now))

def secondBackup (now : Int) : List LifetimeEvent :=
  [.opened gzipOptions (clockTurn now) true, .line (clockTurn now) (js "c")] ++
    List.replicate 4 (.task 0 (clockTurn now))

/-- While the directory holds only the active file, a backup gets a fresh name. -/
theorem one_backup_spared : (lifetimes id id).Along SparesLogs noSink (oneBackup 5) := by
  apply lifetimes_spare_logs id id noSink ⟨rfl, rfl, rfl⟩
  have none_yet : ((lifetimes id id).step noSink (.opened gzipOptions (clockTurn 5) true)).map
      (fun s => s.volume.state.currentSize) = some 0 := by decide
  have alone : ((lifetimes id id).run noSink [.opened gzipOptions (clockTurn 5) true, .line (clockTurn 5) (js "a")]).map
      (fun s => (s.volume.files.keys, s.tasks.length)) = some ([js "app.log"], 0) := by decide
  intro s opened
  have new_life : FreshNames id noSink (.opened gzipOptions (clockTurn 5) true) s := fun restart => nomatch restart
  refine ⟨new_life, fun t first => ⟨fun rotates => ?_, fun u _ => ⟨fun _ _ path _ => ?_, trivial⟩⟩⟩
  · rw [opened] at none_yet
    have size : s.volume.state.currentSize = 0 := Option.some.inj none_yet
    have full := rotates.2.2
    unfold FileSink.full at full
    rw [size] at full
    cases full
  · have second : (lifetimes id id).run noSink
        [.opened gzipOptions (clockTurn 5) true, .line (clockTurn 5) (js "a")] = some t := by
      rw [LabelledMachine.run_cons, opened, Option.bind_some, LabelledMachine.run_cons, first]
      rfl
    rw [second] at alone
    obtain ⟨names, tasks⟩ := Prod.mk.inj (Option.some.inj alone)
    refine ⟨fun there => ?_, fun task mem => ?_⟩
    · have listed : gzipPath path ∈ t.volume.files.keys := there
      rw [names] at listed
      have last := gzipPath_last path
      rw [List.mem_singleton.mp listed] at last
      exact absurd last (by decide)
    · rw [List.eq_nil_of_length_eq_zero tasks] at mem
      cases mem

/-- The clock shows the same time in two lifetimes, and the second gzip file takes the place of the first. -/
theorem repeated_clock_replaces : ¬∀ (toLowerCase : JsString → JsString) gzip s es,
    (lifetimes toLowerCase gzip).start s → (lifetimes toLowerCase gzip).Along SparesLogs s es := by
  intro all
  have along := all id id noSink (oneGzip 5 ++ secondBackup 5 ++ [.task 0 (clockTurn 5)]) ⟨rfl, rfl, rfl⟩
  have replaced : (((lifetimes id id).run noSink (oneGzip 5 ++ secondBackup 5)).bind fun s =>
      ((lifetimes id id).step s (.task 0 (clockTurn 5))).map fun t =>
        (s.sink.activePath, s.volume.files.lookup (js "app-1970-01-01T00-00-00.005.log.gz"),
          t.volume.files.lookup (js "app-1970-01-01T00-00-00.005.log.gz"))) =
      some (js "app.log", some ⟨true, [0x61, 0x0A], 0⟩, some ⟨true, [0x62, 0x0A], 0⟩) := by
    decide +kernel
  obtain ⟨s, ran, stepped⟩ := Option.bind_eq_some_iff.mp replaced
  obtain ⟨t, last, found⟩ := Option.map_eq_some_iff.mp stepped
  obtain ⟨active, found⟩ := Prod.mk.inj found
  obtain ⟨before, after⟩ := Prod.mk.inj found
  have spared := ((LabelledMachine.along_append along ran).2 t last).1
  have log : LogName (js "app-1970-01-01T00-00-00.005.log.gz") := .inr (by decide)
  have other : js "app-1970-01-01T00-00-00.005.log.gz" ≠ s.sink.activePath := by
    rw [active]
    decide
  rcases spared _ _ log other before with same | gone
  · rw [after] at same
    exact absurd same (by decide)
  · rw [after] at gone
    cases gone

end ForgeDeno
