import ForgeDeno.FileCalls
import Mathlib.Data.List.Perm.Subperm

namespace ForgeDeno

open Program List

namespace FileSink

variable (sink : FileSink)

def Own (v : Volume) (name : JsString) : Prop := name = sink.activePath ∨ name ∈ v.produced

def Foreign (v : Volume) (name : JsString) (entry : FileEntry) : Prop :=
  ¬sink.Own v name ∧ v.files.lookup name = some entry

def Endangered (turn : Turn) (files : Directory) (name : JsString) (entry : FileEntry) : Prop :=
  (0 < sink.rotation.maxAge ∧ entry.modified < turn.pruneNow - sink.rotation.maxAge * MILLIS_PER_DAY) ∨
  (0 < sink.rotation.maxBackups ∧ sink.rotation.maxBackups ≤ files.entries.countP fun other =>
    sink.listed other && decide (other.1 ≠ name) && decide (entry.modified ≤ other.2.modified))

def SafeToPrune (turn : Turn) (v : Volume) : Prop :=
  ∀ name entry, sink.Foreign v name entry → sink.listed ⟨name, entry⟩ = true →
    ¬sink.Endangered turn v.files name entry

end FileSink

structure Kept (F : JsString → FileEntry → Prop) (v : Volume) : Prop where
  present : ∀ name entry, F name entry → v.files.lookup name = some entry
  apart : ∀ name entry, F name entry → name ∉ v.produced

def Free (F : JsString → FileEntry → Prop) (name : JsString) : Prop := ∀ entry, ¬F name entry

section kept

variable {F : JsString → FileEntry → Prop} {v : Volume}

theorem Kept.faults (h : Kept F v) (faults : List (Option JsString)) : Kept F { v with faults } :=
  ⟨h.present, h.apart⟩

variable {path : JsString}

theorem Kept.free (h : Kept F v) (absent : path ∉ v.files) : Free F path := by
  intro entry mem
  exact absent (AList.lookup_isSome.mp (by rw [h.present path entry mem]; rfl))

theorem Kept.insert {path : JsString} (free : Free F path) (h : Kept F v) (entry : FileEntry) :
    Kept F { v with files := v.files.insert path entry } := by
  refine ⟨fun name other mem => ?_, h.apart⟩
  have ne : name ≠ path := fun same => free other (same ▸ mem)
  show (v.files.insert path entry).lookup name = some other
  rw [AList.lookup_insert_ne ne]
  exact h.present name other mem

theorem Kept.erase {path : JsString} (free : Free F path) (h : Kept F v) :
    Kept F { v with files := v.files.erase path } := by
  refine ⟨fun name other mem => ?_, h.apart⟩
  have ne : name ≠ path := fun same => free other (same ▸ mem)
  show (v.files.erase path).lookup name = some other
  rw [AList.lookup_erase_ne ne]
  exact h.present name other mem

theorem Kept.made (free : Free F path) (h : Kept F v) :
    Kept F { v with produced := v.produced ++ [path] } := by
  refine ⟨h.present, fun name entry mem inside => ?_⟩
  rcases mem_append.mp inside with before | last
  · exact h.apart name entry mem before
  · exact free entry (mem_singleton.mp last ▸ mem)

theorem Kept.lost {p : JsString → Bool} (h : Kept F v) : Kept F { v with produced := v.produced.filter p } :=
  ⟨h.present, fun name entry mem inside => h.apart name entry mem (mem_filter.mp inside).1⟩

theorem meets_kept {α : Type} {f : Directory → Except JsString (α × Directory)}
    (keeps : ∀ v a files, Kept F v → f v.files = .ok (a, files) → Kept F { v with files }) :
    Meets (Kept F) (fileCall f) (fun _ => Kept F) (Kept F) :=
  meets_fileCall (fun _ faults h => h.faults faults) fun v faults a files h called =>
    (keeps v a files h called).faults faults

theorem otherCall_kept : Meets (Kept F) otherCall (fun _ => Kept F) (Kept F) :=
  meets_kept fun v a files h called => by
    cases called
    exact h

theorem statSync_kept (path : JsString) : Meets (Kept F) (statSync path) (fun _ => Kept F) (Kept F) := by
  apply meets_kept
  intro v entry files h called
  split at called
  · cases called
    exact h
  · cases called

theorem lstatSync_kept (path : JsString) :
    Meets (Kept F) (lstatSync path) (fun found v => Kept F v ∧ (found = false → path ∉ v.files)) (Kept F) := by
  refine meets_fileCall (fun _ faults h => h.faults faults) fun v faults a files h called => ?_
  cases called
  exact ⟨h.faults faults, fun absent => of_decide_eq_false absent⟩

theorem openSync_kept (turn : Turn) (free : Free F path) :
    Meets (Kept F) (openSync turn path) (fun _ => Kept F) (Kept F) := by
  apply meets_kept
  intro v a files h called
  cases called
  by_cases there : path ∈ v.files
  · rw [if_pos there]
    exact h
  · rw [if_neg there]
    exact h.insert free _

theorem rename_kept {source target : JsString} (from_free : Free F source) (to_free : Free F target) :
    Meets (Kept F) (rename source target) (fun _ => Kept F) (Kept F) := by
  apply meets_kept
  intro v a files h called
  split at called
  · cases called
    exact (h.erase from_free).insert to_free _
  · cases called

theorem remove_kept (free : Free F path) :
    Meets (Kept F) (remove path) (fun _ => Kept F) (Kept F) := by
  apply meets_kept
  intro v a files h called
  split_ifs at called
  cases called
  exact h.erase free

theorem append_kept (turn : Turn) (bytes : List UInt8) (free : Free F path)
    (h : Kept F v) : Kept F { v with files := append turn path bytes v.files } := by
  unfold append
  split
  · exact h.insert free _
  · exact h

theorem prepareActiveFile_kept (turn : Turn) (free : Free F path) :
    Meets (Kept F) (prepareActiveFile turn path) (fun _ => Kept F) (Kept F) :=
  otherCall_kept.bind fun _ => otherCall_kept.bind fun _ => (openSync_kept turn free).bind fun _ =>
    otherCall_kept.bind fun _ => otherCall_kept

theorem appendBytes_kept (turn : Turn) (free : Free F path) (bytes : List UInt8) :
    Meets (Kept F) (appendBytes turn path bytes) (fun _ => Kept F) (Kept F) :=
  appendBytes_meets (fun _ faults h => h.faults faults) (openSync_kept turn free)
    (fun bytes _ h => append_kept turn bytes free h) bytes

theorem reportFailure_kept (operation error : JsString) {E : Volume → Prop} :
    Meets (Kept F) (reportFailure operation error) (fun _ => Kept F) E := by
  apply Meets.modify
  intro v h
  show Kept F (if _ then v else _)
  split_ifs
  · exact h
  · exact ⟨h.present, h.apart⟩

theorem probe_kept (backupPrefix : JsString) (rounds : Nat) :
    Meets (Kept F) (probe backupPrefix rounds) (fun path v => Kept F v ∧ path ∉ v.files) (Kept F) := by
  induction rounds with
  | zero => exact Meets.lift nofun fun _ h => h
  | succ rounds ih =>
    refine Meets.gets.bind fun time => ?_
    cases backupName backupPrefix time with
    | none => exact Meets.lift nofun fun _ h => h.2
    | some candidate =>
      refine ((lstatSync_kept candidate).before fun _ h => h.2).bind fun taken => ?_
      cases taken with
      | true =>
        refine Meets.bind (Q := fun _ => Kept F) (Meets.modify fun v h => ?_) fun _ => ih
        exact ⟨h.1.present, h.1.apart⟩
      | false => exact Meets.pure fun _ h => ⟨h.1, h.2 rfl⟩

theorem nextBackupPath_kept (turn : Turn) (backupPrefix : JsString) :
    Meets (Kept F) (nextBackupPath turn backupPrefix) (fun path v => Kept F v ∧ path ∉ v.files) (Kept F) := by
  refine Meets.bind (Q := fun _ => Kept F) (Meets.modify fun v h => ⟨h.present, h.apart⟩) fun _ => ?_
  exact Meets.gets.bind fun rounds => (probe_kept backupPrefix rounds).before fun _ h => h.2

end kept

namespace FileSink

variable {sink : FileSink} {F : JsString → FileEntry → Prop}

theorem statSync_found {files : Directory} {entry : DirEntry} (there : files.lookup entry.1 = some entry.2) :
    Meets (fun v => Kept F v ∧ v.files = files) (statSync entry.1)
      (fun info v => (Kept F v ∧ v.files = files) ∧ info = entry.2) (Kept F) := by
  refine meets_fileCall (fun _ faults h => h.1.faults faults) fun v faults info after h called => ?_
  rw [h.2, there] at called
  cases called
  exact ⟨⟨⟨fun n f mem => h.2 ▸ h.1.present n f mem, h.1.apart⟩, rfl⟩, rfl⟩

theorem listBackups_found {files : Directory} (turn : Turn) :
    Meets (fun v => Kept F v ∧ v.files = files) (sink.listBackups turn)
      (fun backups v => Kept F v ∧ sink.Found files backups) (Kept F) := by
  have reads : Meets (fun v => Kept F v ∧ v.files = files) (readDirSync turn)
      (fun entries v => (Kept F v ∧ v.files = files) ∧ entries.Perm files.entries) (Kept F) := by
    refine meets_fileCall (fun _ faults h => h.1.faults faults) fun v faults entries after h called => ?_
    cases called
    exact ⟨⟨h.1.faults faults, h.2⟩, h.2 ▸ perm_insertionSort _ _⟩
  refine reads.bind fun entries => Meets.known fun perm => ?_
  have there : ∀ entry ∈ entries, files.lookup entry.1 = some entry.2 := fun entry mem =>
    AList.mem_lookup_iff.mpr (perm.mem_iff.mp mem)
  refine (statBackups_found entries fun entry mem => statSync_found (there entry mem)).weaken
    (fun backups v h => ?_) fun _ h => h
  exact ⟨h.1.1, entries, perm, h.2⟩

theorem Found.outnumbered {files : Directory} {backups left : List Backup} {keep : Nat}
    {backup : Backup} (found : sink.Found files backups) (sub : left.Sublist backups)
    (mem : backup ∈ (newestFirst left).drop keep) : keep ≤ files.entries.countP fun other => sink.listed other &&
      decide (other.1 ≠ backup.path) && decide (backup.modified ≤ other.2.modified) := by
  have perm : (newestFirst left).Perm left := perm_insertionSort _ _
  have sorted : (newestFirst left).Pairwise fun a b => b.modified ≤ a.modified := by
    have : Std.Total fun a b : Backup => b.modified ≤ a.modified := ⟨fun a b => by omega⟩
    have : IsTrans Backup fun a b => b.modified ≤ a.modified := ⟨fun a b c first second => by omega⟩
    exact pairwise_insertionSort _ left
  have names : ((newestFirst left).map Backup.path).Nodup :=
    (perm.map Backup.path).nodup_iff.mpr (found.nodup.sublist (sub.map _))
  have long : keep ≤ (newestFirst left).length := by
    have := length_pos_of_mem mem
    rw [length_drop] at this
    omega
  rw [← take_append_drop keep (newestFirst left)] at sorted names
  rw [map_append, nodup_append] at names
  have before := (pairwise_append.mp sorted).2.2
  have inside : ((newestFirst left).take keep).map Backup.path ⊆
      (files.entries.filter fun other => sink.listed other &&
        decide (other.1 ≠ backup.path) && decide (backup.modified ≤ other.2.modified)).map Sigma.fst := by
    intro name there
    obtain ⟨other, among, rfl⟩ := mem_map.mp there
    have listed : other ∈ backups := sub.subset (perm.subset (mem_of_mem_take among))
    obtain ⟨entry, present, taken, same⟩ := found.entry listed
    refine mem_map.mpr ⟨⟨other.path, entry⟩, mem_filter.mpr ?_, rfl⟩
    refine ⟨AList.mem_lookup_iff.mp present, ?_⟩
    have ne := names.2.2 other.path (mem_map_of_mem among) backup.path (mem_map_of_mem mem)
    have newer := before other among backup mem
    simp only [Bool.and_eq_true, decide_eq_true_eq]
    exact ⟨⟨taken, ne⟩, same ▸ newer⟩
  have counted := (List.Nodup.subperm names.1 inside).length_le
  rw [length_map, length_map, length_take, Nat.min_eq_left long] at counted
  rw [countP_eq_length_filter]
  exact counted

variable {E : Volume → Prop}

theorem removeBackup_kept {path : JsString} (free : Free F path) :
    Meets (Kept F) (removeBackup path) (fun _ => Kept F) E := by
  refine Meets.bind (Meets.attempt (remove_kept free)) fun r => ?_
  cases r with
  | ok _ =>
    refine Meets.bind (Q := fun _ => Kept F) (Meets.modify fun v h => ?_) fun _ => Meets.pure fun _ h => h
    exact (h.1 () rfl).lost
  | error e =>
    refine ((reportFailure_kept _ e).before fun v h => ?_).bind fun _ => Meets.pure fun _ h => h
    exact h.2 e rfl

theorem pruneExpired_kept {cutoff : Int} (backups left : List Backup)
    (free : ∀ backup ∈ backups, backup.modified < cutoff → Free F backup.path) :
    Meets (Kept F) (pruneExpired cutoff backups left) (fun after v => Kept F v ∧ after.Sublist left) E := by
  induction backups generalizing left with
  | nil => exact Meets.pure fun _ h => ⟨h, List.Sublist.refl _⟩
  | cons backup backups ih =>
    have rest := fun other mem => free other (mem_cons_of_mem _ mem)
    refine Meets.ite (fun _ => ih left rest) fun expired => ?_
    have removes := removeBackup_kept (E := E) (free backup mem_cons_self (by omega))
    refine removes.bind fun removed => ?_
    refine (ih _ rest).weaken (fun after v h => ⟨h.1, h.2.trans ?_⟩) fun _ h => h
    split_ifs
    · exact filter_sublist
    · exact List.Sublist.refl _

theorem removeBackups_kept (backups : List Backup) (free : ∀ backup ∈ backups, Free F backup.path)
    : Meets (Kept F) (removeBackups backups) (fun _ => Kept F) E := by
  induction backups with
  | nil => exact Meets.pure fun _ h => h
  | cons backup backups ih =>
    exact (removeBackup_kept (free backup mem_cons_self)).bind fun _ =>
      ih fun other mem => free other (mem_cons_of_mem _ mem)

theorem pruneBackups_kept {turn : Turn} {w : Volume} (active : Free F sink.activePath) (kept : Kept F w)
    (safe : sink.SafeToPrune turn w) :
    Meets (fun v => v = w) (sink.pruneBackups turn) (fun _ => Kept F) E := by
  have spared : ∀ path entry, w.files.lookup path = some entry →
      sink.listed ⟨path, entry⟩ = true → sink.Endangered turn w.files path entry → Free F path := by
    intro path entry there taken danger other mem
    have same : other = entry := Option.some.inj ((kept.present path other mem).symm.trans there)
    refine safe path entry ⟨fun own => ?_, there⟩ taken danger
    rcases own with rfl | made
    · exact active other mem
    · exact kept.apart path other mem made
  have lists : Meets (fun v => v = w) (sink.listBackups turn)
      (fun backups v => Kept F v ∧ sink.Found w.files backups) (Kept F) :=
    (listBackups_found turn).before fun v eq => ⟨eq ▸ kept, eq ▸ rfl⟩
  refine Meets.bind lists.attempt fun r => ?_
  cases r with
  | error e =>
    exact (reportFailure_kept _ e).before fun v h => h.2 e rfl
  | ok backups =>
    refine Meets.before (P := fun v => Kept F v ∧ sink.Found w.files backups) ?_ fun v h => h.1 backups rfl
    refine Meets.known fun found => ?_
    have expires : Meets (Kept F) (sink.pruneAged turn backups)
        (fun left v => Kept F v ∧ left.Sublist backups) E := by
      refine Meets.ite (fun limited => ?_) fun _ => Meets.pure fun _ h => ⟨h, List.Sublist.refl _⟩
      refine pruneExpired_kept backups backups fun backup mem old => ?_
      obtain ⟨entry, there, taken, same⟩ := found.entry mem
      exact spared _ entry there taken (.inl ⟨limited, same ▸ old⟩)
    refine expires.bind fun left => Meets.known fun sub => ?_
    refine Meets.ite (fun _ => Meets.pure fun _ h => h) fun many => ?_
    refine removeBackups_kept _ fun backup mem => ?_
    obtain ⟨entry, there, taken, same⟩ := found.entry
      (sub.subset ((perm_insertionSort _ _).subset (mem_of_mem_drop mem)))
    have outnumbered := found.outnumbered sub mem
    rw [same] at outnumbered
    exact spared _ entry there taken (.inr ⟨by omega, outnumbered⟩)

theorem moveActiveFile_kept (turn : Turn) (active : Free F sink.activePath) :
    Meets (Kept F) (sink.moveActiveFile turn) (fun _ => Kept F) (Kept F) := by
  refine (nextBackupPath_kept turn sink.backupPrefix).bind fun path => ?_
  refine Meets.before (P := fun v => Kept F v ∧ Free F path) ?_ fun v h => ⟨h.1, h.1.free h.2⟩
  refine Meets.known fun free => ?_
  refine (rename_kept active free).bind fun _ => ?_
  refine Meets.bind (Q := fun _ => Kept F) (Meets.modify fun v h => ?_) fun _ => ?_
  · exact ⟨(h.made free).present, (h.made free).apart⟩
  refine (prepareActiveFile_kept turn active).bind fun _ => ?_
  refine Meets.bind (Q := fun _ => Kept F) (Meets.modify fun v h => ?_) fun _ => Meets.pure fun _ h => h
  exact ⟨h.present, h.apart⟩

theorem rotateActiveFile_kept {turn : Turn} {v : Volume} (active : Free F sink.activePath)
    (kept : Kept F v) (safe : ∀ path w, (sink.moveActiveFile turn).run v = (.ok path, w) →
      sink.SafeToPrune turn w) :
    Meets (fun u => u = v) (sink.rotateActiveFile turn) (fun _ => Kept F) (Kept F) := by
  have moves : Meets (fun u => u = v) (sink.moveActiveFile turn)
      (fun _ w => Kept F w ∧ sink.SafeToPrune turn w) (Kept F) := by
    intro u eq
    cases eq
    obtain ⟨moved, failed⟩ := moveActiveFile_kept turn active v kept
    exact ⟨fun path w ran => ⟨moved path w ran, safe path w ran⟩, failed⟩
  refine moves.bind fun path => ?_
  refine Meets.bind (Q := fun _ => Kept F) ?_ fun _ => ?_
  · intro w h
    exact pruneBackups_kept active h.1 h.2 w rfl
  · refine Meets.ite (fun _ => Meets.modify fun v h => ?_) fun _ => Meets.pure fun _ h => h
    exact ⟨h.present, h.apart⟩

theorem write_kept {turn : Turn} {line : JsString} {v : Volume} (active : Free F sink.activePath)
    (kept : Kept F v) (safe : sink.Rotates v line → ∀ path w,
      (sink.moveActiveFile turn).run v = (.ok path, w) → sink.SafeToPrune turn w) :
    Meets (fun u => u = v) (sink.write turn line) (fun _ => Kept F) E :=
  write_meets kept (fun rotates => rotateActiveFile_kept active kept (safe rotates))
    (appendBytes_kept turn active) (fun _ _ h _ => ⟨h.present, h.apart⟩)
    fun _ _ h => ⟨h.present, h.apart⟩

end FileSink

def touched (path : JsString) : CompressionPhase → List JsString
  | .writing _ => [temporaryPath path]
  | .publishing => [temporaryPath path, gzipPath path]
  | .discarding => [path]
  | .cleaning _ => [temporaryPath path]
  | _ => []

section compression

variable {sink : FileSink} {F : JsString → FileEntry → Prop} {path : JsString}

theorem guarded_kept {call : Io Unit} {next : CompressionPhase} {E : Volume → Prop}
    (keeps : Meets (Kept F) call (fun _ => Kept F) (Kept F)) :
    Meets (Kept F) (guarded call next) (fun _ => Kept F) E := by
  refine Meets.bind keeps.attempt fun r => ?_
  cases r with
  | ok _ => exact Meets.pure fun _ h => h.1 () rfl
  | error e => exact Meets.pure fun _ h => h.2 e rfl

theorem giveUp_kept (error : JsString) {E : Volume → Prop} : Meets (Kept F) (giveUp error) (fun _ => Kept F) E :=
  (reportFailure_kept _ error).bind fun _ => Meets.pure fun _ h => h

theorem writeTemporary_kept {turn : Turn} {bytes : List UInt8} (free : Free F (temporaryPath path)) :
    Meets (Kept F) (writeTemporary turn path bytes) (fun _ => Kept F) (Kept F) := by
  apply Meets.act
  intro v h
  have written : ∀ content faults, Kept F { v with
      faults
      files := v.files.insert (temporaryPath path) ⟨true, content, turn.stamp⟩
      produced := v.produced ++ [temporaryPath path] } := by
    intro content faults
    have both := (h.insert free ⟨true, content, turn.stamp⟩).made free
    exact ⟨both.present, both.apart⟩
  split
  · exact ⟨nofun, fun _ _ eq => by cases eq; exact h.faults _⟩
  · exact ⟨nofun, fun _ _ eq => by cases eq; exact written _ _⟩
  · exact ⟨fun _ _ eq => (by cases eq; exact written _ _), nofun⟩

theorem publish_kept (temporary : Free F (temporaryPath path)) (target : Free F (gzipPath path)) :
    Meets (Kept F) (publish path) (fun _ => Kept F) (Kept F) := by
  refine (rename_kept temporary target).bind fun _ => Meets.modify fun v h => ?_
  have both := (h.lost (p := fun name => name ≠ temporaryPath path)).made target
  exact ⟨both.present, both.apart⟩

theorem discard_kept {name : JsString} (free : Free F name) :
    Meets (Kept F) (discard name) (fun _ => Kept F) (Kept F) := by
  refine (remove_kept free).bind fun _ => Meets.modify fun v h => ?_
  exact ⟨h.lost.present, h.lost.apart⟩

theorem advance_kept {gzip : List UInt8 → List UInt8} {turn : Turn} {phase : CompressionPhase}
    {v : Volume} (active : Free F sink.activePath) (kept : Kept F v)
    (free : ∀ name ∈ touched path phase, Free F name)
    (safe : phase = .pruning → sink.SafeToPrune turn v) {E : Volume → Prop} :
    Meets (fun u => u = v) (advanceTask sink gzip turn path phase) (fun _ => Kept F) E := by
  have here : ∀ u, u = v → Kept F u := fun u eq => eq ▸ kept
  cases phase with
  | reading =>
    refine Meets.bind ((statSync_kept path).before here).attempt fun r => ?_
    cases r with
    | ok _ => exact Meets.pure fun _ h => h.1 _ rfl
    | error e => exact (giveUp_kept e).before fun _ h => h.2 e rfl
  | compressing source =>
    refine Meets.bind (otherCall_kept.before here).attempt fun r => ?_
    cases r with
    | ok _ => exact Meets.pure fun _ h => h.1 _ rfl
    | error e => exact (giveUp_kept e).before fun _ h => h.2 e rfl
  | writing bytes =>
    exact (guarded_kept (writeTemporary_kept (free _ mem_cons_self))).before here
  | securing =>
    exact (guarded_kept ((statSync_kept _).bind fun _ => Meets.pure fun _ h => h)).before here
  | publishing =>
    exact (guarded_kept (publish_kept (free _ mem_cons_self)
      (free _ (mem_cons_of_mem _ mem_cons_self)))).before here
  | discarding => exact (guarded_kept (discard_kept (free _ mem_cons_self))).before here
  | cleaning e =>
    refine Meets.bind ((discard_kept (free _ mem_cons_self)).before here).attempt fun r => ?_
    refine (giveUp_kept e).before fun u h => ?_
    cases r with
    | ok a => exact h.1 a rfl
    | error e => exact h.2 e rfl
  | pruning =>
    exact (FileSink.pruneBackups_kept active kept (safe rfl)).bind fun _ => Meets.pure fun _ h => h
  | done => exact Meets.pure here

end compression

/-- Before a step of the sink, no entry of others is in danger: where the step prunes, none is
endangered, and a compression finds none under a name that it is about to touch. -/
def Harmless (sink : FileSink) (s : SinkSystem) : SinkEvent → SinkSystem → Prop
  | .line turn text, _ => sink.Rotates s.volume text → ∀ path w,
      (sink.moveActiveFile turn).run (s.volume.during turn) = (.ok path, w) → sink.SafeToPrune turn w
  | .task index turn, _ => ∀ task, s.tasks[index]? = some task →
      (task.phase = .pruning → sink.SafeToPrune turn s.volume) ∧
        ∀ name ∈ touched task.path task.phase, ∀ entry, ¬sink.Foreign s.volume name entry
  | .outside _, _ => True

def LeavesOthers (sink : FileSink) (s : SinkSystem) : SinkEvent → SinkSystem → Prop
  | .outside _, _ => True
  | _, t => ∀ name entry, sink.Foreign s.volume name entry → t.volume.files.lookup name = some entry

theorem task_step {sink : FileSink} {gzip : List UInt8 → List UInt8} {s t : SinkSystem} {index : Nat}
    {turn : Turn} (stepped : (sinkMachine sink gzip).step s (.task index turn) = some t) :
    ∃ task, s.tasks[index]? = some task ∧ ((advanceTask sink gzip turn task.path task.phase).run
      (s.volume.during turn)).2 = t.volume := by
  simp only [sinkMachine] at stepped
  split at stepped
  · cases stepped
  · next task found =>
    split_ifs at stepped
    split at stepped
    · next phase v ran =>
      cases stepped
      exact ⟨task, found, by rw [ran]⟩
    · cases stepped

/-- In every run whose steps find no entry of others in danger, no step of the sink removes, renames
or changes one. -/
theorem retention_leaves_others (sink : FileSink) (gzip : List UInt8 → List UInt8) (s : SinkSystem)
    (es : List SinkEvent) (harmless : (sinkMachine sink gzip).Along (Harmless sink) s es) :
    (sinkMachine sink gzip).Along (LeavesOthers sink) s es := by
  induction es generalizing s with
  | nil => trivial
  | cons e es ih =>
    intro t stepped
    obtain ⟨now, later⟩ := harmless t stepped
    refine ⟨?_, ih t later⟩
    have kept : ∀ turn, Kept (sink.Foreign s.volume) (s.volume.during turn) := fun _ =>
      ⟨fun _ _ h => h.2, fun _ _ h made => h.1 (Or.inr made)⟩
    have active : Free (sink.Foreign s.volume) sink.activePath := fun _ h => h.1 (Or.inl rfl)
    cases e with
    | outside files => trivial
    | line turn text =>
      cases Option.some.inj stepped
      exact ((FileSink.write_kept active (kept turn) now).ends rfl).present
    | task index turn =>
      obtain ⟨task, found, ran⟩ := task_step stepped
      obtain ⟨safe, free⟩ := now task found
      have advanced : Kept (sink.Foreign s.volume) ((advanceTask sink gzip turn task.path task.phase).run
          (s.volume.during turn)).2 :=
        (advance_kept active (kept turn) (fun name mem entry => free name mem entry) safe).ends rfl
      rw [ran] at advanced
      exact advanced.present

def quietTurn (now stamp : Int) : Turn := ⟨now, now, stamp, fun _ => 0, [], [], none⟩

/-- The sink of `app.log` with so many backups to keep and one byte for the active file. -/
def appSink (maxBackups : Nat) (compress : Bool) : FileSink :=
  ⟨js "app.log", js "app-", ⟨true, 1, maxBackups, 0, compress⟩, false⟩

/-- A directory with the log of `app` and the older one of another sink. -/
def sharedSystem : SinkSystem :=
  ⟨⟨((∅ : Directory).insert (js "app.log") ⟨true, [0x61], 10⟩).insert (js "app-web.log")
    ⟨true, [0x62], 5⟩, [], ⟨true, 1, 0⟩, [], [], [], []⟩, [], ⟨[], []⟩⟩

/-- With room for five backups the other log stays. -/
theorem neighbour_kept : (sinkMachine (appSink 5 false) id).Along (LeavesOthers (appSink 5 false))
    sharedSystem [.line (quietTurn 0 20) (js "x")] := by
  apply retention_leaves_others
  intro t _
  refine ⟨fun _ path w ran name entry _ _ danger => ?_, trivial⟩
  have three : (((appSink 5 false).moveActiveFile (quietTurn 0 20)).run
      (sharedSystem.volume.during (quietTurn 0 20))).2.files.entries.length = 3 := by decide
  rw [ran] at three
  rcases danger with ⟨aged, _⟩ | ⟨_, many⟩
  · exact absurd aged (by decide)
  · have := Nat.le_trans many List.countP_le_length
    rw [three] at this
    exact absurd this (by decide)

/-- With room for one, the first rotation removes it: its name begins as those of backups do. -/
theorem neighbour_removed :
    sinkNames id ⟨js "logs", js "app.log", ⟨none, none, none, none, none⟩, false⟩ =
      .ok ((appSink 1 false).activePath, (appSink 1 false).backupPrefix) ∧
    ¬(sinkMachine (appSink 1 false) id).Along (LeavesOthers (appSink 1 false)) sharedSystem
      [.line (quietTurn 0 20) (js "x")] := by
  refine ⟨by decide, fun along => ?_⟩
  have foreign : (appSink 1 false).Foreign sharedSystem.volume (js "app-web.log") ⟨true, [0x62], 5⟩ := by
    unfold FileSink.Foreign FileSink.Own
    decide
  have gone : (((appSink 1 false).write (quietTurn 0 20) (js "x")).run
      (sharedSystem.volume.during (quietTurn 0 20))).2.files.lookup (js "app-web.log") = none := by
    decide +kernel
  have there := (along _ rfl).1 _ _ foreign
  rw [gone] at there
  cases there

end ForgeDeno
