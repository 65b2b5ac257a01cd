import ForgeDeno.FileCalls

namespace ForgeDeno

open Program

def NextFree (d : Directory) (backupPrefix : JsString) (since : Nat) (path : JsString) : Prop :=
  ∃ time, since ≤ time ∧ backupName backupPrefix time = some path ∧ path ∉ d ∧
    ∀ t, since ≤ t → t < time → ∃ name, backupName backupPrefix t = some name ∧ name ∈ d

section calls

/-! Facts about the entries of the directory and the queue of compressions. -/

variable {D : List JsString → Directory → Prop} {E : Volume → Prop} {turn : Turn}

theorem files_call {α : Type} {f : Directory → Except JsString (α × Directory)} {R : α → List JsString → Directory → Prop}
    (done : ∀ queued d a d', D queued d → f d = .ok (a, d') → R a queued d') :
    Meets (fun v => D v.queued v.files) (fileCall f) (fun a v => R a v.queued v.files) (fun v => D v.queued v.files) :=
  meets_fileCall (fun _ _ h => h) fun v _ a files h called => done v.queued v.files a files h called

theorem otherCall_files : Meets (fun v => D v.queued v.files) otherCall (fun _ v => D v.queued v.files) (fun v => D v.queued v.files) :=
  files_call fun _ d _ d' h called => by
    cases called
    exact h

theorem statSync_files (path : JsString) :
    Meets (fun v => D v.queued v.files) (statSync path) (fun _ v => D v.queued v.files) (fun v => D v.queued v.files) := by
  refine files_call fun _ d entry d' h called => ?_
  split at called
  · cases called
    exact h
  · cases called

theorem openSync_files {D' : List JsString → Directory → Prop} (path : JsString) (there : ∀ queued d, D queued d → path ∈ d → D' queued d)
    (made : ∀ queued d, D queued d → path ∉ d → D' queued (d.insert path ⟨true, [], turn.stamp⟩)) :
    Meets (fun v => D v.queued v.files) (openSync turn path) (fun _ v => D' v.queued v.files) (fun v => D v.queued v.files) := by
  refine files_call (R := fun _ => D') fun queued d _ d' h called => ?_
  cases called
  by_cases mem : path ∈ d
  · rw [if_pos mem]
    exact there queued d h mem
  · rw [if_neg mem]
    exact made queued d h mem

theorem rename_files {D' : List JsString → Directory → Prop} {source target : JsString} (moved : ∀ queued d entry, D queued d →
    d.lookup source = some entry → D' queued ((d.erase source).insert target entry)) :
    Meets (fun v => D v.queued v.files) (rename source target) (fun _ v => D' v.queued v.files) (fun v => D v.queued v.files) := by
  refine files_call (R := fun _ => D') fun queued d _ d' h called => ?_
  cases found : d.lookup source with
  | none =>
    rw [found] at called
    cases called
  | some entry =>
    rw [found] at called
    cases called
    exact moved queued d entry h found

theorem remove_files {path : JsString} (erased : ∀ queued d, D queued d → D queued (d.erase path)) :
    Meets (fun v => D v.queued v.files) (remove path) (fun _ v => D v.queued v.files) (fun v => D v.queued v.files) := by
  refine files_call fun queued d _ d' h called => ?_
  split_ifs at called
  cases called
  exact erased queued d h

theorem reportFailure_files (operation error : JsString) :
    Meets (fun v => D v.queued v.files) (reportFailure operation error) (fun _ v => D v.queued v.files) E := by
  refine Meets.modify fun v h => ?_
  show D (if _ then v else _).queued (if _ then v else _).files
  split_ifs
  · exact h
  · exact h

theorem prepareActiveFile_files {D' : List JsString → Directory → Prop} (path : JsString) (there : ∀ queued d, D queued d → path ∈ d → D' queued d)
    (made : ∀ queued d, D queued d → path ∉ d → D' queued (d.insert path ⟨true, [], turn.stamp⟩)) :
    Meets (fun v => D v.queued v.files) (prepareActiveFile turn path) (fun _ v => D' v.queued v.files)
      (fun v => D v.queued v.files ∨ D' v.queued v.files) := by
  have early : ∀ {α : Type} {x : Io α} {Q : α → Volume → Prop},
      Meets (fun v => D v.queued v.files) x Q (fun v => D v.queued v.files) →
        Meets (fun v => D v.queued v.files) x Q (fun v => D v.queued v.files ∨ D' v.queued v.files) :=
    fun h => h.weaken (fun _ _ h => h) fun _ => .inl
  have late : Meets (fun v => D' v.queued v.files) otherCall (fun _ v => D' v.queued v.files) (fun v => D v.queued v.files ∨ D' v.queued v.files) :=
    otherCall_files.weaken (fun _ _ h => h) fun _ => .inr
  refine (early otherCall_files).bind fun _ => (early otherCall_files).bind fun _ => ?_
  exact (early (openSync_files path there made)).bind fun _ => late.bind fun _ => late

theorem probe_next {queued : List JsString} {d : Directory} {backupPrefix : JsString} {since : Nat} (rounds : Nat) :
    Meets (fun v => (v.queued = queued ∧ v.files = d) ∧ since ≤ v.state.lastRotationTime ∧ ∀ t, since ≤ t →
        t < v.state.lastRotationTime → ∃ name, backupName backupPrefix t = some name ∧ name ∈ d)
      (probe backupPrefix rounds)
      (fun path v => (v.queued = queued ∧ v.files = d) ∧ NextFree d backupPrefix since path)
      (fun v => v.queued = queued ∧ v.files = d) := by
  induction rounds with
  | zero => exact Meets.lift nofun fun _ h => h.1
  | succ rounds ih =>
    refine Meets.gets.bind fun time => ?_
    cases named : backupName backupPrefix time with
    | none => exact Meets.lift nofun fun _ h => h.2.1
    | some candidate =>
      have looks : Meets (fun v => time = v.state.lastRotationTime ∧ (v.queued = queued ∧ v.files = d) ∧
            since ≤ v.state.lastRotationTime ∧ ∀ t, since ≤ t → t < v.state.lastRotationTime →
              ∃ name, backupName backupPrefix t = some name ∧ name ∈ d)
          (lstatSync candidate) (fun taken v => (taken = decide (candidate ∈ d)) ∧
            time = v.state.lastRotationTime ∧ (v.queued = queued ∧ v.files = d) ∧
              since ≤ v.state.lastRotationTime ∧ ∀ t, since ≤ t → t < v.state.lastRotationTime →
                ∃ name, backupName backupPrefix t = some name ∧ name ∈ d)
          (fun v => v.queued = queued ∧ v.files = d) := by
        refine meets_fileCall (fun v faults h => h.2.1) fun v faults taken files h called => ?_
        cases called
        exact ⟨by rw [h.2.1.2], h⟩
      refine looks.bind fun taken => ?_
      cases taken with
      | true =>
        refine Meets.bind (Meets.modify fun v h => ?_) fun _ => ih
        obtain ⟨found, now, same, late, past⟩ := h
        refine ⟨same, Nat.le_succ_of_le late, fun t after before => ?_⟩
        change t < v.state.lastRotationTime + 1 at before
        by_cases last : t = v.state.lastRotationTime
        · rw [last, ← now]
          exact ⟨candidate, named, of_decide_eq_true found.symm⟩
        · exact past t after (by omega)
      | false =>
        refine Meets.pure fun v h => ?_
        obtain ⟨found, now, same, late, past⟩ := h
        exact ⟨same, time, now ▸ late, named, of_decide_eq_false found.symm, now ▸ past⟩

theorem nextBackupPath_next {v : Volume} (backupPrefix : JsString) :
    Meets (fun u => u = v) (nextBackupPath turn backupPrefix)
      (fun path w => (w.queued = v.queued ∧ w.files = v.files) ∧
        NextFree v.files backupPrefix (max turn.now (v.state.lastRotationTime + 1)).toNat path)
      (fun w => w.queued = v.queued ∧ w.files = v.files) := by
  refine Meets.bind (Q := fun _ w => (w.queued = v.queued ∧ w.files = v.files) ∧
    w.state.lastRotationTime = (max turn.now (v.state.lastRotationTime + 1)).toNat) ?_ fun _ => ?_
  · refine Meets.modify fun u same => ?_
    rw [same]
    exact ⟨⟨rfl, rfl⟩, rfl⟩
  · refine Meets.gets.bind fun rounds => (probe_next rounds).before fun w h => ?_
    obtain ⟨-, same, now⟩ := h
    exact ⟨same, now.ge, fun t after before => absurd before (by omega)⟩

end calls

namespace FileSink

variable {D : List JsString → Directory → Prop} {E : Volume → Prop} {turn : Turn} {sink : FileSink}

theorem removeBackup_files {path : JsString} (erased : ∀ queued d, D queued d → D queued (d.erase path)) :
    Meets (fun v => D v.queued v.files) (removeBackup path) (fun _ v => D v.queued v.files) E := by
  refine Meets.bind (remove_files erased).attempt fun r => ?_
  cases r with
  | ok _ =>
    refine Meets.before (P := fun v => D v.queued v.files) ?_ fun v h => h.1 () rfl
    refine Meets.bind (Q := fun _ v => D v.queued v.files) (Meets.modify fun v h => ?_) fun _ => Meets.pure fun _ h => h
    exact h
  | error e =>
    refine Meets.before (P := fun v => D v.queued v.files) ?_ fun v h => h.2 e rfl
    exact (reportFailure_files _ e).bind fun _ => Meets.pure fun _ h => h

theorem pruneExpired_files (erased : ∀ path queued d, D queued d → D queued (d.erase path)) {cutoff : Int}
    (backups left : List Backup) :
    Meets (fun v => D v.queued v.files) (pruneExpired cutoff backups left) (fun _ v => D v.queued v.files) E := by
  induction backups generalizing left with
  | nil => exact Meets.pure fun _ h => h
  | cons backup backups ih =>
    exact Meets.ite (fun _ => ih left) fun _ => (removeBackup_files (erased _)).bind fun _ => ih _

theorem removeBackups_files (erased : ∀ path queued d, D queued d → D queued (d.erase path)) (backups : List Backup) :
    Meets (fun v => D v.queued v.files) (removeBackups backups) (fun _ v => D v.queued v.files) E := by
  induction backups with
  | nil => exact Meets.pure fun _ h => h
  | cons backup backups ih => exact (removeBackup_files (erased _)).bind fun _ => ih

theorem statBackups_files (entries : List DirEntry) :
    Meets (fun v => D v.queued v.files) (sink.statBackups entries) (fun _ v => D v.queued v.files) (fun v => D v.queued v.files) := by
  induction entries with
  | nil => exact Meets.pure fun _ h => h
  | cons entry entries ih =>
    refine Meets.ite (fun _ => ?_) fun _ => ih
    exact (statSync_files entry.1).bind fun _ => ih.bind fun _ => Meets.pure fun _ h => h

theorem listBackups_files :
    Meets (fun v => D v.queued v.files) (sink.listBackups turn) (fun _ v => D v.queued v.files) (fun v => D v.queued v.files) := by
  refine Meets.bind (Q := fun _ v => D v.queued v.files) ?_ fun entries => statBackups_files entries
  refine files_call fun _ d entries d' h called => ?_
  cases called
  exact h

theorem pruneBackups_files (erased : ∀ path queued d, D queued d → D queued (d.erase path)) :
    Meets (fun v => D v.queued v.files) (sink.pruneBackups turn) (fun _ v => D v.queued v.files) E := by
  refine Meets.bind listBackups_files.attempt fun r => ?_
  cases r with
  | error e =>
    exact (reportFailure_files _ e).before fun v h => h.2 e rfl
  | ok backups =>
    refine Meets.before (P := fun v => D v.queued v.files) ?_ fun v h => h.1 backups rfl
    refine Meets.bind (Q := fun _ v => D v.queued v.files) ?_ fun left => ?_
    · exact Meets.ite (fun _ => pruneExpired_files erased backups backups) fun _ => Meets.pure fun _ h => h
    · exact Meets.ite (fun _ => Meets.pure fun _ h => h) fun _ => removeBackups_files erased _

end FileSink

end ForgeDeno
