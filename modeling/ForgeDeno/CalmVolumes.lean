import ForgeDeno.BackupNames
import ForgeDeno.FileCalls

namespace ForgeDeno

open Program AList

/-- Nothing fails in the turn, though a line may be written piece by piece. -/
def Faultless (turn : Turn) : Prop :=
  turn.faults = [] ∧ ∀ answer ∈ turn.writes, ∃ count, answer = .ok count

/-- A volume on which no call fails, with the state of the sink, its backups so far and what holds of
the directory. -/
structure Calm (state : FileSinkState) (rotated queued : List JsString) (D : Directory → Prop)
    (v : Volume) : Prop where
  faults : v.faults = []
  state : v.state = state
  rotated : v.rotated = rotated
  queued : v.queued = queued
  files : D v.files

section calm

variable {state : FileSinkState} {rotated queued : List JsString} {D D' : Directory → Prop}
  {α : Type} {E : Volume → Prop}

theorem Calm.imp {v : Volume} (h : Calm state rotated queued D v) (imp : ∀ d, D d → D' d) :
    Calm state rotated queued D' v := ⟨h.faults, h.state, h.rotated, h.queued, imp _ h.files⟩

theorem calm_call {f : Directory → Except JsString (α × Directory)} {R : α → Directory → Prop}
    {S : Directory → Prop} (returned : ∀ d a d', D d → f d = .ok (a, d') → R a d')
    (thrown : ∀ d e, D d → f d = .error e → S d) :
    Meets (Calm state rotated queued D) (fileCall f) (fun a => Calm state rotated queued (R a))
      (Calm state rotated queued S) := by
  apply Meets.act
  intro v hv
  rw [hv.faults]
  rcases called : f v.files with e | ⟨a, d⟩
  · refine ⟨nofun, fun e' w eq => ?_⟩
    cases eq
    exact ⟨rfl, hv.state, hv.rotated, hv.queued, thrown _ _ hv.files called⟩
  · refine ⟨fun b w eq => ?_, nofun⟩
    cases eq
    exact ⟨rfl, hv.state, hv.rotated, hv.queued, returned _ _ _ hv.files called⟩

theorem calm_fileCall {f : Directory → Except JsString (α × Directory)} {R : α → Directory → Prop}
    (h : ∀ d, D d → ∃ a d', f d = .ok (a, d') ∧ R a d') :
    Meets (Calm state rotated queued D) (fileCall f) (fun a => Calm state rotated queued (R a)) E := by
  refine (calm_call (S := fun _ => False) (fun d b d'' hd eq => ?_) fun d e hd eq => ?_).weaken
    (fun _ _ h => h) fun v h => h.files.elim
  · obtain ⟨a, d', called, after⟩ := h d hd
    cases called.symm.trans eq
    exact after
  · obtain ⟨a, d', called, _⟩ := h d hd
    cases called.symm.trans eq

theorem calm_otherCall : Meets (Calm state rotated queued D) otherCall (fun _ => Calm state rotated queued D) E :=
  calm_fileCall fun d h => ⟨(), d, rfl, h⟩

theorem calm_gets {f : Volume → α} {a : α} (h : ∀ v, Calm state rotated queued D v → f v = a) :
    Meets (Calm state rotated queued D) (gets f : Io α)
      (fun answer v => Calm state rotated queued D v ∧ answer = a) E :=
  Meets.gets.weaken (fun _ v hv => ⟨hv.2, hv.1.trans (h v hv.2)⟩) fun _ h => h

theorem calm_setState (f : FileSinkState → FileSinkState) (state' : FileSinkState) (same : f state = state') :
    Meets (Calm state rotated queued D) (modify fun v => { v with state := f v.state } : Io Unit)
      (fun _ => Calm state' rotated queued D) E :=
  Meets.modify fun v h =>
    ⟨h.faults, by show f v.state = state'; rw [h.state, same], h.rotated, h.queued, h.files⟩

end calm

def FileSinkState.at (state : FileSinkState) (time : Nat) : FileSinkState :=
  { state with lastRotationTime := time }

section naming

variable {state : FileSinkState} {rotated queued : List JsString} {d : Directory} {backupPrefix : JsString}

def Named (backupPrefix : JsString) (state : FileSinkState) (rotated queued : List JsString)
    (d : Directory) (since : Nat) (path : JsString) (v : Volume) : Prop :=
  ∃ time, since ≤ time ∧ backupName backupPrefix time = some path ∧ path ∉ d ∧
    Calm (state.at time) rotated queued (fun d' => d' = d) v

def Late (state : FileSinkState) (rotated queued : List JsString) (d : Directory) (since : Nat)
    (v : Volume) : Prop :=
  ∃ time, since ≤ time ∧ IsoTime.lastTime < time ∧ Calm (state.at time) rotated queued (fun d' => d' = d) v

theorem probe_named (rounds time : Nat) (free : ∃ k < rounds, ∀ name,
    backupName backupPrefix (time + k) = some name → name ∉ d) :
    Meets (Calm (state.at time) rotated queued fun d' => d' = d) (probe backupPrefix rounds)
      (Named backupPrefix state rotated queued d time) (Late state rotated queued d time) := by
  induction rounds generalizing time with
  | zero =>
    obtain ⟨k, bound, _⟩ := free
    exact absurd bound (Nat.not_lt_zero k)
  | succ rounds ih =>
    obtain ⟨k, bound, free⟩ := free
    refine Meets.bind (calm_gets (a := time) fun v h => by rw [h.state]; rfl) fun now =>
      Meets.known fun eq => ?_
    cases eq
    rcases named : backupName backupPrefix time with _ | candidate
    · refine Meets.lift nofun fun v h => ⟨time, Nat.le_refl _, ?_, h⟩
      have late := backupName_none named
      unfold IsoTime.maxTime at late
      unfold IsoTime.lastTime
      omega
    · have looks : Meets (Calm (state.at time) rotated queued fun d' => d' = d) (lstatSync candidate)
          (fun taken v => Calm (state.at time) rotated queued (fun d' => d' = d) v ∧
            taken = decide (candidate ∈ d)) (Late state rotated queued d time) := by
        refine (calm_fileCall (R := fun taken d' => d' = d ∧ taken = decide (candidate ∈ d))
          fun d' eq => ⟨_, d', rfl, eq, eq ▸ rfl⟩).weaken (fun taken v h => ?_) fun _ h => h
        exact ⟨h.imp fun _ h => h.1, h.files.2⟩
      refine looks.bind fun taken => Meets.known fun found => ?_
      by_cases there : candidate ∈ d
      · rw [found, decide_eq_true there]
        have later : k ≠ 0 := fun zero => free candidate (zero ▸ named) there
        refine Meets.bind (calm_setState (fun st => { st with lastRotationTime := st.lastRotationTime + 1 })
          (state.at (time + 1)) rfl) fun _ => ?_
        refine (ih (time + 1) ⟨k - 1, by omega, ?_⟩).weaken (fun path v h => ?_) fun v h => ?_
        · have shifted : time + 1 + (k - 1) = time + k := by omega
          rw [shifted]
          exact free
        · obtain ⟨later, since, rest⟩ := h
          exact ⟨later, by omega, rest⟩
        · obtain ⟨later, since, rest⟩ := h
          exact ⟨later, by omega, rest⟩
      · rw [found, decide_eq_false there]
        exact Meets.pure fun v h => ⟨time, Nat.le_refl _, named, there, h⟩

theorem nextBackupPath_named (turn : Turn) :
    Meets (Calm state rotated queued fun d' => d' = d) (nextBackupPath turn backupPrefix)
      (Named backupPrefix state rotated queued d (state.lastRotationTime + 1))
      (Late state rotated queued d (state.lastRotationTime + 1)) := by
  have next : state.lastRotationTime + 1 ≤ (max turn.now (state.lastRotationTime + 1)).toNat := by
    omega
  refine Meets.bind (calm_setState (fun st => { st with
    lastRotationTime := (max turn.now (st.lastRotationTime + 1)).toNat })
    (state.at (max turn.now (state.lastRotationTime + 1)).toNat) rfl) fun _ => ?_
  refine Meets.bind (calm_gets (a := d.entries.length + 1) fun v h => by rw [h.files]) fun rounds =>
    Meets.known fun eq => ?_
  cases eq
  refine (probe_named _ _ (exists_free d backupPrefix _)).weaken (fun path v h => ?_) fun v h => ?_
  · obtain ⟨time, since, rest⟩ := h
    exact ⟨time, Nat.le_trans next since, rest⟩
  · obtain ⟨time, since, rest⟩ := h
    exact ⟨time, Nat.le_trans next since, rest⟩

end naming

section rotation

variable {sink : FileSink} {state : FileSinkState} {rotated queued : List JsString}
  {D : Directory → Prop} {d : Directory} {turn : Turn}

def FileSink.moved (sink : FileSink) (turn : Turn) (d : Directory) (path : JsString)
    (entry : FileEntry) : Directory :=
  ((d.erase sink.activePath).insert path entry).insert sink.activePath ⟨true, [], turn.stamp⟩

/-- The active file could not be moved: its backup would be one past the year 9999, or it is not
there. -/
def Unmoved (sink : FileSink) (state : FileSinkState) (rotated queued : List JsString) (d : Directory)
    (v : Volume) : Prop :=
  ∃ time, state.lastRotationTime < time ∧ Calm (state.at time) rotated queued (fun d' => d' = d) v ∧
    (IsoTime.lastTime < time ∨ sink.activePath ∉ d)

theorem moveActiveFile_moved : Meets (Calm state rotated queued fun d' => d' = d) (sink.moveActiveFile turn)
      (fun path v => ∃ time entry, state.lastRotationTime < time ∧
        backupName sink.backupPrefix time = some path ∧ path ∉ d ∧ d.lookup sink.activePath = some entry ∧
        Calm { state.at time with currentSize := 0 } (rotated ++ [path]) queued
          (fun d' => d' = sink.moved turn d path entry) v)
      (Unmoved sink state rotated queued d) := by
  have late : ∀ v, Late state rotated queued d (state.lastRotationTime + 1) v →
      Unmoved sink state rotated queued d v := by
    rintro v ⟨time, since, past, calm⟩
    exact ⟨time, since, calm, .inl past⟩
  refine Meets.bind ((nextBackupPath_named turn).weaken (fun _ _ h => h) late) fun path => ?_
  rintro v ⟨time, since, named, free, calm⟩
  have renames : Meets (Calm (state.at time) rotated queued fun d' => d' = d)
      (rename sink.activePath path)
      (fun _ => Calm (state.at time) rotated queued fun d' => ∃ entry,
        d.lookup sink.activePath = some entry ∧ d' = (d.erase sink.activePath).insert path entry)
      (Unmoved sink state rotated queued d) := by
    refine (calm_call (S := fun d' => d' = d ∧ sink.activePath ∉ d) (fun d' a after eq called => ?_)
      fun d' e eq called => ?_).weaken (fun _ _ h => h) fun w h => ?_
    · rw [eq] at called
      rcases found : d.lookup sink.activePath with _ | entry
      · rw [found] at called
        cases called
      · rw [found] at called
        cases called
        exact ⟨entry, rfl, rfl⟩
    · rw [eq] at called
      rcases found : d.lookup sink.activePath with _ | entry
      · exact ⟨eq, lookup_eq_none.mp found⟩
      · rw [found] at called
        cases called
    · exact ⟨time, since, h.imp fun _ h => h.1, .inr h.files.2⟩
  refine Meets.bind renames (fun _ => ?_) v calm
  intro u renamed
  obtain ⟨entry, found, files⟩ := renamed.files
  have ne : path ≠ sink.activePath := fun eq => free (eq ▸ lookup_isSome.mp (by rw [found]; rfl))
  have opens : Meets (Calm (state.at time) (rotated ++ [path]) queued
        fun d' => d' = (d.erase sink.activePath).insert path entry) (openSync turn sink.activePath)
      (fun _ => Calm (state.at time) (rotated ++ [path]) queued fun d' => d' = sink.moved turn d path entry)
      (Unmoved sink state rotated queued d) := by
    refine calm_fileCall fun d' eq => ⟨(), _, rfl, ?_⟩
    have absent : sink.activePath ∉ d' := by
      rw [eq, mem_insert, mem_erase]
      exact fun mem => mem.elim (fun same => ne same.symm) fun h => h.1 rfl
    rw [if_neg absent, eq]
    rfl
  have fixed : Calm (state.at time) rotated queued
      (fun d' => d' = (d.erase sink.activePath).insert path entry) u :=
    ⟨renamed.faults, renamed.state, renamed.rotated, renamed.queued, files⟩
  refine Meets.bind (Q := fun _ => Calm (state.at time) (rotated ++ [path]) queued
    fun d' => d' = (d.erase sink.activePath).insert path entry) (Meets.modify fun w h => ?_)
    (fun _ => ?_) u fixed
  · exact ⟨h.faults, h.state, by rw [← h.rotated], h.queued, h.files⟩
  refine Meets.bind (calm_otherCall.bind fun _ => calm_otherCall.bind fun _ => opens.bind fun _ =>
    calm_otherCall.bind fun _ => calm_otherCall) fun _ => ?_
  refine Meets.bind (calm_setState (fun st => { st with currentSize := 0 }) _ rfl) fun _ => ?_
  exact Meets.pure fun w h => ⟨time, entry, since, named, free, found, h⟩

end rotation

namespace FileSink

variable {sink : FileSink} {state : FileSinkState} {rotated queued : List JsString} {d : Directory}
  {turn : Turn} {E : Volume → Prop}

theorem listBackups_listing : Meets (Calm state rotated queued fun d' => d' = d) (sink.listBackups turn)
      (fun backups v => Calm state rotated queued (fun d' => d' = d) v ∧ backups = sink.listing turn d) E := by
  let entries := d.entries.insertionSort fun a b : DirEntry => turn.rank a.1 ≤ turn.rank b.1
  have reads : Meets (Calm state rotated queued fun d' => d' = d) (readDirSync turn)
      (fun found v => Calm state rotated queued (fun d' => d' = d) v ∧ found = entries) E := by
    refine (calm_fileCall (R := fun found d' => d' = d ∧ found = entries) fun d' eq =>
      ⟨_, d', rfl, eq, eq ▸ rfl⟩).weaken (fun found v h => ?_) fun _ h => h
    exact ⟨h.imp fun _ h => h.1, h.files.2⟩
  refine reads.bind fun found => Meets.known fun eq => ?_
  cases eq
  refine statBackups_found entries fun entry mem => ?_
  have there : d.lookup entry.1 = some entry.2 :=
    mem_lookup_iff.mpr ((List.perm_insertionSort _ _).mem_iff.mp mem)
  refine (calm_fileCall (R := fun info d' => d' = d ∧ info = entry.2) fun d' eq =>
    ⟨entry.2, d', by rw [eq, there], eq, rfl⟩).weaken (fun info v h => ?_) fun _ h => h
  exact ⟨h.imp fun _ h => h.1, h.files.2⟩

def without (d : Directory) (paths : List JsString) : Directory := paths.foldl (fun d path => d.erase path) d

theorem removeBackups_without (backups : List Backup) (there : ∀ backup ∈ backups, backup.path ∈ d)
    (apart : (backups.map Backup.path).Nodup) :
    Meets (Calm state rotated queued fun d' => d' = d) (removeBackups backups)
      (fun _ => Calm state rotated queued fun d' => d' = without d (backups.map Backup.path)) E := by
  induction backups generalizing d with
  | nil => exact Meets.pure fun _ h => h
  | cons backup backups ih =>
    obtain ⟨absent, apart⟩ := List.nodup_cons.mp apart
    have removes : Meets (Calm state rotated queued fun d' => d' = d) (remove backup.path)
        (fun _ => Calm state rotated queued fun d' => d' = d.erase backup.path) fun _ => False := by
      refine calm_fileCall fun d' eq => ⟨(), d.erase backup.path, ?_, rfl⟩
      rw [eq, if_pos (there backup List.mem_cons_self)]
    refine Meets.bind (Q := fun _ => Calm state rotated queued fun d' => d' = d.erase backup.path) ?_ fun _ => ?_
    · refine Meets.bind removes.attempt fun r => ?_
      cases r with
      | ok _ =>
        refine Meets.bind (Q := fun _ => Calm state rotated queued fun d' => d' = d.erase backup.path)
          (Meets.modify fun v h => ?_) fun _ => Meets.pure fun _ h => h
        obtain ⟨faults, state, rotated, queued, files⟩ := h.1 () rfl
        exact ⟨faults, state, rotated, queued, files⟩
      | error e => exact fun v h => (h.2 e rfl).elim
    · refine ih (fun other mem => ?_) apart
      have ne : other.path ≠ backup.path := fun eq => absent (eq ▸ List.mem_map_of_mem mem)
      exact mem_erase.mpr ⟨ne, there other (List.mem_cons_of_mem _ mem)⟩

def pruned (sink : FileSink) (turn : Turn) (d : Directory) : Directory :=
  if sink.rotation.maxBackups = 0 then d
  else without d (((newestFirst (sink.listing turn d)).drop sink.rotation.maxBackups).map Backup.path)

theorem pruneBackups_pruned (ageless : sink.rotation.maxAge = 0) :
    Meets (Calm state rotated queued fun d' => d' = d) (sink.pruneBackups turn)
      (fun _ => Calm state rotated queued fun d' => d' = sink.pruned turn d) E := by
  refine Meets.bind (listBackups_listing (E := fun _ => False)).attempt fun r => ?_
  cases r with
  | error e => exact fun v h => (h.2 e rfl).elim
  | ok backups =>
    have young : sink.pruneAged turn backups = pure backups := by
      unfold pruneAged
      rw [ageless]
      rfl
    refine Meets.before (P := fun v => Calm state rotated queued (fun d' => d' = d) v ∧
      backups = sink.listing turn d) ?_ fun v h => h.1 backups rfl
    refine Meets.known fun eq => ?_
    show Meets _ (sink.pruneAged turn backups >>= _) _ _
    rw [young]
    refine Meets.bind (Q := fun left v => Calm state rotated queued (fun d' => d' = d) v ∧
      left = sink.listing turn d) (Meets.pure fun v h => ⟨h, eq⟩) fun left => Meets.known fun eq => ?_
    cases eq
    unfold pruned
    refine Meets.ite (fun few => Meets.pure fun v h => h.imp fun d' eq => ?_) fun many => ?_
    · split_ifs with unlimited
      · exact eq
      · have short := few.resolve_left unlimited
        have same : (newestFirst (sink.listing turn d)).length = (sink.listing turn d).length :=
          List.length_insertionSort _ _
        rw [List.drop_eq_nil_of_le (by omega)]
        exact eq
    · rw [if_neg fun unlimited => many (.inl unlimited)]
      have perm : (newestFirst (sink.listing turn d)).Perm (sink.listing turn d) :=
        List.perm_insertionSort _ _
      refine removeBackups_without _ (fun backup mem => ?_) ?_
      · obtain ⟨entry, found, _⟩ :=
          (sink.listing_found turn d).entry (perm.subset (List.mem_of_mem_drop mem))
        exact lookup_isSome.mp (by rw [found]; rfl)
      · have names := (perm.map Backup.path).nodup_iff.mpr (sink.listing_found turn d).nodup
        exact names.sublist ((List.drop_sublist _ _).map _)

end FileSink

end ForgeDeno
