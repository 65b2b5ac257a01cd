import ForgeDeno.FileSink

namespace ForgeDeno

open Program List

def failing : List (Option JsString) → Bool
  | some _ :: _ => true
  | _ => false

/-- What a call of the file system leaves behind that does not fail on its own. -/
def settledCall {α : Type} (v : Volume) (faults : List (Option JsString)) :
    Except JsString (α × Directory) → Except JsString α × Volume
  | .ok (a, files) => (.ok a, { v with files, faults })
  | .error e => (.error e, { v with faults })

section calls

variable {α : Type} {P E : Volume → Prop} {Q : α → Volume → Prop}
  {f : Directory → Except JsString (α × Directory)}

theorem meets_call (failed : ∀ v faults, P v → (failing v.faults = true ∨ ∃ e, f v.files = .error e) →
      E { v with faults })
    (done : ∀ v faults a files, P v → failing v.faults = false → f v.files = .ok (a, files) →
      Q a { v with files, faults }) : Meets P (fileCall f) Q E := by
  apply Meets.act
  intro v hv
  have ran : failing v.faults = false → ∀ faults,
      (∀ a t, settledCall v faults (f v.files) = (.ok a, t) → Q a t) ∧
      ∀ e t, settledCall v faults (f v.files) = (.error e, t) → E t := by
    intro calm faults
    rcases called : f v.files with e | ⟨a, files⟩
    · refine ⟨nofun, fun e t eq => ?_⟩
      cases eq
      exact failed v faults hv (.inr ⟨_, called⟩)
    · refine ⟨fun a t eq => ?_, nofun⟩
      cases eq
      exact done v faults a files hv calm called
  rcases faults : v.faults with _ | ⟨_ | e, rest⟩
  · exact ran (by rw [faults]; rfl) [].tail
  · exact ran (by rw [faults]; rfl) rest
  · refine ⟨nofun, fun e t eq => ?_⟩
    cases eq
    exact failed v rest hv (.inl (by rw [faults]; rfl))

theorem meets_fileCall (failed : ∀ v faults, P v → E { v with faults })
    (done : ∀ v faults a files, P v → f v.files = .ok (a, files) → Q a { v with files, faults }) :
    Meets P (fileCall f) Q E :=
  meets_call (fun v faults hv _ => failed v faults hv) fun v faults a files hv _ called =>
    done v faults a files hv called

end calls

theorem writeLoop_meets {turn : Turn} {path : JsString} {P : List UInt8 → Volume → Prop}
    {E : Volume → Prop} (step : ∀ done bytes v, P done v →
      P (done ++ bytes) { v with files := append turn path bytes v.files })
    (writes : List (Except JsString Nat))
    (failed : ∀ e, .error e ∈ writes → ∀ done v, P done v → E v) (done bytes : List UInt8) :
    Meets (P done) (writeLoop turn path writes bytes) (fun _ => P (done ++ bytes)) E := by
  induction writes generalizing done bytes with
  | nil =>
    cases bytes with
    | nil => exact Meets.pure fun _ h => by rwa [append_nil]
    | cons byte bytes => exact Meets.modify fun v h => step done _ v h
  | cons answer writes ih =>
    cases bytes with
    | nil => exact Meets.pure fun _ h => by rwa [append_nil]
    | cons byte bytes =>
      cases answer with
      | error e =>
        exact Meets.lift nofun fun v h => failed e mem_cons_self done v h
      | ok count =>
        have rest := ih (fun e mem => failed e (mem_cons_of_mem _ mem))
          (done ++ (byte :: bytes).take (count + 1)) ((byte :: bytes).drop (count + 1))
        rw [append_assoc, take_append_drop] at rest
        exact Meets.bind (Meets.modify fun v h => step done _ v h) fun _ => rest

theorem appendBytes_meets {turn : Turn} {path : JsString} {I : Volume → Prop}
    (faults : ∀ v faults, I v → I { v with faults }) (opens : Meets I (openSync turn path) (fun _ => I) I)
    (writes : ∀ bytes v, I v → I { v with files := append turn path bytes v.files })
    (bytes : List UInt8) : Meets I (appendBytes turn path bytes) (fun _ => I) I := by
  have closes : Meets I otherCall (fun _ => I) I :=
    meets_fileCall (fun v left h => faults v left h) fun v left a files h called => by
      cases called
      exact faults v left h
  have loop : Meets I (writeLoop turn path turn.writes bytes) (fun _ => I) I :=
    writeLoop_meets (P := fun _ => I) (fun _ bytes v h => writes bytes v h) turn.writes
      (fun _ _ _ _ h => h) [] bytes
  exact opens.bind fun _ => loop.andFinally (fun _ => closes) closes

namespace FileSink

variable {sink : FileSink}

def Rotates (sink : FileSink) (v : Volume) (line : JsString) : Prop :=
  v.state.active = true ∧ sink.rotation.enable = true ∧ sink.full v.state.currentSize (record line) = true

theorem write_meets {turn : Turn} {line : JsString} {v : Volume} {I E : Volume → Prop} (start : I v)
    (rotation : sink.Rotates v line → Meets (fun u => u = v) (sink.rotateActiveFile turn) (fun _ => I) I)
    (appends : ∀ bytes, Meets I (appendBytes turn sink.activePath bytes) (fun _ => I) I)
    (states : ∀ w state, I w → state.lastRotationTime = w.state.lastRotationTime → I { w with state })
    (reports : ∀ w reportedFailures, I w → I { w with reportedFailures }) :
    Meets (fun u => u = v) (sink.write turn line) (fun _ => I) E := by
  refine Meets.bind (Q := fun _ => I) ?_ fun _ => Meets.pure fun _ h => h
  refine Meets.gets.bind fun on => ?_
  refine Meets.ite (fun isOn => ?_) fun _ => Meets.pure fun u h => h.2 ▸ start
  have writes : Meets (fun u => on = u.state.active ∧ u = v) (sink.writeRecord turn (record line))
      (fun _ => I) I := by
    refine Meets.gets.bind fun size => ?_
    refine Meets.bind (Q := fun _ => I) ?_ fun _ => ?_
    · refine Meets.ite (fun full => ?_) fun _ => Meets.pure fun u h => h.2.2 ▸ start
      rintro u ⟨sized, started, rfl⟩
      rw [Bool.and_eq_true] at full
      exact rotation ⟨started ▸ isOn, full.1, sized ▸ full.2⟩ u rfl
    · exact (appends _).bind fun _ => Meets.modify fun w h => states w _ h rfl
  refine Meets.bind writes.attempt fun r => ?_
  cases r with
  | ok _ => exact Meets.pure fun _ h => h.1 () rfl
  | error e =>
    refine Meets.bind (Q := fun _ => I) (Meets.modify fun w h => states w _ (h.2 e rfl) rfl) fun _ => ?_
    refine Meets.bind (Q := fun _ => I) (Meets.modify fun w h => ?_) fun _ => Meets.pure fun _ h => h
    show I (if _ then w else _)
    split_ifs
    · exact h
    · exact reports w _ h

/-- What `listBackups` makes of an entry. -/
def backupOf (entry : DirEntry) : Backup := ⟨entry.1, entry.2.modified⟩

def Found (sink : FileSink) (files : Directory) (backups : List Backup) : Prop :=
  ∃ entries : List DirEntry, entries.Perm files.entries ∧ backups = (entries.filter sink.listed).map backupOf

def listing (sink : FileSink) (turn : Turn) (files : Directory) : List Backup :=
  ((files.entries.insertionSort fun a b => turn.rank a.1 ≤ turn.rank b.1).filter sink.listed).map backupOf

theorem listing_found (turn : Turn) (files : Directory) :
    sink.Found files (sink.listing turn files) := ⟨_, perm_insertionSort _ _, rfl⟩

theorem statBackups_found {P E : Volume → Prop} (entries : List DirEntry) (stat : ∀ entry ∈ entries,
      Meets P (statSync entry.1) (fun info v => P v ∧ info = entry.2) E) : Meets P (sink.statBackups entries)
      (fun backups v => P v ∧ backups = (entries.filter sink.listed).map backupOf) E := by
  induction entries with
  | nil => exact Meets.pure fun _ h => ⟨h, rfl⟩
  | cons entry entries ih =>
    have rest := ih fun other mem => stat other (mem_cons_of_mem _ mem)
    refine Meets.ite (fun taken => ?_) fun left => ?_
    · refine (stat entry mem_cons_self).bind fun info => Meets.known fun same => ?_
      refine rest.bind fun backups => Meets.pure fun v h => ⟨h.1, ?_⟩
      rw [filter_cons_of_pos taken, map_cons, ← h.2, same]
      rfl
    · rw [filter_cons_of_neg left]
      exact rest

theorem Found.entry {files : Directory} {backups : List Backup} (found : sink.Found files backups)
    {backup : Backup} (mem : backup ∈ backups) :
    ∃ entry, files.lookup backup.path = some entry ∧ sink.listed ⟨backup.path, entry⟩ = true ∧
      backup.modified = entry.modified := by
  obtain ⟨entries, perm, rfl⟩ := found
  obtain ⟨entry, inside, rfl⟩ := mem_map.mp mem
  obtain ⟨there, taken⟩ := mem_filter.mp inside
  exact ⟨entry.2, AList.mem_lookup_iff.mpr (perm.mem_iff.mp there), taken, rfl⟩

theorem Found.nodup {files : Directory} {backups : List Backup} (found : sink.Found files backups) :
    (backups.map Backup.path).Nodup := by
  obtain ⟨entries, perm, rfl⟩ := found
  have keys : (entries.map Sigma.fst).Nodup := (perm.map Sigma.fst).nodup_iff.mpr files.keys_nodup
  rw [map_map]
  exact keys.sublist (filter_sublist.map Sigma.fst)

end FileSink

end ForgeDeno
