import ForgeDeno.CalmVolumes

namespace ForgeDeno

open Program AList

def Holds (d : Directory) (name : JsString) (content : List UInt8) : Prop :=
  ∃ entry, d.lookup name = some entry ∧ entry.content = content

structure Stored (sink : FileSink) (backups : List (JsString × List UInt8)) (last : List UInt8)
    (d : Directory) : Prop where
  active : Holds d sink.activePath last
  older : ∀ backup ∈ backups, Holds d backup.1 backup.2
  apart : ∀ backup ∈ backups, backup.1 ≠ sink.activePath

theorem Holds.mem {d : Directory} {name : JsString} {content : List UInt8} (h : Holds d name content) :
    name ∈ d := by
  obtain ⟨entry, found, _⟩ := h
  exact lookup_isSome.mp (by rw [found]; rfl)

theorem Holds.of_ne {d d' : Directory} {name other : JsString} {content : List UInt8}
    (same : ∀ n, n ≠ other → d'.lookup n = d.lookup n) (ne : name ≠ other)
    (h : Holds d name content) : Holds d' name content := by
  obtain ⟨entry, found, eq⟩ := h
  exact ⟨entry, (same name ne).trans found, eq⟩

section stored

variable {sink : FileSink} {backups : List (JsString × List UInt8)} {last : List UInt8} {d : Directory}

theorem Stored.insert (h : Stored sink backups last d) {entry : FileEntry} {content : List UInt8}
    (holds : entry.content = content) : Stored sink backups content (d.insert sink.activePath entry) := by
  refine ⟨⟨entry, lookup_insert _, holds⟩, fun backup mem => ?_, h.apart⟩
  exact (h.older backup mem).of_ne (fun n ne => lookup_insert_ne ne) (h.apart backup mem)

theorem Stored.append (h : Stored sink backups last d) (turn : Turn) (bytes : List UInt8) :
    Stored sink backups (last ++ bytes) (append turn sink.activePath bytes d) := by
  obtain ⟨entry, found, holds⟩ := h.active
  have eq : ForgeDeno.append turn sink.activePath bytes d = d.insert sink.activePath
      { entry with content := entry.content ++ bytes, modified := turn.stamp } := by
    unfold ForgeDeno.append
    rw [found]
  rw [eq]
  exact h.insert (by rw [holds])

theorem Stored.move (h : Stored sink backups last d) {path : JsString} (free : path ∉ d)
    {moved entry : FileEntry} (found : d.lookup sink.activePath = some moved) (fresh : entry.content = []) :
    Stored sink (backups ++ [(path, last)]) []
      (((d.erase sink.activePath).insert path moved).insert sink.activePath entry) := by
  have ne : path ≠ sink.activePath := fun eq => free (eq ▸ h.active.mem)
  have holds : moved.content = last := by
    obtain ⟨there, found', holds⟩ := h.active
    cases found.symm.trans found'
    exact holds
  refine ⟨⟨entry, lookup_insert _, fresh⟩, fun backup mem => ?_, fun backup mem => ?_⟩
  · rcases List.mem_append.mp mem with old | new
    · have apart := h.apart backup old
      have taken : backup.1 ≠ path := fun eq => free (eq ▸ (h.older backup old).mem)
      have first : Holds (d.erase sink.activePath) backup.1 backup.2 :=
        (h.older backup old).of_ne (fun n ne => lookup_erase_ne ne) apart
      have second : Holds ((d.erase sink.activePath).insert path moved) backup.1 backup.2 :=
        first.of_ne (fun n ne => lookup_insert_ne ne) taken
      exact second.of_ne (fun n ne => lookup_insert_ne ne) apart
    · cases List.mem_singleton.mp new
      have first : Holds ((d.erase sink.activePath).insert path moved) path last :=
        ⟨moved, lookup_insert _, holds⟩
      exact first.of_ne (fun n ne => lookup_insert_ne ne) ne
  · rcases List.mem_append.mp mem with old | new
    · exact h.apart backup old
    · cases List.mem_singleton.mp new
      exact ne

end stored

section calls

variable {sink : FileSink} {state : FileSinkState} {rotated queued : List JsString}
  {backups : List (JsString × List UInt8)} {last : List UInt8} {turn : Turn} {E : Volume → Prop}

theorem openSync_stored : Meets (Calm state rotated queued (Stored sink backups last))
    (openSync turn sink.activePath) (fun _ => Calm state rotated queued (Stored sink backups last)) E := by
  refine calm_fileCall fun d h => ⟨(), d, ?_, h⟩
  rw [if_pos h.active.mem]

theorem appendBytes_stored (calm : Faultless turn) (bytes : List UInt8) :
    Meets (Calm state rotated queued (Stored sink backups last)) (appendBytes turn sink.activePath bytes)
      (fun _ => Calm state rotated queued (Stored sink backups (last ++ bytes))) (fun _ => False) := by
  refine openSync_stored.bind fun _ => ?_
  have loop : Meets (Calm state rotated queued (Stored sink backups last))
      (writeLoop turn sink.activePath turn.writes bytes)
      (fun _ => Calm state rotated queued (Stored sink backups (last ++ bytes))) (fun _ => False) := by
    refine writeLoop_meets (P := fun done => Calm state rotated queued (Stored sink backups done))
      (fun done bytes v h => ?_) turn.writes (fun e mem => ?_) last bytes
    · exact ⟨h.faults, h.state, h.rotated, h.queued, h.files.append turn bytes⟩
    · obtain ⟨count, eq⟩ := calm.2 _ mem
      cases eq
  exact loop.andFinally (fun _ => calm_otherCall) fun _ h => h.elim

end calls

structure KeepsAll (sink : FileSink) : Prop where
  backups : sink.rotation.maxBackups = 0
  age : sink.rotation.maxAge = 0
  compress : sink.rotation.compress = false

section rotation

variable {sink : FileSink} {state : FileSinkState} {rotated queued : List JsString}
  {backups : List (JsString × List UInt8)} {last : List UInt8} {turn : Turn}

theorem moveActiveFile_stored :
    Meets (Calm state rotated queued (Stored sink backups last)) (sink.moveActiveFile turn)
      (fun path v => ∃ time, state.lastRotationTime < time ∧ backupName sink.backupPrefix time = some path ∧
        Calm { state.at time with currentSize := 0 } (rotated ++ [path]) queued
          (Stored sink (backups ++ [(path, last)]) []) v)
      fun v => IsoTime.lastTime < v.state.lastRotationTime := by
  intro v calm
  have stored := calm.files
  generalize files : v.files = d at stored
  have fixed : Calm state rotated queued (fun d' => d' = d) v :=
    ⟨calm.faults, calm.state, calm.rotated, calm.queued, files⟩
  refine (moveActiveFile_moved.weaken (fun path w moved => ?_) fun w unmoved => ?_) v fixed
  · obtain ⟨time, entry, later, named, free, found, after⟩ := moved
    exact ⟨time, later, named, after.imp fun d' eq => eq ▸ stored.move free found rfl⟩
  · obtain ⟨time, _, after, late | absent⟩ := unmoved
    · rw [after.state]
      exact late
    · exact absurd stored.active.mem absent

theorem rotateActiveFile_stored (all : KeepsAll sink) :
    Meets (Calm state rotated queued (Stored sink backups last)) (sink.rotateActiveFile turn)
      (fun _ v => ∃ path time, state.lastRotationTime < time ∧ backupName sink.backupPrefix time = some path ∧
        Calm { state.at time with currentSize := 0 } (rotated ++ [path]) queued
          (Stored sink (backups ++ [(path, last)]) []) v)
      fun v => IsoTime.lastTime < v.state.lastRotationTime := by
  refine Meets.bind moveActiveFile_stored fun path => ?_
  rintro v ⟨time, later, named, calm⟩
  have fixed : Calm { state.at time with currentSize := 0 } (rotated ++ [path]) queued
      (fun d' => d' = v.files) v := ⟨calm.faults, calm.state, calm.rotated, calm.queued, rfl⟩
  refine Meets.bind (FileSink.pruneBackups_pruned all.age) (fun _ => ?_) v fixed
  rw [all.compress]
  refine Meets.pure fun w h => ⟨path, time, later, named, h.imp fun d' eq => ?_⟩
  have same : sink.pruned turn v.files = v.files := if_pos all.backups
  exact eq ▸ same.symm ▸ calm.files

end rotation

end ForgeDeno
