import ForgeDeno.IsoTime
import ForgeDeno.JsNumber
import ForgeDeno.LabelledMachine
import ForgeDeno.ProgramRules
import Mathlib.Data.List.AList
import Mathlib.Data.List.Sort

namespace ForgeDeno

open Program

/-- An entry of the log directory. What an operation does to one that is no regular file is left to
the faults of a turn. -/
structure FileEntry where
  isFile : Bool
  content : List UInt8
  /-- `info.mtime?.getTime() ?? info.birthtime?.getTime() ?? 0` -/
  modified : Int
deriving DecidableEq

abbrev Directory : Type := AList fun _ : JsString => FileEntry

abbrev DirEntry : Type := Sigma fun _ : JsString => FileEntry

structure RotateOptions where
  enable : Option Bool
  maxSize : Option JsNumber
  maxBackups : Option JsNumber
  maxAge : Option JsNumber
  compress : Option Bool

structure FileSinkOptions where
  dir : JsString
  fileName : JsString
  rotate : RotateOptions
  /-- whether there is an additional destination -/
  tee : Bool

structure ResolvedRotation where
  enable : Bool
  maxSizeBytes : JsNumber
  maxBackups : Nat
  maxAge : Nat
  compress : Bool

def DEFAULT_MAX_SIZE_MB : JsNumber := 10

def DEFAULT_MAX_BACKUPS : Nat := 5

def DEFAULT_MAX_AGE_DAYS : Nat := 30

def MILLIS_PER_DAY : Int := 24 * 60 * 60 * 1000

def nonNegativeInteger : Option JsNumber → Nat → Nat
  | some (.finite x), fallback => if 0 ≤ x.toRat then ⌊x.toRat⌋.toNat else fallback
  | _, fallback => fallback

def resolveRotation (options : RotateOptions) : ResolvedRotation :=
  let maxSize := match options.maxSize with
    | some maxSize => if maxSize.isFinite && JsNumber.lt 0 maxSize then maxSize else DEFAULT_MAX_SIZE_MB
    | none => DEFAULT_MAX_SIZE_MB
  { enable := options.enable.getD false
    maxSizeBytes := JsNumber.max 1 ((maxSize.shift 10).shift 10).floor
    maxBackups := nonNegativeInteger options.maxBackups DEFAULT_MAX_BACKUPS
    maxAge := nonNegativeInteger options.maxAge DEFAULT_MAX_AGE_DAYS
    compress := options.compress.getD false }

def normalizeFileName (fileName : JsString) : Except JsString JsString :=
  let normalized := fileName.trim
  if normalized = [] ∨ normalized = js "." ∨ normalized = js ".." ∨ 0x2F ∈ normalized ∨
      0x5C ∈ normalized then
    .error (js "fileName must be a file name inside dir")
  else .ok normalized

/-- `toLowerCase` is the host's `String.prototype.toLowerCase`. -/
def stripLogExtension (toLowerCase : JsString → JsString) (fileName : JsString) : JsString :=
  if js ".log" <:+ toLowerCase fileName then fileName.take (fileName.length - 4) else fileName

structure FileSinkState where
  active : Bool
  currentSize : Nat
  lastRotationTime : Nat
deriving DecidableEq

structure Turn where
  /-- `Date.now()` when a backup gets its name -/
  now : Int
  /-- `Date.now()` when the age of backups is taken -/
  pruneNow : Int
  /-- the time that the file system gives to what is written -/
  stamp : Int
  /-- the order of a directory listing -/
  rank : JsString → Nat
  /-- which of the next calls of the file system fail, and with which message -/
  faults : List (Option JsString)
  /-- the answers of `writeSync`, each the count of written bytes less one, or a failure; after them
  it writes all it is given -/
  writes : List (Except JsString Nat)
  /-- what a failing `writeFile` leaves in its file, if it has opened it -/
  rest : Option (List UInt8)

structure Volume where
  files : Directory
  /-- the calls of the file system that are still to fail in this turn -/
  faults : List (Option JsString)
  state : FileSinkState
  reportedFailures : List JsString
  /-- the backups whose compression has been queued in this turn -/
  queued : List JsString
  /-- history: every backup made so far, oldest first -/
  rotated : List JsString
  /-- history: the names of the present files that are backups of the active file, or made of them -/
  produced : List JsString

/-- The lines that the tee and `console.log` have been given. -/
structure Outputs where
  teed : List JsString
  printed : List JsString
deriving DecidableEq

def Outputs.add (outputs : Outputs) : Except JsString Outputs → Outputs
  | .ok given => ⟨outputs.teed ++ given.teed, outputs.printed ++ given.printed⟩
  | .error _ => outputs

abbrev Io (α : Type) : Type := Program Volume JsString α

def notFound : JsString := js "No such file or directory (os error 2)"

def fileCall {α : Type} (f : Directory → Except JsString (α × Directory)) : Io α := .act fun v =>
  match v.faults with
  | some e :: rest => (.error e, { v with faults := rest })
  | faults =>
    match f v.files with
    | .ok (a, files) => (.ok a, { v with files, faults := faults.tail })
    | .error e => (.error e, { v with faults := faults.tail })

/-- A call that leaves the directory's entries as they are, such as `mkdir`, `chmod` and `close`. -/
def otherCall : Io Unit := fileCall fun files => .ok ((), files)

def openSync (turn : Turn) (path : JsString) : Io Unit := fileCall fun files =>
  .ok ((), if path ∈ files then files else files.insert path ⟨true, [], turn.stamp⟩)

def statSync (path : JsString) : Io FileEntry := fileCall fun files =>
  match files.lookup path with
  | some entry => .ok (entry, files)
  | none => .error notFound

def lstatSync (path : JsString) : Io Bool := fileCall fun files => .ok (decide (path ∈ files), files)

def rename (source target : JsString) : Io Unit := fileCall fun files =>
  match files.lookup source with
  | some entry => .ok ((), (files.erase source).insert target entry)
  | none => .error notFound

def remove (path : JsString) : Io Unit := fileCall fun files =>
  if path ∈ files then .ok ((), files.erase path) else .error notFound

/-- `readDirSync`, in an order of the host's. -/
def readDirSync (turn : Turn) : Io (List DirEntry) :=
  fileCall fun files =>
    .ok (files.entries.insertionSort fun a b => turn.rank a.1 ≤ turn.rank b.1, files)

def append (turn : Turn) (path : JsString) (bytes : List UInt8) (files : Directory) : Directory :=
  match files.lookup path with
  | some entry =>
    files.insert path { entry with content := entry.content ++ bytes, modified := turn.stamp }
  | none => files

def prepareActiveFile (turn : Turn) (activePath : JsString) : Io Unit := do
  otherCall
  otherCall
  openSync turn activePath
  otherCall
  otherCall

def writeLoop (turn : Turn) (path : JsString) : List (Except JsString Nat) → List UInt8 → Io Unit
  | _, [] => pure ()
  | [], bytes => modify fun v => { v with files := append turn path bytes v.files }
  | .error e :: _, _ => Program.lift (.error e)
  | .ok count :: writes, bytes => do
    modify fun v => { v with files := append turn path (bytes.take (count + 1)) v.files }
    writeLoop turn path writes (bytes.drop (count + 1))

def appendBytes (turn : Turn) (path : JsString) (bytes : List UInt8) : Io Unit := do
  openSync turn path
  (writeLoop turn path turn.writes bytes).andFinally otherCall

def reportFailure (operation error : JsString) : Io Unit := modify fun v =>
  let message := js "[denoforge/logger] " ++ operation ++ js ": " ++ error
  if message ∈ v.reportedFailures then v
  else { v with reportedFailures := v.reportedFailures ++ [message] }

/-- `toISOString` without its `Z` and with dashes for its colons. -/
def fileTimestamp (t : Nat) : Option JsString :=
  (IsoTime.toISOString t).map fun text =>
    (text.erase 0x5A).map fun u => if u = 0x3A then 0x2D else u

def backupName (backupPrefix : JsString) (t : Nat) : Option JsString :=
  (fileTimestamp t).map fun timestamp => backupPrefix ++ timestamp ++ js ".log"

/-- The loop of `nextBackupPath`, which is over after as many rounds as the directory has entries, and
one more. -/
def probe (backupPrefix : JsString) : Nat → Io JsString
  | 0 => Program.lift (.error [])
  | rounds + 1 => do
    let time ← gets fun v => v.state.lastRotationTime
    match backupName backupPrefix time with
    | none => Program.lift (.error (js "Invalid time value"))
    | some candidate => do
      let taken ← lstatSync candidate
      if taken then
        modify fun v => { v with state := { v.state with lastRotationTime := v.state.lastRotationTime + 1 } }
        probe backupPrefix rounds
      else pure candidate

def nextBackupPath (turn : Turn) (backupPrefix : JsString) : Io JsString := do
  modify fun v => { v with
    state := { v.state with lastRotationTime := (max turn.now (v.state.lastRotationTime + 1)).toNat } }
  let rounds ← gets fun v => v.files.entries.length + 1
  probe backupPrefix rounds

structure Backup where
  path : JsString
  modified : Int

/-- A file that `newFileSink` has opened. -/
structure FileSink where
  activePath : JsString
  backupPrefix : JsString
  rotation : ResolvedRotation
  tee : Bool

namespace FileSink

variable (sink : FileSink)

def isBackupName (name : JsString) : Bool :=
  sink.backupPrefix.isPrefixOf name && ((js ".log").isSuffixOf name || (js ".log.gz").isSuffixOf name)

/-- The entries that `listBackups` takes for backups. -/
def listed (entry : DirEntry) : Bool :=
  entry.2.isFile && sink.isBackupName entry.1

def statBackups : List DirEntry → Io (List Backup)
  | [] => pure []
  | entry :: entries =>
    if sink.listed entry then do
      let info ← statSync entry.1
      let backups ← statBackups entries
      pure (⟨entry.1, info.modified⟩ :: backups)
    else statBackups entries

def listBackups (turn : Turn) : Io (List Backup) := do
  let entries ← readDirSync turn
  sink.statBackups entries

def removeBackup (path : JsString) : Io Bool := do
  match ← (remove path).attempt with
  | .ok _ =>
    modify fun v => { v with produced := v.produced.filter fun name => name ≠ path }
    pure true
  | .error e =>
    reportFailure (js "backup removal failed") e
    pure false

def pruneExpired (cutoff : Int) : List Backup → List Backup → Io (List Backup)
  | [], left => pure left
  | backup :: backups, left =>
    if cutoff ≤ backup.modified then pruneExpired cutoff backups left
    else do
      let removed ← removeBackup backup.path
      pruneExpired cutoff backups
        (if removed then left.filter fun candidate => candidate.path ≠ backup.path else left)

def removeBackups : List Backup → Io Unit
  | [] => pure ()
  | backup :: backups => do
    let _ ← removeBackup backup.path
    removeBackups backups

/-- The newest first, as `sort` orders them. -/
def newestFirst (backups : List Backup) : List Backup :=
  backups.insertionSort fun a b => b.modified ≤ a.modified

/-- The part of `pruneBackups` about the age of backups. -/
def pruneAged (turn : Turn) (backups : List Backup) : Io (List Backup) :=
  if 0 < sink.rotation.maxAge then
    pruneExpired (turn.pruneNow - sink.rotation.maxAge * MILLIS_PER_DAY) backups backups
  else pure backups

def pruneBackups (turn : Turn) : Io Unit := do
  match ← (sink.listBackups turn).attempt with
  | .error e => reportFailure (js "backup retention scan failed") e
  | .ok backups =>
    let left ← sink.pruneAged turn backups
    if sink.rotation.maxBackups = 0 ∨ left.length ≤ sink.rotation.maxBackups then pure ()
    else removeBackups ((newestFirst left).drop sink.rotation.maxBackups)

/-- The first half of `rotateActiveFile`: the active file gets its new name and is made anew. -/
def moveActiveFile (turn : Turn) : Io JsString := do
  let backupPath ← nextBackupPath turn sink.backupPrefix
  rename sink.activePath backupPath
  modify fun v => { v with
    rotated := v.rotated ++ [backupPath]
    produced := v.produced ++ [backupPath] }
  prepareActiveFile turn sink.activePath
  modify fun v => { v with state := { v.state with currentSize := 0 } }
  pure backupPath

def rotateActiveFile (turn : Turn) : Io Unit := do
  let backupPath ← sink.moveActiveFile turn
  sink.pruneBackups turn
  if sink.rotation.compress then modify fun v => { v with queued := v.queued ++ [backupPath] }
  else pure ()

def full (size : Nat) (bytes : List UInt8) : Bool :=
  decide (0 < size) && sink.rotation.maxSizeBytes.lt (JsNumber.ofInt (size + bytes.length))

def record (line : JsString) : List UInt8 := JsString.utf8Encode (line ++ js "\n")

def rotateWhenFull (turn : Turn) (size : Nat) (bytes : List UInt8) : Io Unit :=
  if sink.rotation.enable && sink.full size bytes then sink.rotateActiveFile turn else pure ()

def writeRecord (turn : Turn) (bytes : List UInt8) : Io Unit := do
  let size ← gets fun v => v.state.currentSize
  sink.rotateWhenFull turn size bytes
  appendBytes turn sink.activePath bytes
  modify fun v => { v with
    state := { v.state with currentSize := v.state.currentSize + bytes.length } }

def writeToFile (turn : Turn) (line : JsString) : Io Bool := do
  let active ← gets fun v => v.state.active
  if active then
    match ← (sink.writeRecord turn (record line)).attempt with
    | .ok _ => pure true
    | .error e => do
      modify fun v => { v with state := { v.state with active := false } }
      reportFailure (js "file write failed; using stdout") e
      pure false
  else pure false

/-- The calls of the tee and of `console.log` after the file. -/
def given (line : JsString) (wroteToFile : Bool) : Outputs :=
  if sink.tee then ⟨[line], []⟩
  else if !wroteToFile then ⟨[], [line]⟩
  else ⟨[], []⟩

def write (turn : Turn) (line : JsString) : Io Outputs := do
  let wroteToFile ← sink.writeToFile turn line
  pure (sink.given line wroteToFile)

end FileSink

def sinkNames (toLowerCase : JsString → JsString) (options : FileSinkOptions) :
    Except JsString (JsString × JsString) := do
  let fileName ← normalizeFileName options.fileName
  if options.dir.trim = [] then throw (js "dir must not be empty")
  pure (fileName, stripLogExtension toLowerCase fileName ++ js "-")

/-- The part of `newFileSink` that uses the file system. -/
def openActiveFile (turn : Turn) (activePath : JsString) : Io Unit := do
  prepareActiveFile turn activePath
  let info ← statSync activePath
  modify fun v => { v with state := ⟨true, info.content.length, 0⟩ }

def newFileSink (toLowerCase : JsString → JsString) (options : FileSinkOptions) (turn : Turn) :
    Io FileSink := do
  modify fun v => { v with state := ⟨false, 0, 0⟩ }
  let rotation := resolveRotation options.rotate
  match sinkNames toLowerCase options with
  | .error e => do
    reportFailure (js "file sink unavailable; using stdout") e
    pure ⟨[], [], rotation, options.tee⟩
  | .ok names => do
    match ← (openActiveFile turn names.1).attempt with
    | .ok _ => pure ⟨names.1, names.2, rotation, options.tee⟩
    | .error e => do
      reportFailure (js "file sink unavailable; using stdout") e
      pure ⟨names.1, names.2, rotation, options.tee⟩

/-- Where a compression has got to; each phase but the last waits for one asynchronous call. -/
inductive CompressionPhase where
  | reading
  | compressing (source : List UInt8)
  | writing (bytes : List UInt8)
  | securing
  | publishing
  | discarding
  | cleaning (error : JsString)
  | pruning
  | done
deriving DecidableEq

/-- `compressBackup` of a backup, with what its caller does after it. -/
structure CompressionTask where
  path : JsString
  phase : CompressionPhase

def gzipPath (path : JsString) : JsString := path ++ js ".gz"

def temporaryPath (path : JsString) : JsString := gzipPath path ++ js ".tmp"

/-- `writeFile` of the compressed bytes; one that fails may leave a part of them. -/
def writeTemporary (turn : Turn) (path : JsString) (bytes : List UInt8) : Io Unit := .act fun v =>
  let written (content : List UInt8) (w : Volume) : Volume :=
    { w with
      files := w.files.insert (temporaryPath path) ⟨true, content, turn.stamp⟩
      produced := w.produced ++ [temporaryPath path] }
  match v.faults, turn.rest with
  | some e :: rest, none => (.error e, { v with faults := rest })
  | some e :: rest, some content => (.error e, written content { v with faults := rest })
  | faults, _ => (.ok (), written bytes { v with faults := faults.tail })

def publish (path : JsString) : Io Unit := do
  rename (temporaryPath path) (gzipPath path)
  modify fun v => { v with
    produced := (v.produced.filter fun name => name ≠ temporaryPath path) ++ [gzipPath path] }

def discard (path : JsString) : Io Unit := do
  remove path
  modify fun v => { v with produced := v.produced.filter fun name => name ≠ path }

/-- The next phase after a call inside the `try` of `compressBackup`. -/
def guarded (call : Io Unit) (next : CompressionPhase) : Io CompressionPhase := do
  match ← call.attempt with
  | .ok _ => pure next
  | .error e => pure (.cleaning e)

def giveUp (error : JsString) : Io CompressionPhase := do
  reportFailure (js "backup compression failed; keeping plain backup") error
  pure .done

def advanceTask (sink : FileSink) (gzip : List UInt8 → List UInt8) (turn : Turn) (path : JsString) :
    CompressionPhase → Io CompressionPhase
  | .reading => do
    match ← (statSync path).attempt with
    | .ok entry => pure (.compressing entry.content)
    | .error e => giveUp e
  | .compressing source => do
    match ← otherCall.attempt with
    | .ok _ => pure (.writing (gzip source))
    | .error e => giveUp e
  | .writing bytes => guarded (writeTemporary turn path bytes) .securing
  | .securing => guarded (do let _ ← statSync (temporaryPath path)) .publishing
  | .publishing => guarded (publish path) .discarding
  | .discarding => guarded (discard path) .pruning
  | .cleaning e => do
    let _ ← (discard (temporaryPath path)).attempt
    giveUp e
  | .pruning => do
    sink.pruneBackups turn
    pure .done
  | .done => pure .done

structure SinkSystem where
  volume : Volume
  tasks : List CompressionTask
  outputs : Outputs

inductive SinkEvent where
  | line (turn : Turn) (text : JsString)
  | task (index : Nat) (turn : Turn)
  /-- others change the directory -/
  | outside (files : Directory)

def Volume.during (v : Volume) (turn : Turn) : Volume := { v with faults := turn.faults, queued := [] }

/-- The machine of one sink; `gzip` is what `CompressionStream` makes of a file. -/
def sinkMachine (sink : FileSink) (gzip : List UInt8 → List UInt8) : LabelledMachine SinkSystem SinkEvent where
  start s := s.tasks = []
  step s
    | .line turn text =>
      let ran := (sink.write turn text).run (s.volume.during turn)
      some {
        volume := ran.2
        tasks := s.tasks ++ ran.2.queued.map fun path => ⟨path, .reading⟩
        outputs := s.outputs.add ran.1 }
    | .task index turn =>
      match s.tasks[index]? with
      | none => none
      | some task =>
        if task.phase = .done then none
        else
          match (advanceTask sink gzip turn task.path task.phase).run (s.volume.during turn) with
          | (.ok phase, v) => some { s with volume := v, tasks := s.tasks.set index { task with phase } }
          | (.error _, _) => none
    | .outside files =>
      some { s with volume := { s.volume with
        files
        produced := s.volume.produced.filter fun name => files.lookup name = s.volume.files.lookup name } }

end ForgeDeno
