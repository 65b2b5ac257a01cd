import ForgeDeno.DirectoryRules
import ForgeDeno.RotationRuns

namespace ForgeDeno

open Program AList

namespace FileSink

/-- The bytes of a line are at the end of the active file, which is empty before them where the line rotates
it. -/
def Appended (sink : FileSink) (before after : Volume) (line : JsString) : Prop :=
  (sink.Rotates before line → Holds after.files sink.activePath (record line)) ∧
    (¬sink.Rotates before line →
      Holds after.files sink.activePath (contentOf before.files sink.activePath ++ record line))

/-- The tee or the console is given the line, or it is in the active file. -/
def Delivered (sink : FileSink) (before after : Volume) (line : JsString) (given : Outputs) : Prop :=
  (sink.tee = true ∧ given.teed = [line]) ∨ given.printed = [line] ∨ sink.Appended before after line

section active

variable {sink : FileSink} {turn : Turn} {content : List UInt8}

theorem contentOf_holds {d : Directory} (there : sink.activePath ∈ d) :
    Holds d sink.activePath (contentOf d sink.activePath) := by
  obtain ⟨entry, found⟩ := Option.isSome_iff_exists.mp (lookup_isSome.mpr there)
  refine ⟨entry, found, ?_⟩
  unfold contentOf
  rw [found]
  rfl

theorem contentOf_absent {d : Directory} (absent : sink.activePath ∉ d) : contentOf d sink.activePath = [] := by
  unfold contentOf
  rw [lookup_eq_none.mpr absent]
  rfl

theorem contentOf_erase (path : JsString) (_ : List JsString) (d : Directory) (empty : contentOf d sink.activePath = []) :
    contentOf (d.erase path) sink.activePath = [] := by
  by_cases same : sink.activePath = path
  · apply contentOf_absent
    rw [same]
    simp
  · unfold contentOf at empty ⊢
    rw [lookup_erase_ne same]
    exact empty

theorem openSync_holds :
    Meets (fun v => contentOf v.files sink.activePath = content) (openSync turn sink.activePath)
      (fun _ v => Holds v.files sink.activePath content) (fun v => contentOf v.files sink.activePath = content) := by
  refine @openSync_files (fun _ d => contentOf d sink.activePath = content) turn
    (fun _ d => Holds d sink.activePath content) _ (fun _ d same there => ?_)
    fun _ d same absent => ?_
  · exact same ▸ contentOf_holds there
  · rw [contentOf_absent absent] at same
    exact ⟨_, lookup_insert _, same⟩

theorem append_holds {d : Directory} (h : Holds d sink.activePath content) (bytes : List UInt8) :
    Holds (append turn sink.activePath bytes d) sink.activePath (content ++ bytes) := by
  obtain ⟨entry, found, same⟩ := h
  unfold ForgeDeno.append
  rw [found]
  exact ⟨_, lookup_insert _, congrArg (· ++ bytes) same⟩

theorem appendBytes_holds (bytes : List UInt8) :
    Meets (fun v => contentOf v.files sink.activePath = content) (appendBytes turn sink.activePath bytes)
      (fun _ v => Holds v.files sink.activePath (content ++ bytes)) (fun _ => True) := by
  have loop : Meets (fun v => Holds v.files sink.activePath content)
      (writeLoop turn sink.activePath turn.writes bytes)
      (fun _ v => Holds v.files sink.activePath (content ++ bytes)) (fun _ => True) := by
    have run := @writeLoop_meets turn sink.activePath
      (fun done v => Holds v.files sink.activePath (content ++ done)) (fun _ => True)
      (fun done bytes v h => by
        rw [← List.append_assoc]
        exact append_holds h bytes)
      turn.writes (fun _ _ _ _ _ => trivial) [] bytes
    rw [List.append_nil, List.nil_append] at run
    exact run
  have closes : ∀ D : List JsString → Directory → Prop,
      Meets (fun v => D v.queued v.files) otherCall (fun _ v => D v.queued v.files) (fun _ => True) :=
    fun D => otherCall_files.weaken (fun _ _ h => h) fun _ _ => trivial
  refine (openSync_holds.weaken (fun _ _ h => h) fun _ _ => trivial).bind fun _ => ?_
  refine loop.andFinally (fun _ => closes fun _ d => Holds d sink.activePath (content ++ bytes)) ?_
  exact (closes fun _ _ => True).weaken (fun _ _ h => h) fun _ h => h

theorem rotateActiveFile_empty {v : Volume} :
    Meets (fun u => u = v) (sink.rotateActiveFile turn) (fun _ w => contentOf w.files sink.activePath = [])
      (fun _ => True) := by
  have moves : Meets (fun u => u = v) (sink.moveActiveFile turn)
      (fun _ w => contentOf w.files sink.activePath = []) (fun _ => True) := by
    refine ((nextBackupPath_next sink.backupPrefix).weaken (fun _ _ h => h) fun _ _ => trivial).bind fun path => ?_
    refine Meets.known fun free => ?_
    obtain ⟨-, -, -, absent, -⟩ := free
    refine Meets.before (P := fun w => w.files = v.files) ?_ fun w h => h.2
    refine Meets.bind (Q := fun _ w => contentOf w.files sink.activePath = []) ?_ fun _ => ?_
    · refine (@rename_files (fun _ d => d = v.files) (fun _ d => contentOf d sink.activePath = []) _ _
        fun _ d entry same found => ?_).weaken (fun _ _ h => h) fun _ _ => trivial
      have other : sink.activePath ≠ path := by
        intro eq
        rw [same, eq, lookup_eq_none.mpr absent] at found
        cases found
      apply contentOf_absent
      rw [mem_insert]
      simp [other]
    · refine Meets.bind (Q := fun _ w => contentOf w.files sink.activePath = []) (Meets.modify fun w h => ?_) fun _ => ?_
      · exact h
      · have made := @prepareActiveFile_files (fun _ d => contentOf d sink.activePath = []) turn
          (fun _ d => contentOf d sink.activePath = []) sink.activePath (fun _ _ h _ => h) fun _ d _ _ => by
            unfold contentOf
            rw [lookup_insert]
            rfl
        refine (made.weaken (fun _ _ h => h) fun _ _ => trivial).bind fun _ => ?_
        refine Meets.bind (Q := fun _ w => contentOf w.files sink.activePath = []) (Meets.modify fun w h => ?_)
          fun _ => Meets.pure fun _ h => h
        exact h
  refine moves.bind fun path => ?_
  refine (pruneBackups_files (D := fun _ d => contentOf d sink.activePath = []) contentOf_erase).bind fun _ => ?_
  refine Meets.ite (fun _ => Meets.modify fun _ h => h) fun _ => Meets.pure fun _ h => h

theorem writeRecord_appended {v : Volume} {line : JsString} (active : v.state.active = true) :
    Meets (fun u => u = v) (sink.writeRecord turn (record line)) (fun _ w => sink.Appended v w line)
      (fun _ => True) := by
  refine Meets.gets.bind fun size => ?_
  have ends : ∀ before : List UInt8,
      Meets (fun w => contentOf w.files sink.activePath = before)
        (do
          appendBytes turn sink.activePath (record line)
          modify fun v => { v with
            state := { v.state with currentSize := v.state.currentSize + (record line).length } })
        (fun _ w => Holds w.files sink.activePath (before ++ record line)) (fun _ => True) :=
    fun before => (appendBytes_holds (record line)).bind fun _ => Meets.modify fun _ h => h
  by_cases rotates : sink.Rotates v line
  · refine Meets.bind (Q := fun _ w => contentOf w.files sink.activePath = []) ?_ fun _ =>
      (ends []).weaken (fun _ w h => ⟨fun _ => h, fun stays => absurd rotates stays⟩) fun _ h => h
    refine Meets.ite (fun _ => rotateActiveFile_empty.before fun u h => h.2) fun stays u h => ?_
    obtain ⟨sized, same⟩ := h
    refine absurd ?_ stays
    rw [sized, same, rotates.2.1, rotates.2.2]
    rfl
  · refine Meets.bind (Q := fun _ w => contentOf w.files sink.activePath = contentOf v.files sink.activePath) ?_ fun _ =>
      (ends _).weaken (fun _ w h => ⟨fun yes => absurd yes rotates, fun _ => h⟩) fun _ h => h
    refine Meets.ite (fun full u h => ?_) fun _ => Meets.pure fun u h => by rw [h.2]
    obtain ⟨sized, same⟩ := h
    rw [sized, same, Bool.and_eq_true] at full
    exact absurd ⟨active, full.1, full.2⟩ rotates

theorem write_delivered {v : Volume} {line : JsString} :
    Meets (fun u => u = v) (sink.write turn line) (fun given w => sink.Delivered v w line given)
      (fun _ => False) := by
  have writes : Meets (fun u => u = v) (sink.writeToFile turn line)
      (fun wrote w => wrote = true → sink.Appended v w line) (fun _ => False) := by
    refine Meets.gets.bind fun active => ?_
    refine Meets.ite (fun on => ?_) fun _ => Meets.pure nofun
    have recorded : Meets (fun u => active = u.state.active ∧ u = v) (sink.writeRecord turn (record line))
        (fun _ w => sink.Appended v w line) (fun _ => True) := by
      rintro u ⟨now, rfl⟩
      exact writeRecord_appended (now ▸ on) u rfl
    refine Meets.bind recorded.attempt fun r => ?_
    cases r with
    | ok _ => exact Meets.pure fun w h _ => h.1 _ rfl
    | error e =>
      refine Meets.bind (Q := fun _ _ => True) (Meets.modify fun _ _ => trivial) fun _ => ?_
      refine Meets.bind (Q := fun _ _ => True) (Meets.modify fun _ _ => trivial) fun _ => ?_
      exact Meets.pure nofun
  refine writes.bind fun wrote => Meets.pure fun w h => ?_
  unfold Delivered given
  cases tee : sink.tee with
  | true => exact .inl ⟨rfl, rfl⟩
  | false =>
    cases wrote with
    | true => exact .inr (.inr (h rfl))
    | false => exact .inr (.inl rfl)

end active

end FileSink

section returns

variable {sink : FileSink} {turn : Turn}

theorem advanceTask_returns (gzip : List UInt8 → List UInt8) (path : JsString) (phase : CompressionPhase) :
    Meets (fun _ => True) (advanceTask sink gzip turn path phase) (fun _ _ => True) (fun _ => False) := by
  have any : ∀ {α : Type} (x : Io α), Meets (fun _ => True) x.attempt (fun _ _ => True) (fun _ => False) :=
    fun x => (Meets.attempt (Q := fun _ _ => True) (E := fun _ => True) fun _ _ =>
      ⟨fun _ _ _ => trivial, fun _ _ _ => trivial⟩).weaken (fun _ _ _ => trivial) fun _ h => h
  have gives : ∀ e, Meets (fun _ => True) (giveUp e) (fun _ _ => True) (fun _ => False) := fun e =>
    Meets.bind (Q := fun _ _ => True) (Meets.modify fun _ _ => trivial) fun _ => Meets.pure fun _ h => h
  have guards : ∀ (call : Io Unit) next,
      Meets (fun _ => True) (guarded call next) (fun _ _ => True) (fun _ => False) := by
    intro call next
    refine (any call).bind fun r => ?_
    cases r with
    | ok _ => exact Meets.pure fun _ h => h
    | error e => exact Meets.pure fun _ h => h
  cases phase with
  | reading =>
    refine (any _).bind fun r => ?_
    cases r with
    | ok _ => exact Meets.pure fun _ h => h
    | error e => exact gives e
  | compressing source =>
    refine (any _).bind fun r => ?_
    cases r with
    | ok _ => exact Meets.pure fun _ h => h
    | error e => exact gives e
  | writing bytes => exact guards _ _
  | securing => exact guards _ _
  | publishing => exact guards _ _
  | discarding => exact guards _ _
  | cleaning e => exact (any _).bind fun _ => gives e
  | pruning =>
    exact (FileSink.pruneBackups_files (D := fun _ _ => True) fun _ _ _ h => h).bind fun _ => Meets.pure fun _ h => h
  | done => exact Meets.pure fun _ h => h

theorem newFileSink_returns (toLowerCase : JsString → JsString) (options : FileSinkOptions) :
    Meets (fun _ => True) (newFileSink toLowerCase options turn)
      (fun sink _ => sink.tee = options.tee) (fun _ => False) := by
  have reported : ∀ (e : JsString) (made : FileSink), made.tee = options.tee →
      Meets (fun _ => True) (do
          reportFailure (js "file sink unavailable; using stdout") e
          pure made) (fun sink _ => sink.tee = options.tee) (fun _ => False) := by
    intro e made same
    exact Meets.bind (Q := fun _ _ => True) (Meets.modify fun _ _ => trivial) fun _ => Meets.pure fun _ _ => same
  refine Meets.bind (Q := fun _ _ => True) (Meets.modify fun _ _ => trivial) fun _ => ?_
  dsimp only
  cases sinkNames toLowerCase options with
  | error e => exact reported e _ rfl
  | ok names =>
    have opens : Meets (fun _ => True) (openActiveFile turn names.1).attempt (fun _ _ => True) (fun _ => False) :=
      (Meets.attempt (Q := fun _ _ => True) (E := fun _ => True) fun _ _ =>
        ⟨fun _ _ _ => trivial, fun _ _ _ => trivial⟩).weaken (fun _ _ _ => trivial) fun _ h => h
    refine opens.bind fun r => ?_
    cases r with
    | ok _ => exact Meets.pure fun _ _ => rfl
    | error e => exact reported e _ rfl

end returns

def DeliversLine (sink : FileSink) (s : SinkSystem) : SinkEvent → SinkSystem → Prop
  | .line turn text, t => ∃ given, (sink.write turn text).run (s.volume.during turn) = (.ok given, t.volume) ∧
      t.outputs = s.outputs.add (.ok given) ∧ sink.Delivered s.volume t.volume text given
  | _, _ => True

theorem line_delivered (sink : FileSink) (gzip : List UInt8 → List UInt8) (s : SinkSystem) (es : List SinkEvent) :
    (sinkMachine sink gzip).Along (DeliversLine sink) s es := by
  induction es generalizing s with
  | nil => trivial
  | cons e es ih =>
    intro t stepped
    refine ⟨?_, ih t⟩
    cases e with
    | line turn text =>
      obtain ⟨given, w, ran, delivered⟩ :=
        (@FileSink.write_delivered sink turn (s.volume.during turn) text).returns rfl
      simp only [sinkMachine, ran] at stepped
      cases stepped
      exact ⟨given, ran, rfl, delivered⟩
    | task index turn => trivial
    | outside files => trivial

/-- Whatever calls of the file system fail, a sink is made, each of its lines is delivered, and no failure
escapes, from the sink or from its compressions. -/
theorem no_record_lost (toLowerCase : JsString → JsString) (options : FileSinkOptions)
    (gzip : List UInt8 → List UInt8) (opening : Turn) (v : Volume) :
    ∃ sink v₀, (newFileSink toLowerCase options opening).run v = (.ok sink, v₀) ∧ sink.tee = options.tee ∧
      ∀ es, (sinkMachine sink gzip).Along (DeliversLine sink) ⟨v₀, [], ⟨[], []⟩⟩ es ∧
        ∀ t, (sinkMachine sink gzip).run ⟨v₀, [], ⟨[], []⟩⟩ es = some t → ∀ task ∈ t.tasks, ∀ turn,
          ∃ phase w, (advanceTask sink gzip turn task.path task.phase).run (t.volume.during turn) =
            (.ok phase, w) := by
  obtain ⟨sink, v₀, made, same⟩ := (newFileSink_returns toLowerCase options).returns (s := v) trivial
  refine ⟨sink, v₀, made, same, fun es => ⟨line_delivered sink gzip _ es, fun t _ task _ turn => ?_⟩⟩
  obtain ⟨phase, w, ran, -⟩ :=
    (@advanceTask_returns sink turn gzip task.path task.phase).returns (s := t.volume.during turn) trivial
  exact ⟨phase, w, ran⟩

end ForgeDeno
