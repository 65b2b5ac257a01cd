import ForgeDeno.FileRotation

namespace ForgeDeno

open Program List FileSink

/-- What has been written, as it lies in the backups and the active file: the initial content and the
records are the pieces, none is split, and no file outgrows the maximum but for one record, or what
was there at first. -/
structure History (sink : FileSink) (initial : List UInt8) (records : List (List UInt8))
    (backups : List (JsString × List UInt8)) (last : List UInt8) (time : Nat) : Prop where
  pieces : ∃ parts : List (List (List UInt8)), parts.flatten = initial :: records ∧
    parts.map List.flatten = backups.map Prod.snd ++ [last]
  size : sink.rotation.maxSizeBytes.lt (JsNumber.ofInt last.length) = true →
    records.getLast? = some last ∨ (records = [] ∧ last = initial)
  dated : ∃ times : List Nat, backups.map (fun backup => some backup.1) =
    times.map (backupName sink.backupPrefix) ∧ times.Pairwise (· < ·) ∧ ∀ t ∈ times, t ≤ time

section history

variable {sink : FileSink} {initial : List UInt8} {records : List (List UInt8)}
  {backups : List (JsString × List UInt8)} {last : List UInt8} {time : Nat}

theorem History.append (h : History sink initial records backups last time) {record : List UInt8}
    (fits : ¬(0 < last.length ∧
      sink.rotation.maxSizeBytes.lt (JsNumber.ofInt (last.length + record.length)) = true)) :
    History sink initial (records ++ [record]) backups (last ++ record) time := by
  obtain ⟨parts, whole, lie⟩ := h.pieces
  refine ⟨?_, fun past => ?_, h.dated⟩
  · rcases eq_nil_or_concat' parts with rfl | ⟨front, part, rfl⟩
    · cases whole
    · rw [map_append, map_singleton] at lie
      obtain ⟨older, newest⟩ := append_inj' lie rfl
      refine ⟨front ++ [part ++ [record]], ?_, ?_⟩
      · rw [← cons_append, ← whole]
        simp
      · rw [map_append, older, map_singleton, flatten_append, (cons.inj newest).1]
        simp
  · left
    have empty : last = [] := by
      by_contra some_bytes
      refine fits ⟨length_pos_of_ne_nil some_bytes, ?_⟩
      rw [length_append, Nat.cast_add] at past
      exact past
    rw [getLast?_concat, empty, nil_append]

theorem History.rotate (h : History sink initial records backups last time) {record : List UInt8}
    {path : JsString} {later : Nat} (after : time < later)
    (named : backupName sink.backupPrefix later = some path) :
    History sink initial (records ++ [record]) (backups ++ [(path, last)]) record later := by
  obtain ⟨parts, whole, lie⟩ := h.pieces
  obtain ⟨times, names, ordered, past⟩ := h.dated
  refine ⟨⟨parts ++ [[record]], ?_, ?_⟩, fun _ => .inl getLast?_concat, times ++ [later], ?_, ?_, ?_⟩
  · rw [← cons_append, ← whole]
    simp
  · rw [map_append, lie]
    simp
  · rw [map_append, map_append, names]
    simp [named]
  · refine pairwise_append.mpr ⟨ordered, pairwise_singleton _ _, fun a ha b hb => ?_⟩
    cases mem_singleton.mp hb
    exact Nat.lt_of_le_of_lt (past a ha) after
  · intro t mem
    rcases mem_append.mp mem with old | new
    · exact Nat.le_of_lt (Nat.lt_of_le_of_lt (past t old) after)
    · cases mem_singleton.mp new
      exact Nat.le_refl _

theorem History.sorted (h : History sink initial records backups last time) (bound : time ≤ IsoTime.lastTime) :
    (backups.map Prod.fst).Pairwise fun a b => JsString.units a < JsString.units b := by
  obtain ⟨times, names, ordered, past⟩ := h.dated
  have pairs : (times.map (backupName sink.backupPrefix)).Pairwise fun a b =>
      ∀ first second, a = some first → b = some second → JsString.units first < JsString.units second := by
    rw [pairwise_map]
    refine ordered.imp_of_mem fun {s t} _ mem less first second left right => ?_
    exact backupName_lt less (Nat.le_trans (past t mem) bound) left right
  rw [← names, pairwise_map] at pairs
  rw [pairwise_map]
  exact pairs.imp fun h => h _ _ rfl rfl

end history

def Sound (sink : FileSink) (initial : List UInt8) (records : List (List UInt8)) (v : Volume) : Prop :=
  ∃ backups last time, History sink initial records backups last time ∧
    Calm ⟨true, last.length, time⟩ (backups.map Prod.fst) [] (Stored sink backups last) v

def Overdue (v : Volume) : Prop := IsoTime.lastTime < v.state.lastRotationTime

def Stopped (v : Volume) : Prop := v.state.active = false ∧ Overdue v

section write

variable {sink : FileSink} {initial : List UInt8} {records : List (List UInt8)} {turn : Turn}

theorem writeRecord_sound (all : KeepsAll sink) (enabled : sink.rotation.enable = true)
    (calm : Faultless turn) (record : List UInt8) :
    Meets (Sound sink initial records) (sink.writeRecord turn record)
      (fun _ => Sound sink initial (records ++ [record])) Overdue := by
  rintro v ⟨backups, last, time, history, stored⟩
  refine Meets.bind (calm_gets (a := last.length) fun v h => by rw [h.state]) (fun size => ?_) v stored
  refine Meets.known fun eq => ?_
  cases eq
  have appends : ∀ {state : FileSinkState} {rotated : List JsString} {kept content},
      Meets (Calm state rotated [] (Stored sink kept content))
        (do appendBytes turn sink.activePath record
            modify fun v => { v with
              state := { v.state with currentSize := v.state.currentSize + record.length } } : Io Unit)
        (fun _ => Calm { state with currentSize := state.currentSize + record.length } rotated
          [] (Stored sink kept (content ++ record))) Overdue := fun {state rotated kept content} =>
    Meets.bind ((appendBytes_stored calm record).weaken (fun _ _ h => h) fun _ h => h.elim) fun _ =>
      calm_setState (fun st => { st with currentSize := st.currentSize + record.length }) _ rfl
  by_cases full : sink.full last.length record = true
  · have rotates : sink.rotateWhenFull turn last.length record = sink.rotateActiveFile turn := by
      unfold FileSink.rotateWhenFull
      rw [enabled, full]
      rfl
    rw [rotates]
    refine Meets.bind (rotateActiveFile_stored all) fun _ => ?_
    rintro w ⟨path, later, after, named, moved⟩
    refine (appends.weaken (fun _ u h => ?_) fun _ h => h) w moved
    refine ⟨backups ++ [(path, last)], record, later, history.rotate after named, ?_⟩
    have names : (backups ++ [(path, last)]).map Prod.fst = backups.map Prod.fst ++ [path] := by simp
    rw [names]
    rw [nil_append] at h
    exact ⟨h.faults, by rw [h.state]; simp [FileSinkState.at], h.rotated, h.queued, h.files⟩
  · have stays : sink.rotateWhenFull turn last.length record = pure () := by
      unfold FileSink.rotateWhenFull
      rw [Bool.not_eq_true] at full
      rw [enabled, full]
      rfl
    rw [stays]
    refine Meets.bind (Q := fun _ => Calm ⟨true, last.length, time⟩ (backups.map Prod.fst) []
      (Stored sink backups last)) (Meets.pure fun v h => h) fun _ => ?_
    refine appends.weaken (fun _ u h => ?_) fun _ h => h
    have fits : ¬(0 < last.length ∧
        sink.rotation.maxSizeBytes.lt (JsNumber.ofInt (last.length + record.length)) = true) := by
      intro both
      refine full ?_
      unfold FileSink.full
      rw [Bool.and_eq_true]
      exact ⟨decide_eq_true both.1, both.2⟩
    refine ⟨backups, last ++ record, time, history.append fits, ?_⟩
    exact ⟨h.faults, by rw [h.state, length_append], h.rotated, h.queued, h.files⟩

theorem write_sound (all : KeepsAll sink) (enabled : sink.rotation.enable = true)
    (calm : Faultless turn) (line : JsString) {E : Volume → Prop} :
    Meets (Sound sink initial records) (sink.write turn line)
      (fun _ v => Sound sink initial (records ++ [FileSink.record line]) v ∨ Stopped v) E := by
  have on : ∀ v, Sound sink initial records v → v.state.active = true := by
    rintro v ⟨_, _, _, _, stored⟩
    rw [stored.state]
  have writes : Meets (Sound sink initial records) (sink.writeToFile turn line)
      (fun _ v => Sound sink initial (records ++ [record line]) v ∨ Stopped v) E := by
    refine Meets.gets.bind fun active => ?_
    refine Meets.ite (fun _ => ?_) fun off => ?_
    · have once : Meets (fun v => active = v.state.active ∧ Sound sink initial records v)
          (sink.writeRecord turn (record line))
          (fun _ => Sound sink initial (records ++ [record line])) Overdue :=
        (writeRecord_sound all enabled calm _).before fun _ h => h.2
      refine Meets.bind once.attempt fun r => ?_
      cases r with
      | ok _ => exact Meets.pure fun v h => .inl (h.1 () rfl)
      | error e =>
        refine Meets.bind (Q := fun _ => Stopped) (Meets.modify fun v h => ⟨rfl, h.2 e rfl⟩) fun _ => ?_
        refine Meets.bind (Q := fun _ => Stopped) (Meets.modify fun v h => ?_) fun _ =>
          Meets.pure fun v h => .inr h
        show Stopped (if _ then v else _)
        split_ifs
        · exact h
        · exact h
    · intro v h
      exact absurd (h.1.trans (on v h.2)) off
  exact writes.bind fun _ => Meets.pure fun _ h => h

theorem write_stopped (line : JsString) {E : Volume → Prop} :
    Meets Stopped (sink.write turn line) (fun _ => Stopped) E := by
  have nothing : Meets Stopped (sink.writeToFile turn line) (fun _ => Stopped) E := by
    refine Meets.gets.bind fun active => ?_
    refine Meets.ite (fun on => ?_) fun _ => Meets.pure fun v h => h.2
    rintro v ⟨eq, stopped⟩
    rw [eq, stopped.1] at on
    cases on
  exact nothing.bind fun _ => Meets.pure fun _ h => h

end write

def written (es : List SinkEvent) : List (List UInt8) := es.filterMap fun e =>
  match e with
  | .line _ text => some (FileSink.record text)
  | _ => none

def FaultlessLines (es : List SinkEvent) : Prop :=
  ∀ e ∈ es, ∃ turn text, e = .line turn text ∧ Faultless turn

def contentOf (d : Directory) (name : JsString) : List UInt8 :=
  ((d.lookup name).map FileEntry.content).getD []

theorem Holds.contentOf {d : Directory} {name : JsString} {content : List UInt8}
    (h : Holds d name content) : contentOf d name = content := by
  obtain ⟨entry, found, rfl⟩ := h
  unfold ForgeDeno.contentOf
  rw [found]
  rfl

theorem Sound.during {sink : FileSink} {initial : List UInt8} {records : List (List UInt8)} {v : Volume}
    {turn : Turn} (h : Sound sink initial records v) (calm : Faultless turn) :
    Sound sink initial records (v.during turn) := by
  obtain ⟨backups, last, time, history, stored⟩ := h
  exact ⟨backups, last, time, history, calm.1, stored.state, stored.rotated, rfl, stored.files⟩

theorem run_sound {sink : FileSink} {gzip : List UInt8 → List UInt8} (all : KeepsAll sink)
    (enabled : sink.rotation.enable = true) {initial : List UInt8} {records : List (List UInt8)}
    {es : List SinkEvent} (lines : FaultlessLines es) {s t : SinkSystem}
    (start : Sound sink initial records s.volume ∨ Stopped s.volume)
    (ran : (sinkMachine sink gzip).run s es = some t) :
    Sound sink initial (records ++ written es) t.volume ∨ Stopped t.volume := by
  induction es generalizing s records with
  | nil =>
    cases ran
    have none_written : records ++ written [] = records := append_nil _
    rwa [none_written]
  | cons e es ih =>
    obtain ⟨turn, text, rfl, calm⟩ := lines e mem_cons_self
    obtain ⟨next, stepped, ran⟩ := LabelledMachine.run_cons_some ran
    have rest := fun other mem => lines other (mem_cons_of_mem _ mem)
    cases stepped
    have more : records ++ written (.line turn text :: es) =
        records ++ [record text] ++ written es := by
      rw [append_assoc]
      rfl
    rw [more]
    refine ih rest ?_ ran
    rcases start with sound | stopped
    · refine (write_sound (E := fun v => Sound sink initial (records ++ [record text]) v ∨
        Stopped v) all enabled calm text).ends (sound.during calm)
    · exact .inr ((write_stopped (E := Stopped) text).ends stopped)

section opening

variable {d : Directory} {state : FileSinkState} {turn : Turn} {path : JsString}

theorem openSync_holds {E : Volume → Prop} : Meets (Calm state [] [] fun d' => d' = d)
    (openSync turn path) (fun _ => Calm state [] [] fun d' => Holds d' path (contentOf d path)) E := by
  refine calm_fileCall fun d' eq => ⟨(), _, rfl, ?_⟩
  rw [eq]
  by_cases there : path ∈ d
  · rw [if_pos there]
    obtain ⟨entry, found⟩ := Option.isSome_iff_exists.mp (AList.lookup_isSome.mpr there)
    have holds : Holds d path entry.content := ⟨entry, found, rfl⟩
    exact holds.contentOf ▸ holds
  · rw [if_neg there]
    have empty : contentOf d path = [] := by
      unfold contentOf
      rw [AList.lookup_eq_none.mpr there]
      rfl
    exact ⟨_, AList.lookup_insert _, empty.symm⟩

theorem openActiveFile_holds {E : Volume → Prop} : Meets (Calm state [] [] fun d' => d' = d)
    (openActiveFile turn path) (fun _ => Calm ⟨true, (contentOf d path).length, 0⟩ [] []
      fun d' => Holds d' path (contentOf d path)) E := by
  refine Meets.bind (calm_otherCall.bind fun _ => calm_otherCall.bind fun _ =>
    openSync_holds.bind fun _ => calm_otherCall.bind fun _ => calm_otherCall) fun _ => ?_
  have stats : Meets (Calm state [] [] fun d' => Holds d' path (contentOf d path)) (statSync path)
      (fun info v => Calm state [] [] (fun d' => Holds d' path (contentOf d path)) v ∧
        info.content = contentOf d path) E := by
    refine (calm_fileCall (R := fun info d' => Holds d' path (contentOf d path) ∧
      info.content = contentOf d path) fun d' holds => ?_).weaken (fun info v h => ?_) fun _ h => h
    · obtain ⟨entry, found, eq⟩ := holds
      exact ⟨entry, d', by rw [found], ⟨entry, found, eq⟩, eq⟩
    · exact ⟨h.imp fun _ h => h.1, h.files.2⟩
  refine stats.bind fun info => Meets.known fun eq => ?_
  refine Meets.modify fun v h => ⟨h.faults, ?_, h.rotated, h.queued, h.files⟩
  rw [eq]

theorem newFileSink_sound {toLowerCase : JsString → JsString} {options : FileSinkOptions}
    {names : JsString × JsString} (valid : sinkNames toLowerCase options = .ok names)
    {v : Volume} (calm : turn.faults = []) (fresh : v.rotated = []) {sink : FileSink} {v' : Volume}
    (opened : (newFileSink toLowerCase options turn).run (v.during turn) = (.ok sink, v')) :
    sink = ⟨names.1, names.2, resolveRotation options.rotate, options.tee⟩ ∧
      Sound sink (contentOf v.files sink.activePath) [] v' := by
  have opens : Meets (Calm v.state [] [] fun d' => d' = v.files) (newFileSink toLowerCase options turn)
      (fun sink v' => sink = ⟨names.1, names.2, resolveRotation options.rotate, options.tee⟩ ∧
        Calm ⟨true, (contentOf v.files names.1).length, 0⟩ [] []
          (fun d' => Holds d' names.1 (contentOf v.files names.1)) v') (fun _ => False) := by
    refine Meets.bind (calm_setState (fun _ => ⟨false, 0, 0⟩) _ rfl) fun _ => ?_
    rw [valid]
    refine Meets.bind (openActiveFile_holds (E := fun _ => False)).attempt fun r => ?_
    cases r with
    | ok _ => exact Meets.pure fun _ h => ⟨rfl, h.1 () rfl⟩
    | error e => exact fun _ h => (h.2 e rfl).elim
  obtain ⟨rfl, stored⟩ := (opens (v.during turn) ⟨calm, rfl, fresh, rfl, rfl⟩).1 sink v' opened
  refine ⟨rfl, [], contentOf v.files names.1, 0, ?_, stored.faults, stored.state, stored.rotated,
    stored.queued, ?_⟩
  · exact ⟨⟨[[contentOf v.files names.1]], by simp, by simp⟩, fun _ => .inr ⟨rfl, rfl⟩,
      [], rfl, List.Pairwise.nil, nofun⟩
  · exact ⟨stored.files, nofun, nofun⟩

end opening

/-- Rotation loses nothing and keeps the order, splits no line, uses no name twice, and lets the active
file outgrow its maximum only by a single record or by what it held before any was written, while
its times stay within the year 9999. -/
theorem rotation_lossless {toLowerCase : JsString → JsString} {options : FileSinkOptions}
    {names : JsString × JsString} (valid : sinkNames toLowerCase options = .ok names)
    (enabled : options.rotate.enable = some true)
    (noRetention : (resolveRotation options.rotate).maxBackups = 0)
    (noExpiry : (resolveRotation options.rotate).maxAge = 0)
    (noCompression : (resolveRotation options.rotate).compress = false)
    {opening : Turn} (calm : opening.faults = []) {v : Volume} (fresh : v.rotated = [])
    {sink : FileSink} {v' : Volume}
    (opened : (newFileSink toLowerCase options opening).run (v.during opening) = (.ok sink, v'))
    {gzip : List UInt8 → List UInt8} {es : List SinkEvent} (lines : FaultlessLines es) {t : SinkSystem}
    (ran : (sinkMachine sink gzip).run ⟨v', [], ⟨[], []⟩⟩ es = some t)
    (years : t.volume.state.lastRotationTime ≤ IsoTime.lastTime) :
    let backups := t.volume.rotated.insertionSort fun a b => JsString.unitsLe a b
    let initial := contentOf v.files sink.activePath
    let active := contentOf t.volume.files sink.activePath
    (backups.map (contentOf t.volume.files)).flatten ++ active = initial ++ (written es).flatten ∧
      (∃ parts : List (List (List UInt8)), parts.flatten = initial :: written es ∧
        parts.map List.flatten = backups.map (contentOf t.volume.files) ++ [active]) ∧
      t.volume.rotated.Nodup ∧
      (sink.rotation.maxSizeBytes.lt (JsNumber.ofInt active.length) = true →
        (written es).getLast? = some active ∨ (written es = [] ∧ active = initial)) := by
  obtain ⟨eq, sound⟩ := newFileSink_sound valid calm fresh opened
  have all : KeepsAll sink := by
    rw [eq]
    exact ⟨noRetention, noExpiry, noCompression⟩
  have on : sink.rotation.enable = true := by
    rw [eq]
    show (options.rotate.enable.getD false) = true
    rw [enabled]
    rfl
  intro backups initial active
  rcases run_sound all on lines (Or.inl sound) ran with ⟨kept, last, time, history, stored⟩ | stopped
  · have times : t.volume.state.lastRotationTime = time := by rw [stored.state]
    have ordered := history.sorted (times ▸ years)
    have same : backups = kept.map Prod.fst := by
      show t.volume.rotated.insertionSort _ = _
      rw [stored.rotated]
      exact List.Pairwise.insertionSort_eq (ordered.imp unitsLe_of_lt)
    have content : backups.map (contentOf t.volume.files) = kept.map Prod.snd := by
      rw [same, List.map_map]
      exact List.map_congr_left fun backup mem => (stored.files.older backup mem).contentOf
    have newest : active = last := stored.files.active.contentOf
    obtain ⟨parts, whole, lie⟩ := history.pieces
    rw [List.nil_append] at whole
    have laid : parts.map List.flatten = backups.map (contentOf t.volume.files) ++ [active] := by
      rw [lie, content, newest]
    refine ⟨?_, ⟨parts, whole, laid⟩, ?_, ?_⟩
    · calc (backups.map (contentOf t.volume.files)).flatten ++ active
          = (backups.map (contentOf t.volume.files) ++ [active]).flatten := by simp
        _ = (parts.map List.flatten).flatten := by rw [laid]
        _ = parts.flatten.flatten := List.flatten_flatten.symm
        _ = initial ++ (written es).flatten := by rw [whole, List.flatten_cons]
    · rw [stored.rotated]
      refine ordered.imp fun {a b} less same => ?_
      rw [same] at less
      exact List.lt_irrefl _ less
    · have size := history.size
      rw [List.nil_append, ← newest] at size
      exact size
  · exact absurd years (Nat.not_le.mpr stopped.2)

def byteOptions : FileSinkOptions :=
  ⟨js "logs", js "app.log", ⟨some true, some (.ofRat (1 / 2 ^ 20) false), some 0, some 0, none⟩, false⟩

/-- A turn in which nothing fails and the clock shows `now`. -/
def clockTurn (now : Int) : Turn := ⟨now, now, 0, fun _ => 0, [], [], none⟩

def emptyVolume : Volume := ⟨∅, [], ⟨false, 0, 0⟩, [], [], [], []⟩

def byteSink : FileSink := ⟨js "app.log", js "app-", resolveRotation byteOptions.rotate, false⟩

def byteSystem : SinkSystem :=
  ⟨((newFileSink id byteOptions (clockTurn 0)).run (emptyVolume.during (clockTurn 0))).2, [], ⟨[], []⟩⟩

def stalledLines (now : Int) : List SinkEvent :=
  [.line (clockTurn now) (js "a"), .line (clockTurn now) (js "b"), .line (clockTurn now) (js "c")]

theorem stalledLines_faultless (now : Int) : FaultlessLines (stalledLines now) := by
  intro e mem
  simp only [stalledLines, mem_cons, not_mem_nil, or_false] at mem
  rcases mem with rfl | rfl | rfl <;> exact ⟨_, _, rfl, rfl, nofun⟩

def stalledEnd (now : Int) : SinkSystem :=
  ((sinkMachine byteSink id).run byteSystem (stalledLines now)).getD byteSystem

/-- At the beginning of 1970 two rotations in one millisecond keep their order. -/
theorem stalled_clock_lossless :
    let backups := (stalledEnd 5).volume.rotated.insertionSort fun a b => JsString.unitsLe a b
    let active := contentOf (stalledEnd 5).volume.files byteSink.activePath
    (backups.map (contentOf (stalledEnd 5).volume.files)).flatten ++ active =
        contentOf emptyVolume.files byteSink.activePath ++ (written (stalledLines 5)).flatten ∧
      (∃ parts : List (List (List UInt8)),
        parts.flatten = contentOf emptyVolume.files byteSink.activePath :: written (stalledLines 5) ∧
        parts.map List.flatten = backups.map (contentOf (stalledEnd 5).volume.files) ++ [active]) ∧
      (stalledEnd 5).volume.rotated.Nodup ∧
      (byteSink.rotation.maxSizeBytes.lt (JsNumber.ofInt active.length) = true →
        (written (stalledLines 5)).getLast? = some active ∨
          (written (stalledLines 5) = [] ∧ active = contentOf emptyVolume.files byteSink.activePath)) :=
  @rotation_lossless id byteOptions (js "app.log", js "app-") (by decide +kernel) rfl
    (by decide +kernel) (by decide +kernel) rfl (clockTurn 0) rfl emptyVolume rfl byteSink
    byteSystem.volume rfl id (stalledLines 5) (stalledLines_faultless 5) (stalledEnd 5) rfl
    (by decide +kernel)

/-- In the last millisecond of 9999 they do not: the second backup is named by the year 10000, which
is written with a sign, and stands before the first. -/
theorem stalled_clock_reorders :
    let backups :=
      (stalledEnd IsoTime.lastTime).volume.rotated.insertionSort fun a b => JsString.unitsLe a b
    (newFileSink id byteOptions (clockTurn 0)).run (emptyVolume.during (clockTurn 0)) =
        (.ok byteSink, byteSystem.volume) ∧
      (sinkMachine byteSink id).run byteSystem (stalledLines IsoTime.lastTime) =
        some (stalledEnd IsoTime.lastTime) ∧
      (backups.map (contentOf (stalledEnd IsoTime.lastTime).volume.files)).flatten ++
          contentOf (stalledEnd IsoTime.lastTime).volume.files byteSink.activePath ≠
        contentOf emptyVolume.files byteSink.activePath ++ (written (stalledLines IsoTime.lastTime)).flatten :=
  ⟨rfl, rfl, by decide +kernel⟩

end ForgeDeno
