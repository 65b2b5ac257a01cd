import ForgeDeno.ConfigRepeat
import ForgeDeno.OverlayTypes

namespace ForgeDeno

open ExceptRules JsString List

def configGet (casing : Casing) (settings : Settings) (key : JsString) : Option ConfigValue :=
  readPath (.record settings) (splitKey casing key)

def dottedKey (path : List JsString) : JsString := JsString.join (js ".") path

/-- A name that a dotted key can spell: it is not empty, has no dot and no white space at its ends. -/
structure Spellable (name : JsString) : Prop where
  named : name ≠ []
  dotless : 0x2E ∉ name
  trimmed : trim name = name

def HasTwin (casing : Casing) (settings : Settings) (path : List JsString) (value : ConfigValue) : Prop :=
  splitKey casing (dottedKey path) ≠ path ∧
    leafAt (.record settings) (splitKey casing (dottedKey path)) = some value

inductive LoweredKeys (casing : Casing) : ConfigValue → Prop
  | leaf {node : ConfigValue} : node.isRecord = false → LoweredKeys casing node
  | record {members : Settings} : (∀ member ∈ members, casing.toLowerCase member.1 = member.1) →
    (∀ member ∈ members, LoweredKeys casing member.2) → LoweredKeys casing (.record members)

section trees

variable {casing : Casing} {settings : Settings}

theorem lowered_empty : LoweredKeys casing (.record []) :=
  .record (fun _ mem => absurd mem not_mem_nil) fun _ mem => absurd mem not_mem_nil

theorem lowered_members (h : LoweredKeys casing (.record settings)) :
    (∀ member ∈ settings, casing.toLowerCase member.1 = member.1) ∧
      ∀ member ∈ settings, LoweredKeys casing member.2 := by
  cases h with
  | leaf impossible => cases impossible
  | record keys children => exact ⟨keys, children⟩

theorem lowered_lookup (h : LoweredKeys casing (.record settings)) {key : JsString}
    {child : ConfigValue} (found : lookupMember settings key = some child) :
    casing.toLowerCase key = key ∧ LoweredKeys casing child := by
  have mem := lookupMember_mem found
  exact ⟨(lowered_members h).1 _ mem, (lowered_members h).2 _ mem⟩

variable {value : ConfigValue}

theorem lowered_setMember (h : LoweredKeys casing (.record settings)) {key : JsString}
    (lowered : casing.toLowerCase key = key) (inner : LoweredKeys casing value) :
    LoweredKeys casing (.record (setMember settings key value)) := by
  obtain ⟨keys, children⟩ := lowered_members h
  apply LoweredKeys.record
  · intro member mem
    rcases mem_setMember mem with old | rfl
    · exact keys member old
    · exact lowered
  · intro member mem
    rcases mem_setMember mem with old | rfl
    · exact children member old
    · exact inner

theorem lowered_path {node : ConfigValue} (h : LoweredKeys casing node) {path : List JsString}
    (read : readPath node path = some value) : ∀ part ∈ path, casing.toLowerCase part = part := by
  induction path generalizing node with
  | nil => exact nofun
  | cons part path ih =>
    cases node with
    | record members =>
      rw [readPath_cons] at read
      obtain ⟨child, found, later⟩ := Option.bind_eq_some_iff.mp read
      obtain ⟨lowered, inner⟩ := lowered_lookup h found
      exact forall_mem_cons.mpr ⟨lowered, ih inner later⟩
    | _ => cases read

mutual

theorem lowered_insensitive (stable : casing.Stable) :
    ∀ value : ConfigValue, LoweredKeys casing (insensitive casing value)
  | .null | .bool _ | .number _ | .string _ | .list _ => .leaf rfl
  | .record members => lowered_insensitiveMembers stable members [] lowered_empty

theorem lowered_insensitiveMembers (stable : casing.Stable) : ∀ (members result : Settings),
    LoweredKeys casing (.record result) → LoweredKeys casing (.record (insensitiveMembers casing result members))
  | [], _ => fun h => h
  | (key, nested) :: members, _ => fun h =>
    lowered_insensitiveMembers stable members _
      (lowered_setMember h (stable.again key) (lowered_insensitive stable nested))

end

theorem lowered_writePath (leaf : value.isRecord = false)
    {path : List JsString} (lowered : ∀ part ∈ path, casing.toLowerCase part = part)
    (h : LoweredKeys casing (.record settings)) :
    LoweredKeys casing (.record (writePath settings path value)) := by
  induction path generalizing settings with
  | nil => exact h
  | cons part path ih =>
    obtain ⟨first, later⟩ := forall_mem_cons.mp lowered
    cases path with
    | nil => exact lowered_setMember h first (.leaf leaf)
    | cons next path =>
      apply lowered_setMember h first
      apply ih later
      split
      next members found => exact (lowered_lookup h found).2
      next => exact lowered_empty

theorem lowered_setIniValue {path : List JsString}
    (leaf : value.isRecord = false) (lowered : ∀ part ∈ path, casing.toLowerCase part = part)
    (h : LoweredKeys casing (.record settings)) :
    LoweredKeys casing (.record (setIniValue settings path value)) := by
  unfold setIniValue
  split
  · exact lowered_writePath leaf lowered h
  · exact lowered_writePath rfl lowered h

theorem IsSegment.lowered (stable : casing.Stable) {part : JsString} (h : IsSegment casing part) :
    casing.toLowerCase part = part := by
  rw [← h.normal]
  exact stable.again _

theorem lowered_parseIni (stable : casing.Stable) {content : JsString} {source : Option JsString}
    {declared : JsString → Option ConfigValue} (parsed : parseIni casing content declared source = .ok settings) :
    LoweredKeys casing (.record settings) := by
  obtain ⟨_, stored⟩ := parseIni_ok.mp parsed
  have segments : ∀ line ∈ iniSettings casing content, ∀ part ∈ line.path, IsSegment casing part :=
    fun line mem => readLines_segments stable (fun part inside => absurd inside not_mem_nil) mem
  have kept : ∀ (lines : List IniSetting) (settings : Settings),
      (∀ line ∈ lines, ∀ part ∈ line.path, IsSegment casing part) →
      LoweredKeys casing (.record settings) →
      LoweredKeys casing (.record (lines.foldl (IniSetting.store casing declared) settings)) := by
    intro lines
    induction lines with
    | nil => exact fun _ _ h => h
    | cons line lines ih =>
      intro settings all h
      obtain ⟨first, later⟩ := forall_mem_cons.mp all
      apply ih _ later
      exact lowered_setIniValue (parseIniValue_leaf _ _) (fun part mem => (first part mem).lowered stable) h
  rw [← stored]
  exact kept _ _ segments lowered_empty

mutual

theorem lowered_merged : ∀ (value : ConfigValue) (existing : Option ConfigValue),
    (∀ node, existing = some node → LoweredKeys casing node) → LoweredKeys casing value →
      LoweredKeys casing (merged existing value)
  | .null, _ | .bool _, _ | .number _, _ | .string _, _ | .list _, _ => fun _ h => h
  | .record source, existing => by
    intro before h
    unfold merged
    split
    next target => exact lowered_mergeSettings source target (before _ rfl) h
    next => exact h

theorem lowered_mergeSettings : ∀ source target : Settings, LoweredKeys casing (.record target) →
    LoweredKeys casing (.record source) → LoweredKeys casing (.record (mergeSettings target source))
  | [], _ => fun h _ => h
  | (key, value) :: source, target => by
    intro before h
    obtain ⟨keys, children⟩ := lowered_members h
    obtain ⟨first, later⟩ := forall_mem_cons.mp keys
    obtain ⟨child, others⟩ := forall_mem_cons.mp children
    unfold mergeSettings mergeMember
    apply lowered_mergeSettings source _ _ (.record later others)
    apply lowered_setMember before first
    exact lowered_merged value _ (fun node found => (lowered_lookup before found).2) child

end

section leaves

variable {visit : List JsString → ConfigValue → ConfigValue}

mutual

theorem lowered_mapLeaf (keeps : ∀ path value, value.isRecord = false → (visit path value).isRecord = false) :
    ∀ (value : ConfigValue) (path : List JsString), LoweredKeys casing value →
    LoweredKeys casing (mapLeaf visit path value)
  | .null, path | .bool _, path | .number _, path | .string _, path | .list _, path =>
    fun _ => .leaf (keeps path _ rfl)
  | .record members, path => lowered_mapLeaves keeps members path

theorem lowered_mapLeaves (keeps : ∀ path value, value.isRecord = false → (visit path value).isRecord = false) :
    ∀ (members : Settings) (path : List JsString),
    LoweredKeys casing (.record members) → LoweredKeys casing (.record (mapLeaves visit path members))
  | [], _ => fun h => h
  | (key, value) :: members, path => by
    intro h
    obtain ⟨keys, children⟩ := lowered_members h
    obtain ⟨first, later⟩ := forall_mem_cons.mp keys
    obtain ⟨child, others⟩ := forall_mem_cons.mp children
    obtain ⟨laterKeys, laterChildren⟩ :=
      lowered_members (lowered_mapLeaves keeps members path (.record later others))
    unfold mapLeaves mapMember
    apply LoweredKeys.record
    · exact forall_mem_cons.mpr ⟨first, laterKeys⟩
    · exact forall_mem_cons.mpr ⟨lowered_mapLeaf keeps value (path ++ [key]) child, laterChildren⟩

end

end leaves

end trees

section loading

variable {host : ConfigHost} {env : Environment}

theorem lowered_readIniFile (stable : host.casing.Stable) {path source : JsString}
    {settings parsed : Settings} (h : readIniFile host path source settings = .ok parsed) :
    LoweredKeys host.casing (.record parsed) := by
  obtain ⟨content, _, h⟩ := bind_ok.mp h
  cases content with
  | none => cases h; exact lowered_empty
  | some content =>
    dsimp only at h
    split at h
    next tree made => cases h; exact lowered_parseIni stable made
    next => cases h

theorem lowered_readApplicationFile (stable : host.casing.Stable) {configDir : JsString}
    {settings : Settings} (h : readApplicationFile host env configDir = .ok settings) :
    LoweredKeys host.casing (.record settings) := by
  obtain ⟨found, read, h⟩ := bind_ok.mp h
  cases found with
  | none =>
    dsimp only at h
    split at h
    next => cases h; exact lowered_empty
    next => cases h
  | some application =>
    cases h
    generalize APPLICATION_FILES = candidates at read
    induction candidates with
    | nil => cases read
    | cons candidate candidates ih =>
      obtain ⟨content, _, read⟩ := bind_ok.mp read
      cases content with
      | none => exact ih read
      | some content =>
        dsimp only at read
        split at read
        next => cases read
        next parsed _ =>
          split at read
          next tree lowered =>
            cases read
            rw [← lowered]
            exact lowered_insensitive stable parsed
          next => cases read

theorem lowered_loadEnv (stable : host.casing.Stable) {prefixPath : JsString} {options : LoadEnvOptions}
    {settings : Settings} {after : Environment}
    (loaded : loadEnv host prefixPath options env = .ok (settings, after)) :
    LoweredKeys host.casing (.record settings) := by
  obtain ⟨sources, read⟩ := sources_of_loadEnv loaded
  rw [loadEnv_settings read] at loaded
  obtain ⟨rfl, _⟩ := Prod.mk.inj (Except.ok.inj loaded)
  obtain ⟨application, first, read⟩ := bind_ok.mp read
  obtain ⟨defaultIni, second, read⟩ := bind_ok.mp read
  obtain ⟨applicationIni, third, read⟩ := bind_ok.mp read
  obtain ⟨envFiles, _, read⟩ := bind_ok.mp read
  cases read
  have last : LoweredKeys host.casing (.record applicationIni) := by
    unfold readApplicationIni at third
    split at third
    · cases third; exact lowered_empty
    · exact lowered_readIniFile stable third
  have merged : LoweredKeys host.casing (.record (FileSources.merged
      ⟨application, defaultIni, applicationIni, envFiles⟩)) :=
    lowered_mergeSettings _ _ (lowered_mergeSettings _ _ (lowered_readApplicationFile stable first)
      (lowered_readIniFile stable second)) last
  unfold settingsUnder
  split
  · exact lowered_mapLeaves (fun path value leaf => overridden_leaf _ path value leaf) _ _ merged
  · exact merged

theorem splitKey_dottedKey_iff {casing : Casing} (stable : casing.Stable) {path : List JsString}
    (some_path : path ≠ []) (lowered : ∀ part ∈ path, casing.toLowerCase part = part) :
    splitKey casing (dottedKey path) = path ↔ ∀ part ∈ path, Spellable part := by
  constructor
  · intro same part mem
    have segment : IsSegment casing part := by
      have inside : part ∈ splitKey casing (dottedKey path) := by
        rw [same]
        exact mem
      exact isSegment_of_mem_splitKey stable inside
    refine ⟨segment.named, segment.dotless, ?_⟩
    rw [← segment.normal]
    exact stable.trimmed part
  · intro spellable
    apply splitKey_segments some_path
    intro part mem
    refine ⟨(spellable part mem).named, (spellable part mem).dotless, ?_⟩
    unfold keySegment
    rw [(spellable part mem).trimmed, lowered part mem]

/-- Every leaf of the loaded settings is what `get` returns for its dotted key exactly when every leaf
has names that a dotted key can spell, or a twin where the key leads. -/
theorem settings_addressable (stable : host.casing.Stable) {prefixPath : JsString}
    {options : LoadEnvOptions} {settings : Settings} {after : Environment}
    (loaded : loadEnv host prefixPath options env = .ok (settings, after)) :
    (∀ path value, leafAt (.record settings) path = some value →
      configGet host.casing settings (dottedKey path) = some value) ↔
    ∀ path value, leafAt (.record settings) path = some value →
      (∀ part ∈ path, Spellable part) ∨ HasTwin host.casing settings path value := by
  have tree := lowered_loadEnv stable loaded
  have one : ∀ path value, leafAt (.record settings) path = some value →
      (configGet host.casing settings (dottedKey path) = some value ↔
        (∀ part ∈ path, Spellable part) ∨ HasTwin host.casing settings path value) := by
    intro path value leaf
    obtain ⟨read, no_record⟩ := leafAt_iff.mp leaf
    have some_path : path ≠ [] := by
      intro empty
      rw [empty] at read
      cases Option.some.inj read
      cases no_record
    have spelled := splitKey_dottedKey_iff stable some_path (lowered_path tree read)
    unfold configGet HasTwin
    rw [leafAt_iff, ← spelled]
    constructor
    · intro found
      by_cases same : splitKey host.casing (dottedKey path) = path
      · exact .inl same
      · exact .inr ⟨same, found, no_record⟩
    · rintro (same | ⟨_, found, _⟩)
      · rw [same]
        exact read
      · exact found
  constructor
  · intro all path value leaf
    exact (one path value leaf).mp (all path value leaf)
  · intro all path value leaf
    exact (one path value leaf).mpr (all path value leaf)

end loading

def jsonHost (content : JsString) : ConfigHost where
  casing := asciiCasing
  files path := if path = js "/app/application.json" then .text content else .missing
  parseYaml _ := none
  parseDotenv _ _ := none
  workingDirectory := js "/app"
  readable _ := true
  writable _ _ := true

def loadedJson (content : JsString) : Option Settings :=
  (loadEnv (jsonHost content) [] {} fun _ => none).toOption.map Prod.fst

theorem port_addressable : ∃ settings after,
    loadEnv (jsonHost (js "\x7b\"port\":80\x7d")) [] {} (fun _ => none) = .ok (settings, after) ∧
      ((∀ path value, leafAt (.record settings) path = some value →
        configGet asciiCasing settings (dottedKey path) = some value) ↔
      ∀ path value, leafAt (.record settings) path = some value →
        (∀ part ∈ path, Spellable part) ∨ HasTwin asciiCasing settings path value) := by
  have accepted : (loadEnv (jsonHost (js "\x7b\"port\":80\x7d")) [] {} fun _ => none).isOk = true := by
    decide +kernel
  cases loaded : loadEnv (jsonHost (js "\x7b\"port\":80\x7d")) [] {} fun _ => none with
  | error error =>
    rw [loaded] at accepted
    cases accepted
  | ok result =>
    obtain ⟨settings, after⟩ := result
    exact ⟨settings, after, rfl,
      @settings_addressable (jsonHost (js "\x7b\"port\":80\x7d")) _ asciiCasing_stable _ _ _ _ loaded⟩

/-- A name with a dot is out of reach. -/
theorem dotted_name_unreachable :
    ((loadedJson (js "\x7b\"a.b\":\"x\"\x7d")).bind fun settings =>
      (leafAt (.record settings) [js "a.b"]).bind ConfigValue.text?) = some (js "x") ∧
    ((loadedJson (js "\x7b\"a.b\":\"x\"\x7d")).map fun settings =>
      (configGet asciiCasing settings (dottedKey [js "a.b"])).isSome) = some false := by
  constructor
  · decide +kernel
  · decide +kernel

end ForgeDeno
