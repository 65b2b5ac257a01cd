import ForgeDeno.ExceptRules
import ForgeDeno.PathWrites

namespace ForgeDeno

open ExceptRules JsString List

def KeepsType : ConfigValue → ConfigValue → Prop
  | .string _, now => now.isString = true
  | .list items, now => ∃ replaced, now = .list replaced ∧
      (items.all ConfigValue.isString = true → replaced.all ConfigValue.isString = true)
  | .bool _, now => ∃ value, now = .bool value
  | .number _, now => ∃ value, now = .number value
  | _, _ => True

/-- The text spells a value of the declared type; only booleans and numbers have a spelling. -/
def Spells (casing : Casing) (text : JsString) : ConfigValue → Prop
  | .bool _ => (parseBoolean casing text).isSome = true
  | .number _ => (toNumber text).isFinite = true
  | _ => True

/-- The line stores a value where there is none: no other line touches its key, and none of the key's
segments is a name that every object inherits, under which the source finds a function. -/
def AloneIn (lines : List IniSetting) (line : IniSetting) : Prop :=
  (∀ part ∈ line.path, part ∉ inheritedNames) ∧
    ∃ before after, lines = before ++ line :: after ∧ ∀ other ∈ before ++ after, Apart other.path line.path

/-- What an INI file may make of a declared value: a quoted value is a string and a bracketed one a list,
any other value keeps the declared type. -/
def IniKeepsType (casing : Casing) (raw : JsString) (declared now : ConfigValue) : Prop :=
  if (trimIniValue raw).2 then now.isString = true
  else if (trimIniValue raw).1.startsWith 0x5B && (trimIniValue raw).1.endsWith 0x5D then
    ∃ items, now = .list items
  else Spells casing (trimIniValue raw).1 declared → KeepsType declared now

section values

variable {casing : Casing}

theorem keepsType_self (value : ConfigValue) : KeepsType value value := by
  cases value with
  | null => trivial
  | bool b => exact ⟨b, rfl⟩
  | number n => exact ⟨n, rfl⟩
  | string s => rfl
  | list items => exact ⟨items, rfl, id⟩
  | record members => trivial

theorem all_strings (texts : List JsString) : (texts.map ConfigValue.string).all ConfigValue.isString = true := by
  rw [all_map, all_eq_true]
  intro text _
  rfl

theorem bareList_strings (value : JsString) : (bareList casing value true).all ConfigValue.isString = true := by
  have items : bareList casing value true = (splitCommaSeparated value).map ConfigValue.string := rfl
  rw [items]
  exact all_strings _

theorem parseList_strings (value : JsString) : (parseList casing value true).all ConfigValue.isString = true := by
  unfold parseList
  split
  next =>
    split
    next items decoded =>
      unfold decodedList at decoded
      split at decoded
      next parsed _ =>
        obtain ⟨texts, _, rfl⟩ := Option.map_eq_some_iff.mp decoded
        exact all_strings texts
      next => cases decoded
    next =>
      split
      · exact bareList_strings _
      · exact bareList_strings _
  next => exact bareList_strings _

theorem parseBoolean_trim (text : JsString) : parseBoolean casing text.trim = parseBoolean casing text := by
  unfold parseBoolean
  rw [trim_trim]

theorem toNumber_trim (text : JsString) : toNumber text.trim = toNumber text := by
  unfold toNumber
  rw [trim_trim]

theorem parseEnvValue_keeps {raw : JsString} {template : ConfigValue} (spells : Spells casing raw template) :
    KeepsType template (parseEnvValue casing raw template) := by
  cases template with
  | null => trivial
  | bool b =>
    obtain ⟨parsed, read⟩ := Option.isSome_iff_exists.mp spells
    unfold parseEnvValue
    dsimp only
    rw [parseBoolean_trim, read]
    exact ⟨parsed, rfl⟩
  | number n =>
    have finite : (toNumber raw).isFinite = true := spells
    unfold parseEnvValue
    dsimp only
    rw [toNumber_trim, if_pos finite]
    exact ⟨toNumber raw, rfl⟩
  | string s => rfl
  | list items =>
    refine ⟨_, rfl, fun strings => ?_⟩
    rw [strings]
    exact parseList_strings _
  | record members => trivial

theorem parseIniValue_keeps (raw : JsString) (template : ConfigValue) :
    IniKeepsType casing raw template (parseIniValue casing raw (some template)) := by
  unfold IniKeepsType parseIniValue
  cases trimIniValue raw with
  | mk value quoted =>
    dsimp only
    cases quoted with
    | true => rfl
    | false =>
      rw [if_neg Bool.false_ne_true, if_neg Bool.false_ne_true]
      split
      next => exact ⟨_, rfl⟩
      next =>
        intro spells
        cases template with
        | null => trivial
        | _ => exact parseEnvValue_keeps spells

end values

section trees

variable {casing : Casing} {declared : JsString → Option ConfigValue}

theorem readLines_segments (stable : casing.Stable) {lines : List JsString} {index : Nat}
    {path : List JsString} (segments : ∀ part ∈ path, IsSegment casing part) {line : IniSetting}
    (mem : line ∈ (readLines casing lines index path).1) : ∀ part ∈ line.path, IsSegment casing part := by
  induction lines generalizing index path with
  | nil => cases mem
  | cons text lines ih =>
    unfold readLines at mem
    split at mem
    next => exact ih segments mem
    next header reads =>
      obtain ⟨name, rfl⟩ := header_of_readLine reads
      exact ih (fun part inside => isSegment_of_mem_splitKey stable inside) mem
    next leaf raw reads =>
      rcases mem_cons.mp mem with rfl | later
      · obtain ⟨_, key, rfl⟩ := setting_of_readLine reads
        intro part inside
        exact (mem_append.mp inside).elim (segments part)
          fun inside => isSegment_of_mem_splitKey stable inside
      · exact ih segments later
    next => cases mem

theorem readPath_parseIni {content : JsString} {source : Option JsString} {parsed : Settings}
    (done : parseIni casing content declared source = .ok parsed) {line : IniSetting}
    (alone : AloneIn (iniSettings casing content) line) :
    readPath (.record parsed) line.path = some (line.value casing declared) := by
  obtain ⟨_, before, after, lines, apart⟩ := alone
  have mem : line ∈ iniSettings casing content := by
    rw [lines]
    exact mem_append_right before mem_cons_self
  obtain ⟨_, stored⟩ := parseIni_ok.mp done
  rw [lines] at stored
  rw [← stored]
  exact readPath_stores_alone (readLines_path mem) apart

variable {host : ConfigHost}

theorem distinct_readIniFile {path source : JsString} {settings parsed : Settings}
    (h : readIniFile host path source settings = .ok parsed) : Distinct (.record parsed) := by
  obtain ⟨content, _, h⟩ := bind_ok.mp h
  cases content with
  | none => cases h; exact distinct_empty
  | some content =>
    dsimp only at h
    split at h
    next tree made => cases h; exact distinct_parseIni made
    next => cases h

/-- Every line of the file that sets its key alone keeps the type that the settings before it declare. -/
def TypesKept (host : ConfigHost) (path : JsString) (settings parsed : Settings) : Prop :=
  ∀ content, host.files path = .text content → ∀ line, AloneIn (iniSettings host.casing content) line →
    ∀ template, leafAt (.record settings) line.path = some template →
      ∃ now, leafAt (.record parsed) line.path = some now ∧ IniKeepsType host.casing line.raw template now

variable {path source : JsString} {settings parsed : Settings}

theorem readIniFile_types (stable : host.casing.Stable)
    (read : readIniFile host path source settings = .ok parsed) : TypesKept host path settings parsed := by
  intro content text line alone template leaf
  obtain ⟨_, before, after, lines, _⟩ := id alone
  have mem : line ∈ iniSettings host.casing content := by
    rw [lines]
    exact mem_append_right before mem_cons_self
  unfold readIniFile readOptionalFile at read
  rw [text] at read
  dsimp only [bind, Except.bind] at read
  split at read
  next tree made =>
    cases read
    have stored := readPath_parseIni made alone
    have known : readPath (.record settings) (splitKey host.casing line.key) = some template := by
      have segments := @readLines_segments _ stable _ _ []
        nofun _ mem
      unfold IniSetting.key
      rw [splitKey_segments (readLines_path mem) segments]
      exact (leafAt_iff.mp leaf).1
    have value : line.value host.casing
        (fun key => readPath (.record settings) (splitKey host.casing key)) =
          parseIniValue host.casing line.raw (some template) :=
      congrArg (parseIniValue host.casing line.raw) known
    rw [value] at stored
    exact ⟨_, leafAt_iff.mpr ⟨stored, parseIniValue_leaf _ _⟩, parseIniValue_keeps line.raw template⟩
  next => cases read

variable {merged : Settings}

theorem ini_keeps_type (stable : host.casing.Stable)
    (done : mergeIniFile host path source settings = .ok merged) : TypesKept host path settings merged := by
  intro content text line alone template leaf
  obtain ⟨parsed, read, rfl⟩ := map_ok done
  obtain ⟨now, found, keeps⟩ := readIniFile_types stable read content text line alone template leaf
  refine ⟨now, ?_, keeps⟩
  rw [leafAt_merge (distinct_readIniFile read)]
  unfold leafAt at found
  cases told : tells (.record parsed) line.path with
  | value node =>
    rw [told] at found
    exact found
  | table => rw [told] at found; cases found
  | blocked => rw [told] at found; cases found
  | silent => rw [told] at found; cases found

theorem overridden_leaf {env : Environment} (overlay : EnvOverlay) (path : List JsString) (value : ConfigValue)
    (leaf : value.isRecord = false) : (overridden host overlay env path value).isRecord = false := by
  unfold overridden
  dsimp only
  split
  · exact leaf
  · exact parseEnvValue_leaf _ _

end trees

def asciiCasing : Casing where
  toLowerCase s := s.map fun u => if 0x41 ≤ u ∧ u ≤ 0x5A then u + 0x20 else u
  toUpperCase s := s.map fun u => if 0x61 ≤ u ∧ u ≤ 0x7A then u - 0x20 else u

theorem letter_visible {u : UInt16} (low : 0x41 ≤ u) (high : u ≤ 0x7A) : isWhiteSpace u = false := by
  unfold isWhiteSpace
  simp only [UInt16.le_iff_toNat_le, ← UInt16.toNat_inj] at *
  simp at *
  omega

theorem asciiCasing_stable : asciiCasing.Stable := by
  let lower (u : UInt16) : UInt16 := if 0x41 ≤ u ∧ u ≤ 0x5A then u + 0x20 else u
  have shape : ∀ s : JsString, asciiCasing.toLowerCase s = s.map lower := fun _ => rfl
  have space : ∀ u, isWhiteSpace (lower u) = isWhiteSpace u := by
    intro u
    dsimp only [lower]
    split
    next capital =>
      have low : 0x41 ≤ u + 0x20 := by grind
      have high : u + 0x20 ≤ 0x7A := by grind
      have here : u ≤ 0x7A := by grind
      rw [letter_visible low high, letter_visible capital.1 here]
    next => rfl
  have twice : ∀ u, lower (lower u) = lower u := by
    intro u
    dsimp only [lower]
    grind
  have trimmed : ∀ s : JsString, trim (s.map lower) = (trim s).map lower := by
    intro s
    have composed : isWhiteSpace ∘ lower = isWhiteSpace := funext space
    unfold trim
    rw [dropWhile_map, composed, ← map_reverse, dropWhile_map, composed, map_reverse]
  constructor
  · intro text
    rw [shape, shape, map_map]
    apply map_congr_left
    intro u _
    exact twice u
  · intro text
    rw [shape, trimmed, trim_trim]
  · intro text absent mem
    rw [shape] at mem
    obtain ⟨u, inside, dot⟩ := mem_map.mp mem
    have same : u = 0x2E := by
      dsimp only [lower] at dot
      grind
    exact absent (same ▸ inside)

end ForgeDeno
