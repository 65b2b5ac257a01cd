import ForgeDeno.IniText
import ForgeDeno.SettingPaths

namespace ForgeDeno

open JsString JsonText List

inductive IniReading where
  | nothing
  | header (path : List JsString)
  | setting (leaf : List JsString) (raw : JsString)
  | malformed (message : JsString)

/-- A `key = value` line under its section. -/
structure IniSetting where
  path : List JsString
  raw : JsString

/-- The key that `declared` is asked for. -/
def IniSetting.key (setting : IniSetting) : JsString := JsString.join (js ".") setting.path

section reading

variable (casing : Casing)

def readLine (line : JsString) : IniReading :=
  let text := line.trim
  if text = [] ∨ text.startsWith 0x3B ∨ text.startsWith 0x23 then .nothing
  else if text.startsWith 0x5B then
    match parseSection casing text with
    | .ok path => .header path
    | .error message => .malformed message
  else match cut? 0x3D text with
    | none => .malformed (js "expected [section] or key = value, got " ++ quote text)
    | some (key, raw) =>
      let leaf := splitKey casing key
      if leaf = [] then .malformed (js "missing key name in " ++ quote text) else .setting leaf raw

def readLines : List JsString → Nat → List JsString → List IniSetting × Option (Nat × JsString)
  | [], _, _ => ([], none)
  | line :: lines, index, path =>
    match readLine casing line with
    | .nothing => readLines lines (index + 1) path
    | .header path => readLines lines (index + 1) path
    | .setting leaf raw =>
      let later := readLines lines (index + 1) path
      (⟨path ++ leaf, raw⟩ :: later.1, later.2)
    | .malformed message => ([], some (index + 1, message))

def iniSettings (content : JsString) : List IniSetting := (readLines casing (splitLines content) 0 []).1

def IniSetting.value (declared : JsString → Option ConfigValue) (setting : IniSetting) : ConfigValue :=
  parseIniValue casing setting.raw (declared setting.key)

def IniSetting.store (declared : JsString → Option ConfigValue) (settings : Settings)
    (setting : IniSetting) : Settings :=
  setIniValue settings setting.path (setting.value casing declared)

end reading

section parsing

variable {casing : Casing} {declared : JsString → Option ConfigValue}

theorem parseIniLines_eq (lines : List JsString) (index : Nat) (path : List JsString)
    (settings : Settings) : parseIniLines casing declared lines index path settings =
      match (readLines casing lines index path).2 with
      | some failure => .error failure
      | none => .ok ((readLines casing lines index path).1.foldl (IniSetting.store casing declared)
          settings) := by
  induction lines generalizing index path settings with
  | nil => rfl
  | cons line lines ih =>
    unfold parseIniLines readLines readLine
    dsimp only
    split
    next => exact ih (index + 1) path settings
    next =>
      split
      next =>
        cases parseSection casing line.trim with
        | ok header => exact ih (index + 1) header settings
        | error message => rfl
      next =>
        cases cut? 0x3D line.trim with
        | none => rfl
        | some parts =>
          dsimp only
          split
          next => rfl
          next => exact ih (index + 1) path _

theorem parseIni_ok {content : JsString} {source : Option JsString} {settings : Settings} :
    parseIni casing content declared source = .ok settings ↔
      (readLines casing (splitLines content) 0 []).2 = none ∧
        (iniSettings casing content).foldl (IniSetting.store casing declared) [] = settings := by
  unfold parseIni iniSettings
  rw [parseIniLines_eq]
  cases (readLines casing (splitLines content) 0 []).2 with
  | none => simp
  | some failure => simp

theorem readLines_congr {lines lines' : List JsString}
    (alike : List.Forall₂ (fun line line' => readLine casing line = readLine casing line') lines lines')
    (index : Nat) (path : List JsString) :
    readLines casing lines index path = readLines casing lines' index path := by
  induction alike generalizing index path with
  | nil => rfl
  | cons same _ ih =>
    unfold readLines
    rw [same]
    split
    · exact ih (index + 1) path
    · exact ih (index + 1) _
    · rw [ih (index + 1) path]
    · rfl

theorem readLine_trim {line line' : JsString} (same : line.trim = line'.trim) :
    readLine casing line = readLine casing line' := by
  unfold readLine
  rw [same]

theorem cut_first {u : UInt16} {before : JsString} (absent : u ∉ before) (after : JsString) :
    cut? u (before ++ u :: after) = some (before, after) := by
  have kept : ∀ v ∈ before, (decide (v ≠ u)) = true := by
    intro v mem
    exact decide_eq_true fun same => absent (same ▸ mem)
  unfold cut?
  rw [if_pos (mem_append_right _ mem_cons_self), takeWhile_append_of_pos kept,
    dropWhile_append_of_pos kept]
  simp

theorem readLine_keyed {key : JsString} (no_equals : 0x3D ∉ key)
    (start : ∀ u ∈ (key.dropWhile isWhiteSpace).head?, u ≠ 0x3B ∧ u ≠ 0x23 ∧ u ≠ 0x5B)
    (named : splitKey casing key ≠ []) (raw : JsString) : readLine casing (key ++ 0x3D :: raw) =
      .setting (splitKey casing key) (raw.rdropWhile isWhiteSpace) := by
  have trimmed : trim (key ++ 0x3D :: raw) =
      key.dropWhile isWhiteSpace ++ 0x3D :: raw.rdropWhile isWhiteSpace := trim_visible rfl _ _
  have absent : (0x3D : UInt16) ∉ key.dropWhile isWhiteSpace :=
    fun mem => no_equals ((dropWhile_suffix _).subset mem)
  have starts : ∀ u : UInt16, u ≠ 0x3D → (∀ v ∈ (key.dropWhile isWhiteSpace).head?, v ≠ u) →
      JsString.startsWith (key.dropWhile isWhiteSpace ++ 0x3D :: raw.rdropWhile isWhiteSpace) u = false := by
    intro u other differs
    unfold JsString.startsWith
    cases first : key.dropWhile isWhiteSpace with
    | nil => simp [Ne.symm other]
    | cons v rest =>
      rw [first] at differs
      simp [differs v rfl]
  unfold readLine
  dsimp only
  rw [trimmed, starts 0x3B (by decide) fun v mem => (start v mem).1,
    starts 0x23 (by decide) fun v mem => (start v mem).2.1,
    starts 0x5B (by decide) fun v mem => (start v mem).2.2, cut_first absent]
  simp [splitKey_dropWhile, named]

theorem header_of_readLine {line : JsString} {path : List JsString}
    (reads : readLine casing line = .header path) : ∃ name, path = splitKey casing name := by
  unfold readLine at reads
  dsimp only at reads
  split at reads
  next => cases reads
  next =>
    split at reads
    next =>
      split at reads
      next header parsed =>
        cases reads
        unfold parseSection at parsed
        split at parsed
        next => cases parsed
        next name rest _ =>
          dsimp only at parsed
          split at parsed
          next => cases parsed
          next =>
            cases parsed
            exact ⟨name.tail, rfl⟩
      next => cases reads
    next =>
      split at reads
      next => cases reads
      next => split at reads <;> cases reads

theorem setting_of_readLine {line raw : JsString} {leaf : List JsString}
    (reads : readLine casing line = .setting leaf raw) : leaf ≠ [] ∧ ∃ key, leaf = splitKey casing key := by
  unfold readLine at reads
  dsimp only at reads
  split at reads
  next => cases reads
  next =>
    split at reads
    next => split at reads <;> cases reads
    next =>
      split at reads
      next => cases reads
      next key raw _ =>
        split at reads
        next => cases reads
        next some_leaf =>
          cases reads
          exact ⟨some_leaf, key, rfl⟩

def iniText (lines : List JsString) : JsString := JsString.join (js "\n") lines

theorem readLines_iniText {lines : List JsString} (unbroken : ∀ line ∈ lines, 0x0A ∉ line) (index : Nat)
    (path : List JsString) : readLines casing (splitLines (iniText lines)) index path =
      readLines casing lines index path := by
  have chopped : ∀ line : JsString,
      trim (if line.endsWith 0x0D then line.dropLast else line) = line.trim := by
    intro line
    split
    next ends =>
      have last : line.getLast? = some 0x0D := by simpa [JsString.endsWith] using ends
      obtain ⟨front, rfl⟩ := getLast?_eq_some_iff.mp last
      have blank : ∀ u ∈ ([0x0D] : JsString), isWhiteSpace u = true := by
        intro u mem
        rw [mem_singleton.mp mem]
        rfl
      rw [dropLast_concat, trim_append_blank blank]
    next => rfl
  have newline : js "\n" = [0x0A] := by decide
  unfold splitLines iniText
  dsimp only
  rw [newline]
  cases lines with
  | nil => rfl
  | cons line lines =>
    rw [split_join (cons_ne_nil _ _) unbroken]
    apply readLines_congr
    have whole := dropLast_append_getLast (cons_ne_nil line lines)
    rw [getLast?_eq_some_getLast (cons_ne_nil line lines), Option.toList_some]
    conv_rhs => rw [← whole]
    apply rel_append
    · rw [List.forall₂_map_left_iff, List.forall₂_same]
      exact fun other _ => readLine_trim (chopped other)
    · exact .cons rfl .nil

end parsing

end ForgeDeno
