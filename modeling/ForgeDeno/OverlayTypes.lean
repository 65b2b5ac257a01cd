import ForgeDeno.ConfigPrecedence

namespace ForgeDeno

open JsString List

section trees

variable {host : ConfigHost} {settings : Settings}

theorem env_keeps_type {overlay : EnvOverlay} {env : Environment} {leafPath : List JsString}
    {value : ConfigValue} (leaf : leafAt (.record settings) leafPath = some value)
    (spells : ∀ raw, (lookupMember overlay (envNameFromPath host.casing leafPath)).or
      (readEnv host env (envNameFromPath host.casing leafPath)) = some raw → Spells host.casing raw value) :
    ∃ now, leafAt (.record (applyEnvOverrides host overlay env settings)) leafPath = some now ∧
      KeepsType value now := by
  unfold applyEnvOverrides
  rw [leafAt_mapLeaves fun path value leaf => overridden_leaf _ path value leaf, leaf]
  refine ⟨_, rfl, ?_⟩
  rw [nil_append]
  unfold overridden
  dsimp only
  split
  next => exact keepsType_self value
  next raw set => exact parseEnvValue_keeps (spells raw set)

end trees

/-- Overlays keep declared types: a variable whose text spells a value of the declared type keeps it, and
so does a line of an INI file that sets its key alone and whose value is neither quoted, which makes it a
string, nor in brackets, which makes it a list. -/
theorem overlay_types {host : ConfigHost} (stable : host.casing.Stable) (settings : Settings) :
    (∀ (overlay : EnvOverlay) (env : Environment) (path : List JsString) (value : ConfigValue),
      leafAt (.record settings) path = some value →
      (∀ raw, (lookupMember overlay (envNameFromPath host.casing path)).or
        (readEnv host env (envNameFromPath host.casing path)) = some raw → Spells host.casing raw value) →
      ∃ now, leafAt (.record (applyEnvOverrides host overlay env settings)) path = some now ∧
        KeepsType value now) ∧
    ∀ (file source : JsString) (merged : Settings), mergeIniFile host file source settings = .ok merged →
      TypesKept host file settings merged :=
  ⟨fun _ _ _ _ leaf spells => env_keeps_type leaf spells, fun _ _ _ done => ini_keeps_type stable done⟩

def iniHost (content : JsString) : ConfigHost where
  casing := asciiCasing
  files path := if path = js "/app/default.ini" then .text content else .missing
  parseYaml _ := none
  parseDotenv _ _ := none
  workingDirectory := js "/app"
  readable _ := true
  writable _ _ := true

def portLine : IniSetting := ⟨[js "port"], js " 8080"⟩

/-- A declared port is replaced by a number. -/
theorem port_stays_number : ∃ merged now,
    mergeIniFile (iniHost (js "port = 8080")) (js "/app/default.ini") DEFAULT_INI
        [(js "port", .number 80)] = .ok merged ∧
      leafAt (.record merged) [js "port"] = some now ∧
      IniKeepsType asciiCasing (js " 8080") (.number 80) now := by
  have accepted : (mergeIniFile (iniHost (js "port = 8080")) (js "/app/default.ini") DEFAULT_INI
      [(js "port", .number 80)]).isOk = true := by
    decide
  have lines : iniSettings asciiCasing (js "port = 8080") = [portLine] := rfl
  have alone : AloneIn (iniSettings asciiCasing (js "port = 8080")) portLine :=
    ⟨by decide, [], [], lines, fun _ mem => absurd mem List.not_mem_nil⟩
  cases done : mergeIniFile (iniHost (js "port = 8080")) (js "/app/default.ini") DEFAULT_INI
      [(js "port", .number 80)] with
  | error error =>
    rw [done] at accepted
    cases accepted
  | ok merged =>
    have content : (iniHost (js "port = 8080")).files (js "/app/default.ini") = .text (js "port = 8080") := by
      dsimp only [iniHost]
      rw [if_pos rfl]
    have kept := (@overlay_types (iniHost (js "port = 8080")) asciiCasing_stable
      [(js "port", .number 80)]).2 _ _ merged done _ content portLine alone (.number 80) rfl
    obtain ⟨now, found, keeps⟩ := kept
    exact ⟨merged, now, rfl, found, keeps⟩

/-- A declared name becomes a list by its brackets, and a declared list a string by its quotes. -/
theorem explicit_forms_change_types :
    ((mergeIniFile (iniHost (js "name = [x]")) (js "/app/default.ini") DEFAULT_INI
        [(js "name", .string (js "a"))]).toOption.bind fun merged =>
      (leafAt (.record merged) [js "name"]).map ConfigValue.isString) = some false ∧
    ((mergeIniFile (iniHost (js "groups = \"x\"")) (js "/app/default.ini") DEFAULT_INI
        [(js "groups", .list [.string (js "a")])]).toOption.bind fun merged =>
      (leafAt (.record merged) [js "groups"]).map ConfigValue.isString) = some true := by
  constructor
  · decide +kernel
  · decide +kernel

end ForgeDeno
