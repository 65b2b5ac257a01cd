import ForgeDeno.DeclaredTypes

namespace ForgeDeno

open ExceptRules

/-- What the sources under the process environment hold: the trees of the application file and the INI
files, and the entries of the env files in the order in which they are set. -/
structure FileSources where
  application : Settings
  defaultIni : Settings
  applicationIni : Settings
  envFiles : List (JsString × JsString)

namespace FileSources

def merged (s : FileSources) : Settings :=
  mergeSettings (mergeSettings s.application s.defaultIni) s.applicationIni

def overlay (s : FileSources) : EnvOverlay := s.envFiles.reverse

def declared (s : FileSources) (path : List JsString) : Option ConfigValue :=
  (leafAt (.record s.applicationIni) path).or
    ((leafAt (.record s.defaultIni) path).or (leafAt (.record s.application) path))

end FileSources

namespace FileSources

end FileSources

section host

variable (host : ConfigHost)

def readApplicationIni (configDir : JsString) (env : Environment) (settings : Settings) :
    Except ConfigError Settings :=
  match applicationIniName host env settings with
  | none => .ok []
  | some name => readIniFile host (joinPath configDir name) name settings

def fileSources (prefixPath : JsString) (exported : Bool) (env : Environment) :
    Except ConfigError FileSources := do
  let configDir := resolveConfigDir host env prefixPath
  let application ← readApplicationFile host env configDir
  let defaultIni ← readIniFile host (joinPath configDir DEFAULT_INI) DEFAULT_INI application
  let applicationIni ← readApplicationIni host configDir env (mergeSettings application defaultIni)
  let envFiles ← readEnvFiles host configDir
    (mergeSettings (mergeSettings application defaultIni) applicationIni) exported env
  return { application, defaultIni, applicationIni, envFiles }

variable {host} {env env' : Environment}

theorem loadEnv_sources {prefixPath : JsString} {options : LoadEnvOptions} {sources : FileSources}
    (h : fileSources host prefixPath options.exportEnvFiles env = .ok sources) :
    loadEnv host prefixPath options env =
      let after := if options.exportEnvFiles then exportEntries host sources.envFiles env else env
      .ok (if options.environmentOverrides then
        applyEnvOverrides host sources.overlay after sources.merged else sources.merged, after) := by
  obtain ⟨application, first, h⟩ := bind_ok.mp h
  obtain ⟨defaultIni, second, h⟩ := bind_ok.mp h
  obtain ⟨applicationIni, third, h⟩ := bind_ok.mp h
  obtain ⟨envFiles, fourth, h⟩ := bind_ok.mp h
  cases h
  have later : loadIniFiles host env (resolveConfigDir host env prefixPath) application =
      .ok (mergeSettings (mergeSettings application defaultIni) applicationIni) := by
    unfold loadIniFiles mergeIniFile
    rw [second]
    show (match applicationIniName host env (mergeSettings application defaultIni) with
      | none => Except.ok (mergeSettings application defaultIni)
      | some name => (readIniFile host (joinPath (resolveConfigDir host env prefixPath) name) name
          (mergeSettings application defaultIni)).map
          (mergeSettings (mergeSettings application defaultIni))) = _
    unfold readApplicationIni at third
    cases named : applicationIniName host env (mergeSettings application defaultIni) with
    | none =>
      rw [named] at third
      cases third
      rfl
    | some name =>
      rw [named] at third
      dsimp only at third ⊢
      rw [third]
      rfl
  unfold loadEnv
  dsimp only
  rw [first]
  show (loadIniFiles host env _ application >>= _) = _
  rw [later]
  show (loadEnvFiles host _ _ _ env >>= _) = _
  unfold loadEnvFiles
  rw [fourth]
  rfl

theorem readEnv_exported {entries : List (JsString × JsString)} {name : JsString}
    (absent : lookupMember entries.reverse name = none) :
    readEnv host (exportEntries host entries env) name = readEnv host env name := by
  have others : ∀ entry ∈ entries, entry.1 ≠ name := by
    intro entry mem same
    have found : (lookupMember entries.reverse name).isSome = true := by
      unfold lookupMember
      rw [Option.isSome_map, List.find?_isSome]
      exact ⟨entry, List.mem_reverse.mpr mem, beq_iff_eq.mpr same⟩
    rw [absent] at found
    cases found
  have same : exportEntries host entries env name = env name := by
    clear absent
    induction entries generalizing env with
    | nil => rfl
    | cons entry entries ih =>
      have differs := others entry List.mem_cons_self
      have first : trySetEnv host env entry.1 entry.2 name = env name := by
        unfold trySetEnv
        split
        · exact if_neg (Ne.symm differs)
        · rfl
      exact (ih fun other mem => others other (List.mem_cons_of_mem entry mem)).trans first
  unfold readEnv
  rw [same]

end host

/-- A directory with a `default.ini` that lists an env file; each of the three sets the port. -/
def portHost : ConfigHost where
  casing := asciiCasing
  files path :=
    if path = js "/app/default.ini" then .text (js "port = a\n[env]\nfiles = .env")
    else if path = js "/app/.env" then .text (js "PORT=b")
    else .missing
  parseYaml _ := none
  parseDotenv _ content := if content = js "PORT=b" then some [(js "PORT", js "b")] else none
  workingDirectory := js "/app"
  readable _ := true
  writable _ _ := true

def portEnv (value : Option JsString) : Environment := fun name =>
  if name = js "PORT" then value else none

def ConfigValue.text? : ConfigValue → Option JsString
  | .string s => some s
  | _ => none

end ForgeDeno
