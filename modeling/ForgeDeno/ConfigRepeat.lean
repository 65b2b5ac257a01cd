import ForgeDeno.ConfigPrecedence

namespace ForgeDeno

open ExceptRules

section host

variable (host : ConfigHost)

def envIniFile (env : Environment) : Option JsString := iniFileName host (readEnv host env APP_NAME_ENV)

def environmentAfter (options : LoadEnvOptions) (sources : FileSources) (env : Environment) : Environment :=
  if options.exportEnvFiles then exportEntries host sources.envFiles env else env

def settingsUnder (options : LoadEnvOptions) (sources : FileSources) (env : Environment) : Settings :=
  if options.environmentOverrides then applyEnvOverrides host sources.overlay env sources.merged
  else sources.merged

def RereadsSources (prefixPath : JsString) (options : LoadEnvOptions) (env : Environment) : Prop :=
  ∀ sources, fileSources host prefixPath options.exportEnvFiles env = .ok sources →
    fileSources host prefixPath options.exportEnvFiles (environmentAfter host options sources env) =
      .ok sources

variable {host} {env env' : Environment}

section

variable (same : envIniFile host env' = envIniFile host env)

include same

theorem hasIniFile_congr (directory : JsString) :
    hasIniFile host env' directory = hasIniFile host env directory := by
  unfold hasIniFile
  rw [show iniFileName host (readEnv host env' APP_NAME_ENV) = _ from same]
  rfl

theorem hasConfigFiles_congr (directory : JsString) :
    hasConfigFiles host env' directory = hasConfigFiles host env directory := by
  unfold hasConfigFiles
  rw [hasIniFile_congr same]

theorem findResourcesFrom_congr (fuel : Nat) (directory : JsString) :
    findResourcesFrom host env' fuel directory = findResourcesFrom host env fuel directory := by
  induction fuel generalizing directory with
  | zero => rfl
  | succ fuel ih =>
    unfold findResourcesFrom
    dsimp only
    rw [hasConfigFiles_congr same, ih]

theorem resolveConfigDir_congr (prefixPath : JsString) :
    resolveConfigDir host env' prefixPath = resolveConfigDir host env prefixPath := by
  unfold resolveConfigDir findResourcesDir
  dsimp only
  rw [hasConfigFiles_congr same, findResourcesFrom_congr same]

theorem readApplicationFile_congr (configDir : JsString) :
    readApplicationFile host env' configDir = readApplicationFile host env configDir := by
  unfold readApplicationFile
  rw [hasIniFile_congr same]

theorem readApplicationIni_congr
    (configDir : JsString) (settings : Settings) : readApplicationIni host configDir env' settings =
      readApplicationIni host configDir env settings := by
  unfold readApplicationIni applicationIniName
  rw [show iniFileName host (readEnv host env' APP_NAME_ENV) = _ from same]
  rfl

theorem fileSources_congr (prefixPath : JsString) {exported : Bool}
    (expanded : ∀ configDir settings, readEnvFiles host configDir settings exported env' =
      readEnvFiles host configDir settings exported env) :
    fileSources host prefixPath exported env' = fileSources host prefixPath exported env := by
  unfold fileSources
  simp only [resolveConfigDir_congr same, readApplicationFile_congr same, readApplicationIni_congr same,
    expanded]

end

variable {options : LoadEnvOptions}

theorem sources_of_loadEnv {prefixPath : JsString}
    {result : Settings × Environment} (loaded : loadEnv host prefixPath options env = .ok result) :
    ∃ sources, fileSources host prefixPath options.exportEnvFiles env = .ok sources := by
  obtain ⟨application, first, loaded⟩ := bind_ok.mp loaded
  obtain ⟨settings, merged, loaded⟩ := bind_ok.mp loaded
  obtain ⟨overlaid, read, _⟩ := bind_ok.mp loaded
  obtain ⟨envFiles, fourth, _⟩ := bind_ok.mp read
  obtain ⟨withDefault, defaults, named⟩ := bind_ok.mp merged
  obtain ⟨defaultIni, second, rfl⟩ := map_ok defaults
  have last : ∃ applicationIni, readApplicationIni host (resolveConfigDir host env prefixPath) env
      (mergeSettings application defaultIni) = .ok applicationIni ∧
      mergeSettings (mergeSettings application defaultIni) applicationIni = settings := by
    unfold readApplicationIni
    cases name : applicationIniName host env (mergeSettings application defaultIni) with
    | none =>
      rw [name] at named
      exact ⟨[], rfl, Except.ok.inj named⟩
    | some file =>
      rw [name] at named
      exact map_ok named
  obtain ⟨applicationIni, third, rfl⟩ := last
  exact ⟨_, bind_ok.mpr ⟨_, first, bind_ok.mpr ⟨_, second, bind_ok.mpr ⟨_, third, bind_ok.mpr ⟨_, fourth, rfl⟩⟩⟩⟩⟩

theorem readEnv_environmentAfter {sources : FileSources} {name : JsString}
    (absent : lookupMember sources.overlay name = none) :
    readEnv host (environmentAfter host options sources env) name = readEnv host env name := by
  unfold environmentAfter
  split
  · exact readEnv_exported absent
  · rfl

theorem settingsUnder_environmentAfter (options : LoadEnvOptions) (sources : FileSources) :
    settingsUnder host options sources (environmentAfter host options sources env) =
      settingsUnder host options sources env := by
  have same : overridden host sources.overlay (environmentAfter host options sources env) =
      overridden host sources.overlay env := by
    funext path value
    unfold overridden
    dsimp only
    cases set : lookupMember sources.overlay (envNameFromPath host.casing path) with
    | some raw => rfl
    | none => rw [readEnv_environmentAfter set]
  unfold settingsUnder applyEnvOverrides
  rw [same]

theorem loadEnv_settings {prefixPath : JsString} {sources : FileSources}
    (read : fileSources host prefixPath options.exportEnvFiles env = .ok sources) :
    loadEnv host prefixPath options env =
      .ok (settingsUnder host options sources env, environmentAfter host options sources env) := by
  rw [← settingsUnder_environmentAfter options sources]
  exact loadEnv_sources read

theorem readEnvFiles_congr (exported : Bool)
    (plain : ∀ env env' content, host.parseDotenv env content = host.parseDotenv env' content)
    (configDir : JsString) (settings : Settings) : readEnvFiles host configDir settings exported env' =
      readEnvFiles host configDir settings exported env := by
  have each : ∀ (files : List JsString) (env env' : Environment),
      readEnvFilesFrom host configDir exported env' files =
        readEnvFilesFrom host configDir exported env files := by
    intro files
    induction files with
    | nil => intro env env'; rfl
    | cons file files ih =>
      intro env env'
      have first : readEnvFile host env' configDir file = readEnvFile host env configDir file := by
        unfold readEnvFile
        simp only [plain env' env]
      unfold readEnvFilesFrom
      dsimp only
      rw [first]
      cases readEnvFile host env configDir file with
      | error error => rfl
      | ok entries => exact congrArg (fun rest => rest >>= fun later => pure (entries ++ later)) (ih _ _)
  unfold readEnvFiles
  simp only [each _ env env']

/-- The left environment names the same INI file, and the env files expand to the same texts in it. -/
theorem rereadsSources_of_name {prefixPath : JsString}
    (same : ∀ sources, fileSources host prefixPath options.exportEnvFiles env = .ok sources →
      envIniFile host (environmentAfter host options sources env) = envIniFile host env)
    (expanded : ∀ sources, fileSources host prefixPath options.exportEnvFiles env = .ok sources →
      ∀ configDir settings, readEnvFiles host configDir settings options.exportEnvFiles
          (environmentAfter host options sources env) =
        readEnvFiles host configDir settings options.exportEnvFiles env) :
    RereadsSources host prefixPath options env := by
  intro sources read
  rw [fileSources_congr (same sources read) prefixPath (expanded sources read)]
  exact read

/-- A load in the environment that a load has left gives the same settings when it finds the same
sources. -/
theorem loadEnv_repeats {prefixPath : JsString} {options : LoadEnvOptions} {settings : Settings}
    {after : Environment} (loaded : loadEnv host prefixPath options env = .ok (settings, after))
    (kept : RereadsSources host prefixPath options env) :
    ∃ last, loadEnv host prefixPath options after = .ok (settings, last) := by
  obtain ⟨sources, read⟩ := sources_of_loadEnv loaded
  rw [loadEnv_settings read] at loaded
  obtain ⟨rfl, rfl⟩ := Prod.mk.inj (Except.ok.inj loaded)
  rw [loadEnv_settings (kept sources read), settingsUnder_environmentAfter]
  exact ⟨_, rfl⟩

end host

/-- The env file that sets the port names no application. -/
theorem port_loads_repeat : ∃ settings after last, loadEnv portHost [] {} (portEnv none) = .ok (settings, after) ∧
      loadEnv portHost [] {} after = .ok (settings, last) := by
  have unnamed : (fileSources portHost [] ({} : LoadEnvOptions).exportEnvFiles (portEnv none)).toOption.map
      (fun sources => lookupMember sources.overlay APP_NAME_ENV) = some none := by
    decide +kernel
  cases read : fileSources portHost [] ({} : LoadEnvOptions).exportEnvFiles (portEnv none) with
  | error error =>
    rw [read] at unnamed
    cases unnamed
  | ok sources =>
    rw [read] at unnamed
    have kept : RereadsSources portHost [] {} (portEnv none) := by
      apply rereadsSources_of_name
      · intro other found
        cases read.symm.trans found
        unfold envIniFile
        rw [readEnv_environmentAfter (Option.some.inj unnamed)]
      · intro _ _ configDir settings
        exact readEnvFiles_congr _ (fun _ _ _ => rfl) configDir settings
    obtain ⟨last, again⟩ := loadEnv_repeats (loadEnv_settings read) kept
    exact ⟨_, _, last, loadEnv_settings read, again⟩

def namedHost : ConfigHost where
  casing := asciiCasing
  files path :=
    if path = js "/app/default.ini" then .text (js "port = a\n[env]\nfiles = .env")
    else if path = js "/app/.env" then .text (js "APP_NAME=other")
    else if path = js "/app/other.ini" then .text (js "port = b")
    else .missing
  parseYaml _ := none
  parseDotenv _ content :=
    if content = js "APP_NAME=other" then some [(js "APP_NAME", js "other")] else none
  workingDirectory := js "/app"
  readable _ := true
  writable _ _ := true

/-- One env file expands a variable that the next one sets. -/
def baseHost : ConfigHost where
  casing := asciiCasing
  files path :=
    if path = js "/app/default.ini" then .text (js "port = a\n[env]\nfiles = a.env, b.env")
    else if path = js "/app/a.env" then .text (js "PORT=$BASE")
    else if path = js "/app/b.env" then .text (js "BASE=2")
    else .missing
  parseYaml _ := none
  parseDotenv env content :=
    if content = js "BASE=2" then some [(js "BASE", js "2")]
    else some [(js "PORT", (env (js "BASE")).getD [])]
  workingDirectory := js "/app"
  readable _ := true
  writable _ _ := true

def portOf (settings : Settings) : Option JsString :=
  (leafAt (.record settings) [js "port"]).bind ConfigValue.text?

def portsOf (host : ConfigHost) (env : Environment) : Except ConfigError (Option JsString × Option JsString) := do
  let (first, after) ← loadEnv host [] {} env
  let (second, _) ← loadEnv host [] {} after
  return (portOf first, portOf second)

/-- The second load reads the INI file of the exported name. -/
theorem exported_name_changes_settings :
    (portsOf namedHost fun _ => none).toOption = some (some (js "a"), some (js "b")) := by
  decide +kernel

/-- The second load expands the variable that the first one exported. -/
example : (portsOf baseHost fun _ => none).toOption = some (some [], some (js "2")) := by
  decide +kernel

end ForgeDeno
