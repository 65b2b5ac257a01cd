import ForgeDeno.IniText

namespace ForgeDeno

inductive FileState where
  | missing
  | unreadable (isFile : Bool)
  | text (content : JsString)

abbrev Environment := JsString → Option JsString

/-- The runtime under the loader. `parseYaml` and `parseDotenv` are the parsers of the standard
library, of which the second takes the variables that a text mentions from the environment; `readable` and
`writable` tell what the environment permits. -/
structure ConfigHost where
  casing : Casing
  files : JsString → FileState
  parseYaml : JsString → Option ConfigValue
  parseDotenv : Environment → JsString → Option (List (JsString × JsString))
  workingDirectory : JsString
  readable : JsString → Bool
  writable : JsString → JsString → Bool

structure LoadEnvOptions where
  environmentOverrides : Bool := true
  exportEnvFiles : Bool := true

inductive ConfigError where
  | noConfiguration (configDir : JsString)
  | malformed (source : JsString)
  | notMapping (source : JsString)
  | ini (error : IniError)
  | unreadable (path : JsString)
  /-- `String(file)` of an entry of `env.files` throws -/
  | fileName

inductive FileFormat where
  | yaml
  | json
deriving DecidableEq

def APPLICATION_FILES : List (JsString × FileFormat) :=
  [(js "application.yml", .yaml), (js "application.yaml", .yaml), (js "application.json", .json)]

def DEFAULT_INI : JsString := js "default.ini"
def RESOURCES_DIR : JsString := js "resources"
def APP_NAME_KEY : JsString := js "app.name"
def APP_NAME_ENV : JsString := js "APP_NAME"

def isSeparator (u : UInt16) : Bool := u = 0x2F || u = 0x5C

def dropSeparators (path : JsString) : JsString := (path.reverse.dropWhile isSeparator).reverse

def joinPath (directory name : JsString) : JsString :=
  if directory = [] then name else dropSeparators directory ++ js "/" ++ name

def parentPath (directory : JsString) : JsString :=
  let trimmed := dropSeparators directory
  match trimmed.reverse.dropWhile fun u => !isSeparator u with
  | [] => trimmed
  | [_] => js "/"
  | _ :: before => before.reverse

def isAbsolutePath : JsString → Bool
  | u :: v :: w :: _ =>
    isSeparator u || (((0x41 ≤ u && u ≤ 0x5A) || (0x61 ≤ u && u ≤ 0x7A)) && v = 0x3A && isSeparator w)
  | u :: _ => isSeparator u
  | [] => false

section host

variable (host : ConfigHost)

def readEnv (env : Environment) (name : JsString) : Option JsString :=
  if host.readable name then env name else none

def trySetEnv (env : Environment) (name value : JsString) : Environment :=
  if host.writable name value then fun other => if other = name then some value else env other
  else env

def readOptionalFile (path : JsString) : Except ConfigError (Option JsString) :=
  match host.files path with
  | .missing => .ok none
  | .unreadable _ => .error (.unreadable path)
  | .text content => .ok (some content)

def fileExists (path : JsString) : Bool :=
  match host.files path with
  | .missing => false
  | .unreadable isFile => isFile
  | .text _ => true

def iniFileName (appName : Option JsString) : Option JsString :=
  let name := (appName.getD []).trim
  if name = [] ∨ name = js "." ∨ name = js ".." then none
  else if name.any isSeparator then none
  else
    let file := name ++ js ".ini"
    if host.casing.toLowerCase file = DEFAULT_INI then none else some file

def hasIniFile (env : Environment) (directory : JsString) : Bool :=
  fileExists host (joinPath directory DEFAULT_INI) ||
    match iniFileName host (readEnv host env APP_NAME_ENV) with
    | some name => fileExists host (joinPath directory name)
    | none => false

def hasConfigFiles (env : Environment) (directory : JsString) : Bool :=
  APPLICATION_FILES.any (fun file => fileExists host (joinPath directory file.1)) ||
    hasIniFile host env directory

/-- The loop of `findResourcesDir`; each turn that goes on shortens the path. -/
def findResourcesFrom (env : Environment) : Nat → JsString → Option JsString
  | 0, _ => none
  | fuel + 1, directory =>
    if directory = [] then none
    else
      let candidate := joinPath directory RESOURCES_DIR
      if hasConfigFiles host env candidate then some candidate
      else
        let parent := parentPath directory
        if parent = directory then none else findResourcesFrom env fuel parent

def findResourcesDir (env : Environment) (start : JsString) : Option JsString :=
  let directory := if isAbsolutePath start then start else joinPath host.workingDirectory start
  findResourcesFrom host env (directory.length + 1) directory

def resolveConfigDir (env : Environment) (prefixPath : JsString) : JsString :=
  let start := if prefixPath.trim = [] then host.workingDirectory else prefixPath
  if hasConfigFiles host env start then start
  else (findResourcesDir host env start).getD (joinPath start RESOURCES_DIR)

def parseApplication (content : JsString) (format : FileFormat) : Option ConfigValue :=
  match format with
  | .yaml => (host.parseYaml content).map fun value => match value with
    | .null => .record []
    | value => value
  | .json => (JsonText.parse content).map ConfigValue.ofJson

def readCandidates (configDir : JsString) : List (JsString × FileFormat) → Except ConfigError (Option Settings)
  | [] => .ok none
  | (name, format) :: candidates => do
    match ← readOptionalFile host (joinPath configDir name) with
    | none => readCandidates configDir candidates
    | some content =>
      match parseApplication host content format with
      | none => .error (.malformed name)
      | some parsed =>
        match insensitive host.casing parsed with
        | .record settings => .ok (some settings)
        | _ => .error (.notMapping name)

def readApplicationFile (env : Environment) (configDir : JsString) : Except ConfigError Settings := do
  match ← readCandidates host configDir APPLICATION_FILES with
  | some settings => .ok settings
  | none => if hasIniFile host env configDir then .ok [] else .error (.noConfiguration configDir)

def applicationIniName (env : Environment) (settings : Settings) : Option JsString :=
  match iniFileName host (readEnv host env APP_NAME_ENV) with
  | some fromEnv => some fromEnv
  | none =>
    iniFileName host (match readPath (.record settings) (splitKey host.casing APP_NAME_KEY) with
      | some (.string declared) => some declared
      | _ => none)

/-- The settings of one INI file, typed after those before it; none without the file. -/
def readIniFile (path source : JsString) (settings : Settings) : Except ConfigError Settings := do
  match ← readOptionalFile host path with
  | none => .ok []
  | some content =>
    let declared (key : JsString) := readPath (.record settings) (splitKey host.casing key)
    match parseIni host.casing content declared (some source) with
    | .ok parsed => .ok parsed
    | .error error => .error (.ini error)

def mergeIniFile (path source : JsString) (settings : Settings) : Except ConfigError Settings :=
  (readIniFile host path source settings).map (mergeSettings settings)

def loadIniFiles (env : Environment) (configDir : JsString) (settings : Settings) :
    Except ConfigError Settings := do
  let settings ← mergeIniFile host (joinPath configDir DEFAULT_INI) DEFAULT_INI settings
  match applicationIniName host env settings with
  | none => .ok settings
  | some name => mergeIniFile host (joinPath configDir name) name settings

abbrev EnvOverlay := List (JsString × JsString)

def envFileNames (settings : Settings) : Except ConfigError (List JsString) :=
  match readPath (.record settings) [js "env", js "files"] with
  | some (.list items) =>
    match items.mapM ConfigValue.toText with
    | some names => .ok names
    | none => .error .fileName
  | some (.string declared) => .ok (splitCommaSeparated declared)
  | _ => .ok []

def readEnvFile (env : Environment) (configDir file : JsString) : Except ConfigError (List (JsString × JsString)) := do
  let name := file.trim
  if name = [] then .ok []
  else
    let path := if isAbsolutePath name then name else joinPath configDir name
    match ← readOptionalFile host path with
    | none => .ok []
    | some content =>
      match host.parseDotenv env content with
      | some entries => .ok entries
      | none => .error (.malformed path)

def exportEntries (entries : List (JsString × JsString)) (env : Environment) : Environment :=
  entries.foldl (fun env entry => trySetEnv host env entry.1 entry.2) env

/-- The entries of the files in the order in which they are set; each file is parsed in the environment
that the files before it have left. -/
def readEnvFilesFrom (configDir : JsString) (exportToProcess : Bool) (env : Environment) :
    List JsString → Except ConfigError (List (JsString × JsString))
  | [] => .ok []
  | file :: files => do
    let entries ← readEnvFile host env configDir file
    let env := if exportToProcess then exportEntries host entries env else env
    let later ← readEnvFilesFrom configDir exportToProcess env files
    return entries ++ later

def readEnvFiles (configDir : JsString) (settings : Settings) (exportToProcess : Bool)
    (env : Environment) : Except ConfigError (List (JsString × JsString)) := do
  readEnvFilesFrom host configDir exportToProcess env (← envFileNames settings)

def loadEnvFiles (configDir : JsString) (settings : Settings) (exportToProcess : Bool)
    (env : Environment) : Except ConfigError (EnvOverlay × Environment) := do
  let entries ← readEnvFiles host configDir settings exportToProcess env
  return (entries.reverse, if exportToProcess then exportEntries host entries env else env)

def overridden (overlay : EnvOverlay) (env : Environment) (path : List JsString)
    (value : ConfigValue) : ConfigValue :=
  let name := envNameFromPath host.casing path
  match (lookupMember overlay name).or (readEnv host env name) with
  | none => value
  | some raw => parseEnvValue host.casing raw value

def applyEnvOverrides (overlay : EnvOverlay) (env : Environment) (settings : Settings) : Settings :=
  mapLeaves (overridden host overlay env) [] settings

/-- `loadEnv`: the settings of the configuration, and the environment it leaves. -/
def loadEnv (prefixPath : JsString) (options : LoadEnvOptions) (env : Environment) :
    Except ConfigError (Settings × Environment) := do
  let configDir := resolveConfigDir host env prefixPath
  let settings ← readApplicationFile host env configDir
  let settings ← loadIniFiles host env configDir settings
  let (overlay, env) ← loadEnvFiles host configDir settings options.exportEnvFiles env
  return (if options.environmentOverrides then applyEnvOverrides host overlay env settings else settings,
    env)

end host

end ForgeDeno
