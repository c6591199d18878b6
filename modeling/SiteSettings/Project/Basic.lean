import SiteSettings.Config.Resolve
import SiteSettings.Config.Search
import SiteSettings.Generator
import SiteSettings.Json.Document
import SiteSettings.Json.Pointer
import SiteSettings.Settings.Declared

/-!
# Projects

A `Project` is a resolved configuration with the directory that its relative paths start from and
the environment at the time it was loaded.  `ProjectSetup` says how to load one: where to look for
project files, which further files to read, which variables and overrides count.

Its settings mapping comes from the settings file, if there is one, and the settings given in
place, which win.
-/

namespace SiteSettings

/-- How a project is to be loaded. -/
structure ProjectSetup where
  /-- The project's root; the working directory if unset. -/
  root : Option Path := none
  /-- The name of project files. -/
  fileName : String := "env-settings.toml"
  /-- Where project files are looked for; the last place has the highest priority. -/
  searchPaths : List SearchPath := [.ancestors (some "composer.json")]
  /-- Files that are read after those found, and must exist. -/
  configFiles : List Path := []
  /-- The prefix of variables that set configuration keys; without one none do. -/
  variablePrefix : Option String := some "DRUPAL_ENV_SETTINGS"
  /-- The environment, the first value of a name counting. -/
  environment : List (String × String) := []
  /-- Whether unknown keys in project files are refused. -/
  strict : Bool := true
  /-- Values for dotted keys, above every other source. -/
  overrides : List (String × Toml.Value) := []

structure Project where
  config : ProjectConfig
  root : Path
  environment : List (String × String)

namespace Project

/-- The options of the generator that the configuration sets. -/
def generatorOptions (project : Project) : GeneratorOptions :=
  { includeFile := project.config.includeFile
    indent := project.config.indent }

/-- The value of a variable when the project was loaded. -/
def environmentValue? (project : Project) (name : String) : Option String :=
  Entries.find? name project.environment

/-- A path of the configuration, as seen from the root. -/
def resolvePath (project : Project) (path : Path) : Path :=
  project.root.join path

end Project

/-! ## Settings files -/

/-- The mapping in the text of a settings file: of a JSON file what stands at the pointer, of
any other file, taken as TOML, the whole. -/
def SettingsMap.ofFile (path : Path) (pointer content : String) :
    Except ProjectError SettingsMap :=
  if path.extension? = some "json" then
    match Json.parse content with
    | none => .error (.malformedJson path)
    | some value =>
      match value.at? pointer with
      | none => .error (.noSettingsAt path pointer)
      | some declared => (SettingsMap.ofJson declared).mapError .setting
  else
    match Toml.parse content with
    | none => .error (.malformedToml path)
    | some table => (SettingsMap.ofToml table).mapError .setting

variable {m : Type → Type} [Monad m] [FileAccess m]

/-- Reads a settings file. -/
def readSettingsFile (path : Path) (pointer : String) : ExceptT ProjectError m SettingsMap := do
  match ← FileAccess.read path with
  | .error problem => throw (.file path problem)
  | .ok content => do
    FileAccess.log ⟨.debug, .settings, "reading settings file", [("path", path.text)]⟩
    liftExcept (SettingsMap.ofFile path pointer content)
where
  liftExcept (result : Except ProjectError SettingsMap) : ExceptT ProjectError m SettingsMap :=
    ExceptT.mk (pure result)

/-- The settings mapping of a configuration: the entries of the settings file, and those given in
place over them. -/
def ProjectConfig.readSettings (config : ProjectConfig) (root : Path) :
    ExceptT ProjectError m SettingsMap := do
  let fromFile ←
    match config.settingsFile with
    | some file => readSettingsFile (root.join file) config.settingsPointer
    | none => pure SettingsMap.empty
  match config.settings with
  | none => pure fromFile
  | some table =>
    match SettingsMap.ofToml table with
    | .ok inPlace => pure (fromFile.extend inPlace)
    | .error error => throw (.setting error)

/-! ## Loading -/

/-- The first override whose key names no field. -/
def ProjectSetup.invalidOverride? (setup : ProjectSetup) : Option String :=
  (setup.overrides.find? fun (key, _) => !Config.isValidKey key).map Prod.fst

/-- Finds the project files and resolves the configuration. -/
def Project.load (setup : ProjectSetup) : ExceptT ProjectError m Project := do
  match setup.invalidOverride? with
  | some key => throw (.invalidValue key "not a configuration key")
  | none => do
    let root ←
      match setup.root with
      | some root => pure root
      | none => FileAccess.workingDirectory
    FileAccess.log ⟨.debug, .project, "loading project", [("root", root.text)]⟩
    let found ← Config.findFiles root setup.searchPaths setup.fileName
    let named ← setup.configFiles.mapM fun path => Config.readNamed (root.join path)
    let sources : Config.Sources :=
      { files := found ++ named
        environment := setup.environment
        variablePrefix := setup.variablePrefix
        overrides := setup.overrides
        strict := setup.strict }
    match Config.resolve sources with
    | .ok config => pure ⟨config, root, setup.environment⟩
    | .error error => throw error

end SiteSettings
