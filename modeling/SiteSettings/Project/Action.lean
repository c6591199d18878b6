import SiteSettings.DotEnv
import SiteSettings.Project.Basic
import SiteSettings.SettingsFile

/-!
# Actions on a project

There are two: `generate` writes the settings file, `configure` writes the `.env` file.  Either
works out all of its text before it touches the file system, so whatever is wrong with the project,
nothing is written then.  A template that is not valid PHP is no error but an outcome of its own.
-/

namespace SiteSettings

/-- What to do.  A path that is not given is taken from the configuration. -/
inductive Action
  | generate (output template : Option Path)
  | configure (outFile template : Option Path)
deriving DecidableEq, Repr

/-- What was done. -/
inductive Outcome
  | settingsWritten (path : Path) (assignments : Nat)
  | templateRejected (error : Php.SyntaxError)
  | dotenvWritten (path : Path) (count : Nat)
deriving DecidableEq, Repr

namespace Outcome

/-- Whether a file was written. -/
def isSuccess : Outcome → Bool
  | .settingsWritten _ _ => true
  | .dotenvWritten _ _ => true
  | .templateRejected _ => false

/-- A count with its noun, in the plural unless it is one. -/
def counted (n : Nat) (noun : String) : String :=
  toString n ++ " " ++ noun ++ (if n = 1 then "" else "s")

def message : Outcome → String
  | .settingsWritten path assignments =>
    "Settings written to " ++ path.text ++ " (" ++
      counted assignments "environment assignment" ++ ")"
  | .templateRejected error => "Parse error: " ++ error.message
  | .dotenvWritten path count =>
    "Environment file written to " ++ path.text ++ " (" ++ counted count "variable" ++ ")"

end Outcome

variable {m : Type → Type} [Monad m] [FileAccess m]

/-- The contents of a file. -/
def readFile (path : Path) : ExceptT ProjectError m String := do
  match ← FileAccess.read path with
  | .ok content => pure content
  | .error problem => throw (.file path problem)

/-- Writes a file, after the directories above it. -/
def writeFile (path : Path) (content : String) : ExceptT ProjectError m Unit := do
  match path.parent? with
  | none => pure ()
  | some parent =>
    if parent.text.isEmpty then pure ()
    else
      match ← FileAccess.createDirectories parent with
      | .ok () => pure ()
      | .error problem => throw (.file parent problem)
  match ← FileAccess.write path content with
  | .ok () => pure ()
  | .error problem => throw (.file path problem)

namespace Project

/-- The settings mapping of the project. -/
def readSettings (project : Project) : ExceptT ProjectError m SettingsMap :=
  project.config.readSettings project.root

/-- Writes the settings file. -/
def generate (project : Project) (output template : Option Path) :
    ExceptT ProjectError m Outcome := do
  let output := project.resolvePath (output.getD project.config.output)
  let templateText ←
    match template <|> project.config.template with
    | none => pure ""
    | some path => do
      let path := project.resolvePath path
      FileAccess.log ⟨.debug, .project, "reading template", [("path", path.text)]⟩
      readFile path
  let settings ← project.readSettings
  FileAccess.log ⟨.debug, .project, "resolved settings mapping",
    [("entries", toString settings.entries.length)]⟩
  match Php.Document.ofTemplate templateText with
  | .error error => do
    FileAccess.log ⟨.error, .settingsFile, "template rejected: " ++ error.message,
      [("line", toString error.line)]⟩
    pure (.templateRejected error)
  | .ok doc => do
    FileAccess.log ⟨.debug, .settingsFile, "parsed template",
      [("statements", toString doc.size)]⟩
    match SettingsFile.ofDocument settings doc project.generatorOptions with
    | .error error => throw error
    | .ok (text, assignments) => do
      writeFile output text
      FileAccess.log ⟨.info, .settingsFile, "settings file written",
        [("path", output.text), ("assignments", toString assignments)]⟩
      pure (.settingsWritten output assignments)

/-- The variables of the `.env` file with their values; one that is not set has the empty value. -/
def dotenvBindings (project : Project) (settings : SettingsMap) : List (String × String) :=
  settings.variableNames.map fun name => (name, (project.environmentValue? name).getD "")

/-- Writes the `.env` file. -/
def configure (project : Project) (outFile template : Option Path) :
    ExceptT ProjectError m Outcome := do
  let outFile := project.resolvePath (outFile.getD project.config.dotenv.outFile)
  let settings ← project.readSettings
  let bindings := project.dotenvBindings settings
  let header ←
    match template <|> project.config.dotenv.template with
    | none => pure none
    | some path => do
      let path := project.resolvePath path
      FileAccess.log ⟨.debug, .dotenv, "reading .env template", [("path", path.text)]⟩
      let text ← readFile path
      pure (some text)
  writeFile outFile (DotEnv.render bindings header)
  FileAccess.log ⟨.info, .dotenv, ".env file written",
    [("path", outFile.text), ("variables", toString bindings.length)]⟩
  pure (.dotenvWritten outFile bindings.length)

/-- Does what an action says. -/
def perform (project : Project) : Action → ExceptT ProjectError m Outcome
  | .generate output template => project.generate output template
  | .configure outFile template => project.configure outFile template

end Project
end SiteSettings
