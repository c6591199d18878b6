import SiteSettings.Files.Access
import SiteSettings.Php.Template
import SiteSettings.Settings.Spec

/-!
# What can go wrong

Everything that can stop a run, by cause, with its message.

All but the last are errors that are reported.  The last one, a margin longer than any text can be,
is a failure of the program itself: the run breaks off where the margin is made.
-/

namespace SiteSettings

/-- A key of a project file that the program does not know. -/
structure UnknownKey where
  /-- The dotted key. -/
  key : String
  path : Path
  /-- The line of the file, or zero if it could not be told. -/
  line : Nat
deriving DecidableEq, Repr

def UnknownKey.message (e : UnknownKey) : String :=
  "Unknown key '" ++ e.key ++ "' in " ++ e.path.text ++ " (line " ++ toString e.line ++ ")"

inductive ProjectError
  | unknownKeys (keys : List UnknownKey)
  /-- A file that is not well-formed TOML. -/
  | malformedToml (path : Path)
  /-- A well-formed file in which a value has the wrong type. -/
  | wrongType (path : Path) (reason : String)
  /-- A file that is not well-formed JSON. -/
  | malformedJson (path : Path)
  | file (path : Path) (problem : FileProblem)
  | invalidValue (key reason : String)
  | template (error : Php.SyntaxError)
  | setting (error : SettingError)
  | noSettingsAt (path : Path) (pointer : String)
  /-- A margin of the settings file that is longer than any text can be. -/
  | marginTooLong
deriving DecidableEq, Repr

namespace ProjectError

def message : ProjectError → String
  | .unknownKeys _ => "Unknown keys in config file"
  | .malformedToml path => "Failed to parse " ++ path.text ++ ": malformed TOML"
  | .wrongType path reason => "Failed to parse " ++ path.text ++ ": " ++ reason
  | .malformedJson path => "Failed to parse " ++ path.text ++ ": malformed JSON"
  | .file path problem => "Failed to read " ++ path.text ++ ": " ++ problem.message
  | .invalidValue key reason => "Invalid value for '" ++ key ++ "': " ++ reason
  | .template error => "Parse error: " ++ error.message
  | .setting error => error.message
  | .noSettingsAt path pointer => "No settings found at '" ++ pointer ++ "' in " ++ path.text
  | .marginTooLong => "capacity overflow"

end ProjectError
end SiteSettings
