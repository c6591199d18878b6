import SiteSettings.Entries
import SiteSettings.Number.Layout

/-!
# What a setting is made of

A setting's value is described by a `ValueSpec`: a leaf names the environment variable that the
generated code reads, a composite is an ordered array of further specifications under keys.
A specification is meant to have no empty composite in it; `SettingError` says
where one is, or where a configuration value cannot be a specification at all.
-/

namespace SiteSettings

/-- An array key in the generated code. -/
inductive Key
  | string (text : String)
  | integer (n : Int64)
  | float (x : Binary64)
  | boolean (b : Bool)
deriving DecidableEq, Repr

/-- A key as it appears in the dotted path of a message. -/
def Key.text : Key → String
  | .string s => s
  | .integer n => toString n.toInt
  | .float x => x.positional
  | .boolean true => "true"
  | .boolean false => "false"

/-- What a setting resolves to when the generated code runs. -/
inductive ValueSpec
  | leaf (variableName : String)
  | composite (entries : List (Key × ValueSpec))

/-- Why a value cannot serve as a setting. Paths are dotted. -/
inductive SettingError
  | emptyComposite (path : String)
  | invalidSetting (path reason : String)
deriving DecidableEq, Repr

def SettingError.message : SettingError → String
  | .emptyComposite path =>
    "Setting '" ++ path ++ "' is an empty mapping; it needs at least one entry"
  | .invalidSetting path reason => "Invalid setting '" ++ path ++ "': " ++ reason

end SiteSettings
