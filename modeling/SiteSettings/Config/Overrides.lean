import SiteSettings.Text.Pieces
import SiteSettings.Toml.Value

/-!
# Configuration by overrides

An override gives a value to a dotted key and has priority over every other source.  Overrides
apply one after another: each writes its value at the path of its key and makes tables of
whatever is in the way.
-/

namespace SiteSettings
namespace Config

/-- Writes a value at a path; what is not a table on the way becomes one. -/
def writeAt (value : Toml.Value) : List String → Toml.Table → Toml.Table
  | [], table => table
  | [name], table => Entries.insert name value table
  | name :: path, table =>
    let inner :=
      match Entries.find? name table with
      | some (.table entries) => entries
      | _ => []
    Entries.insert name (.table (writeAt value path inner)) table

/-- The table that overrides make.  A key is cut at all its dots at once.  Cutting off what is
behind the last dot, and then the rest at its dots, gives the same names (`Text.pieces_concat`). -/
def overrideTable (overrides : List (String × Toml.Value)) : Toml.Table :=
  overrides.foldl (fun table (key, value) => writeAt value (Text.pieces '.' key) table) []

/-- The dotted keys of all fields. -/
def fieldKeys : List String :=
  ["output", "template", "include_file", "indent", "settings_file", "settings_pointer", "settings",
    "dotenv.out_file", "dotenv.template"]

/-- Whether a dotted key names a field, or a place inside one. -/
def isValidKey (key : String) : Bool :=
  fieldKeys.any fun field =>
    key == field || (Text.dropStart? (field ++ ".").toList key.toList).isSome

end Config
end SiteSettings
