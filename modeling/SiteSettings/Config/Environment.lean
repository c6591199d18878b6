import SiteSettings.Text.Lowercase
import SiteSettings.Text.Pieces
import SiteSettings.Toml.Value

/-!
# Configuration from the environment

A variable whose name begins with the prefix and two underscores sets a configuration key.  The rest
of the name, in lower case, is the key, two underscores standing for each step into a table: with
the prefix `P`, the variable `P__DOTENV__OUT_FILE` sets `dotenv.out_file`.  Values are text as it
stands; the fields of the configuration know what to make of it.

A variable that would go on below another one's value is dropped.  One that ends where others go on
replaces them.
-/

namespace SiteSettings
namespace Config

/-- Sets the key with the given parts, unless a value that is not a table is in the way. -/
def setBelow (value : Toml.Value) : List String → Toml.Table → Toml.Table
  | [], table => table
  | [name], table => Entries.insert name value table
  | name :: path, table =>
    match Entries.find? name table with
    | none => Entries.insert name (.table (setBelow value path [])) table
    | some (.table inner) => Entries.insert name (.table (setBelow value path inner)) table
    | some _ => table

/-- The parts of the key that a variable sets; none if its name has another beginning
or ends there. -/
def keyOfVariable? (variablePrefix name : String) : Option (List String) :=
  match Text.dropStart? (variablePrefix ++ "__").toList name.toList with
  | none => none
  | some [] => none
  | some rest => some ((Text.splitAtPair '_' rest).map fun part => Text.lower (String.ofList part))

/-- The table that the variables set, one after another. -/
def environmentTable (variablePrefix : String) (environment : List (String × String)) :
    Toml.Table :=
  environment.foldl
    (fun table (name, value) =>
      match keyOfVariable? variablePrefix name with
      | some key => setBelow (.string value) key table
      | none => table)
    []

end Config
end SiteSettings
