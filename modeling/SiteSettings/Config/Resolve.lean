import SiteSettings.Config.Environment
import SiteSettings.Config.Merge
import SiteSettings.Config.Overrides
import SiteSettings.Config.Strict

/-!
# Resolving a configuration

The sources of a configuration, from the lowest priority to the highest: the defaults, the project
files in order, the environment, the overrides.  Each is a table that may set any part of the whole.
They are merged, and the fields are read from the result.
-/

namespace SiteSettings
namespace Config

structure Sources where
  /-- The project files with their contents, the first with the lowest priority. -/
  files : List (Path × String)
  environment : List (String × String)
  /-- The prefix of the variables that count; without one the environment is left out. -/
  variablePrefix : Option String
  /-- Values for dotted keys. -/
  overrides : List (String × Toml.Value)
  /-- Whether unknown keys in files are refused. -/
  strict : Bool

/-- The table of one project file. -/
def fileTable (strict : Bool) (path : Path) (content : String) :
    Except ProjectError Toml.Table := do
  if strict then checkFile path content
  match Toml.parse content with
  | none => .error (.malformedToml path)
  | some table => .ok table

namespace Sources

/-- The layers above the files. -/
def upperLayers (sources : Sources) : List Toml.Table :=
  let environment :=
    match sources.variablePrefix with
    | some variablePrefix => [environmentTable variablePrefix sources.environment]
    | none => []
  environment ++ [overrideTable sources.overrides]

/-- All sources as one table. -/
def table (sources : Sources) : Except ProjectError Toml.Table := do
  let files ← sources.files.mapM fun (path, content) => fileTable sources.strict path content
  .ok (Toml.Table.mergeAll (files ++ sources.upperLayers))

end Sources

/-- How a mistake in the merged table is reported. -/
def Mistake.toError (mistake : Mistake) : ProjectError :=
  .invalidValue "<merged>"
    (mistake.reason ++ "\nin `" ++ String.intercalate "." mistake.key ++ "`\n")

/-- The configuration that the sources describe. -/
def resolve (sources : Sources) : Except ProjectError ProjectConfig := do
  let table ← sources.table
  (readConfig .asText table).mapError Mistake.toError

end Config
end SiteSettings
