import SiteSettings.Number.Layout
import SiteSettings.Path
import SiteSettings.Text.Blank
import SiteSettings.Text.Escaped
import SiteSettings.Toml.Value

/-!
# The fields of a project configuration

A `ProjectConfig` is read from a table.  Fields that the table leaves out have their defaults, and
entries that name no field are passed over.  A value of the wrong type is a `Mistake`; the first one
in the order of the table is reported.

Every field holds text or a path, with three exceptions: `indent` takes a whole number or the text
of one, since values from the environment are text; `settings` takes any table; and `dotenv` takes a
table of two fields of its own, or an array with their values in order.

Dates and times are no values of any field.  The two ways in which a table is read differ in what
they take them for, and `Dates` names them.
-/

namespace SiteSettings

/-- Where and how the `.env` file is written. -/
structure DotEnvConfig where
  outFile : Path := ⟨".env"⟩
  template : Option Path := none

structure ProjectConfig where
  /-- Where the settings file is written. -/
  output : Path := ⟨"web/sites/default/settings.php"⟩
  /-- The file that the generated code is added to; an empty one if unset. -/
  template : Option Path := none
  /-- The file that the include guard looks for. -/
  includeFile : String := "../config.php"
  /-- Spaces for each level of nesting in generated code. -/
  indent : UInt64 := 2
  /-- The file that holds the settings mapping. -/
  settingsFile : Option Path := none
  /-- Where the mapping is in a settings file of JSON. -/
  settingsPointer : String := "/extra/drupal-env-settings"
  /-- Settings given in place; they win over those of the file. -/
  settings : Option Toml.Table := none
  dotenv : DotEnvConfig := {}

namespace Config

/-- A value of the wrong type, with the names that lead to it. -/
structure Mistake where
  key : List String
  reason : String
deriving DecidableEq, Repr

/-! ## Dates and times -/

/-- What dates and times are taken for. -/
inductive Dates
  /-- Their text: in the merged table. -/
  | asText
  /-- Tables with one entry of a reserved name: in the check of a single file. -/
  | asTables
deriving DecidableEq, Repr

/-- The reserved name. -/
def dateKey : String := "$__toml_private_datetime"

mutual

/-- The value with the dates and times in it taken for something else. -/
def Dates.replace (dates : Dates) : Toml.Value → Toml.Value
  | .datetime d =>
    match dates with
    | .asText => .string d.text
    | .asTables => .table [(dateKey, .string d.text)]
  | .array items => .array (replaceItems dates items)
  | .table entries => .table (replaceEntries dates entries)
  | .string text => .string text
  | .integer n => .integer n
  | .float x => .float x
  | .boolean b => .boolean b
termination_by structural value => value

def replaceItems (dates : Dates) : List Toml.Value → List Toml.Value
  | [] => []
  | value :: rest => dates.replace value :: replaceItems dates rest
termination_by structural items => items

def replaceEntries (dates : Dates) :
    List (String × Toml.Value) → List (String × Toml.Value)
  | [] => []
  | (name, value) :: rest => (name, dates.replace value) :: replaceEntries dates rest
termination_by structural entries => entries

end

/-! ## Values -/

/-- What a value is, in a message about its type. -/
def found : Toml.Value → String
  | .string text => "string " ++ Text.escaped text
  | .integer n => "integer `" ++ toString n.toInt ++ "`"
  | .float x => "floating point `" ++ x.positionalWithPoint ++ "`"
  | .boolean b => "boolean `" ++ (if b then "true" else "false") ++ "`"
  | .datetime _ => "map"
  | .array _ => "sequence"
  | .table _ => "map"

/-- The reason why a value of the wrong type is refused. -/
def wrongType (value : Toml.Value) (wanted : String) : String :=
  "invalid type: " ++ found value ++ ", expected " ++ wanted

/-- A value that must be text. -/
def readText (wanted : String) : Toml.Value → Except String String
  | .string text => .ok text
  | value => .error (wrongType value wanted)

def readPath (value : Toml.Value) : Except String Path :=
  (readText "path string" value).map Path.mk

/-- A whole number of 64 bits without a sign, of which a plus is allowed, blanks around it aside. -/
def wholeNumber? (text : String) : Option UInt64 :=
  let digits :=
    match Text.trim text.toList with
    | '+' :: digits => digits
    | digits => digits
  if digits.isEmpty || !digits.all Char.isDigit then none
  else
    let n := digits.foldl (fun n c => 10 * n + (c.toNat - '0'.toNat)) 0
    if n < UInt64.size then some (UInt64.ofNat n) else none

/-- The width of an indentation: a whole number, or text that reads as one. -/
def readIndent : Toml.Value → Except String UInt64
  | .integer n =>
    if 0 ≤ n.toInt then .ok (UInt64.ofNat n.toInt.toNat)
    else .error "data did not match any variant of untagged enum Indent"
  | .string text =>
    match wholeNumber? text with
    | some n => .ok n
    | none => .error ("invalid indent '" ++ text ++ "', expected a number of spaces")
  | _ => .error "data did not match any variant of untagged enum Indent"

def readTable : Toml.Value → Except String Toml.Table
  | .table entries => .ok entries
  | value => .error (wrongType value "a map")

/-! ## Tables -/

/-- The names of the fields. -/
def topLevelKeys : List String :=
  ["output", "template", "include_file", "indent", "settings_file", "settings_pointer", "settings",
    "dotenv"]

/-- The names of the fields of `dotenv`. -/
def dotenvKeys : List String := ["out_file", "template"]

/-- Names the place of a mistake. -/
def atKey {α : Type} (key : List String) (result : Except String α) : Except Mistake α :=
  result.mapError (Mistake.mk key)

/-- Takes over one entry of the `dotenv` table. -/
def readDotenvEntry (config : DotEnvConfig) :
    String × Toml.Value → Except Mistake DotEnvConfig
  | (name, value) =>
    let key := ["dotenv", name]
    match name with
    | "out_file" => do return { config with outFile := ← atKey key (readPath value) }
    | "template" => do return { config with template := some (← atKey key (readPath value)) }
    | _ => .ok config

def invalidLength (n : Nat) (wanted : String) : String :=
  "invalid length " ++ toString n ++ ", expected " ++ wanted

/-- The two fields of `dotenv` in order.  Only the check of a single file overlooks
further items. -/
def readDotenvItems (dates : Dates) (items : List Toml.Value) : Except String DotEnvConfig :=
  let wanted := "struct DotEnvConfigLayer with 2 elements"
  match items with
  | [] => .error (invalidLength 0 wanted)
  | [first] => do
    let _ ← readPath first
    .error (invalidLength 1 wanted)
  | first :: second :: more => do
    let outFile ← readPath first
    let template ← readPath second
    if dates = .asText ∧ ¬ more.isEmpty then
      .error (invalidLength items.length "fewer elements in array")
    else .ok { outFile, template := some template }

/-- The `dotenv` field. -/
def readDotenv (dates : Dates) (config : DotEnvConfig) :
    Toml.Value → Except Mistake DotEnvConfig
  | .table entries => entries.foldlM readDotenvEntry config
  | .array items => atKey ["dotenv"] (readDotenvItems dates items)
  | value => atKey ["dotenv"] (.error (wrongType value "struct DotEnvConfigLayer"))

/-- Takes over one entry of the table. -/
def readEntry (dates : Dates) (config : ProjectConfig) :
    String × Toml.Value → Except Mistake ProjectConfig
  | (name, value) =>
    match name with
    | "output" => do return { config with output := ← atKey [name] (readPath value) }
    | "template" => do return { config with template := some (← atKey [name] (readPath value)) }
    | "include_file" => do
      return { config with includeFile := ← atKey [name] (readText "a string" value) }
    | "indent" => do return { config with indent := ← atKey [name] (readIndent value) }
    | "settings_file" => do
      return { config with settingsFile := some (← atKey [name] (readPath value)) }
    | "settings_pointer" => do
      return { config with settingsPointer := ← atKey [name] (readText "a string" value) }
    | "settings" => do return { config with settings := some (← atKey [name] (readTable value)) }
    | "dotenv" => do return { config with dotenv := ← readDotenv dates config.dotenv value }
    | _ => .ok config

/-- The configuration that a table describes. -/
def readConfig (dates : Dates) (table : Toml.Table) : Except Mistake ProjectConfig :=
  (replaceEntries dates table).foldlM (readEntry dates) {}

/-! ## Unknown keys -/

/-- The entries that name no field, by their dotted keys, in the order of the table. -/
def unknownKeys (dates : Dates) (table : Toml.Table) : List String :=
  (replaceEntries dates table).flatMap fun (name, value) =>
    if name = "dotenv" then
      match value with
      | .table entries =>
        (entries.filter fun (inner, _) => inner ∉ dotenvKeys).map fun (inner, _) =>
          "dotenv." ++ inner
      | _ => []
    else if name ∈ topLevelKeys then [] else [name]

end Config
end SiteSettings
