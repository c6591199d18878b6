import SiteSettings.Json.Value
import SiteSettings.Settings.Map
import SiteSettings.Toml.Value

/-!
# Settings as they are declared

A project declares its settings as a TOML table or as a JSON object.  Strings are leaves and name
environment variables; tables, objects and arrays are composites, and anything else is refused.
A name that is the decimal text of a 64-bit integer is an integer key, as it is for the language
that the generated code is written in; the items of an array have their positions as keys.

The two readers agree on order, keys and errors.  An error names the first place at fault,
depth first, by its dotted path.
-/

namespace SiteSettings

/-! ## Keys -/

/-- A decimal integer in its one canonical spelling: no plus sign, no leading zeros, no negative
zero, and within 64 bits. -/
def canonicalInteger? (text : String) : Option Int64 :=
  let (negative, digits) :=
    match text.toList with
    | '-' :: digits => (true, digits)
    | digits => (false, digits)
  let canonical : Bool :=
    match digits with
    | [] => false
    | ['0'] => !negative
    | first :: _ => first != '0' && digits.all Char.isDigit
  if canonical then
    let size : Int := digits.foldl (fun n c => 10 * n + (c.toNat - '0'.toNat)) 0
    let n := if negative then -size else size
    if Int64.minValue.toInt ≤ n ∧ n ≤ Int64.maxValue.toInt then some (Int64.ofInt n) else none
  else none

/-- The key that a name stands for. -/
def Key.ofName (name : String) : Key :=
  match canonicalInteger? name with
  | some n => .integer n
  | none => .string name

/-- The key of the item at a position. -/
def Key.ofPosition (position : Nat) : Key :=
  .integer (Int64.ofNat position)

/-- A composite, refused if it is empty. -/
def ValueSpec.ofEntries (entries : List (Key × ValueSpec)) (path : String) :
    Except SettingError ValueSpec :=
  if entries.isEmpty then .error (.emptyComposite path) else .ok (.composite entries)

/-! ## From TOML -/

mutual

/-- The specification that a TOML value at a dotted path declares. -/
def Toml.Value.toSpec (path : String) : Toml.Value → Except SettingError ValueSpec
  | .string name => .ok (.leaf name)
  | .table entries => do
    let specs ← tomlEntrySpecs path entries
    ValueSpec.ofEntries specs path
  | .array items => do
    let specs ← tomlItemSpecs path 0 items
    ValueSpec.ofEntries specs path
  | .integer n => refuse (.integer n)
  | .float x => refuse (.float x)
  | .boolean b => refuse (.boolean b)
  | .datetime d => refuse (.datetime d)
termination_by structural value => value
where
  refuse (value : Toml.Value) : Except SettingError ValueSpec :=
    .error (.invalidSetting path
      ("expected an environment variable name or a table, found " ++ value.kindName))

/-- The specifications of a table's entries. -/
def tomlEntrySpecs (path : String) :
    List (String × Toml.Value) → Except SettingError (List (Key × ValueSpec))
  | [] => .ok []
  | (name, value) :: rest => do
    let spec ← value.toSpec (path ++ "." ++ name)
    let specs ← tomlEntrySpecs path rest
    .ok ((Key.ofName name, spec) :: specs)
termination_by structural entries => entries

/-- The specifications of an array's items from a position on. -/
def tomlItemSpecs (path : String) (position : Nat) :
    List Toml.Value → Except SettingError (List (Key × ValueSpec))
  | [] => .ok []
  | value :: rest => do
    let spec ← value.toSpec (path ++ "." ++ toString position)
    let specs ← tomlItemSpecs path (position + 1) rest
    .ok ((Key.ofPosition position, spec) :: specs)
termination_by structural items => items

end

/-- The mapping that a TOML table declares, such as the `settings` table of a project file. -/
def SettingsMap.ofToml (table : Toml.Table) : Except SettingError SettingsMap :=
  let add (map : SettingsMap) : String × Toml.Value → Except SettingError SettingsMap
    | (name, value) => do
      let spec ← value.toSpec name
      .ok (map.insert name spec)
  table.foldlM add empty

/-! ## From JSON -/

mutual

/-- The specification that a JSON value at a dotted path declares. -/
def Json.Value.toSpec (path : String) : Json.Value → Except SettingError ValueSpec
  | .string name => .ok (.leaf name)
  | .object members => do
    let specs ← jsonMemberSpecs path members
    ValueSpec.ofEntries specs path
  | .array items => do
    let specs ← jsonItemSpecs path 0 items
    ValueSpec.ofEntries specs path
  | .null => refuse .null
  | .boolean b => refuse (.boolean b)
  | .integer n => refuse (.integer n)
  | .float x => refuse (.float x)
termination_by structural value => value
where
  refuse (value : Json.Value) : Except SettingError ValueSpec :=
    .error (.invalidSetting path
      ("expected an environment variable name or an object, found " ++ value.kindName))

/-- The specifications of an object's members. -/
def jsonMemberSpecs (path : String) :
    List (String × Json.Value) → Except SettingError (List (Key × ValueSpec))
  | [] => .ok []
  | (name, value) :: rest => do
    let spec ← value.toSpec (path ++ "." ++ name)
    let specs ← jsonMemberSpecs path rest
    .ok ((Key.ofName name, spec) :: specs)
termination_by structural members => members

/-- The specifications of an array's items from a position on. -/
def jsonItemSpecs (path : String) (position : Nat) :
    List Json.Value → Except SettingError (List (Key × ValueSpec))
  | [] => .ok []
  | value :: rest => do
    let spec ← value.toSpec (path ++ "." ++ toString position)
    let specs ← jsonItemSpecs path (position + 1) rest
    .ok ((Key.ofPosition position, spec) :: specs)
termination_by structural items => items

end

/-- The mapping that a JSON object declares. -/
def SettingsMap.ofJson : Json.Value → Except SettingError SettingsMap
  | .object members =>
    let add (map : SettingsMap) : String × Json.Value → Except SettingError SettingsMap
      | (name, value) => do
        let spec ← value.toSpec name
        .ok (map.insert name spec)
    members.foldlM add empty
  | value =>
    .error (.invalidSetting "" ("expected an object of settings, found " ++ value.kindName))

end SiteSettings
