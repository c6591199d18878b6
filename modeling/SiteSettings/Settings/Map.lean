import SiteSettings.Settings.Spec

/-!
# Settings mappings

A `SettingsMap` gives specifications to names of variables, in the order in which their assignments
will be generated.  Names are distinct in every map built by `insert` and `extend`: a repeated name
keeps its place and takes the new specification.
-/

namespace SiteSettings

/-- An ordered mapping from variable names to what they resolve to. -/
structure SettingsMap where
  entries : Entries ValueSpec

namespace SettingsMap

def empty : SettingsMap := ⟨[]⟩

def insert (map : SettingsMap) (name : String) (spec : ValueSpec) : SettingsMap :=
  ⟨Entries.insert name spec map.entries⟩

/-- Inserts every entry of `other`, in its order. -/
def extend (map other : SettingsMap) : SettingsMap :=
  other.entries.foldl (fun m (name, spec) => m.insert name spec) map

/-- The map of the pairs inserted one after another. -/
def ofList (pairs : List (String × ValueSpec)) : SettingsMap :=
  empty.extend ⟨pairs⟩

def find? (map : SettingsMap) (name : String) : Option ValueSpec :=
  Entries.find? name map.entries

def size (map : SettingsMap) : Nat :=
  map.entries.length

def isEmpty (map : SettingsMap) : Bool :=
  map.entries.isEmpty

theorem find?_insert_self (map : SettingsMap) (name : String) (spec : ValueSpec) :
    (map.insert name spec).find? name = some spec :=
  Entries.find?_insert_self name spec map.entries

theorem find?_insert_of_ne (map : SettingsMap) {name other : String} (h : other ≠ name)
    (spec : ValueSpec) : (map.insert name spec).find? other = map.find? other :=
  Entries.find?_insert_of_ne h spec map.entries

end SettingsMap

/-! ## The variables that a mapping reads -/

/-- Adds a name at the end unless it is there already. -/
def addName (names : List String) (name : String) : List String :=
  if name ∈ names then names else names ++ [name]

mutual

/-- The names of a specification's variables, added to those seen before. -/
def ValueSpec.collectVariables (names : List String) : ValueSpec → List String
  | .leaf name => addName names name
  | .composite entries => collectEntryVariables names entries
termination_by structural spec => spec

/-- The names of the variables of all entries, in order. -/
def collectEntryVariables (names : List String) : List (Key × ValueSpec) → List String
  | [] => names
  | (_, spec) :: rest => collectEntryVariables (spec.collectVariables names) rest
termination_by structural entries => entries

end

/-- Every environment variable that the mapping reads, each once, in the order in which they
first appear. -/
def SettingsMap.variableNames (map : SettingsMap) : List String :=
  map.entries.foldl (fun names (_, spec) => spec.collectVariables names) []

end SiteSettings
