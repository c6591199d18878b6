/-!
# Ordered entries

Configuration tables, JSON objects and settings mappings are lists of named entries whose order
matters: it is the order of the generated code.  One rule governs every change: a name that is
already present keeps its place and takes the new value, a new name goes to the end.
-/

namespace SiteSettings

/-- Named entries in order. -/
abbrev Entries (α : Type) := List (String × α)

namespace Entries

variable {α : Type}

/-- The value of the first entry with this name. -/
def find? (name : String) : Entries α → Option α
  | [] => none
  | (n, v) :: rest => if n = name then some v else find? name rest

/-- Gives `name` the value `value`, in place if the name is present, at the end if not. -/
def insert (name : String) (value : α) : Entries α → Entries α
  | [] => [(name, value)]
  | (n, v) :: rest => if n = name then (n, value) :: rest else (n, v) :: insert name value rest

/-- The entries without the first one of this name, in their order. -/
def erase (name : String) : Entries α → Entries α
  | [] => []
  | (n, v) :: rest => if n = name then rest else (n, v) :: erase name rest

/-- The names in order. -/
def names (entries : Entries α) : List String :=
  entries.map Prod.fst

/-- The entries of a list of pairs inserted one after another: names become distinct, each at its
first place with its last value. -/
def ofList (pairs : List (String × α)) : Entries α :=
  pairs.foldl (fun entries (name, value) => insert name value entries) []

theorem find?_insert_self (name : String) (value : α) (entries : Entries α) :
    find? name (insert name value entries) = some value := by
  induction entries with
  | nil => simp [insert, find?]
  | cons entry rest ih =>
    obtain ⟨n, v⟩ := entry
    by_cases h : n = name <;> simp [insert, find?, h, ih]

theorem find?_insert_of_ne {name other : String} (h : other ≠ name) (value : α)
    (entries : Entries α) : find? other (insert name value entries) = find? other entries := by
  induction entries with
  | nil => simp [insert, find?, h.symm]
  | cons entry rest ih =>
    obtain ⟨n, v⟩ := entry
    by_cases hn : n = name
    · subst hn
      simp [insert, find?, h.symm]
    · by_cases ho : n = other <;> simp [insert, find?, hn, ho, h, ih]

end Entries
end SiteSettings
