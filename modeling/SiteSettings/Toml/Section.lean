import SiteSettings.Toml.Value

/-!
# Tables while a document is being read

A TOML document may come back to a table several times, but not in every way: a table with a header
of its own cannot be opened again, dotted keys may only extend tables that dotted keys made, an
inline table is closed for good.  While a document is read, a table therefore remembers how it
came about:

* `implicit`: no header or key has named it itself, only something below it;
* `dotted`: a dotted key made it.

Every change goes through `modifyAt`, which walks down a path, makes what is missing and refuses
what may not be entered.  `Node.toValue` forgets the remarks once the document is complete.
-/

namespace SiteSettings
namespace Toml

/-- An entry of a table under construction. -/
inductive Node
  | value (v : Value)
  | table (implicit dotted : Bool) (entries : List (String × Node))
  | tables (elements : List (List (String × Node)))

/-- The entries of a table under construction. -/
abbrev Section := Entries Node

mutual

/-- The finished value of a node. -/
def Node.toValue : Node → Value
  | .value v => v
  | .table _ _ entries => .table (sectionValues entries)
  | .tables elements => .array (elementValues elements)
termination_by structural node => node

/-- The finished entries of a table. -/
def sectionValues : List (String × Node) → List (String × Value)
  | [] => []
  | (name, node) :: rest => (name, node.toValue) :: sectionValues rest
termination_by structural entries => entries

/-- The finished tables of an array of tables. -/
def elementValues : List (List (String × Node)) → List Value
  | [] => []
  | element :: rest => .table (sectionValues element) :: elementValues rest
termination_by structural elements => elements

end

namespace Section

variable {α : Type}

/-- Applies `change` to the table at `path` below one whose `dotted` mark is `isDotted`.  Missing
tables on the way are made implicit, with `byDottedKey` as their mark; of an array of tables the
last one is entered.  A value cannot be entered, and a dotted key enters implicit tables only. -/
def modifyAt (byDottedKey : Bool) (change : Bool → Section → Option (α × Section)) :
    List String → Bool → Section → Option (α × Section)
  | [], isDotted, entries => change isDotted entries
  | name :: path, _, entries =>
    match Entries.find? name entries with
    | none => do
      let (answer, below) ← modifyAt byDottedKey change path byDottedKey []
      some (answer, Entries.insert name (.table true byDottedKey below) entries)
    | some (.value _) => none
    | some (.table implicit dotted below) =>
      if byDottedKey && !implicit then none
      else do
        let (answer, below) ← modifyAt byDottedKey change path dotted below
        some (answer, Entries.insert name (.table implicit dotted below) entries)
    | some (.tables elements) =>
      match elements.getLast? with
      | none => none
      | some last => do
        let (answer, last) ← modifyAt byDottedKey change path false last
        some (answer, Entries.insert name (.tables (elements.dropLast ++ [last])) entries)

/-- Gives a value to a key, which may be dotted.  The key must be new, and its table must be the
given one itself or one that dotted keys made. -/
def assign (key : List String) (value : Value) (entries : Section) : Option Section := do
  let path := key.dropLast
  let name ← key.getLast?
  let change (isDotted : Bool) (inner : Section) : Option (Unit × Section) :=
    if isDotted == path.isEmpty then none
    else if (Entries.find? name inner).isSome then none
    else some ((), Entries.insert name (.value value) inner)
  let (_, entries) ← modifyAt true change path false entries
  some entries

/-- Opens the table of a header: the entries that implicit mention has given it so far are taken
out, to be put back at the end of the parent when the table is complete.  Any other node of that
name is in the way. -/
def openTable (key : List String) (root : Section) : Option (Section × Section) := do
  let name ← key.getLast?
  let change (_ : Bool) (inner : Section) : Option (Section × Section) :=
    match Entries.find? name inner with
    | none => some ([], inner)
    | some (.table true false below) => some (below, Entries.erase name inner)
    | some _ => none
  modifyAt false change key.dropLast false root

/-- Checks that the header of an array of tables names a new array or one that exists. -/
def openElement (key : List String) (root : Section) : Option Section := do
  let name ← key.getLast?
  let change (_ : Bool) (inner : Section) : Option (Unit × Section) :=
    match Entries.find? name inner with
    | none => some ((), Entries.insert name (.tables []) inner)
    | some (.tables _) => some ((), inner)
    | some _ => none
  let (_, root) ← modifyAt false change key.dropLast false root
  some root

/-- Puts a completed table of a header in its place. -/
def closeTable (key : List String) (entries : Section) (root : Section) : Option Section := do
  let name ← key.getLast?
  let change (_ : Bool) (inner : Section) : Option (Unit × Section) :=
    some ((), Entries.insert name (.table false false entries) inner)
  let (_, root) ← modifyAt false change key.dropLast false root
  some root

/-- Adds a completed table to its array of tables. -/
def closeElement (key : List String) (entries : Section) (root : Section) : Option Section := do
  let name ← key.getLast?
  let change (_ : Bool) (inner : Section) : Option (Unit × Section) :=
    match Entries.find? name inner with
    | some (.tables elements) =>
      some ((), Entries.insert name (.tables (elements ++ [entries])) inner)
    | _ => none
  let (_, root) ← modifyAt false change key.dropLast false root
  some root

end Section
end Toml
end SiteSettings
