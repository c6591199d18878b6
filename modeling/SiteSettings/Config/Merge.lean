import SiteSettings.Toml.Value

/-!
# Layers of configuration

A configuration is put together from tables of rising priority.  Where both the table so far and the
layer on top have a table under one name, the two are merged in turn; any other value of the layer
replaces what was there.  Names keep the places they have, and new ones follow in the layer's order.
-/

namespace SiteSettings
namespace Toml

mutual

/-- A value of the upper layer over what the lower one has at its place. -/
def Value.mergeOver (below : Option Value) : Value → Value
  | .table above =>
    match below with
    | some (.table entries) => .table (mergeEntries entries above)
    | _ => .table above
  | .string text => .string text
  | .integer n => .integer n
  | .float x => .float x
  | .boolean b => .boolean b
  | .datetime d => .datetime d
  | .array items => .array items
termination_by structural value => value

/-- The entries of the lower layer with those of the upper one on top. -/
def mergeEntries (below : List (String × Value)) : List (String × Value) → List (String × Value)
  | [] => below
  | (name, value) :: rest =>
    mergeEntries (Entries.insert name (value.mergeOver (Entries.find? name below)) below) rest
termination_by structural above => above

end

/-- The table `below` with the layer `above` on top. -/
def Table.merge (below above : Table) : Table :=
  mergeEntries below above

/-- All layers, from the lowest to the highest. -/
def Table.mergeAll (layers : List Table) : Table :=
  layers.foldl Table.merge []

end Toml
end SiteSettings
