import SiteSettings.Proofs.Entries
import SiteSettings.Toml.Value

/-!
# Values by their paths

A table is a tree whose branches are named.  `Value.at?` follows a path of names down from a value;
only tables lead on, so nothing stands below an array or a text.

What stands at a path determines a table only if no table in it has a name twice.  Containers of
configuration values promise that, and `Value.HasDistinctNames` says it.
-/

namespace SiteSettings
namespace Toml

/-! ## Values within a value -/

/-- Whether a value stands in another one, at any depth, or is that value. -/
inductive Value.Within : Value → Value → Prop
  | refl (value : Value) : Within value value
  | item {value item : Value} {items : List Value} (hmem : item ∈ items) (h : Within value item) :
      Within value (.array items)
  | entry {value : Value} {entry : String × Value} {entries : List (String × Value)}
      (hmem : entry ∈ entries) (h : Within value entry.2) : Within value (.table entries)

/-! ## Following a path -/

/-- What stands at a path of names, seen from a value. -/
def Value.at? : List String → Value → Option Value
  | [], value => some value
  | name :: path, .table entries => (Entries.find? name entries).bind (Value.at? path)
  | _ :: _, _ => none

/-- What stands at a path of names in a table. -/
def Table.at? (path : List String) (table : Table) : Option Value :=
  (Value.table table).at? path

@[simp] theorem Value.at?_nil (value : Value) : value.at? [] = some value := by
  cases value <;> rfl

@[simp] theorem Value.at?_table_cons (name : String) (path : List String) (entries : Table) :
    (Value.table entries).at? (name :: path) =
      (Entries.find? name entries).bind (Value.at? path) :=
  rfl

theorem Value.at?_cons_of_not_isTable {value : Value} (h : value.isTable = false) (name : String)
    (path : List String) : value.at? (name :: path) = none := by
  cases value with
  | table entries => cases h
  | _ => rfl

@[simp] theorem Table.at?_nil (table : Table) : table.at? [] = some (.table table) :=
  rfl

@[simp] theorem Table.at?_cons (name : String) (path : List String) (table : Table) :
    Table.at? (name :: path) table = (Entries.find? name table).bind (Value.at? path) :=
  rfl

theorem Table.at?_singleton (name : String) (table : Table) :
    Table.at? [name] table = Entries.find? name table := by
  rw [Table.at?_cons]
  cases Entries.find? name table with
  | none => rfl
  | some value => exact Value.at?_nil value

/-- Whether a value stands at a path, or, without one, nothing but a table does. -/
def Table.HoldsAt (table : Table) (path : List String) : Option Value → Prop
  | some value => table.at? path = some value
  | none => ∀ value, table.at? path = some value → value.isTable

/-! ## The way to a path -/

/-- Whether only tables are on the way to a path. -/
def Value.IsClearTo (path : List String) (value : Value) : Prop :=
  ∀ front, front <+: path → front ≠ path → ∀ inner, value.at? front = some inner → inner.isTable

/-- Whether only tables are on the way from a table to a path. -/
def Table.IsClearTo (path : List String) (table : Table) : Prop :=
  (Value.table table).IsClearTo path

theorem Value.isClearTo_nil (value : Value) : value.IsClearTo [] :=
  fun _ hfront hne => absurd (List.prefix_nil.mp hfront) hne

theorem Value.not_isClearTo_of_not_isTable {value : Value} (h : value.isTable = false)
    {path : List String} (hpath : path ≠ []) : ¬ value.IsClearTo path := by
  intro hclear
  have htable := hclear [] List.nil_prefix hpath.symm value (at?_nil value)
  rw [h] at htable
  cases htable

/-- The way from a table begins with the entry of the first name. -/
theorem Table.isClearTo_cons {name : String} {path : List String} {table : Table} :
    IsClearTo (name :: path) table ↔
      ∀ inner, Entries.find? name table = some inner → inner.IsClearTo path := by
  constructor
  · intro h inner hinner front hfront hne below hbelow
    refine h (name :: front) (List.cons_prefix_cons.mpr ⟨rfl, hfront⟩)
      (fun he => hne (List.cons.inj he).2) below ?_
    rw [Value.at?_table_cons, hinner]
    exact hbelow
  · intro h front hfront hne below hbelow
    rcases List.prefix_cons_iff.mp hfront with rfl | ⟨front, rfl, hprefix⟩
    · obtain rfl := Option.some.inj hbelow
      rfl
    · obtain ⟨inner, hinner, hbelow⟩ := Option.bind_eq_some_iff.mp hbelow
      exact h inner hinner front hprefix (fun he => hne (he ▸ rfl)) below hbelow

/-! ## Distinct names -/

mutual

/-- Whether no table in the value has a name twice. -/
def Value.HasDistinctNames : Value → Prop
  | .table entries => (Entries.names entries).Nodup ∧ entriesDistinct entries
  | .array items => itemsDistinct items
  | _ => True
termination_by structural value => value

/-- Whether no table below the entries has a name twice. -/
def entriesDistinct : List (String × Value) → Prop
  | [] => True
  | (_, value) :: rest => value.HasDistinctNames ∧ entriesDistinct rest
termination_by structural entries => entries

/-- Whether no table in the items has a name twice. -/
def itemsDistinct : List Value → Prop
  | [] => True
  | value :: rest => value.HasDistinctNames ∧ itemsDistinct rest
termination_by structural items => items

end

/-- Whether neither the table nor any table in it has a name twice. -/
def Table.HasDistinctNames (table : Table) : Prop :=
  (Value.table table).HasDistinctNames

theorem entriesDistinct_iff {entries : List (String × Value)} :
    entriesDistinct entries ↔ ∀ e ∈ entries, e.2.HasDistinctNames := by
  induction entries with
  | nil => simp [entriesDistinct]
  | cons entry rest ih => simp [entriesDistinct, ih]

theorem itemsDistinct_iff {items : List Value} :
    itemsDistinct items ↔ ∀ item ∈ items, item.HasDistinctNames := by
  induction items with
  | nil => simp [itemsDistinct]
  | cons item rest ih => simp [itemsDistinct, ih]

theorem Value.hasDistinctNames_array {items : List Value} :
    (Value.array items).HasDistinctNames ↔ ∀ item ∈ items, item.HasDistinctNames :=
  itemsDistinct_iff

namespace Table

theorem hasDistinctNames_iff {table : Table} : table.HasDistinctNames ↔
    (Entries.names table).Nodup ∧ ∀ e ∈ table, e.2.HasDistinctNames :=
  and_congr_right fun _ => entriesDistinct_iff

theorem hasDistinctNames_nil : HasDistinctNames [] :=
  ⟨List.nodup_nil, trivial⟩

theorem HasDistinctNames.of_find? {table : Table} (h : table.HasDistinctNames) {name : String}
    {value : Value} (hvalue : Entries.find? name table = some value) : value.HasDistinctNames :=
  (hasDistinctNames_iff.mp h).2 _ (Entries.mem_of_find? hvalue)

theorem HasDistinctNames.insert {table : Table} (h : table.HasDistinctNames) (name : String)
    {value : Value} (hvalue : value.HasDistinctNames) :
    HasDistinctNames (Entries.insert name value table) := by
  obtain ⟨hnodup, hall⟩ := hasDistinctNames_iff.mp h
  refine hasDistinctNames_iff.mpr ⟨Entries.nodup_names_insert name value hnodup, fun e he => ?_⟩
  rcases Entries.eq_or_mem_of_mem_insert name value he with rfl | hmem
  · exact hvalue
  · exact hall e hmem

end Table
end Toml
end SiteSettings
