import Mathlib.Data.List.Induction
import SiteSettings.Config.Overrides
import SiteSettings.Proofs.Text.Pieces
import SiteSettings.Proofs.Toml.Paths

/-!
# What overrides write

A write touches the paths that begin or end at its own, and no other.  At its path and below, the
table holds the written value; above it, tables; beside it, what was there (`at?_writeAt_append`,
`at?_writeAt_front`, `at?_writeAt_beside`).  `IsWritten` puts this together: each override is such a
write on the table that those before it made.

So the last write to a path decides what stands there, unless a later one goes on below it or stops
above it.  For dotted keys the same can be said of their texts: the parts of one key begin those of
another exactly if it is the other key or the other goes on after it with a dot.
-/

namespace SiteSettings
namespace Config

open Toml

/-! ## One write -/

theorem at?_writeAt_append (value : Value) {path : List String} (hpath : path ≠ [])
    (more : List String) (table : Table) :
    Table.at? (path ++ more) (writeAt value path table) = value.at? more := by
  induction path generalizing table with
  | nil => exact absurd rfl hpath
  | cons name path ih =>
    cases path with
    | nil => simp [writeAt, Entries.find?_insert_self]
    | cons next path =>
      simp only [writeAt, List.cons_append, Table.at?_cons, Entries.find?_insert_self]
      exact ih (List.cons_ne_nil _ _) _

theorem at?_writeAt_self (value : Value) {path : List String} (hne : path ≠ []) (table : Table) :
    Table.at? path (writeAt value path table) = some value := by
  have hat := at?_writeAt_append value hne [] table
  rwa [List.append_nil, Value.at?_nil] at hat

/-- The entries of the table at a path; none if no table is there. -/
def entriesAt (path : List String) (table : Table) : Table :=
  match table.at? path with
  | some (.table entries) => entries
  | _ => []

theorem entriesAt_cons (name : String) (path : List String) (table : Table) :
    entriesAt (name :: path) table = entriesAt path (entriesAt [name] table) := by
  have hnone : entriesAt path [] = [] := by
    cases path <;> rfl
  rw [entriesAt, entriesAt.eq_def [name], Table.at?_cons, Table.at?_singleton]
  cases Entries.find? name table with
  | none => exact hnone.symm
  | some inner =>
    cases inner with
    | table entries => rfl
    | _ =>
      -- below a value of another kind nothing stands, and it is no table itself
      rw [Option.bind_some]
      cases path with
      | nil => rfl
      | cons next path => rfl

/-- A write goes on in the table under the first name of its path. -/
theorem writeAt_cons (value : Value) (name : String) {path : List String} (hpath : path ≠ [])
    (table : Table) : writeAt value (name :: path) table =
      Entries.insert name (.table (writeAt value path (entriesAt [name] table))) table := by
  obtain ⟨next, path, rfl⟩ := List.exists_cons_of_ne_nil hpath
  rw [entriesAt, Table.at?_singleton]
  rfl

/-- On the way to its end a write changes one entry of each table, the next one on the way.  Where
no table was, there is one with that entry alone. -/
theorem at?_writeAt_above (value : Value) (front : List String) (next : String) (rest : List String)
    (table : Table) :
    ∃ entries, Table.at? front (writeAt value (front ++ next :: rest) table) =
      some (.table entries) ∧
      Entries.DifferAt next (entriesAt front table) entries := by
  induction front generalizing table with
  | nil =>
    by_cases hrest : rest = []
    · subst hrest
      exact ⟨_, rfl, Entries.differAt_insert next value table⟩
    · rw [List.nil_append, writeAt_cons value next hrest]
      exact ⟨_, rfl, Entries.differAt_insert next _ table⟩
  | cons name front ih =>
    have hne : front ++ next :: rest ≠ [] :=
      List.append_ne_nil_of_right_ne_nil front (List.cons_ne_nil next rest)
    obtain ⟨entries, hentries, hdiffer⟩ := ih (entriesAt [name] table)
    refine ⟨entries, ?_, entriesAt_cons name front table ▸ hdiffer⟩
    rw [List.cons_append, writeAt_cons value name hne, Table.at?_cons, Entries.find?_insert_self]
    exact hentries

/-- A write makes tables of all that is on the way. -/
theorem at?_writeAt_front (value : Value) {path front : List String} (hfront : front <+: path)
    (hne : front ≠ path) (table : Table) :
    ∃ entries, Table.at? front (writeAt value path table) = some (.table entries) := by
  obtain ⟨rest, rfl⟩ := hfront
  cases rest with
  | nil => exact absurd (List.append_nil front).symm hne
  | cons next rest =>
    obtain ⟨entries, hentries, -⟩ := at?_writeAt_above value front next rest table
    exact ⟨entries, hentries⟩

/-- A write leaves alone what is neither on its way nor at its end. -/
theorem at?_writeAt_beside (value : Value) {path other : List String} (hbelow : ¬ path <+: other)
    (habove : ¬ other <+: path) (table : Table) :
    Table.at? other (writeAt value path table) = Table.at? other table := by
  induction path generalizing other table with
  | nil => rfl
  | cons name path ih =>
    cases other with
    | nil => exact absurd List.nil_prefix habove
    | cons first other =>
      by_cases hname : first = name
      · subst hname
        have hbelow' : ¬ path <+: other :=
          fun h => hbelow (List.cons_prefix_cons.mpr ⟨rfl, h⟩)
        have habove' : ¬ other <+: path :=
          fun h => habove (List.cons_prefix_cons.mpr ⟨rfl, h⟩)
        cases path with
        | nil => exact absurd List.nil_prefix hbelow'
        | cons next path =>
          cases other with
          | nil => exact absurd List.nil_prefix habove'
          | cons second other =>
            simp only [writeAt, Table.at?_cons, Entries.find?_insert_self]
            refine (ih hbelow' habove' _).trans ?_
            -- where no table was, nothing was below it, and nothing is below an empty table
            cases Entries.find? first table with
            | none => rfl
            | some inner => cases inner <;> rfl
      · have hfind (inserted : Value) : Entries.find? first (Entries.insert name inserted table) =
            Entries.find? first table := Entries.find?_insert_of_ne hname inserted table
        cases path with
        | nil => simp [writeAt, hfind]
        | cons next path => simp [writeAt, hfind]

/-- Whether a table is another one after a value was written at a path. -/
structure IsWritten (path : List String) (value : Value) (old new : Table) : Prop where
  /-- The value is there, as it was given. -/
  here : new.at? path = some value
  /-- What is neither on the way nor below the end stays. -/
  beside : ∀ other, ¬ path <+: other → ¬ other <+: path → new.at? other = old.at? other
  /-- All that is on the way is a table, and the table it was but for the entry that leads on. -/
  above : ∀ front next rest, path = front ++ next :: rest →
    ∃ entries, new.at? front = some (.table entries) ∧
      Entries.DifferAt next (entriesAt front old) entries

theorem isWritten_writeAt (value : Value) {path : List String} (hpath : path ≠ []) (table : Table) :
    IsWritten path value table (writeAt value path table) where
  here := at?_writeAt_self value hpath table
  beside _ hbelow habove := at?_writeAt_beside value hbelow habove table
  above front next rest hsplit := by
    rw [hsplit]
    exact at?_writeAt_above value front next rest table

/-- A write that does not reach a path leaves it as it was, if it had no value in its way. -/
theorem holdsAt_writeAt {table : Table} {path key : List String} {last : Option Value}
    (h : table.HoldsAt path last) (hlast : ∀ value, last = some value → value.isTable = false)
    (hclear : table.IsClearTo key) (hbelow : ¬ key <+: path) (value : Value) :
    Table.HoldsAt (writeAt value key table) path last := by
  by_cases hfront : path <+: key
  · have hne : path ≠ key := by
      rintro rfl
      exact hbelow (List.prefix_refl _)
    cases last with
    | some inner =>
      have hisTable := hclear path hfront hne inner h
      rw [hlast inner rfl] at hisTable
      cases hisTable
    | none =>
      obtain ⟨entries, hentries⟩ := at?_writeAt_front value hfront hne table
      intro inner hinner
      obtain rfl := Option.some.inj (hentries.symm.trans hinner)
      rfl
  · have hat := at?_writeAt_beside value hbelow hfront table
    cases last with
    | some inner => exact hat.trans h
    | none =>
      intro inner hinner
      exact h inner (hat.symm.trans hinner)

theorem hasDistinctNames_writeAt {value : Value} (hvalue : value.HasDistinctNames)
    (path : List String) {table : Table} (h : table.HasDistinctNames) :
    (writeAt value path table).HasDistinctNames := by
  fun_induction writeAt value path table with
  | case1 => exact h
  | case2 name table => exact h.insert name hvalue
  | case3 name path table _ inner ih =>
    refine h.insert name (ih ?_)
    unfold inner
    split
    · rename_i entries hfind
      exact h.of_find? hfind
    · exact Table.hasDistinctNames_nil

/-! ## One after another -/

/-- The value of the last item that has one. -/
def lastOf? {α β : Type} (value? : α → Option β) (items : List α) : Option β :=
  items.reverse.findSome? value?

theorem lastOf?_concat {α β : Type} (value? : α → Option β) (items : List α) (item : α) :
    lastOf? value? (items ++ [item]) = (value? item).or (lastOf? value? items) := by
  rw [lastOf?, List.reverse_append, List.reverse_singleton, List.singleton_append,
    List.findSome?_cons]
  cases value? item <;> rfl

theorem exists_of_lastOf? {α β : Type} {value? : α → Option β} {items : List α} {value : β}
    (h : lastOf? value? items = some value) : ∃ item ∈ items, value? item = some value := by
  obtain ⟨item, hitem, hvalue⟩ := List.exists_of_findSome?_eq_some h
  exact ⟨item, List.mem_reverse.mp hitem, hvalue⟩

theorem lastOf?_eq_none_iff {α β : Type} {value? : α → Option β} {items : List α} :
    lastOf? value? items = none ↔ ∀ item ∈ items, value? item = none := by
  rw [lastOf?, List.findSome?_eq_none_iff]
  exact forall_congr' fun item => by rw [List.mem_reverse]

theorem overrideTable_concat (overrides : List (String × Value)) (key : String) (value : Value) :
    overrideTable (overrides ++ [(key, value)]) =
      writeAt value (Text.pieces '.' key) (overrideTable overrides) := by
  simp [overrideTable]

theorem hasDistinctNames_overrideTable {overrides : List (String × Value)}
    (h : ∀ e ∈ overrides, e.2.HasDistinctNames) :
    (overrideTable overrides).HasDistinctNames := by
  induction overrides using List.reverseRecOn with
  | nil => exact Table.hasDistinctNames_nil
  | append_singleton overrides e ih =>
    rw [overrideTable_concat]
    exact hasDistinctNames_writeAt (h e (by simp)) _
      (ih fun e he => h e (List.mem_append_left _ he))

/-- Where no override stops above a path, and no table stands in the end, the last override of the
path decides what does. -/
theorem at?_overrideTable {overrides : List (String × Value)} {path : List String}
    (habove : ∀ e ∈ overrides, Text.pieces '.' e.1 <+: path → Text.pieces '.' e.1 = path)
    (htable : ∀ entries, Table.at? path (overrideTable overrides) ≠ some (.table entries)) :
    Table.at? path (overrideTable overrides) =
      lastOf? (fun e => if Text.pieces '.' e.1 = path then some e.2 else none) overrides := by
  induction overrides using List.reverseRecOn with
  | nil =>
    cases path with
    | nil => exact absurd rfl (htable [])
    | cons name path => rfl
  | append_singleton overrides e ih =>
    obtain ⟨key, value⟩ := e
    rw [overrideTable_concat] at htable ⊢
    rw [lastOf?_concat]
    have hkey := habove (key, value) (by simp)
    by_cases hself : Text.pieces '.' key = path
    · subst hself
      rw [if_pos rfl, at?_writeAt_self value (Text.pieces_ne_nil '.' key), Option.some_or]
    · have hbelow : ¬ Text.pieces '.' key <+: path := fun h => hself (hkey h)
      have hfront : ¬ path <+: Text.pieces '.' key := by
        intro h
        obtain ⟨entries, hentries⟩ :=
          at?_writeAt_front value h (Ne.symm hself) (overrideTable overrides)
        exact htable entries hentries
      rw [at?_writeAt_beside value hbelow hfront] at htable ⊢
      rw [if_neg hself]
      exact ih (fun e he => habove e (List.mem_append_left _ he)) htable

/-! ## Overrides that have to do with each other -/

/-- Whether a dotted key is another one, or goes on after it. -/
def Extends (key other : String) : Prop :=
  key = other ∨ ∃ rest, key = other ++ "." ++ rest

theorem extends_iff {key other : String} :
    Extends key other ↔ Text.pieces '.' other <+: Text.pieces '.' key := by
  rw [Text.pieces_prefix_iff, Extends, eq_comm]
  rfl

/-- What an override writes is still there if no later one has to do with its key. -/
theorem at?_overrideTable_of_unrelated {before after : List (String × Value)} {key : String}
    {value : Value} (h : ∀ e ∈ after, ¬ Extends key e.1 ∧ ¬ Extends e.1 key) :
    Table.at? (Text.pieces '.' key) (overrideTable (before ++ (key, value) :: after)) =
      some value := by
  induction after using List.reverseRecOn with
  | nil =>
    rw [overrideTable_concat, at?_writeAt_self value (Text.pieces_ne_nil '.' key)]
  | append_singleton after e ih =>
    obtain ⟨habove, hbelow⟩ := h e (by simp)
    rw [extends_iff] at habove hbelow
    rw [← List.cons_append, ← List.append_assoc, overrideTable_concat,
      at?_writeAt_beside _ habove hbelow]
    exact ih fun e he => h e (List.mem_append_left _ he)

/-- **Overrides are writes one after another.**  Each makes the table that was there into one with
its value at the path of its key.  So the value of the last one is there whole, and that of an
earlier one is if no later key is its key, begins it or extends it. -/
theorem overrideTable_isWritten :
    overrideTable [] = [] ∧
      (∀ (overrides : List (String × Value)) (key : String) (value : Value),
        IsWritten (Text.pieces '.' key) value (overrideTable overrides)
          (overrideTable (overrides ++ [(key, value)]))) ∧
      ∀ (before after : List (String × Value)) (key : String) (value : Value),
        (∀ e ∈ after, ¬ Extends key e.1 ∧ ¬ Extends e.1 key) →
        Table.at? (Text.pieces '.' key)
          (overrideTable (before ++ (key, value) :: after)) = some value := by
  refine ⟨rfl, ?_, ?_⟩
  · intro overrides key value
    rw [overrideTable_concat]
    exact isWritten_writeAt value (Text.pieces_ne_nil '.' key) _
  · intro before after key value hunrelated
    exact at?_overrideTable_of_unrelated hunrelated

/-- A table in the place of a text, with later keys beside it: one goes on after an empty part, one
after more letters. -/
theorem overrideTable_isWritten_beside :
    let before : List (String × Value) := [("settings", .string "x")]
    let value : Value := .table [("host", .string "H")]
    let after : List (String × Value) :=
      [("settings..db", .integer 3), ("settings.dbx", .boolean true)]
    (∀ e ∈ after, ¬ Extends "settings.db" e.1 ∧ ¬ Extends e.1 "settings.db") ∧
      Table.at? ["settings", "db"] (overrideTable (before ++ ("settings.db", value) :: after)) =
        some value := by
  intro before value after
  have hunrelated : ∀ e ∈ after, ¬ Extends "settings.db" e.1 ∧ ¬ Extends e.1 "settings.db" := by
    simp only [after, extends_iff]
    decide
  have hpieces : Text.pieces '.' "settings.db" = ["settings", "db"] := by decide
  have hthere := overrideTable_isWritten.2.2 before after "settings.db" value hunrelated
  rw [hpieces] at hthere
  exact ⟨hunrelated, hthere⟩

end Config
end SiteSettings
