import SiteSettings.Proofs.Toml.Paths

/-!
# Tables up to the order of their entries

Two tables may hold the same and differ in the order of it.  `Value.Reorders` says so by recursion:
the names are the same ones, and what stands under each name differs in the order of entries at
most.  Values other than tables do not differ at all.

Where no name occurs twice, that is the case exactly if the same stands at every path: the same text
or number, or a table in both (`Value.reorders_of_at?`).
-/

namespace SiteSettings
namespace Toml

/-! ## Paths through paths -/

theorem Value.at?_append (front path : List String) (value : Value) :
    value.at? (front ++ path) = (value.at? front).bind (at? path) := by
  induction front generalizing value with
  | nil => simp
  | cons name front ih =>
    cases value with
    | table entries =>
      rw [List.cons_append, at?_table_cons, at?_table_cons, Option.bind_assoc]
      exact Option.bind_congr fun inner _ => ih inner
    | _ => rfl

theorem Table.at?_append (front path : List String) (table : Table) :
    table.at? (front ++ path) = (table.at? front).bind (Value.at? path) :=
  Value.at?_append front path (.table table)

/-- Above whatever stands in a table there are only tables. -/
theorem Value.exists_table_of_at?_append {front path : List String} (hpath : path ≠ [])
    {value inner : Value} (h : value.at? (front ++ path) = some inner) :
    ∃ entries, value.at? front = some (.table entries) := by
  rw [at?_append] at h
  obtain ⟨middle, hmiddle, hinner⟩ := Option.bind_eq_some_iff.mp h
  obtain ⟨name, path, rfl⟩ := List.exists_cons_of_ne_nil hpath
  cases middle with
  | table entries => exact ⟨entries, hmiddle⟩
  | _ => cases hinner

theorem Value.table_or_leaf (value : Value) :
    (∃ entries, value = .table entries) ∨ value.isTable = false := by
  cases value with
  | table entries => exact .inl ⟨entries, rfl⟩
  | _ => exact .inr rfl

/-! ## The order of entries -/

/-- Whether two values differ at most in the order in which tables have their entries. -/
inductive Value.Reorders : Value → Value → Prop
  | refl (value : Value) : Reorders value value
  | table {entries entries' : Table}
      (hnames : (Entries.names entries).Perm (Entries.names entries'))
      (hvalues : ∀ name value value', Entries.find? name entries = some value →
        Entries.find? name entries' = some value' → Reorders value value') :
      Reorders (.table entries) (.table entries')

/-- Whether the same stands at a place, tables in both counting as the same. -/
def AgreeUpToTables : Option Value → Option Value → Prop
  | some (.table _), some (.table _) => True
  | value, value' => value = value'

theorem AgreeUpToTables.isSome_eq {value value' : Option Value} (h : AgreeUpToTables value value') :
    value.isSome = value'.isSome := by
  unfold AgreeUpToTables at h
  split at h
  · rfl
  · rw [h]

theorem AgreeUpToTables.tables_or_eq {value value' : Value}
    (h : AgreeUpToTables (some value) (some value')) :
    (∃ entries entries', value = .table entries ∧ value' = .table entries') ∨ value = value' := by
  unfold AgreeUpToTables at h
  split at h
  · rename_i entries entries' hvalue hvalue'
    exact .inl ⟨entries, entries', Option.some.inj hvalue, Option.some.inj hvalue'⟩
  · exact .inr (Option.some.inj h)

/-- To agree is to have the same texts and numbers, and tables at once. -/
theorem agreeUpToTables_of_iff {value value' : Option Value}
    (hleaf : ∀ leaf, leaf.isTable = false → (value = some leaf ↔ value' = some leaf))
    (htable : (∃ entries, value = some (.table entries)) ↔
      ∃ entries, value' = some (.table entries)) :
    AgreeUpToTables value value' := by
  unfold AgreeUpToTables
  split
  · trivial
  · rename_i hnot
    by_cases h : ∃ entries, value = some (.table entries)
    · obtain ⟨entries, rfl⟩ := h
      obtain ⟨entries', rfl⟩ := htable.mp ⟨entries, rfl⟩
      exact (hnot entries entries' rfl rfl).elim
    · have hisTable {value : Option Value} (h : ¬ ∃ entries, value = some (.table entries))
          {leaf : Value} (hleaf : value = some leaf) : leaf.isTable = false := by
        refine leaf.table_or_leaf.resolve_left ?_
        rintro ⟨entries, rfl⟩
        exact h ⟨entries, hleaf⟩
      refine Option.ext fun leaf => ?_
      exact ⟨fun hvalue => (hleaf leaf (hisTable h hvalue)).mp hvalue,
        fun hvalue' => (hleaf leaf (hisTable (mt htable.mpr h) hvalue')).mpr hvalue'⟩

/-- Tables in which the same names have something have the same names. -/
theorem names_perm {entries entries' : Table} (hentries : (Entries.names entries).Nodup)
    (hentries' : (Entries.names entries').Nodup)
    (h : ∀ name, (Entries.find? name entries).isSome = (Entries.find? name entries').isSome) :
    (Entries.names entries).Perm (Entries.names entries') := by
  have hmem (table : Table) (name : String) :
      name ∈ Entries.names table ↔ (Entries.find? name table).isSome := by
    rw [Option.isSome_iff_ne_none, ne_eq, Entries.find?_eq_none_iff, Decidable.not_not]
  refine (List.perm_ext_iff_of_nodup hentries hentries').mpr fun name => ?_
  rw [hmem, hmem, h name]

theorem sizeOf_lt_of_find? {name : String} {value : Value} {entries : Table}
    (h : Entries.find? name entries = some value) : sizeOf value < 1 + sizeOf entries := by
  have hlt := List.sizeOf_lt_of_mem (Entries.mem_of_find? h)
  rw [Prod.mk.sizeOf_spec] at hlt
  omega

/-- Values with the same at every path differ in the order of entries only. -/
theorem Value.reorders_of_at? {value value' : Value} (hvalue : value.HasDistinctNames)
    (hvalue' : value'.HasDistinctNames)
    (h : ∀ path, AgreeUpToTables (value.at? path) (value'.at? path)) : value.Reorders value' := by
  have hself := h []
  rw [at?_nil, at?_nil] at hself
  rcases hself.tables_or_eq with ⟨entries, entries', hentries, hentries'⟩ | rfl
  · rw [hentries] at hvalue ⊢
    rw [hentries'] at hvalue' ⊢
    have hbelow (name : String) (path : List String) :
        AgreeUpToTables (Table.at? (name :: path) entries) (Table.at? (name :: path) entries') := by
      have hpath := h (name :: path)
      rwa [hentries, hentries'] at hpath
    refine .table (names_perm hvalue.1 hvalue'.1 fun name => ?_) ?_
    · have hname := (hbelow name []).isSome_eq
      rwa [Table.at?_singleton, Table.at?_singleton] at hname
    · intro name inner inner' hinner hinner'
      have hsmaller : sizeOf inner < sizeOf value := by
        rw [hentries, table.sizeOf_spec]
        exact sizeOf_lt_of_find? hinner
      have hdistinct := Table.HasDistinctNames.of_find? hvalue hinner
      have hdistinct' := Table.HasDistinctNames.of_find? hvalue' hinner'
      refine reorders_of_at? hdistinct hdistinct' fun path => ?_
      have hpath := hbelow name path
      rwa [Table.at?_cons, Table.at?_cons, hinner, hinner'] at hpath
  · exact .refl value
termination_by sizeOf value

end Toml
end SiteSettings
