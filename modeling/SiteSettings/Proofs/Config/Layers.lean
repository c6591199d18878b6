import Mathlib.Data.List.Induction
import SiteSettings.Config.Merge
import SiteSettings.Proofs.Toml.Paths

/-!
# Layers, path by path

Merging is not associative, and what one layer leaves of another depends on both, so a stack of
layers has no simple law as a whole.  At a single path it has one: the highest layer decides that
says anything about the path.  A layer says something about it in two ways: something of the layer
stands there, or the path comes upon a value of the layer that is not a table.  `Value.isOpenAt` is
the case that is left.

`Value.at?_mergeOver` says this of two values, by recursion along the path, and
`at?_foldl_merge_iff` of a stack, from the lowest layer on.
-/

namespace SiteSettings
namespace Toml

/-! ## One value over another -/

theorem Value.isTable_mergeOver (below : Option Value) (value : Value) :
    (value.mergeOver below).isTable = value.isTable := by
  cases value with
  | table above =>
    cases below with
    | none => rfl
    | some lower => cases lower <;> rfl
  | _ => rfl

theorem Value.mergeOver_of_not_isTable {value : Value} (h : value.isTable = false)
    (below : Option Value) : value.mergeOver below = value := by
  cases value with
  | table above => cases h
  | _ => rfl

/-- Over nothing, and over what is no table, a value stays as it is. -/
theorem Value.mergeOver_eq_self {below : Option Value}
    (h : ∀ lower, below = some lower → lower.isTable = false) (value : Value) :
    value.mergeOver below = value := by
  cases value with
  | table above =>
    cases below with
    | none => rfl
    | some lower =>
      cases lower with
      | table entries => cases h _ rfl
      | _ => rfl
  | _ => rfl

theorem find?_mergeEntries {above : List (String × Value)} (h : (Entries.names above).Nodup)
    (below : List (String × Value)) (name : String) :
    Entries.find? name (mergeEntries below above) =
      match Entries.find? name above with
      | none => Entries.find? name below
      | some value => some (value.mergeOver (Entries.find? name below)) := by
  induction above generalizing below with
  | nil => rfl
  | cons entry rest ih =>
    obtain ⟨n, value⟩ := entry
    obtain ⟨hfresh, hnodup⟩ := List.nodup_cons.mp h
    rw [mergeEntries, ih hnodup]
    by_cases hn : n = name
    · -- the rest does not come back to the name
      subst hn
      rw [Entries.find?_eq_none_iff.mpr hfresh, Entries.find?, if_pos rfl]
      exact Entries.find?_insert_self _ _ _
    · rw [Entries.find?_insert_of_ne (Ne.symm hn), Entries.find?, if_neg hn]

mutual

theorem Value.HasDistinctNames.mergeOver : ∀ {value : Value} {below : Option Value},
    value.HasDistinctNames → (∀ lower, below = some lower → lower.HasDistinctNames) →
    (value.mergeOver below).HasDistinctNames
  | .table above, below, h, hbelow => by
    cases below with
    | none => exact h
    | some lower =>
      cases lower with
      | table entries => exact hasDistinctNames_mergeEntries (hbelow _ rfl) h.2
      | _ => exact h
  | .string _, _, h, _ => h
  | .integer _, _, h, _ => h
  | .float _, _, h, _ => h
  | .boolean _, _, h, _ => h
  | .datetime _, _, h, _ => h
  | .array _, _, h, _ => h

theorem hasDistinctNames_mergeEntries : ∀ {above : List (String × Value)} {below : Table},
    below.HasDistinctNames → entriesDistinct above →
    Table.HasDistinctNames (mergeEntries below above)
  | [], _, hbelow, _ => hbelow
  | (name, value) :: rest, below, hbelow, ⟨hvalue, hrest⟩ => by
    have hmerged : (value.mergeOver (Entries.find? name below)).HasDistinctNames :=
      hvalue.mergeOver fun _ hlower => hbelow.of_find? hlower
    rw [mergeEntries]
    exact hasDistinctNames_mergeEntries (hbelow.insert name hmerged) hrest

end

/-! ## Along a path -/

/-- Whether the path leaves the value where a table could go on: what is below the value
decides then. -/
def Value.isOpenAt : List String → Value → Bool
  | [], _ => false
  | name :: path, .table entries =>
    match Entries.find? name entries with
    | none => true
    | some value => isOpenAt path value
  | _ :: _, _ => false

/-- The same for the table of a layer. -/
def Table.isOpenAt (path : List String) (table : Table) : Bool :=
  (Value.table table).isOpenAt path

/-- A value is open at a path exactly if nothing is there and only tables are on the way. -/
theorem Value.isOpenAt_iff {path : List String} {value : Value} :
    value.isOpenAt path ↔ value.at? path = none ∧ value.IsClearTo path := by
  induction path generalizing value with
  | nil => simp [isOpenAt]
  | cons name path ih =>
    cases value with
    | table entries =>
      have hclear : (Value.table entries).IsClearTo (name :: path) ↔
          ∀ inner, Entries.find? name entries = some inner → inner.IsClearTo path :=
        Table.isClearTo_cons
      rw [hclear, at?_table_cons, isOpenAt]
      cases Entries.find? name entries with
      | none => simp
      | some below => simp [ih]
    | _ =>
      have hblocked {value : Value} (h : value.isTable = false) :
          ¬ value.IsClearTo (name :: path) :=
        not_isClearTo_of_not_isTable h (List.cons_ne_nil name path)
      exact iff_of_false (by simp [isOpenAt]) fun h => hblocked rfl h.2

/-- What stands at a path after one value was put over another: if something of the upper
one is there, it lies over what was there; if not, the lower one shows through where the
upper one is open. -/
theorem Value.at?_mergeOver {value : Value} (h : value.HasDistinctNames) (below : Option Value)
    (path : List String) :
    (value.mergeOver below).at? path =
      match value.at? path with
      | some inner => some (inner.mergeOver (below.bind (at? path)))
      | none => if value.isOpenAt path then below.bind (at? path) else none := by
  induction path generalizing value below with
  | nil =>
    have hbind : below.bind (at? []) = below := by cases below <;> simp
    rw [hbind, at?_nil, at?_nil]
  | cons name path ih =>
    by_cases hbelow : ∃ entries, below = some (.table entries)
    · obtain ⟨entries, rfl⟩ := hbelow
      cases value with
      | table above =>
        have hmerged : (Value.table above).mergeOver (some (.table entries)) =
            .table (mergeEntries entries above) := rfl
        rw [hmerged, at?_table_cons, find?_mergeEntries h.1]
        cases hfind : Entries.find? name above with
        | none => simp [hfind, isOpenAt]
        | some inner =>
          simp only [Option.bind_some, at?_table_cons, hfind, isOpenAt]
          exact ih (Table.HasDistinctNames.of_find? h hfind) (Entries.find? name entries)
      | _ => rfl
    · -- no table is below, so the upper value stays as it is and nothing shows through
      have hno : ∀ lower, below = some lower → lower.isTable = false := by
        rintro lower rfl
        cases lower with
        | table entries => exact absurd ⟨entries, rfl⟩ hbelow
        | _ => rfl
      have hnone : below.bind (at? (name :: path)) = none := by
        cases below with
        | none => rfl
        | some lower => exact at?_cons_of_not_isTable (hno lower rfl) name path
      rw [mergeOver_eq_self hno, hnone]
      cases value.at? (name :: path) with
      | none => simp
      | some inner =>
        have hself : inner.mergeOver none = inner := mergeOver_eq_self (by simp) inner
        exact congrArg some hself.symm

/-! ## One layer over another -/

namespace Table

/-- What stands at a path after a layer was put over a table. -/
theorem at?_merge {above : Table} (h : above.HasDistinctNames) (below : Table)
    (path : List String) :
    (below.merge above).at? path =
      match above.at? path with
      | some value => some (value.mergeOver (below.at? path))
      | none => if above.isOpenAt path then below.at? path else none :=
  Value.at?_mergeOver h (some (.table below)) path

/-- A value other than a table is where the upper layer has it, or where the lower one has it and
the upper one is open. -/
theorem at?_merge_eq_some_iff {above : Table} (h : above.HasDistinctNames) {below : Table}
    {path : List String} {value : Value} (hvalue : value.isTable = false) :
    (below.merge above).at? path = some value ↔
      above.at? path = some value ∨ above.isOpenAt path ∧ below.at? path = some value := by
  rw [at?_merge h]
  cases habove : above.at? path with
  | none => by_cases hopen : above.isOpenAt path <;> simp [hopen]
  | some inner =>
    have hclosed : ¬ above.isOpenAt path := by
      intro hopen
      have hnone : above.at? path = none := (Value.isOpenAt_iff.mp hopen).1
      rw [hnone] at habove
      cases habove
    simp only [Option.some.injEq, hclosed, Bool.false_eq_true, false_and, or_false]
    constructor
    · rintro rfl
      rw [Value.isTable_mergeOver] at hvalue
      exact (Value.mergeOver_of_not_isTable hvalue _).symm
    · rintro rfl
      exact Value.mergeOver_of_not_isTable hvalue _

/-! ## A stack of layers -/

/-- The highest layer that is not open at the path decides what stands there; the table at the
bottom does if all are open. -/
theorem at?_foldl_merge_iff {layers : List Table} (h : ∀ layer ∈ layers, layer.HasDistinctNames)
    {base : Table} {path : List String} {value : Value} (hvalue : value.isTable = false) :
    (layers.foldl merge base).at? path = some value ↔
      (base.at? path = some value ∧ ∀ layer ∈ layers, layer.isOpenAt path) ∨
      ∃ lower layer upper, layers = lower ++ layer :: upper ∧ layer.at? path = some value ∧
        ∀ above ∈ upper, above.isOpenAt path := by
  induction layers generalizing base with
  | nil => simp
  | cons first rest ih =>
    obtain ⟨hfirst, hrest⟩ := List.forall_mem_cons.mp h
    rw [List.foldl_cons, ih hrest, at?_merge_eq_some_iff hfirst hvalue]
    constructor
    · rintro (⟨hstep | ⟨hopen, hbase⟩, hall⟩ | ⟨lower, layer, upper, rfl, hlayer, hupper⟩)
      · exact .inr ⟨[], first, rest, rfl, hstep, hall⟩
      · exact .inl ⟨hbase, List.forall_mem_cons.mpr ⟨hopen, hall⟩⟩
      · exact .inr ⟨first :: lower, layer, upper, rfl, hlayer, hupper⟩
    · rintro (⟨hbase, hall⟩ | ⟨lower, layer, upper, hsplit, hlayer, hupper⟩)
      · obtain ⟨hopen, hall⟩ := List.forall_mem_cons.mp hall
        exact .inl ⟨.inr ⟨hopen, hbase⟩, hall⟩
      · cases lower with
        | nil =>
          obtain ⟨rfl, rfl⟩ := List.cons.inj hsplit
          exact .inl ⟨.inl hlayer, hupper⟩
        | cons _ lower =>
          obtain ⟨rfl, rfl⟩ := List.cons.inj hsplit
          exact .inr ⟨lower, layer, upper, rfl, hlayer, hupper⟩

/-- Merging puts only tables where every layer has a table or nothing. -/
theorem isTable_of_at?_mergeAll {layers : List Table} (h : ∀ layer ∈ layers, layer.HasDistinctNames)
    {path : List String}
    (htables : ∀ layer ∈ layers, ∀ value, layer.at? path = some value → value.isTable)
    {value : Value} (hvalue : (mergeAll layers).at? path = some value) : value.isTable := by
  by_contra hnot
  rw [Bool.not_eq_true] at hnot
  rcases (at?_foldl_merge_iff h hnot).mp hvalue with ⟨hbottom, -⟩ | ⟨_, layer, _, rfl, hlayer, -⟩
  · cases path with
    | nil =>
      obtain rfl := Option.some.inj hbottom
      cases hnot
    | cons name path => cases hbottom
  · have htable := htables layer (by simp) value hlayer
    rw [hnot] at htable
    cases htable

theorem mergeAll_concat (layers : List Table) (top : Table) :
    mergeAll (layers ++ [top]) = (mergeAll layers).merge top := by
  rw [mergeAll, List.foldl_append]
  rfl

theorem hasDistinctNames_mergeAll {layers : List Table}
    (h : ∀ layer ∈ layers, layer.HasDistinctNames) : (mergeAll layers).HasDistinctNames := by
  induction layers using List.reverseRecOn with
  | nil => exact hasDistinctNames_nil
  | append_singleton layers top ih =>
    rw [mergeAll_concat]
    have hbelow := ih fun layer hlayer => h layer (List.mem_append_left _ hlayer)
    exact hasDistinctNames_mergeEntries hbelow (h top (by simp)).2

/-- Where only tables are on the way in every layer, and no table stands in the end, the highest
layer that has something there decides. -/
theorem at?_mergeAll_of_isClearTo {layers : List Table}
    (h : ∀ layer ∈ layers, layer.HasDistinctNames) {path : List String}
    (hclear : ∀ layer ∈ layers, layer.IsClearTo path)
    (htable : ∀ entries, (mergeAll layers).at? path ≠ some (.table entries)) :
    (mergeAll layers).at? path = layers.reverse.findSome? (at? path) := by
  induction layers using List.reverseRecOn with
  | nil =>
    cases path with
    | nil => exact absurd rfl (htable [])
    | cons name path => rfl
  | append_singleton layers top ih =>
    rw [mergeAll_concat] at htable ⊢
    rw [List.reverse_append, List.reverse_singleton, List.singleton_append, List.findSome?_cons]
    rw [at?_merge (h top (by simp))] at htable ⊢
    cases htop : top.at? path with
    | none =>
      have hopen : top.isOpenAt path := Value.isOpenAt_iff.mpr ⟨htop, hclear top (by simp)⟩
      rw [htop] at htable
      simp only [hopen, if_true] at htable ⊢
      exact ih (fun layer hlayer => h layer (List.mem_append_left _ hlayer))
        (fun layer hlayer => hclear layer (List.mem_append_left _ hlayer)) htable
    | some value =>
      rw [htop] at htable
      cases value with
      | table entries =>
        have hmerged : ((Value.table entries).mergeOver ((mergeAll layers).at? path)).isTable :=
          Value.isTable_mergeOver _ _
        cases hvalue : (Value.table entries).mergeOver ((mergeAll layers).at? path) with
        | table merged => exact absurd (congrArg some hvalue) (htable merged)
        | _ =>
          rw [hvalue] at hmerged
          cases hmerged
      | _ => rfl

/-- **The last writer of a path wins.**  A value other than a table stands at a path of the merged
layers exactly if a layer has it there and no later layer has anything there or, on the way,
anything but a table. -/
theorem at?_mergeAll_eq_some_iff {layers : List Table}
    (hlayers : ∀ layer ∈ layers, layer.HasDistinctNames) {path : List String} {value : Value}
    (hvalue : value.isTable = false) :
    (mergeAll layers).at? path = some value ↔
      ∃ earlier layer later, layers = earlier ++ layer :: later ∧ layer.at? path = some value ∧
        ∀ above ∈ later, above.at? path = none ∧
          ∀ front, front <+: path → front ≠ path → ∀ inner, above.at? front = some inner →
            inner.isTable := by
  have hbottom : at? path [] ≠ some value := by
    cases path with
    | nil =>
      rintro ⟨⟩
      cases hvalue
    | cons name path => simp [Entries.find?]
  rw [mergeAll, at?_foldl_merge_iff hlayers hvalue]
  simp only [hbottom, false_and, false_or]
  refine exists_congr fun earlier => exists_congr fun layer => exists_congr fun later => ?_
  exact and_congr_right fun _ => and_congr_right fun _ => forall₂_congr fun above _ =>
    Value.isOpenAt_iff

/-- A text gives way to a table, of which a third layer replaces one entry by a table and
leaves the other. -/
theorem at?_mergeAll_third_layer :
    let layers : List Table :=
      [[("db", .string "A"), ("salt", .string "S")],
        [("db", .table [("host", .string "B"), ("port", .string "C")])],
        [("db", .table [("host", .table [("name", .string "D")])])]]
    (∀ layer ∈ layers, layer.HasDistinctNames) ∧ (Value.string "C").isTable = false ∧
      (mergeAll layers).at? ["db", "port"] = some (.string "C") := by
  intro layers
  have hdistinct : ∀ layer ∈ layers, layer.HasDistinctNames := by
    simp [layers, HasDistinctNames, Value.HasDistinctNames, entriesDistinct, Entries.names]
  refine ⟨hdistinct, rfl, (at?_mergeAll_eq_some_iff hdistinct rfl).mpr ⟨[_], _, [_], rfl, rfl, ?_⟩⟩
  intro above habove
  obtain rfl := List.mem_singleton.mp habove
  exact Value.isOpenAt_iff.mp rfl

end Table
end Toml
end SiteSettings
