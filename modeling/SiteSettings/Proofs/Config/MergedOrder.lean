import SiteSettings.Proofs.Config.Precedence
import SiteSettings.Proofs.Insertions
import SiteSettings.Proofs.Toml.Reordering

/-!
# The order of merged tables

The order of a settings mapping is the order of the generated code, so a merge must not disturb
it.  At every path where both layers have a table, the names of the lower one lead, and those that
only the upper one has follow in its order (`Table.names_merge`).  Everything else comes from the
upper layer as it is.

A layer that is merged twice in a row changes nothing the second time
(`Table.merge_merge_self`).  That is not read off one level: where the upper table replaced a
text, the second merge puts the table over itself.  Both facts rest on `mergeEntries_eq_self`:
entries that are already there change nothing.
-/

namespace SiteSettings

open Toml

namespace Toml

/-! ## Names in order -/

theorem names_mergeEntries (below above : Table) :
    Entries.names (mergeEntries below above) =
      (Entries.names above).foldl addName (Entries.names below) := by
  induction above generalizing below with
  | nil => rfl
  | cons entry rest ih =>
    obtain ⟨name, value⟩ := entry
    have hinsert : Entries.names
        (Entries.insert name (value.mergeOver (Entries.find? name below)) below) =
          addName (Entries.names below) name := Entries.names_insert _ _ _
    rw [mergeEntries, ih, hinsert]
    rfl

/-- The names of the lower table lead, and the new ones of the upper table follow. -/
theorem Table.names_merge {above : Table} (h : (Entries.names above).Nodup) (below : Table) :
    Entries.names (below.merge above) =
      Entries.names below ++ (Entries.names above).filter (· ∉ Entries.names below) := by
  rw [merge, names_mergeEntries, foldl_addName_of_nodup h]

/-! ## Merging what is there already -/

/-- Entries whose values, put over what the table has under their names, leave it as it is. -/
theorem mergeEntries_eq_self {table above : Table}
    (h : ∀ entry ∈ above, ∃ value, Entries.find? entry.1 table = some value ∧
      entry.2.mergeOver (some value) = value) : mergeEntries table above = table := by
  induction above with
  | nil => rfl
  | cons entry rest ih =>
    obtain ⟨name, upper⟩ := entry
    obtain ⟨⟨value, hfind, hsame⟩, hrest⟩ := List.forall_mem_cons.mp h
    rw [mergeEntries, hfind, hsame, Entries.insert_of_find? hfind]
    exact ih hrest

/-- A value over itself is itself. -/
theorem Value.mergeOver_self : ∀ {value : Value}, value.HasDistinctNames →
    value.mergeOver (some value) = value
  | .table entries, h => by
    have hmerge : mergeEntries entries entries = entries := by
      refine mergeEntries_eq_self fun entry hmem => ?_
      have hfind := Entries.find?_of_mem h.1 hmem
      have hsmaller := sizeOf_lt_of_find? hfind
      exact ⟨entry.2, hfind, mergeOver_self ((Table.hasDistinctNames_iff.mp h).2 entry hmem)⟩
    exact congrArg Value.table hmerge
  | .string _, _ | .integer _, _ | .float _, _ | .boolean _, _ | .datetime _, _ | .array _, _ => rfl
termination_by value => sizeOf value

/-- What a value came to over another one stays if the value is put over it again. -/
theorem Value.mergeOver_mergeOver : ∀ {value : Value}, value.HasDistinctNames →
    ∀ below : Option Value, value.mergeOver (some (value.mergeOver below)) = value.mergeOver below
  | .table above, h, below => by
    by_cases hbelow : ∃ entries, below = some (.table entries)
    · obtain ⟨entries, rfl⟩ := hbelow
      have hmerge : mergeEntries (mergeEntries entries above) above =
          mergeEntries entries above := by
        refine mergeEntries_eq_self fun entry hmem => ?_
        have hfind := Entries.find?_of_mem h.1 hmem
        have hsmaller := sizeOf_lt_of_find? hfind
        have hinner := (Table.hasDistinctNames_iff.mp h).2 entry hmem
        refine ⟨entry.2.mergeOver (Entries.find? entry.1 entries), ?_, mergeOver_mergeOver hinner _⟩
        rw [find?_mergeEntries h.1, hfind]
      exact congrArg Value.table hmerge
    · -- nothing of the lower layer is kept, so the table lies over itself the second time
      have hself : (Value.table above).mergeOver below = .table above := by
        refine mergeOver_eq_self ?_ (.table above)
        rintro lower rfl
        exact lower.table_or_leaf.resolve_left fun ⟨entries, he⟩ =>
          hbelow ⟨entries, congrArg some he⟩
      rw [hself, mergeOver_self h]
  | .string _, _, _ | .integer _, _, _ | .float _, _, _ | .boolean _, _, _ | .datetime _, _, _
  | .array _, _, _ => rfl
termination_by value => sizeOf value

namespace Table

/-- A layer that is merged a second time changes nothing. -/
theorem merge_merge_self {above : Table} (h : above.HasDistinctNames) (below : Table) :
    (below.merge above).merge above = below.merge above := by
  have hvalue := Value.mergeOver_mergeOver h (some (.table below))
  exact Value.table.inj hvalue

/-- Where both layers have a table, the two are merged. -/
theorem at?_merge_of_tables {below above lower upper : Table} (h : above.HasDistinctNames)
    {path : List String} (hlower : below.at? path = some (.table lower))
    (hupper : above.at? path = some (.table upper)) :
    (below.merge above).at? path = some (.table (lower.merge upper)) := by
  rw [at?_merge h, hupper, hlower]
  rfl

/-- Where the upper layer has something and not both have a table, it is taken over as it is. -/
theorem at?_merge_of_not_tables {below above : Table} (h : above.HasDistinctNames)
    {path : List String} {value : Value} (hvalue : above.at? path = some value)
    (hnot : ¬ ∃ lower upper, below.at? path = some (.table lower) ∧ value = .table upper) :
    (below.merge above).at? path = some value := by
  rw [at?_merge h, hvalue]
  refine congrArg some ?_
  rcases value.table_or_leaf with ⟨upper, rfl⟩ | hleaf
  · refine Value.mergeOver_eq_self (fun lower hlower => ?_) _
    refine lower.table_or_leaf.resolve_left ?_
    rintro ⟨entries, rfl⟩
    exact hnot ⟨entries, upper, hlower, rfl⟩
  · exact Value.mergeOver_of_not_isTable hleaf _

/-- Where the upper layer says nothing, the lower one stays. -/
theorem at?_merge_of_isClearTo {below above : Table} (h : above.HasDistinctNames)
    {path : List String} (hnone : above.at? path = none) (hclear : above.IsClearTo path) :
    (below.merge above).at? path = below.at? path := by
  have hopen : above.isOpenAt path := Value.isOpenAt_iff.mpr ⟨hnone, hclear⟩
  rw [at?_merge h, hnone]
  exact if_pos hopen

theorem HasDistinctNames.of_at? {table inner : Table} (h : table.HasDistinctNames)
    {path : List String} (hinner : table.at? path = some (.table inner)) :
    inner.HasDistinctNames := by
  induction path generalizing table with
  | nil =>
    obtain rfl : table = inner := by simpa using hinner
    exact h
  | cons name path ih =>
    obtain ⟨value, hfind, hbelow⟩ := Option.bind_eq_some_iff.mp hinner
    have hvalue := h.of_find? hfind
    rcases value.table_or_leaf with ⟨entries, rfl⟩ | hleaf
    · exact ih hvalue hbelow
    · cases path with
      | nil =>
        obtain rfl := Option.some.inj ((Value.at?_nil value).symm.trans hbelow)
        exact hvalue
      | cons next path =>
        rw [Value.at?_cons_of_not_isTable hleaf] at hbelow
        cases hbelow

end Table
end Toml

/-! ## A file that is found twice -/

namespace Config

/-- A layer twice in a row is as good as once, whatever lies below and above it. -/
theorem mergeAll_repeated (lower upper : List Table) {layer : Table} (h : layer.HasDistinctNames) :
    Table.mergeAll (lower ++ layer :: layer :: upper) =
      Table.mergeAll (lower ++ layer :: upper) := by
  simp only [Table.mergeAll, List.foldl_append, List.foldl_cons]
  rw [Table.merge_merge_self h]

/-- A file twice in a row is as good as once, whatever it is read by, if only its table has
no name twice. -/
theorem mergeAll_read_repeated {File : Type} (read : File → Except ProjectError Table) {file : File}
    (hread : ∀ layer, read file = .ok layer → layer.HasDistinctNames) (front back : List File)
    (above : List Table) :
    ((front ++ file :: file :: back).mapM read >>= fun files =>
      .ok (Table.mergeAll (files ++ above))) =
      ((front ++ file :: back).mapM read >>= fun files =>
        .ok (Table.mergeAll (files ++ above))) := by
  simp only [List.mapM_append, List.mapM_cons]
  cases front.mapM read with
  | error e => rfl
  | ok lower =>
    cases hfile : read file with
    | error e => rfl
    | ok layer =>
      cases back.mapM read with
      | error e => rfl
      | ok upper =>
        have hlayers := mergeAll_repeated lower (upper ++ above) (hread layer hfile)
        show (Except.ok (Table.mergeAll ((lower ++ layer :: layer :: upper) ++ above)) :
            Except ProjectError Table) =
          .ok (Table.mergeAll ((lower ++ layer :: upper) ++ above))
        rw [List.append_assoc, List.append_assoc]
        exact congrArg Except.ok hlayers

/-- A project file that comes twice in a row is as good as once: the configuration, or the
error, is the same. -/
theorem resolve_repeated (sources : Sources) {front back : List (Path × String)}
    {file : Path × String} (hfiles : sources.files = front ++ file :: file :: back) :
    resolve sources = resolve { sources with files := front ++ file :: back } := by
  have htable : sources.table = Sources.table { sources with files := front ++ file :: back } := by
    rw [Sources.table, hfiles]
    refine mergeAll_read_repeated _ (fun layer hlayer => ?_) front back sources.upperLayers
    exact hasDistinctNames_of_parse (parse_of_fileTable hlayer)
  rw [resolve, resolve, htable]

end Config

/-- **Merging keeps the order of both tables, and repeating it changes nothing.**  Where both layers
have a table at a path, the names there are those of the lower one in their order and then the new
ones of the upper one in theirs, none of them twice.  Where the upper layer has something and not
both have a table, that is taken over unchanged, and where it has nothing, the lower layer stays.

A layer on top of itself changes nothing, and so the configuration, or the error, is the same
whether a project file is found once or twice in a row. -/
theorem merge_ordered_and_idempotent :
    (∀ below above : Table, below.HasDistinctNames → above.HasDistinctNames →
      (∀ path lower upper, below.at? path = some (.table lower) →
        above.at? path = some (.table upper) →
        ∃ merged, (below.merge above).at? path = some (.table merged) ∧
          Entries.names merged =
            Entries.names lower ++ (Entries.names upper).filter (· ∉ Entries.names lower) ∧
          (Entries.names merged).Nodup) ∧
      (∀ path value, above.at? path = some value →
        (¬ ∃ lower upper, below.at? path = some (.table lower) ∧ value = .table upper) →
        (below.merge above).at? path = some value) ∧
      (∀ path, above.at? path = none → above.IsClearTo path →
        (below.merge above).at? path = below.at? path) ∧
      (below.merge above).merge above = below.merge above) ∧
    ∀ (sources : Config.Sources) (front back : List (Path × String)) (file : Path × String),
      sources.files = front ++ file :: file :: back →
      Config.resolve sources = Config.resolve { sources with files := front ++ file :: back } := by
  refine ⟨fun below above hbelow habove => ⟨?_, ?_, ?_, Table.merge_merge_self habove below⟩, ?_⟩
  · intro path lower upper hlower hupper
    have hlowerNames : (Entries.names lower).Nodup := (hbelow.of_at? hlower).1
    have hupperNames : (Entries.names upper).Nodup := (habove.of_at? hupper).1
    have hnames := Table.names_merge hupperNames lower
    refine ⟨Table.merge lower upper, Table.at?_merge_of_tables habove hlower hupper, hnames, ?_⟩
    rw [hnames]
    refine List.nodup_append.mpr ⟨hlowerNames, hupperNames.filter _, ?_⟩
    rintro name hmem _ hnew rfl
    exact absurd hmem (by simpa using (List.mem_filter.mp hnew).2)
  · exact fun path value => Table.at?_merge_of_not_tables habove
  · exact fun path => Table.at?_merge_of_isClearTo habove
  · exact fun sources front back file => Config.resolve_repeated sources

/-- A table over a text and a text over a table, two levels down, beside new and old names. -/
theorem merge_ordered_and_idempotent_two_levels :
    let below : Table :=
      [("a", .table [("x", .string "1"), ("y", .table [("z", .string "2")])]), ("b", .string "3")]
    let above : Table := [("c", .string "4"), ("a", .table [("w", .string "5"), ("y", .string "6"),
      ("x", .table [("v", .string "7"), ("u", .string "8")])])]
    let file : Path × String := (⟨"f"⟩, "indent = 4\n")
    let sources : Config.Sources :=
      { files := [file, file], environment := [], variablePrefix := none, overrides := [],
        strict := true }
    below.HasDistinctNames ∧ above.HasDistinctNames ∧
      (∃ merged, (below.merge above).at? ["a"] = some (.table merged) ∧
        Entries.names merged = ["x", "y", "w"]) ∧
      (below.merge above).at? ["a", "x"] = some (.table [("v", .string "7"), ("u", .string "8")]) ∧
      (below.merge above).at? ["b"] = some (.string "3") ∧
      (below.merge above).merge above = below.merge above ∧
      sources.files = [] ++ file :: file :: [] ∧
      Config.resolve sources = Config.resolve { sources with files := [file] } := by
  intro below above file sources
  have hbelow : below.HasDistinctNames := by
    simp [below, Table.HasDistinctNames, Value.HasDistinctNames, entriesDistinct, Entries.names]
  have habove : above.HasDistinctNames := by
    simp [above, Table.HasDistinctNames, Value.HasDistinctNames, entriesDistinct, Entries.names]
  obtain ⟨htables, hother, hnone, hidempotent⟩ :=
    merge_ordered_and_idempotent.1 below above hbelow habove
  obtain ⟨merged, hmerged, hnames, -⟩ := htables ["a"] _ _ rfl rfl
  refine ⟨hbelow, habove, ⟨merged, hmerged, hnames⟩, ?_, ?_, hidempotent, rfl, ?_⟩
  · exact hother ["a", "x"] _ rfl (by rintro ⟨lower, upper, hlower, -⟩; cases hlower)
  · refine hnone ["b"] rfl (Table.isClearTo_cons.mpr ?_)
    rintro inner ⟨⟩
  · exact merge_ordered_and_idempotent.2 sources [] [] file rfl

end SiteSettings
