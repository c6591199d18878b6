import SiteSettings.Proofs.Toml.Paths
import SiteSettings.Toml.Document

/-!
# Documents give no name twice

No table of a document has a name twice: a table under construction is changed by `Entries.insert`
and `Entries.erase` alone, wherever in the document the change is made.  What a table under
construction holds is judged by its finished form, so `Section.HasDistinctNames` needs no
recursion of its own.

Changes at a path have one lemma, `Section.HasDistinctNames.modifyAt`: whatever is true of the table
at the end of the path is true of the whole.
-/

namespace SiteSettings
namespace Toml

/-! ## Tables under construction -/

/-- Whether the finished table has no name twice. -/
def Section.HasDistinctNames (entries : Section) : Prop :=
  Table.HasDistinctNames (sectionValues entries)

theorem elementValues_eq_map (elements : List Section) :
    elementValues elements = elements.map fun element => .table (sectionValues element) := by
  induction elements with
  | nil => rfl
  | cons element rest ih => simp [elementValues, ih]

theorem find?_sectionValues (name : String) (entries : Section) :
    Entries.find? name (sectionValues entries) = (Entries.find? name entries).map Node.toValue := by
  induction entries with
  | nil => rfl
  | cons entry rest ih =>
    obtain ⟨n, node⟩ := entry
    by_cases h : n = name <;> simp [sectionValues, Entries.find?, h, ih]

theorem sectionValues_insert (name : String) (node : Node) (entries : Section) :
    sectionValues (Entries.insert name node entries) =
      Entries.insert name node.toValue (sectionValues entries) := by
  induction entries with
  | nil => rfl
  | cons entry rest ih =>
    obtain ⟨n, inner⟩ := entry
    by_cases h : n = name <;> simp [sectionValues, Entries.insert, h, ih]

theorem sublist_erase (name : String) (entries : Section) :
    (sectionValues (Entries.erase name entries)).Sublist (sectionValues entries) := by
  induction entries with
  | nil => exact .slnil
  | cons entry rest ih =>
    obtain ⟨n, node⟩ := entry
    rw [Entries.erase]
    split
    · exact List.sublist_cons_self _ _
    · exact ih.cons_cons _

namespace Section

theorem hasDistinctNames_nil : HasDistinctNames [] :=
  Table.hasDistinctNames_nil

namespace HasDistinctNames

variable {entries : Section} (h : entries.HasDistinctNames)

include h

theorem of_find? {name : String} {node : Node} (hnode : Entries.find? name entries = some node) :
    node.toValue.HasDistinctNames := by
  have hvalue : Entries.find? name (sectionValues entries) = some node.toValue := by
    rw [find?_sectionValues, hnode]
    rfl
  exact Table.HasDistinctNames.of_find? h hvalue

theorem insert (name : String) {node : Node} (hnode : node.toValue.HasDistinctNames) :
    HasDistinctNames (Entries.insert name node entries) := by
  rw [HasDistinctNames, sectionValues_insert]
  exact Table.HasDistinctNames.insert h name hnode

theorem erase (name : String) : HasDistinctNames (Entries.erase name entries) := by
  obtain ⟨hnodup, hall⟩ := Table.hasDistinctNames_iff.mp h
  have hsublist := sublist_erase name entries
  exact Table.hasDistinctNames_iff.mpr
    ⟨hnodup.sublist (hsublist.map Prod.fst), fun e he => hall e (hsublist.subset he)⟩

end HasDistinctNames

theorem hasDistinctNames_tables {elements : List Section} :
    (Node.tables elements).toValue.HasDistinctNames ↔
      ∀ element ∈ elements, HasDistinctNames element := by
  rw [Node.toValue, elementValues_eq_map, Value.hasDistinctNames_array]
  exact List.forall_mem_map

/-! ## Changes at a path -/

/-- A change at the end of a path that keeps names distinct there keeps them distinct everywhere,
and what it says of its answer holds. -/
theorem HasDistinctNames.modifyAt {α : Type} {P : α → Prop}
    {change : Bool → Section → Option (α × Section)}
    (hchange : ∀ {isDotted inner answer changed}, HasDistinctNames inner →
      change isDotted inner = some (answer, changed) → P answer ∧ HasDistinctNames changed)
    {byDottedKey : Bool} {path : List String} {isDotted : Bool} {entries : Section}
    (h : entries.HasDistinctNames) {answer : α} {changed : Section}
    (hmodify : Section.modifyAt byDottedKey change path isDotted entries = some (answer, changed)) :
    P answer ∧ changed.HasDistinctNames := by
  fun_induction Section.modifyAt byDottedKey change path isDotted entries
      generalizing answer changed with
  | case1 isDotted entries => exact hchange h hmodify
  | case2 name path isDotted entries hfind ih =>
    obtain ⟨⟨_, below⟩, hbelow, hanswer⟩ := Option.bind_eq_some_iff.mp hmodify
    cases hanswer
    obtain ⟨hholds, hdistinct⟩ := ih hasDistinctNames_nil hbelow
    exact ⟨hholds, h.insert name hdistinct⟩
  | case3 => cases hmodify
  | case4 => cases hmodify
  | case5 name path isDotted entries implicit dotted below hfind hmay ih =>
    obtain ⟨⟨_, after⟩, hafter, hanswer⟩ := Option.bind_eq_some_iff.mp hmodify
    cases hanswer
    obtain ⟨hholds, hdistinct⟩ := ih (h.of_find? hfind) hafter
    exact ⟨hholds, h.insert name hdistinct⟩
  | case6 => cases hmodify
  | case7 name path isDotted entries elements hfind last hlast ih =>
    obtain ⟨⟨_, after⟩, hafter, hanswer⟩ := Option.bind_eq_some_iff.mp hmodify
    cases hanswer
    have helements := hasDistinctNames_tables.mp (h.of_find? hfind)
    obtain ⟨hholds, hdistinct⟩ := ih (helements last (List.mem_of_getLast? hlast)) hafter
    refine ⟨hholds, h.insert name (hasDistinctNames_tables.mpr fun element helement => ?_)⟩
    rcases List.mem_append.mp helement with hmem | hmem
    · exact helements element (List.dropLast_subset _ hmem)
    · exact List.mem_singleton.mp hmem ▸ hdistinct

/-- The same for a change without an answer, whose result is the table it leaves. -/
theorem HasDistinctNames.changeAt {change : Bool → Section → Option (Unit × Section)}
    (hchange : ∀ {isDotted inner changed}, HasDistinctNames inner →
      change isDotted inner = some ((), changed) → HasDistinctNames changed)
    {byDottedKey : Bool} {path : List String} {entries changed : Section}
    (h : entries.HasDistinctNames)
    (hmodify : ((Section.modifyAt byDottedKey change path false entries).bind
      fun result => some result.2) = some changed) : changed.HasDistinctNames := by
  obtain ⟨⟨_, after⟩, hafter, hanswer⟩ := Option.bind_eq_some_iff.mp hmodify
  obtain rfl : after = changed := Option.some.inj hanswer
  refine (h.modifyAt (P := fun _ => True) ?_ hafter).2
  intro isDotted inner _ changed hinner hchanged
  exact ⟨trivial, hchange hinner hchanged⟩

theorem HasDistinctNames.assign {key : List String} {value : Value} {entries changed : Section}
    (h : entries.HasDistinctNames) (hvalue : value.HasDistinctNames)
    (hassign : Section.assign key value entries = some changed) : changed.HasDistinctNames := by
  obtain ⟨name, -, hassign⟩ := Option.bind_eq_some_iff.mp hassign
  refine h.changeAt ?_ hassign
  intro isDotted inner after hinner hchange
  split at hchange
  · cases hchange
  · split at hchange
    · cases hchange
    · cases hchange
      exact hinner.insert name hvalue

theorem HasDistinctNames.openTable {key : List String} {root entries changed : Section}
    (h : root.HasDistinctNames) (hopen : Section.openTable key root = some (entries, changed)) :
    entries.HasDistinctNames ∧ changed.HasDistinctNames := by
  obtain ⟨name, -, hmodify⟩ := Option.bind_eq_some_iff.mp hopen
  refine h.modifyAt ?_ hmodify
  intro _ inner answer after hinner hchange
  split at hchange
  · cases hchange
    exact ⟨hasDistinctNames_nil, hinner⟩
  · rename_i hfind
    cases hchange
    exact ⟨hinner.of_find? hfind, hinner.erase name⟩
  · cases hchange

theorem HasDistinctNames.openElement {key : List String} {root changed : Section}
    (h : root.HasDistinctNames) (hopen : Section.openElement key root = some changed) :
    changed.HasDistinctNames := by
  obtain ⟨name, -, hopen⟩ := Option.bind_eq_some_iff.mp hopen
  refine h.changeAt ?_ hopen
  intro _ inner after hinner hchange
  split at hchange
  · cases hchange
    exact hinner.insert name (hasDistinctNames_tables.mpr (List.forall_mem_nil _))
  · cases hchange
    exact hinner
  · cases hchange

theorem HasDistinctNames.closeTable {key : List String} {entries root changed : Section}
    (h : root.HasDistinctNames) (hentries : entries.HasDistinctNames)
    (hclose : Section.closeTable key entries root = some changed) : changed.HasDistinctNames := by
  obtain ⟨name, -, hclose⟩ := Option.bind_eq_some_iff.mp hclose
  refine h.changeAt ?_ hclose
  intro _ inner after hinner hchange
  cases hchange
  exact hinner.insert name hentries

theorem HasDistinctNames.closeElement {key : List String} {entries root changed : Section}
    (h : root.HasDistinctNames) (hentries : entries.HasDistinctNames)
    (hclose : Section.closeElement key entries root = some changed) : changed.HasDistinctNames := by
  obtain ⟨name, -, hclose⟩ := Option.bind_eq_some_iff.mp hclose
  refine h.changeAt ?_ hclose
  intro _ inner after hinner hchange
  split at hchange
  · rename_i elements hfind
    cases hchange
    have helements := hasDistinctNames_tables.mp (hinner.of_find? hfind)
    refine hinner.insert name (hasDistinctNames_tables.mpr fun element helement => ?_)
    rcases List.mem_append.mp helement with hmem | hmem
    · exact helements element hmem
    · exact List.mem_singleton.mp hmem ▸ hentries
  · cases hchange

end Section

/-! ## Values -/

/-- A scalar has no names. -/
theorem hasDistinctNames_of_scalar? {token : List Char} {value : Value}
    (h : scalar? token = some value) : value.HasDistinctNames := by
  unfold scalar? at h
  split at h
  · cases h
    trivial
  · split at h
    · cases h
      trivial
    · split at h <;> cases h <;> trivial

theorem hasDistinctNames_of_scalarValue? {s rest : List Char} {value : Value}
    (h : scalarValue? s = some (value, rest)) : value.HasDistinctNames := by
  have hscalar {token after : List Char}
      (h : (scalar? token).map (·, after) = some (value, rest)) : value.HasDistinctNames := by
    obtain ⟨scalar, hscalar, heq⟩ := Option.map_eq_some_iff.mp h
    cases heq
    exact hasDistinctNames_of_scalar? hscalar
  simp only [scalarValue?] at h
  split at h
  · split at h
    · cases h
      trivial
    · exact hscalar h
  · exact hscalar h

theorem hasDistinctNames_of_stringValue? {s rest : List Char} {value : Value}
    (h : ((stringValue? s).map fun (text, rest) => (Value.string (String.ofList text), rest)) =
      some (value, rest)) : value.HasDistinctNames := by
  obtain ⟨_, -, heq⟩ := Option.map_eq_some_iff.mp h
  cases heq
  trivial

-- by recursion on the fuel, as the readers
mutual

theorem hasDistinctNames_of_value? : ∀ {fuel depth : Nat} {s rest : List Char} {value : Value},
    value? fuel depth s = some (value, rest) → value.HasDistinctNames
  | 0, _, _, _, _, h => by cases h
  | fuel + 1, depth, s, rest, value, h => by
    unfold value? at h
    split at h
    · cases h
    · cases h
    · cases h
    · obtain ⟨⟨items, _⟩, hitems, heq⟩ := Option.bind_eq_some_iff.mp h
      cases heq
      exact Value.hasDistinctNames_array.mpr (hasDistinctNames_of_elements? hitems)
    · obtain ⟨⟨entries, _⟩, hentries, heq⟩ := Option.bind_eq_some_iff.mp h
      cases heq
      exact hasDistinctNames_of_inlineEntries? hentries
    · split at h
      · exact hasDistinctNames_of_stringValue? h
      · exact hasDistinctNames_of_stringValue? h
      · exact hasDistinctNames_of_scalarValue? h

theorem hasDistinctNames_of_elements? :
    ∀ {fuel depth : Nat} {s rest : List Char} {items : List Value},
    elements? fuel depth s = some (items, rest) → ∀ item ∈ items, item.HasDistinctNames
  | 0, _, _, _, _, h => by cases h
  | fuel + 1, depth, s, rest, items, h => by
    unfold elements? at h
    split at h
    · cases h
    · cases h
      exact List.forall_mem_nil _
    · obtain ⟨⟨first, after⟩, hfirst, h⟩ := Option.bind_eq_some_iff.mp h
      have hvalue := hasDistinctNames_of_value? hfirst
      dsimp only at h
      split at h
      · obtain ⟨⟨more, _⟩, hmore, heq⟩ := Option.bind_eq_some_iff.mp h
        cases heq
        exact List.forall_mem_cons.mpr ⟨hvalue, hasDistinctNames_of_elements? hmore⟩
      · cases h
        exact List.forall_mem_singleton.mpr hvalue
      · cases h

theorem hasDistinctNames_of_inlineEntries? : ∀ {fuel depth : Nat} {s rest : List Char}
    {entries : Section}, inlineEntries? fuel depth s = some (entries, rest) →
      entries.HasDistinctNames
  | 0, _, _, _, _, h => by cases h
  | fuel + 1, depth, s, rest, entries, h => by
    unfold inlineEntries? at h
    split at h
    · cases h
    · cases h
      exact Section.hasDistinctNames_nil
    · exact hasDistinctNames_of_moreInlineEntries? Section.hasDistinctNames_nil h

theorem hasDistinctNames_of_moreInlineEntries? : ∀ {fuel depth : Nat} {before : Section}
    {s rest : List Char} {entries : Section}, before.HasDistinctNames →
    moreInlineEntries? fuel depth before s = some (entries, rest) → entries.HasDistinctNames
  | 0, _, _, _, _, _, _, h => by cases h
  | fuel + 1, depth, before, s, rest, entries, hbefore, h => by
    unfold moreInlineEntries? at h
    obtain ⟨⟨key, _⟩, -, h⟩ := Option.bind_eq_some_iff.mp h
    obtain ⟨_, -, h⟩ := Option.bind_eq_some_iff.mp h
    obtain ⟨⟨value, _⟩, hvalue, h⟩ := Option.bind_eq_some_iff.mp h
    obtain ⟨after, hassign, h⟩ := Option.bind_eq_some_iff.mp h
    have hafter := hbefore.assign (hasDistinctNames_of_value? hvalue) hassign
    split at h
    · exact hasDistinctNames_of_moreInlineEntries? hafter h
    · cases h
      exact hafter
    · cases h

end

/-! ## Documents -/

/-- Whether the values that a line gives to keys have no name twice. -/
def Line.HasDistinctNames : Line → Prop
  | .assignment _ value => value.HasDistinctNames
  | _ => True

theorem hasDistinctNames_of_header? {s rest : List Char} {line : Line}
    (h : header? s = some (line, rest)) : line.HasDistinctNames := by
  unfold header? at h
  split at h
  · obtain ⟨_, -, h⟩ := Option.bind_eq_some_iff.mp h
    obtain ⟨_, -, h⟩ := Option.bind_eq_some_iff.mp h
    obtain ⟨_, -, h⟩ := Option.bind_eq_some_iff.mp h
    cases h
    trivial
  · obtain ⟨_, -, h⟩ := Option.bind_eq_some_iff.mp h
    obtain ⟨_, -, h⟩ := Option.bind_eq_some_iff.mp h
    cases h
    trivial

theorem hasDistinctNames_of_assignment? {s rest : List Char} {line : Line}
    (h : assignment? s = some (line, rest)) : line.HasDistinctNames := by
  obtain ⟨_, -, h⟩ := Option.bind_eq_some_iff.mp h
  obtain ⟨_, -, h⟩ := Option.bind_eq_some_iff.mp h
  obtain ⟨_, hvalue, h⟩ := Option.bind_eq_some_iff.mp h
  cases h
  exact hasDistinctNames_of_value? hvalue

theorem hasDistinctNames_of_lines? {fuel : Nat} {s : List Char} {lines : List Line}
    (h : lines? fuel s = some lines) : ∀ line ∈ lines, line.HasDistinctNames := by
  induction fuel generalizing s lines with
  | zero => cases h
  | succ fuel ih =>
    unfold lines? at h
    split at h
    · cases h
      exact List.forall_mem_nil _
    · -- behind a header and behind an assignment the document goes on in the same way
      have hmore {line : Line} {rest : List Char} (hline : line.HasDistinctNames)
          (h : ((endOfLine? rest).bind fun rest => (lines? fuel rest).bind fun more =>
            some (line :: more)) = some lines) : ∀ line ∈ lines, line.HasDistinctNames := by
        obtain ⟨_, -, h⟩ := Option.bind_eq_some_iff.mp h
        obtain ⟨more, hmore, h⟩ := Option.bind_eq_some_iff.mp h
        cases h
        exact List.forall_mem_cons.mpr ⟨hline, ih hmore⟩
      split at h
      · obtain ⟨_, -, h⟩ := Option.bind_eq_some_iff.mp h
        exact ih h
      · split at h
        · obtain ⟨_, hline, h⟩ := Option.bind_eq_some_iff.mp h
          exact hmore (hasDistinctNames_of_header? hline) h
        · obtain ⟨_, hline, h⟩ := Option.bind_eq_some_iff.mp h
          exact hmore (hasDistinctNames_of_assignment? hline) h

namespace Layout

/-- Whether neither the tables so far nor the one kept aside has a name twice. -/
structure HasDistinctNames (layout : Layout) : Prop where
  root : layout.root.HasDistinctNames
  entries : layout.entries.HasDistinctNames

theorem HasDistinctNames.close {layout : Layout} (h : layout.HasDistinctNames) {root : Section}
    (hclose : layout.close = some root) : root.HasDistinctNames := by
  unfold Layout.close at hclose
  split at hclose
  · cases hclose
    exact h.entries
  · split at hclose
    · exact h.root.closeElement h.entries hclose
    · exact h.root.closeTable h.entries hclose

theorem HasDistinctNames.follow {layout after : Layout} (h : layout.HasDistinctNames) {line : Line}
    (hline : line.HasDistinctNames) (hfollow : layout.follow line = some after) :
    after.HasDistinctNames := by
  cases line with
  | header key =>
    obtain ⟨root, hclose, hfollow⟩ := Option.bind_eq_some_iff.mp hfollow
    obtain ⟨⟨entries, opened⟩, hopen, hfollow⟩ := Option.bind_eq_some_iff.mp hfollow
    cases hfollow
    obtain ⟨hentries, hroot⟩ := (h.close hclose).openTable hopen
    exact ⟨hroot, hentries⟩
  | elementHeader key =>
    obtain ⟨root, hclose, hfollow⟩ := Option.bind_eq_some_iff.mp hfollow
    obtain ⟨opened, hopen, hfollow⟩ := Option.bind_eq_some_iff.mp hfollow
    cases hfollow
    exact ⟨(h.close hclose).openElement hopen, Section.hasDistinctNames_nil⟩
  | assignment key value =>
    obtain ⟨entries, hassign, hfollow⟩ := Option.bind_eq_some_iff.mp hfollow
    cases hfollow
    exact ⟨h.root, h.entries.assign hline hassign⟩

theorem HasDistinctNames.foldlM_follow {lines : List Line}
    (hlines : ∀ line ∈ lines, line.HasDistinctNames) {layout after : Layout}
    (h : layout.HasDistinctNames) (hfollow : lines.foldlM Layout.follow layout = some after) :
    after.HasDistinctNames := by
  induction lines generalizing layout with
  | nil =>
    cases hfollow
    exact h
  | cons line rest ih =>
    obtain ⟨hline, hrest⟩ := List.forall_mem_cons.mp hlines
    obtain ⟨next, hnext, hfollow⟩ := Option.bind_eq_some_iff.mp hfollow
    exact ih hrest (h.follow hline hnext) hfollow

end Layout

/-- The table of a document has no name twice, and no table in it has. -/
theorem hasDistinctNames_of_parse {text : String} {table : Table} (h : parse text = some table) :
    table.HasDistinctNames := by
  obtain ⟨lines, hlines, h⟩ := Option.bind_eq_some_iff.mp h
  obtain ⟨layout, hlayout, h⟩ := Option.bind_eq_some_iff.mp h
  obtain ⟨root, hroot, h⟩ := Option.bind_eq_some_iff.mp h
  cases h
  have hempty : Layout.empty.HasDistinctNames :=
    ⟨Section.hasDistinctNames_nil, Section.hasDistinctNames_nil⟩
  exact (hempty.foldlM_follow (hasDistinctNames_of_lines? hlines) hlayout).close hroot

end Toml
end SiteSettings
