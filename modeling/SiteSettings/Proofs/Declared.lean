import SiteSettings.Proofs.Entries
import SiteSettings.Proofs.Meaning

/-!
# Declared settings are sound

The names in a configuration table differ from each other, and so do the positions in an array.
What becomes of them as keys keeps them apart: a name that is an integer at run time is that integer
already in the specification (`Key.index_ofName`).  So every mapping that is read from TOML or JSON
has distinct names and `Sound` specifications, which are proper and have no empty composite.

That names are distinct, and that an array has no more items than memory can hold, is what
the containers of the two formats promise; `IsWellFormed` says so.

The two readers share nothing but their rules, so the induction over values is done for each.
What a level adds is the same for both: `sound_of_names` for a table or an object,
`sound_of_positions` for an array.
-/

namespace SiteSettings

open Php

/-! ## Keys -/

theorem Key.index_ofName (name : String) : (Key.ofName name).index = ArrayKey.ofString name := by
  unfold ofName
  split
  · rename_i n h
    rw [canonicalInteger?_eq_some_iff.mp h, ArrayKey.ofString_toString]
    rfl
  · rename_i h
    refine (ArrayKey.ofString_of_ne fun n hn => ?_).symm
    rw [canonicalInteger?_eq_some_iff.mpr hn] at h
    cases h

theorem Key.ofName_eq_integer_iff {name : String} {n : Int64} :
    ofName name = .integer n ↔ canonicalInteger? name = some n := by
  unfold ofName
  cases canonicalInteger? name <;> simp

/-- A key is written as the name that it came from. -/
theorem Key.text_ofName (name : String) : (ofName name).text = name := by
  unfold ofName
  split
  · rename_i n h
    exact (canonicalInteger?_eq_some_iff.mp h).symm
  · rfl

/-- **The integer keys are the names that integers are written as.**  Any other name is a string
key, the same text again, and so different names are different keys.

The generated code takes the same strings for integers when it runs.  Of the two tests that decide
about a name, neither is enough alone: one reads numbers of 64 bits in spellings of any kind, the
other knows the spelling and no bounds. -/
theorem Key.ofName_exact (name : String) :
    (∀ n : Int64, ofName name = .integer n ↔ name = toString n.toInt) ∧
    (∀ text, ofName name = .string text ↔ text = name ∧ ∀ n : Int64, name ≠ toString n.toInt) ∧
    (∀ n : Int64, ofName name = .integer n ↔ ArrayKey.ofString name = .integer n) ∧
    (∀ n : Int64, ofName name = .integer n ↔
      isCanonicalSpelling name.toList ∧ lenientInteger? name.toList = some n) ∧
    (ofName name).text = name ∧ ∀ other, ofName name = ofName other ↔ name = other := by
  have hinteger (n : Int64) : ofName name = .integer n ↔ name = toString n.toInt := by
    rw [ofName_eq_integer_iff, canonicalInteger?_eq_some_iff]
  refine ⟨hinteger, fun text => ?_, fun n => ?_, fun n => ?_, text_ofName name, fun other => ?_⟩
  · constructor
    · intro h
      refine ⟨?_, fun n hn => ?_⟩
      · rw [← text_ofName name, h, Key.text]
      · cases h.symm.trans ((hinteger n).mpr hn)
    · rintro ⟨rfl, hne⟩
      unfold ofName
      split
      · rename_i n h
        exact absurd (canonicalInteger?_eq_some_iff.mp h) (hne n)
      · rfl
  · rw [hinteger, ArrayKey.ofString_eq_integer_iff]
  · rw [ofName_eq_integer_iff, canonicalInteger?_eq_some_iff_tests]
  · refine ⟨fun h => ?_, congrArg ofName⟩
    rw [← text_ofName name, h, text_ofName]

/-- The ends of the range are integers, and so is nothing beyond them or in another spelling. -/
example :
    ["9223372036854775807", "-9223372036854775808", "9223372036854775808", "-0", "+1", "01",
      ""].map Key.ofName =
    [.integer Int64.maxValue, .integer Int64.minValue, .string "9223372036854775808",
      .string "-0", .string "+1",
      .string "01", .string ""] := by
  cbv

theorem Key.isProper_ofName (name : String) : (Key.ofName name).IsProper := by
  have hindex := index_ofName name
  unfold ofName at hindex ⊢
  split <;> simp_all [IsProper, index]

theorem Key.isProper_ofPosition (position : Nat) : (Key.ofPosition position).IsProper :=
  trivial

/-- Positions that fit into 64 bits stay apart as keys. -/
theorem Key.index_ofPosition_inj {a b : Nat} (ha : IsInt64 a) (hb : IsInt64 b)
    (h : (Key.ofPosition a).index = (Key.ofPosition b).index) : a = b := by
  have hword : Int64.ofInt a = Int64.ofInt b := by
    rw [Int64.ofInt_eq_ofNat, Int64.ofInt_eq_ofNat]
    exact ArrayKey.integer.inj h
  have hint : (a : Int) = b := by
    rw [← toInt_ofInt ha, hword, toInt_ofInt hb]
  exact Int.ofNat.inj hint

/-! ## One level of a value -/

theorem EntriesProper_iff {entries : List (Key × ValueSpec)} :
    EntriesProper entries ↔ ∀ e ∈ entries, e.1.IsProper ∧ e.2.IsProper := by
  induction entries with
  | nil => simp [EntriesProper]
  | cons entry rest ih => simp [EntriesProper, ih, and_assoc]

/-- Whether the specification is proper and no composite in it is empty. -/
structure ValueSpec.Sound (spec : ValueSpec) : Prop where
  isProper : spec.IsProper
  isFilled : spec.isFilled

theorem ValueSpec.sound_leaf (variableName : String) : (ValueSpec.leaf variableName).Sound :=
  ⟨trivial, rfl⟩

/-- A composite is sound if its keys are proper and distinct and what is below them is sound. -/
theorem ValueSpec.sound_of_keys {entries : List (Key × ValueSpec)} {path : String}
    {spec : ValueSpec} (h : ofEntries entries path = .ok spec)
    (hkeys : ∀ key ∈ entries.map Prod.fst, key.IsProper)
    (hnodup : ((entries.map Prod.fst).map Key.index).Nodup) (hspecs : ∀ e ∈ entries, e.2.Sound) :
    spec.Sound := by
  unfold ofEntries at h
  split at h
  · cases h
  · rename_i hempty
    cases h
    have hne : entries ≠ [] := by simpa using hempty
    constructor
    · refine ⟨by simpa [Function.comp_def] using hnodup, EntriesProper_iff.mpr fun e he => ?_⟩
      exact ⟨hkeys e.1 (List.mem_map_of_mem he), (hspecs e he).isProper⟩
    · exact isFilled_composite.mpr ⟨hne, fun e he => (hspecs e he).isFilled⟩

theorem ValueSpec.sound_of_names {entries : List (Key × ValueSpec)} {path : String}
    {spec : ValueSpec} {names : List String} (h : ofEntries entries path = .ok spec)
    (hkeys : entries.map Prod.fst = names.map Key.ofName) (hnodup : names.Nodup)
    (hspecs : ∀ e ∈ entries, e.2.Sound) : spec.Sound := by
  refine sound_of_keys h ?_ ?_ hspecs
  · rw [hkeys]
    exact List.forall_mem_map.mpr fun name _ => Key.isProper_ofName name
  · rw [hkeys, List.map_map]
    refine List.pairwise_map.mpr (hnodup.imp fun hne heq => hne ?_)
    rw [Function.comp_apply, Function.comp_apply, Key.index_ofName, Key.index_ofName] at heq
    exact ArrayKey.ofString_injective heq

theorem ValueSpec.sound_of_positions {entries : List (Key × ValueSpec)} {path : String}
    {spec : ValueSpec} {count : Nat} (h : ofEntries entries path = .ok spec)
    (hkeys : entries.map Prod.fst = (List.range' 0 count).map Key.ofPosition)
    (hcount : IsInt64 count) (hspecs : ∀ e ∈ entries, e.2.Sound) : spec.Sound := by
  refine sound_of_keys h ?_ ?_ hspecs
  · rw [hkeys]
    exact List.forall_mem_map.mpr fun position _ => Key.isProper_ofPosition position
  · have hlt {position : Nat} (hmem : position ∈ List.range' 0 count) : IsInt64 position := by
      have hrange := (List.mem_range'_1.mp hmem).2
      have hmin : Int64.minValue.toInt ≤ 0 := by decide
      have hmax := hcount.2
      exact ⟨by omega, by omega⟩
    rw [hkeys, List.map_map]
    refine List.pairwise_map.mpr ((List.nodup_range' (s := 0) (n := count)).imp_of_mem ?_)
    intro a b ha hb hne heq
    exact hne (Key.index_ofPosition_inj (hlt ha) (hlt hb) heq)

/-! ## Values from TOML -/

mutual

/-- Whether names are distinct in every table, and positions fit into 64 bits in every array. -/
def Toml.Value.IsWellFormed : Toml.Value → Prop
  | .table entries => (Entries.names entries).Nodup ∧ TomlEntriesWellFormed entries
  | .array items => IsInt64 items.length ∧ TomlItemsWellFormed items
  | _ => True
termination_by structural value => value

def TomlEntriesWellFormed : List (String × Toml.Value) → Prop
  | [] => True
  | (_, value) :: rest => value.IsWellFormed ∧ TomlEntriesWellFormed rest
termination_by structural entries => entries

def TomlItemsWellFormed : List Toml.Value → Prop
  | [] => True
  | value :: rest => value.IsWellFormed ∧ TomlItemsWellFormed rest
termination_by structural items => items

end

mutual

theorem Toml.Value.sound_of_toSpec : ∀ {value : Toml.Value} {path : String} {spec : ValueSpec},
    value.IsWellFormed → value.toSpec path = .ok spec → spec.Sound
  | .string name, _, _, _, h => by
    cases h
    exact ValueSpec.sound_leaf name
  | .table entries, path, spec, ⟨hnodup, hentries⟩, h => by
    obtain ⟨specs, hspecs, hofEntries⟩ := bind_eq_ok.mp h
    obtain ⟨hkeys, hsound⟩ := tomlEntrySpecs_ok hentries hspecs
    exact ValueSpec.sound_of_names hofEntries hkeys hnodup hsound
  | .array items, path, spec, ⟨hcount, hitems⟩, h => by
    obtain ⟨specs, hspecs, hofEntries⟩ := bind_eq_ok.mp h
    obtain ⟨hkeys, hsound⟩ := tomlItemSpecs_ok hitems hspecs
    exact ValueSpec.sound_of_positions hofEntries hkeys hcount hsound
  | .integer _, _, _, _, h => nomatch h
  | .float _, _, _, _, h => nomatch h
  | .boolean _, _, _, _, h => nomatch h
  | .datetime _, _, _, _, h => nomatch h

theorem tomlEntrySpecs_ok : ∀ {entries : List (String × Toml.Value)} {path : String}
    {specs : List (Key × ValueSpec)}, TomlEntriesWellFormed entries →
    tomlEntrySpecs path entries = .ok specs →
    specs.map Prod.fst = (Entries.names entries).map Key.ofName ∧ ∀ e ∈ specs, e.2.Sound
  | [], _, _, _, h => by
    cases h
    simp [Entries.names]
  | (name, value) :: rest, path, _, ⟨hvalue, hrest⟩, h => by
    obtain ⟨spec, hspec, h⟩ := bind_eq_ok.mp h
    obtain ⟨specs, hspecs, h⟩ := bind_eq_ok.mp h
    cases h
    have hsound := Toml.Value.sound_of_toSpec hvalue hspec
    obtain ⟨hkeys, hall⟩ := tomlEntrySpecs_ok hrest hspecs
    exact ⟨congrArg (Key.ofName name :: ·) hkeys, List.forall_mem_cons.mpr ⟨hsound, hall⟩⟩

theorem tomlItemSpecs_ok : ∀ {items : List Toml.Value} {path : String} {position : Nat}
    {specs : List (Key × ValueSpec)}, TomlItemsWellFormed items →
    tomlItemSpecs path position items = .ok specs →
    specs.map Prod.fst = (List.range' position items.length).map Key.ofPosition ∧
      ∀ e ∈ specs, e.2.Sound
  | [], _, _, _, _, h => by
    cases h
    simp
  | value :: rest, path, position, _, ⟨hvalue, hrest⟩, h => by
    obtain ⟨spec, hspec, h⟩ := bind_eq_ok.mp h
    obtain ⟨specs, hspecs, h⟩ := bind_eq_ok.mp h
    cases h
    have hsound := Toml.Value.sound_of_toSpec hvalue hspec
    obtain ⟨hkeys, hall⟩ := tomlItemSpecs_ok hrest hspecs
    exact ⟨congrArg (Key.ofPosition position :: ·) hkeys, List.forall_mem_cons.mpr ⟨hsound, hall⟩⟩

end

/-! ## Values from JSON -/

mutual

/-- Whether names are distinct in every object, and positions fit into 64 bits in every array. -/
def Json.Value.IsWellFormed : Json.Value → Prop
  | .object members => (Entries.names members).Nodup ∧ JsonMembersWellFormed members
  | .array items => IsInt64 items.length ∧ JsonItemsWellFormed items
  | _ => True
termination_by structural value => value

def JsonMembersWellFormed : List (String × Json.Value) → Prop
  | [] => True
  | (_, value) :: rest => value.IsWellFormed ∧ JsonMembersWellFormed rest
termination_by structural members => members

def JsonItemsWellFormed : List Json.Value → Prop
  | [] => True
  | value :: rest => value.IsWellFormed ∧ JsonItemsWellFormed rest
termination_by structural items => items

end

mutual

theorem Json.Value.sound_of_toSpec : ∀ {value : Json.Value} {path : String} {spec : ValueSpec},
    value.IsWellFormed → value.toSpec path = .ok spec → spec.Sound
  | .string name, _, _, _, h => by
    cases h
    exact ValueSpec.sound_leaf name
  | .object members, path, spec, ⟨hnodup, hmembers⟩, h => by
    obtain ⟨specs, hspecs, hofEntries⟩ := bind_eq_ok.mp h
    obtain ⟨hkeys, hsound⟩ := jsonMemberSpecs_ok hmembers hspecs
    exact ValueSpec.sound_of_names hofEntries hkeys hnodup hsound
  | .array items, path, spec, ⟨hcount, hitems⟩, h => by
    obtain ⟨specs, hspecs, hofEntries⟩ := bind_eq_ok.mp h
    obtain ⟨hkeys, hsound⟩ := jsonItemSpecs_ok hitems hspecs
    exact ValueSpec.sound_of_positions hofEntries hkeys hcount hsound
  | .null, _, _, _, h => nomatch h
  | .boolean _, _, _, _, h => nomatch h
  | .integer _, _, _, _, h => nomatch h
  | .float _, _, _, _, h => nomatch h

theorem jsonMemberSpecs_ok : ∀ {members : List (String × Json.Value)} {path : String}
    {specs : List (Key × ValueSpec)}, JsonMembersWellFormed members →
    jsonMemberSpecs path members = .ok specs →
    specs.map Prod.fst = (Entries.names members).map Key.ofName ∧ ∀ e ∈ specs, e.2.Sound
  | [], _, _, _, h => by
    cases h
    simp [Entries.names]
  | (name, value) :: rest, path, _, ⟨hvalue, hrest⟩, h => by
    obtain ⟨spec, hspec, h⟩ := bind_eq_ok.mp h
    obtain ⟨specs, hspecs, h⟩ := bind_eq_ok.mp h
    cases h
    have hsound := Json.Value.sound_of_toSpec hvalue hspec
    obtain ⟨hkeys, hall⟩ := jsonMemberSpecs_ok hrest hspecs
    exact ⟨congrArg (Key.ofName name :: ·) hkeys, List.forall_mem_cons.mpr ⟨hsound, hall⟩⟩

theorem jsonItemSpecs_ok : ∀ {items : List Json.Value} {path : String} {position : Nat}
    {specs : List (Key × ValueSpec)}, JsonItemsWellFormed items →
    jsonItemSpecs path position items = .ok specs →
    specs.map Prod.fst = (List.range' position items.length).map Key.ofPosition ∧
      ∀ e ∈ specs, e.2.Sound
  | [], _, _, _, _, h => by
    cases h
    simp
  | value :: rest, path, position, _, ⟨hvalue, hrest⟩, h => by
    obtain ⟨spec, hspec, h⟩ := bind_eq_ok.mp h
    obtain ⟨specs, hspecs, h⟩ := bind_eq_ok.mp h
    cases h
    have hsound := Json.Value.sound_of_toSpec hvalue hspec
    obtain ⟨hkeys, hall⟩ := jsonItemSpecs_ok hrest hspecs
    exact ⟨congrArg (Key.ofPosition position :: ·) hkeys, List.forall_mem_cons.mpr ⟨hsound, hall⟩⟩

end

/-! ## Mappings -/

namespace SettingsMap

/-- Whether names are distinct and every specification is sound. -/
structure Sound (settings : SettingsMap) : Prop where
  nodup : (Entries.names settings.entries).Nodup
  specs : ∀ e ∈ settings.entries, e.2.Sound

theorem sound_empty : empty.Sound :=
  ⟨List.nodup_nil, fun _ h => nomatch h⟩

theorem Sound.insert {settings : SettingsMap} (h : settings.Sound) (name : String)
    {spec : ValueSpec} (hspec : spec.Sound) : (settings.insert name spec).Sound where
  nodup := Entries.nodup_names_insert name spec h.nodup
  specs e he := by
    rcases Entries.eq_or_mem_of_mem_insert name spec he with rfl | hmem
    · exact hspec
    · exact h.specs e hmem

theorem Sound.isFilled {settings : SettingsMap} (h : settings.Sound) : settings.isFilled :=
  List.all_eq_true.mpr fun e he => (h.specs e he).isFilled

/-- Reading entries one after another into a sound mapping leaves it sound. -/
theorem Sound.foldlM {α : Type} {read : String → α → Except SettingError ValueSpec}
    {entries : List (String × α)}
    (hread : ∀ e ∈ entries, ∀ spec, read e.1 e.2 = .ok spec → spec.Sound)
    {settings answer : SettingsMap} (hsettings : settings.Sound)
    (h : entries.foldlM (fun map (e : String × α) => do
      let spec ← read e.1 e.2
      Except.ok (map.insert e.1 spec)) settings = .ok answer) : answer.Sound := by
  induction entries generalizing settings with
  | nil =>
    cases h
    exact hsettings
  | cons e rest ih =>
    rw [List.foldlM_cons] at h
    obtain ⟨inserted, hstep, hrest⟩ := bind_eq_ok.mp h
    obtain ⟨spec, hspec, hinsert⟩ := bind_eq_ok.mp hstep
    cases hinsert
    have hsound := hread e (by simp) spec hspec
    exact ih (fun e he => hread e (List.mem_cons_of_mem _ he)) (hsettings.insert e.1 hsound) hrest

/-- Whether the mapping was read from a TOML table or a JSON value. -/
inductive Declared : SettingsMap → Prop
  | toml {table : Toml.Table} {settings : SettingsMap} (hwf : (Toml.Value.table table).IsWellFormed)
      (h : ofToml table = .ok settings) : Declared settings
  | json {value : Json.Value} {settings : SettingsMap} (hwf : value.IsWellFormed)
      (h : ofJson value = .ok settings) : Declared settings

theorem tomlEntriesWellFormed_iff {entries : List (String × Toml.Value)} :
    TomlEntriesWellFormed entries ↔ ∀ e ∈ entries, e.2.IsWellFormed := by
  induction entries with
  | nil => simp [TomlEntriesWellFormed]
  | cons entry rest ih => simp [TomlEntriesWellFormed, ih]

theorem jsonMembersWellFormed_iff {members : List (String × Json.Value)} :
    JsonMembersWellFormed members ↔ ∀ e ∈ members, e.2.IsWellFormed := by
  induction members with
  | nil => simp [JsonMembersWellFormed]
  | cons entry rest ih => simp [JsonMembersWellFormed, ih]

/-- **Every declared mapping is sound.** -/
theorem Declared.sound {settings : SettingsMap} (h : settings.Declared) : settings.Sound := by
  cases h with
  | @toml table _ hwf h =>
    have hentries := tomlEntriesWellFormed_iff.mp hwf.2
    exact sound_empty.foldlM
      (fun e he _ hspec => Toml.Value.sound_of_toSpec (hentries e he) hspec) h
  | @json value _ hwf h =>
    cases value with
    | object members =>
      have hmembers := jsonMembersWellFormed_iff.mp hwf.2
      exact sound_empty.foldlM
        (fun e he _ hspec => Json.Value.sound_of_toSpec (hmembers e he) hspec) h
    | _ => nomatch h

end SettingsMap
end SiteSettings
