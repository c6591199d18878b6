import SiteSettings.Proofs.Declared
import SiteSettings.Proofs.Equality
import SiteSettings.Proofs.Json.DistinctNames
import SiteSettings.Proofs.Project.Effects
import SiteSettings.Proofs.Toml.DistinctNames

/-!
# Settings mappings are safe to generate from

A mapping is safe if its names are distinct and, at every depth, no composite is empty and no two
keys of a composite are the same key once the generated code has run (`SettingsMap.IsSafe`).  Every
mapping that is read from a table or an object is safe, and so is what `readSettings` puts together
from a settings file and the settings given in place.  The assignments of a safe mapping can always
be added to a document.

Soundness, which the readers establish, speaks of keys as they are in the specification.
Sound keys are proper, so what they normalize to is what they are.

That the names in a settings file are distinct is a fact about the two parsers; how many items an
array can have is a promise of the container alone, and `ArraysFit` is all that is asked of the
values in a file.
-/

namespace SiteSettings

open Php Generator

/-! ## Keys at run time -/

/-- The key that an entry has in the array of the generated code: text that is the decimal form of
an integer is that integer there. -/
def Key.normalized : Key → ArrayKey
  | .string text => .ofString text
  | key => key.index

theorem Key.value?_keyLiteral_eq_normalized (runtime : Runtime) (key : Key) :
    ((keyLiteral key).value? runtime).bind ArrayKey.ofValue? = some key.normalized := by
  cases key <;> rfl

theorem Key.IsProper.normalized_eq {key : Key} (h : key.IsProper) : key.normalized = key.index := by
  cases key with
  | string text => exact h
  | _ => rfl

/-! ## Specifications within a specification -/

/-- Whether a specification stands in another one, at any depth, or is that specification. -/
inductive ValueSpec.Within : ValueSpec → ValueSpec → Prop
  | refl (spec : ValueSpec) : Within spec spec
  | entry {spec : ValueSpec} {entry : Key × ValueSpec} {entries : List (Key × ValueSpec)}
      (hmem : entry ∈ entries) (h : Within spec entry.2) : Within spec (.composite entries)

theorem ValueSpec.Sound.of_mem {entries : List (Key × ValueSpec)}
    (h : (ValueSpec.composite entries).Sound) {entry : Key × ValueSpec} (hmem : entry ∈ entries) :
    entry.2.Sound where
  isProper := (EntriesProper_iff.mp h.isProper.2 entry hmem).2
  isFilled := (isFilled_composite.mp h.isFilled).2 entry hmem

theorem ValueSpec.Sound.of_within {inner spec : ValueSpec} (h : spec.Sound)
    (hwithin : inner.Within spec) : inner.Sound := by
  induction hwithin with
  | refl => exact h
  | entry hmem _ ih => exact ih (h.of_mem hmem)

/-- Below sound entries keys differ from each other at run time. -/
theorem ValueSpec.Sound.nodup_normalized {entries : List (Key × ValueSpec)}
    (h : (ValueSpec.composite entries).Sound) :
    (entries.map fun entry => entry.1.normalized).Nodup := by
  have hproper := EntriesProper_iff.mp h.isProper.2
  have hsame : (entries.map fun entry => entry.1.normalized) =
      entries.map fun entry => entry.1.index :=
    List.map_congr_left fun entry hmem => (hproper entry hmem).1.normalized_eq
  rw [hsame]
  exact h.isProper.1

mutual

/-- A specification without an empty composite at any depth can be generated. -/
theorem ValueSpec.isFilled_of_within : ∀ {spec : ValueSpec},
    (∀ entries, (ValueSpec.composite entries).Within spec → entries ≠ []) → spec.isFilled
  | .leaf _, _ => rfl
  | .composite entries, h =>
    ValueSpec.isFilled_composite.mpr ⟨h entries (.refl _),
      entries_isFilled_of_within fun _ hmem inner hwithin => h inner (.entry hmem hwithin)⟩

theorem entries_isFilled_of_within : ∀ {entries : List (Key × ValueSpec)},
    (∀ e ∈ entries, ∀ inner, (ValueSpec.composite inner).Within e.2 → inner ≠ []) →
    ∀ e ∈ entries, e.2.isFilled
  | [], _ => fun _ h => nomatch h
  | (_, _) :: _, h => by
    obtain ⟨hfirst, hrest⟩ := List.forall_mem_cons.mp h
    exact List.forall_mem_cons.mpr
      ⟨ValueSpec.isFilled_of_within hfirst, entries_isFilled_of_within hrest⟩

end

/-! ## Safe mappings -/

namespace SettingsMap

/-- Whether names are distinct and, at every depth, no composite is empty and the keys of a
composite stay distinct at run time. -/
structure IsSafe (settings : SettingsMap) : Prop where
  names_nodup : (Entries.names settings.entries).Nodup
  entries_ne_nil : ∀ e ∈ settings.entries, ∀ entries,
    (ValueSpec.composite entries).Within e.2 → entries ≠ []
  keys_nodup : ∀ e ∈ settings.entries, ∀ entries,
    (ValueSpec.composite entries).Within e.2 → (entries.map fun entry => entry.1.normalized).Nodup

/-- Whether one statement for each setting can be added to any document. -/
def CanBeAdded (settings : SettingsMap) : Prop :=
  ∀ (options : GeneratorOptions) (doc : Document), ∃ stmts,
    addSettings options settings doc = .ok (doc.append stmts, settings.size)

theorem Sound.isSafe {settings : SettingsMap} (h : settings.Sound) : settings.IsSafe where
  names_nodup := h.nodup
  entries_ne_nil e he entries hwithin := by
    have hsound := (h.specs e he).of_within hwithin
    exact (ValueSpec.isFilled_composite.mp hsound.isFilled).1
  keys_nodup e he entries hwithin := ((h.specs e he).of_within hwithin).nodup_normalized

theorem IsSafe.canBeAdded {settings : SettingsMap} (h : settings.IsSafe) : settings.CanBeAdded := by
  intro options doc
  have hfilled : settings.isFilled :=
    List.all_eq_true.mpr fun e he => ValueSpec.isFilled_of_within (h.entries_ne_nil e he)
  refine ⟨settings.assignmentStatements options, ?_⟩
  rw [addSettings, assignments_eq hfilled, ← settings.length_assignmentStatements options]
  rfl

theorem Sound.extend {settings other : SettingsMap} (h : settings.Sound) (hother : other.Sound) :
    (settings.extend other).Sound := by
  obtain ⟨entries⟩ := other
  have hspecs : ∀ e ∈ entries, e.2.Sound := hother.specs
  clear hother
  induction entries generalizing settings with
  | nil => exact h
  | cons entry rest ih =>
    obtain ⟨hentry, hrest⟩ := List.forall_mem_cons.mp hspecs
    exact ih (h.insert entry.1 hentry) hrest

end SettingsMap

/-! ## Values that fit into memory -/

namespace Toml

/-- Whether the positions in every array of the value fit into 64 bits. -/
def Value.ArraysFit (value : Value) : Prop :=
  ∀ items, (Value.array items).Within value → IsInt64 items.length

mutual

theorem Value.isWellFormed_of_arraysFit : ∀ {value : Value},
    value.HasDistinctNames → value.ArraysFit → value.IsWellFormed
  | .table _, hnames, hfit =>
    ⟨hnames.1, entriesWellFormed_of_arraysFit (entriesDistinct_iff.mp hnames.2)
      fun _ hmem items hwithin => hfit items (.entry hmem hwithin)⟩
  | .array items, hnames, hfit =>
    ⟨hfit items (.refl _), itemsWellFormed_of_arraysFit (itemsDistinct_iff.mp hnames)
      fun _ hmem items hwithin => hfit items (.item hmem hwithin)⟩
  | .string _, _, _ => trivial
  | .integer _, _, _ => trivial
  | .float _, _, _ => trivial
  | .boolean _, _, _ => trivial
  | .datetime _, _, _ => trivial

theorem entriesWellFormed_of_arraysFit : ∀ {entries : List (String × Value)},
    (∀ e ∈ entries, e.2.HasDistinctNames) → (∀ e ∈ entries, e.2.ArraysFit) →
    TomlEntriesWellFormed entries
  | [], _, _ => trivial
  | (_, _) :: _, hnames, hfit => by
    obtain ⟨hname, hnames⟩ := List.forall_mem_cons.mp hnames
    obtain ⟨hfirst, hrest⟩ := List.forall_mem_cons.mp hfit
    exact ⟨Value.isWellFormed_of_arraysFit hname hfirst,
      entriesWellFormed_of_arraysFit hnames hrest⟩

theorem itemsWellFormed_of_arraysFit : ∀ {items : List Value},
    (∀ item ∈ items, item.HasDistinctNames) → (∀ item ∈ items, item.ArraysFit) →
    TomlItemsWellFormed items
  | [], _, _ => trivial
  | _ :: _, hnames, hfit => by
    obtain ⟨hname, hnames⟩ := List.forall_mem_cons.mp hnames
    obtain ⟨hfirst, hrest⟩ := List.forall_mem_cons.mp hfit
    exact ⟨Value.isWellFormed_of_arraysFit hname hfirst, itemsWellFormed_of_arraysFit hnames hrest⟩

end

end Toml

namespace Json

/-- Whether the positions in every array of the value fit into 64 bits. -/
def Value.ArraysFit (value : Value) : Prop :=
  ∀ items, (Value.array items).Within value → IsInt64 items.length

theorem Value.ArraysFit.of_within {value inner : Value} (h : value.ArraysFit)
    (hinner : inner.Within value) : inner.ArraysFit :=
  fun items hitems => h items (hitems.trans hinner)

mutual

theorem Value.isWellFormed_of_arraysFit : ∀ {value : Value},
    value.HasDistinctNames → value.ArraysFit → value.IsWellFormed
  | .object _, hnames, hfit => by
    obtain ⟨hnodup, hall⟩ := Value.hasDistinctNames_object.mp hnames
    exact ⟨hnodup, membersWellFormed_of_arraysFit hall
      fun _ hmem => hfit.of_within (.member hmem (.refl _))⟩
  | .array items, hnames, hfit =>
    ⟨hfit items (.refl _), itemsWellFormed_of_arraysFit (Value.hasDistinctNames_array.mp hnames)
      fun _ hmem => hfit.of_within (.item hmem (.refl _))⟩
  | .null, _, _ => trivial
  | .boolean _, _, _ => trivial
  | .integer _, _, _ => trivial
  | .float _, _, _ => trivial
  | .string _, _, _ => trivial

theorem membersWellFormed_of_arraysFit : ∀ {members : List (String × Value)},
    (∀ member ∈ members, member.2.HasDistinctNames) → (∀ member ∈ members, member.2.ArraysFit) →
    JsonMembersWellFormed members
  | [], _, _ => trivial
  | (_, _) :: _, hnames, hfit => by
    obtain ⟨hname, hnames⟩ := List.forall_mem_cons.mp hnames
    obtain ⟨hfirst, hrest⟩ := List.forall_mem_cons.mp hfit
    exact ⟨Value.isWellFormed_of_arraysFit hname hfirst,
      membersWellFormed_of_arraysFit hnames hrest⟩

theorem itemsWellFormed_of_arraysFit : ∀ {items : List Value},
    (∀ item ∈ items, item.HasDistinctNames) → (∀ item ∈ items, item.ArraysFit) →
    JsonItemsWellFormed items
  | [], _, _ => trivial
  | _ :: _, hnames, hfit => by
    obtain ⟨hname, hnames⟩ := List.forall_mem_cons.mp hnames
    obtain ⟨hfirst, hrest⟩ := List.forall_mem_cons.mp hfit
    exact ⟨Value.isWellFormed_of_arraysFit hname hfirst, itemsWellFormed_of_arraysFit hnames hrest⟩

end

end Json

/-! ## Settings of a configuration -/

/-- Whether the arrays that a text holds, read in either format, fit into memory. -/
structure SettingsFile.ArraysFit (content : String) : Prop where
  toml : ∀ table, Toml.parse content = some table → (Toml.Value.table table).ArraysFit
  json : ∀ value, Json.parse content = some value → value.ArraysFit

/-- A settings file holds a declared mapping. -/
theorem SettingsMap.declared_of_ofFile {path : Path} {pointer content : String}
    (hfit : SettingsFile.ArraysFit content) {settings : SettingsMap}
    (h : SettingsMap.ofFile path pointer content = .ok settings) : settings.Declared := by
  unfold SettingsMap.ofFile at h
  split at h
  · split at h
    · cases h
    · rename_i value hparse
      split at h
      · cases h
      · rename_i declared hpointer
        have hwithin := Json.Value.within_of_at? hpointer
        have hnames := (Json.hasDistinctNames_of_parse hparse).of_within hwithin
        have harrays := (hfit.json value hparse).of_within hwithin
        exact .json (Json.Value.isWellFormed_of_arraysFit hnames harrays) (mapError_eq_ok.mp h)
  · split at h
    · cases h
    · rename_i table hparse
      have hnames := Toml.hasDistinctNames_of_parse hparse
      exact .toml (Toml.Value.isWellFormed_of_arraysFit hnames (hfit.toml table hparse))
        (mapError_eq_ok.mp h)

theorem declared_of_readSettingsFile {w w' : Workspace} {path : Path} {pointer : String}
    (hfit : ∀ content, w.tree.read w.workingDirectory path = .ok content →
      SettingsFile.ArraysFit content) {settings : SettingsMap}
    (h : w.run (readSettingsFile path pointer) = (.ok settings, w')) : settings.Declared := by
  have hanswer := run_readSettingsFile w path pointer
  rw [h] at hanswer
  cases hread : w.tree.read w.workingDirectory path with
  | error problem =>
    rw [hread] at hanswer
    cases hanswer
  | ok content =>
    rw [hread] at hanswer
    exact SettingsMap.declared_of_ofFile (hfit content hread) hanswer.symm

/-- Settings given in place leave a sound mapping sound. -/
theorem Project.sound_of_withSettingsInPlace {project : Project} {fromFile settings : SettingsMap}
    {w w' : Workspace} (hfromFile : fromFile.Sound)
    (hinPlace : ∀ table, project.config.settings = some table →
      (Toml.Value.table table).IsWellFormed)
    (h : w.run (project.withSettingsInPlace fromFile) = (.ok settings, w')) : settings.Sound := by
  rw [withSettingsInPlace] at h
  split at h
  · cases h
    exact hfromFile
  · rename_i table hsettings
    split at h
    · rename_i inPlace hofToml
      cases h
      exact hfromFile.extend (SettingsMap.Declared.toml (hinPlace table hsettings) hofToml).sound
    · cases (Prod.mk.inj h).1

theorem Project.sound_of_readSettings {project : Project} {w w' : Workspace}
    {settings : SettingsMap} (hinPlace : ∀ table, project.config.settings = some table →
      (Toml.Value.table table).IsWellFormed)
    (hfile : ∀ file content, project.config.settingsFile = some file →
      w.tree.read w.workingDirectory (project.root.join file) = .ok content →
      SettingsFile.ArraysFit content)
    (h : w.run project.readSettings = (.ok settings, w')) : settings.Sound := by
  rw [readSettings, ProjectConfig.readSettings] at h
  cases hsettingsFile : project.config.settingsFile with
  | none =>
    rw [hsettingsFile] at h
    exact sound_of_withSettingsInPlace SettingsMap.sound_empty hinPlace h
  | some file =>
    rw [hsettingsFile] at h
    obtain ⟨fromFile, w₁, hfromFile, h⟩ := Workspace.run_bind_eq_ok_iff.mp h
    have hdeclared := declared_of_readSettingsFile (fun content => hfile file content hsettingsFile)
      hfromFile
    exact sound_of_withSettingsInPlace hdeclared.sound hinPlace h

/-- **Whatever is read is safe to generate from**: each mapping declared in either format, and the
mapping that a configuration puts together. -/
theorem settings_safe :
    (∀ settings : SettingsMap, settings.Declared → settings.IsSafe ∧ settings.CanBeAdded) ∧
      ∀ (config : ProjectConfig) (root : Path) (w w' : Workspace) (settings : SettingsMap),
        (∀ table, config.settings = some table → (Toml.Value.table table).IsWellFormed) →
        (∀ file content, config.settingsFile = some file →
          w.tree.read w.workingDirectory (root.join file) = .ok content →
          SettingsFile.ArraysFit content) →
        w.run (config.readSettings root) = (.ok settings, w') →
        settings.IsSafe ∧ settings.CanBeAdded := by
  constructor
  · intro settings hdeclared
    have hsafe := hdeclared.sound.isSafe
    exact ⟨hsafe, hsafe.canBeAdded⟩
  · intro config root w w' settings hinPlace hfile h
    let project : Project := ⟨config, root, []⟩
    have hsound : settings.Sound := project.sound_of_readSettings hinPlace hfile h
    have hsafe := hsound.isSafe
    exact ⟨hsafe, hsafe.canBeAdded⟩

/-- A settings file in JSON and a table in place, with two keys that a reader could take for one. -/
theorem settings_safe_file_and_table :
    let table : Toml.Table := [("db", .table [("5", .string "A"), ("05", .string "B")])]
    let content := "\x7b\"hosts\": [\"C\", \"D\"], \"db\": \"E\"\x7d"
    let config : ProjectConfig :=
      { settingsFile := some ⟨"s.json"⟩, settingsPointer := "", settings := some table }
    let w : Workspace := ⟨⟨[(["p"], .directory), (["p", "s.json"], .text content)]⟩, ["p"], []⟩
    (Toml.Value.table table).IsWellFormed ∧ SettingsFile.ArraysFit content ∧
      (∃ inPlace, SettingsMap.ofToml table = .ok inPlace ∧ inPlace.IsSafe ∧ inPlace.CanBeAdded) ∧
      ∃ settings w', w.run (config.readSettings ⟨"/p"⟩) = (.ok settings, w') ∧
        settings.IsSafe ∧ settings.CanBeAdded := by
  intro table content config w
  have hwf : (Toml.Value.table table).IsWellFormed := by
    simp [table, Toml.Value.IsWellFormed, TomlEntriesWellFormed, Entries.names]
  have hfit : SettingsFile.ArraysFit content := by
    have htoml : Toml.parse content = none := by
      dsimp only [content]
      decide +kernel
    have hjson : Json.parse content =
        some (.object [("hosts", .array [.string "C", .string "D"]), ("db", .string "E")]) := by
      dsimp only [content]
      decide +kernel
    constructor
    · rw [htoml]
      intro table htable
      cases htable
    · rw [hjson]
      rintro value ⟨⟩ items (_ | _ | ⟨hmem, hwithin⟩)
      simp only [List.mem_cons, List.not_mem_nil, or_false] at hmem
      rcases hmem with rfl | rfl
      · cases hwithin with
        | refl => decide
        | item hmem hwithin =>
          simp only [List.mem_cons, List.not_mem_nil, or_false] at hmem
          rcases hmem with rfl | rfl <;> cases hwithin
      · cases hwithin
  refine ⟨hwf, hfit, ?_, ?_⟩
  · obtain ⟨inPlace, hofToml⟩ : ∃ inPlace, SettingsMap.ofToml table = .ok inPlace := ⟨_, rfl⟩
    exact ⟨inPlace, hofToml, settings_safe.1 inPlace (.toml hwf hofToml)⟩
  · have hok : (w.run (config.readSettings ⟨"/p"⟩)).1.isOk := by
      dsimp only [config, w, content, table]
      decide +kernel
    obtain ⟨settings, w', hrun⟩ := Workspace.exists_run_eq_ok hok
    refine ⟨settings, w', hrun, settings_safe.2 config ⟨"/p"⟩ w w' settings ?_ ?_ hrun⟩
    · rintro _ ⟨⟩
      exact hwf
    · rintro _ read ⟨⟩ hread
      have hcontent : w.tree.read w.workingDirectory (Path.join ⟨"/p"⟩ ⟨"s.json"⟩) =
          .ok content := by
        dsimp only [w]
        decide +kernel
      rw [hcontent] at hread
      cases hread
      exact hfit

end SiteSettings
