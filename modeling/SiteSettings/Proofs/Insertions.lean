import Mathlib.Data.Finset.Card
import SiteSettings.Proofs.Project.InPlace
import SiteSettings.Proofs.Variables

/-!
# Mappings put together by insertions

A settings mapping is made from the empty one by inserting single entries and whole mappings.
Either way pairs of a name and a specification arrive one after another, and the outcome depends on
the pairs alone: a name stands where it first arrived, with what it last arrived with
(`names_insertAll`, `find?_insertAll`).

For the mapping of a configuration this says which declaration counts.  The pairs of the settings
file arrive first, so its order leads; those in place arrive last, so their specifications win,
each as a whole.
-/

namespace SiteSettings

/-! ## Pairs one after another -/

namespace Entries

variable {α : Type}

/-- The entries after pairs were inserted one after another. -/
def insertAll (pairs : List (String × α)) (entries : Entries α) : Entries α :=
  pairs.foldl (fun entries pair => insert pair.1 pair.2 entries) entries

theorem insertAll_append (pairs more : List (String × α)) (entries : Entries α) :
    insertAll (pairs ++ more) entries = insertAll more (insertAll pairs entries) :=
  List.foldl_append

theorem names_insertAll (pairs : List (String × α)) (entries : Entries α) :
    names (insertAll pairs entries) = (names pairs).foldl addName (names entries) := by
  induction pairs generalizing entries with
  | nil => rfl
  | cons pair rest ih =>
    have hinsert : names (insert pair.1 pair.2 entries) = addName (names entries) pair.1 :=
      names_insert pair.1 pair.2 entries
    have hstep : insertAll (pair :: rest) entries =
        insertAll rest (insert pair.1 pair.2 entries) := rfl
    rw [hstep, ih, hinsert]
    rfl

/-- The last pair with a name decides; without one, the entry that was there. -/
theorem find?_insertAll (name : String) (pairs : List (String × α)) (entries : Entries α) :
    find? name (insertAll pairs entries) = (find? name pairs.reverse).or (find? name entries) := by
  induction pairs using List.reverseRecOn with
  | nil => rfl
  | append_singleton pairs pair ih =>
    obtain ⟨n, value⟩ := pair
    have hstep : insertAll (pairs ++ [(n, value)]) entries =
        insert n value (insertAll pairs entries) := by
      rw [insertAll_append]
      rfl
    rw [hstep, List.reverse_append, List.reverse_singleton, List.singleton_append, find?]
    by_cases hn : n = name
    · subst hn
      rw [find?_insert_self, if_pos rfl, Option.some_or]
    · rw [find?_insert_of_ne (Ne.symm hn), if_neg hn, ih]

theorem find?_append (name : String) (front back : Entries α) :
    find? name (front ++ back) = (find? name front).or (find? name back) := by
  induction front with
  | nil => rfl
  | cons entry rest ih =>
    rw [List.cons_append, find?, find?, ih]
    split
    · exact (Option.some_or).symm
    · rfl

/-- With distinct names there is one entry to find, from whichever end. -/
theorem find?_reverse {entries : Entries α} (h : (names entries).Nodup) (name : String) :
    find? name entries.reverse = find? name entries := by
  induction entries with
  | nil => rfl
  | cons entry rest ih =>
    obtain ⟨n, value⟩ := entry
    obtain ⟨hfresh, hrest⟩ := List.nodup_cons.mp h
    have hfirst : find? name [(n, value)] = if n = name then some value else none := rfl
    have hboth : find? name ((n, value) :: rest) =
        if n = name then some value else find? name rest := rfl
    rw [List.reverse_cons, find?_append, ih hrest, hfirst, hboth]
    by_cases hn : n = name
    · subst hn
      rw [find?_eq_none_iff.mpr hfresh, if_pos rfl, Option.none_or]
    · rw [if_neg hn, if_neg hn, Option.or_none]

end Entries

/-- Names that differ from each other are added unless they are there already. -/
theorem foldl_addName_of_nodup {names : List String} (h : names.Nodup) (seen : List String) :
    names.foldl addName seen = seen ++ names.filter (· ∉ seen) := by
  induction names generalizing seen with
  | nil => simp
  | cons name rest ih =>
    obtain ⟨hfresh, hrest⟩ := List.nodup_cons.mp h
    rw [List.foldl_cons, ih hrest, List.filter_cons]
    by_cases hseen : name ∈ seen
    · simp [addName, hseen]
    · -- the name is new and does not come again, so it makes no difference to the rest
      have hfilter : rest.filter (· ∉ seen ++ [name]) = rest.filter (· ∉ seen) := by
        apply List.filter_congr
        intro other hother
        have hne : other ≠ name := fun he => hfresh (he ▸ hother)
        simp [hne]
      rw [addName, if_neg hseen, hfilter]
      simp [hseen]

/-! ## Mappings step by step -/

namespace SettingsMap

/-- What can be done to a mapping. -/
inductive Step
  | insert (name : String) (spec : ValueSpec)
  | extend (other : SettingsMap)

/-- The mapping after a step. -/
def Step.apply : Step → SettingsMap → SettingsMap
  | .insert name spec, settings => settings.insert name spec
  | .extend other, settings => settings.extend other

/-- The pairs that a step inserts, in order. -/
def Step.pairs : Step → List (String × ValueSpec)
  | .insert name spec => [(name, spec)]
  | .extend other => other.entries

/-- The mapping that steps make of the empty one. -/
def afterSteps (steps : List Step) : SettingsMap :=
  steps.foldl (fun settings step => step.apply settings) empty

theorem Step.entries_apply (step : Step) (settings : SettingsMap) :
    (step.apply settings).entries = Entries.insertAll step.pairs settings.entries := by
  cases step with
  | insert name spec => rfl
  | extend other =>
    obtain ⟨pairs⟩ := other
    show (settings.extend ⟨pairs⟩).entries = Entries.insertAll pairs settings.entries
    induction pairs generalizing settings with
    | nil => rfl
    | cons pair rest ih => exact ih (settings.insert pair.1 pair.2)

theorem entries_extend (settings other : SettingsMap) :
    (settings.extend other).entries = Entries.insertAll other.entries settings.entries :=
  Step.entries_apply (.extend other) settings

/-- Steps insert their pairs one after another. -/
theorem entries_afterSteps (steps : List Step) :
    (afterSteps steps).entries = Entries.insertAll (steps.flatMap Step.pairs) [] := by
  induction steps using List.reverseRecOn with
  | nil => rfl
  | append_singleton steps step ih =>
    have hlast : afterSteps (steps ++ [step]) = step.apply (afterSteps steps) := by
      rw [afterSteps, List.foldl_concat, ← afterSteps]
    rw [hlast, Step.entries_apply, ih, List.flatMap_append, Entries.insertAll_append,
      List.flatMap_singleton]

theorem names_afterSteps (steps : List Step) : Entries.names (afterSteps steps).entries =
    (Entries.names (steps.flatMap Step.pairs)).eraseDups := by
  rw [entries_afterSteps, Entries.names_insertAll, ← foldl_addName]
  rfl

theorem nodup_names_afterSteps (steps : List Step) :
    (Entries.names (afterSteps steps).entries).Nodup := by
  rw [names_afterSteps, ← foldl_addName]
  exact nodup_foldl_addName .nil _

theorem size_afterSteps (steps : List Step) :
    (afterSteps steps).size = (Entries.names (steps.flatMap Step.pairs)).toFinset.card := by
  have hsame : (Entries.names (steps.flatMap Step.pairs)).toFinset =
      (Entries.names (afterSteps steps).entries).toFinset := by
    ext name
    rw [List.mem_toFinset, List.mem_toFinset, names_afterSteps, List.mem_eraseDups]
  rw [hsame, List.toFinset_card_of_nodup (nodup_names_afterSteps steps), Entries.names,
    List.length_map]
  rfl

theorem find?_afterSteps (steps : List Step) (name : String) :
    (afterSteps steps).find? name = Entries.find? name (steps.flatMap Step.pairs).reverse := by
  rw [find?, entries_afterSteps, Entries.find?_insertAll]
  exact Option.or_none

/-! ## One mapping over another -/

variable {settings other : SettingsMap}

theorem names_extend (h : (Entries.names other.entries).Nodup) :
    Entries.names (settings.extend other).entries = Entries.names settings.entries ++
      (Entries.names other.entries).filter (· ∉ Entries.names settings.entries) := by
  rw [entries_extend, Entries.names_insertAll, foldl_addName_of_nodup h]

theorem find?_extend (h : (Entries.names other.entries).Nodup) (name : String) :
    (settings.extend other).find? name = (other.find? name).or (settings.find? name) := by
  rw [find?, entries_extend, Entries.find?_insertAll, Entries.find?_reverse h]
  rfl

end SettingsMap

/-- The mapping of a configuration is that in place over that of the settings file. -/
theorem run_readSettings_both {w : Workspace} {root : Path} {config : ProjectConfig} {file : Path}
    {table : Toml.Table} {fromFile inPlace : SettingsMap} (hfile : config.settingsFile = some file)
    (hsettings : config.settings = some table)
    (hfromFile :
      (w.run (readSettingsFile (root.join file) config.settingsPointer)).1 = .ok fromFile)
    (hinPlace : SettingsMap.ofToml table = .ok inPlace) :
    (w.run (config.readSettings root)).1 = .ok (fromFile.extend inPlace) := by
  have hrun : w.run (readSettingsFile (root.join file) config.settingsPointer) =
      (.ok fromFile, (w.run (readSettingsFile (root.join file) config.settingsPointer)).2) :=
    Prod.ext hfromFile rfl
  rw [ProjectConfig.readSettings, hfile, hsettings]
  dsimp only
  rw [Workspace.run_bind_of_ok hrun, hinPlace]
  rfl

/-- **A name stands where it was first inserted, with what was last inserted under it.**  This holds
after any steps from the empty mapping.  In the mapping of a configuration the names of the settings
file come first, in its order, and then those that are in place alone, in theirs; what is in place
under a name counts, and what the file has under the others. -/
theorem afterSteps_first_and_last :
    (∀ steps : List SettingsMap.Step,
      let settings := SettingsMap.afterSteps steps
      let inserted := steps.flatMap SettingsMap.Step.pairs
      (Entries.names settings.entries).Nodup ∧
        Entries.names settings.entries = (Entries.names inserted).eraseDups ∧
        settings.size = (Entries.names inserted).toFinset.card ∧
        ∀ name, settings.find? name = Entries.find? name inserted.reverse) ∧
      ∀ (w : Workspace) (root : Path) (config : ProjectConfig) (file : Path) (table : Toml.Table)
        (fromFile inPlace : SettingsMap),
        config.settingsFile = some file → config.settings = some table →
        (w.run (readSettingsFile (root.join file) config.settingsPointer)).1 = .ok fromFile →
        SettingsMap.ofToml table = .ok inPlace →
        ∃ settings, (w.run (config.readSettings root)).1 = .ok settings ∧
          Entries.names settings.entries = Entries.names fromFile.entries ++
            (Entries.names inPlace.entries).filter (· ∉ Entries.names fromFile.entries) ∧
          (∀ name ∈ Entries.names inPlace.entries, settings.find? name = inPlace.find? name) ∧
          ∀ name ∉ Entries.names inPlace.entries, settings.find? name = fromFile.find? name := by
  constructor
  · intro steps
    exact ⟨SettingsMap.nodup_names_afterSteps steps, SettingsMap.names_afterSteps steps,
      SettingsMap.size_afterSteps steps, SettingsMap.find?_afterSteps steps⟩
  · intro w root config file table fromFile inPlace hfile hsettings hfromFile hinPlace
    have hnodup := SettingsMap.names_nodup_of_ofToml hinPlace
    refine ⟨fromFile.extend inPlace, run_readSettings_both hfile hsettings hfromFile hinPlace,
      SettingsMap.names_extend hnodup, ?_, ?_⟩
    · intro name hname
      obtain ⟨spec, hspec⟩ :=
        Option.ne_none_iff_exists'.mp (mt Entries.find?_eq_none_iff.mp (not_not.mpr hname))
      have hfind : inPlace.find? name = some spec := hspec
      rw [SettingsMap.find?_extend hnodup, hfind, Option.some_or]
    · intro name hname
      have hfind : inPlace.find? name = none := Entries.find?_eq_none_iff.mpr hname
      rw [SettingsMap.find?_extend hnodup, hfind, Option.none_or]

/-- A settings file below a table in place: one name is in both, and its table takes the
place of a text. -/
theorem afterSteps_first_and_last_file_and_table :
    let content := "a = \"A\"\nb = \"B\"\n"
    let w : Workspace := ⟨⟨[(["p"], .directory), (["p", "s.toml"], .text content)]⟩, ["p"], []⟩
    let table : Toml.Table := [("c", .string "C"), ("a", .table [("x", .string "D")])]
    let config : ProjectConfig := { settingsFile := some ⟨"s.toml"⟩, settings := some table }
    let fromFile : SettingsMap := ⟨[("a", .leaf "A"), ("b", .leaf "B")]⟩
    let inPlace : SettingsMap := ⟨[("c", .leaf "C"), ("a", .composite [(.string "x", .leaf "D")])]⟩
    (w.run (readSettingsFile (Path.join ⟨"/p"⟩ ⟨"s.toml"⟩) config.settingsPointer)).1 =
      .ok fromFile ∧
      SettingsMap.ofToml table = .ok inPlace ∧
      ∃ settings, (w.run (config.readSettings ⟨"/p"⟩)).1 = .ok settings ∧
        Entries.names settings.entries = ["a", "b", "c"] ∧
        settings.find? "a" = some (.composite [(.string "x", .leaf "D")]) ∧
        settings.find? "b" = some (.leaf "B") := by
  intro content w table config fromFile inPlace
  have hread : w.tree.read w.workingDirectory (Path.join ⟨"/p"⟩ ⟨"s.toml"⟩) = .ok content := by
    dsimp only [w, content]
    decide +kernel
  have hextension : (Path.join ⟨"/p"⟩ ⟨"s.toml"⟩).extension? ≠ some "json" := by decide +kernel
  have hcontent : Toml.parse content = some [("a", .string "A"), ("b", .string "B")] := by
    dsimp only [content]
    decide +kernel
  have hfromFile :
      (w.run (readSettingsFile (Path.join ⟨"/p"⟩ ⟨"s.toml"⟩) config.settingsPointer)).1 =
      .ok fromFile := by
    rw [run_readSettingsFile, hread]
    dsimp only
    rw [SettingsMap.ofFile, if_neg hextension, hcontent]
    rfl
  have hinPlace : SettingsMap.ofToml table = .ok inPlace := rfl
  obtain ⟨settings, hrun, hnames, hin, hout⟩ :=
    afterSteps_first_and_last.2 w ⟨"/p"⟩ config ⟨"s.toml"⟩
      table fromFile inPlace rfl rfl hfromFile hinPlace
  refine ⟨hfromFile, hinPlace, settings, hrun, hnames, ?_, ?_⟩
  · exact hin "a" (by decide)
  · exact hout "b" (by decide)

end SiteSettings
