import SiteSettings.Proofs.Equality
import SiteSettings.Proofs.Project.Effects
import SiteSettings.Proofs.Toml.Paths

/-!
# Settings in place and settings in a file

A table of settings can stand in the project file or in a TOML file of its own.  On the way through
the configuration the dates and times in it become text, and text is a leaf; so in place they name
environment variables, while in a settings file they are refused.  That is the only difference
(`settings_inPlace_and_inFile`): for tables without dates and times the two ways come to the same
mapping, or to the same error, and whatever mapping a settings file has, the table has it in place.
-/

namespace SiteSettings

open Toml

namespace Config

/-! ## Tables without dates and times -/

/-- Whether no date or time stands in a value, at any depth. -/
def IsDateless (value : Value) : Prop :=
  ∀ d, ¬ (Value.datetime d).Within value

mutual

theorem replace_eq_self (dates : Dates) : ∀ {value : Value}, IsDateless value →
    dates.replace value = value
  | .datetime d, h => absurd (.refl _) (h d)
  | .array _, h =>
    congrArg Value.array (replaceItems_eq_self dates fun _ hmem d hd => h d (.item hmem hd))
  | .table _, h =>
    congrArg Value.table (replaceEntries_eq_self dates fun _ hmem d hd => h d (.entry hmem hd))
  | .string _, _ => rfl
  | .integer _, _ => rfl
  | .float _, _ => rfl
  | .boolean _, _ => rfl

theorem replaceItems_eq_self (dates : Dates) : ∀ {items : List Value},
    (∀ item ∈ items, IsDateless item) → replaceItems dates items = items
  | [], _ => rfl
  | item :: items, h => by
    obtain ⟨hitem, hitems⟩ := List.forall_mem_cons.mp h
    rw [replaceItems, replace_eq_self dates hitem, replaceItems_eq_self dates hitems]

theorem replaceEntries_eq_self (dates : Dates) : ∀ {entries : List (String × Value)},
    (∀ entry ∈ entries, IsDateless entry.2) → replaceEntries dates entries = entries
  | [], _ => rfl
  | (name, value) :: entries, h => by
    obtain ⟨hvalue, hentries⟩ := List.forall_mem_cons.mp h
    rw [replaceEntries, replace_eq_self dates hvalue, replaceEntries_eq_self dates hentries]

end

theorem isDateless_array {items : List Value} (h : ∀ item ∈ items, IsDateless item) :
    IsDateless (.array items) := by
  rintro d (_ | ⟨hmem, hd⟩)
  exact h _ hmem d hd

theorem isDateless_table {entries : List (String × Value)}
    (h : ∀ entry ∈ entries, IsDateless entry.2) : IsDateless (.table entries) := by
  rintro d (_ | _ | ⟨hmem, hd⟩)
  exact h _ hmem d hd

mutual

/-- A value with a date or time in it has no specification. -/
theorem isDateless_of_toSpec : ∀ {value : Value} {path : String} {spec : ValueSpec},
    value.toSpec path = .ok spec → IsDateless value
  | .string _, _, _, _ => fun _ hd => nomatch hd
  | .table _, _, _, h => by
    obtain ⟨specs, hspecs, -⟩ := bind_eq_ok.mp h
    exact isDateless_table (isDateless_of_tomlEntrySpecs hspecs)
  | .array _, _, _, h => by
    obtain ⟨specs, hspecs, -⟩ := bind_eq_ok.mp h
    exact isDateless_array (isDateless_of_tomlItemSpecs hspecs)
  | .integer _, _, _, h => nomatch h
  | .float _, _, _, h => nomatch h
  | .boolean _, _, _, h => nomatch h
  | .datetime _, _, _, h => nomatch h

theorem isDateless_of_tomlEntrySpecs : ∀ {entries : List (String × Value)} {path : String}
    {specs : List (Key × ValueSpec)}, tomlEntrySpecs path entries = .ok specs →
    ∀ entry ∈ entries, IsDateless entry.2
  | [], _, _, _ => fun _ h => nomatch h
  | (_, _) :: _, _, _, h => by
    obtain ⟨spec, hspec, h⟩ := bind_eq_ok.mp h
    obtain ⟨specs, hspecs, -⟩ := bind_eq_ok.mp h
    exact List.forall_mem_cons.mpr ⟨isDateless_of_toSpec hspec, isDateless_of_tomlEntrySpecs hspecs⟩

theorem isDateless_of_tomlItemSpecs : ∀ {items : List Value} {path : String} {position : Nat}
    {specs : List (Key × ValueSpec)}, tomlItemSpecs path position items = .ok specs →
    ∀ item ∈ items, IsDateless item
  | [], _, _, _, _ => fun _ h => nomatch h
  | _ :: _, _, _, _, h => by
    obtain ⟨spec, hspec, h⟩ := bind_eq_ok.mp h
    obtain ⟨specs, hspecs, -⟩ := bind_eq_ok.mp h
    exact List.forall_mem_cons.mpr ⟨isDateless_of_toSpec hspec, isDateless_of_tomlItemSpecs hspecs⟩

end

/-! ## A project file with settings alone -/

variable {table : Table} {path : Path} {content : String}

theorem checkFile_settings (hcontent : Toml.parse content = some [("settings", .table table)]) :
    checkFile path content = .ok () := by
  rw [checkFile, hcontent]
  rfl

theorem fileTable_settings (hcontent : Toml.parse content = some [("settings", .table table)])
    (strict : Bool) : fileTable strict path content = .ok [("settings", .table table)] := by
  rw [fileTable, checkFile_settings hcontent, hcontent]
  cases strict <;> rfl

/-- The configuration of such a file has the settings, dates and times in them as text,
and defaults. -/
theorem resolve_settings (hcontent : Toml.parse content = some [("settings", .table table)])
    (environment : List (String × String)) (strict : Bool) :
    resolve ⟨[(path, content)], environment, none, [], strict⟩ =
      .ok { settings := some (replaceEntries .asText table) } := by
  rw [resolve, Sources.table, List.mapM_cons]
  dsimp only
  rw [fileTable_settings hcontent strict]
  rfl

end Config

/-! ## Mappings with nothing below them -/

namespace SettingsMap

theorem extend_eq_append {settings : SettingsMap} {entries : Entries ValueSpec}
    (h : (Entries.names (settings.entries ++ entries)).Nodup) :
    settings.extend ⟨entries⟩ = ⟨settings.entries ++ entries⟩ := by
  induction entries generalizing settings with
  | nil => simp [extend]
  | cons entry rest ih =>
    obtain ⟨name, spec⟩ := entry
    have hsplit : settings.entries ++ (name, spec) :: rest =
        (settings.entries ++ [(name, spec)]) ++ rest := by simp
    have hnew : name ∉ Entries.names settings.entries := by
      simp only [Entries.names, List.map_append, List.map_cons, List.nodup_append] at h
      intro hmem
      exact h.2.2 name hmem name (by simp) rfl
    have hinsert : settings.insert name spec = ⟨settings.entries ++ [(name, spec)]⟩ :=
      congrArg SettingsMap.mk (Entries.insert_of_notMem spec hnew)
    rw [hsplit] at h ⊢
    rw [extend, List.foldl_cons]
    dsimp only
    rw [hinsert]
    exact @ih ⟨settings.entries ++ [(name, spec)]⟩ h

theorem names_nodup_of_ofToml {table : Table} {settings : SettingsMap}
    (h : ofToml table = .ok settings) : (Entries.names settings.entries).Nodup := by
  unfold ofToml at h
  have hempty : (Entries.names empty.entries).Nodup := List.nodup_nil
  generalize empty = start at h hempty
  induction table generalizing start with
  | nil =>
    cases h
    exact hempty
  | cons entry rest ih =>
    rw [List.foldlM_cons] at h
    obtain ⟨inserted, hstep, hrest⟩ := bind_eq_ok.mp h
    obtain ⟨spec, -, hinsert⟩ := bind_eq_ok.mp hstep
    cases hinsert
    exact ih _ hrest (Entries.nodup_names_insert entry.1 spec hempty)

/-- A table that declares a mapping has no date or time in it. -/
theorem isDateless_of_ofToml {table : Table} {settings : SettingsMap}
    (h : ofToml table = .ok settings) : Config.IsDateless (.table table) := by
  unfold ofToml at h
  refine Config.isDateless_table ?_
  generalize empty = start at h
  induction table generalizing start with
  | nil => exact fun _ h => nomatch h
  | cons entry rest ih =>
    rw [List.foldlM_cons] at h
    obtain ⟨inserted, hstep, hrest⟩ := bind_eq_ok.mp h
    obtain ⟨spec, hspec, -⟩ := bind_eq_ok.mp hstep
    exact List.forall_mem_cons.mpr ⟨Config.isDateless_of_toSpec hspec, ih _ hrest⟩

end SettingsMap

/-! ## The two ways -/

variable {w : Workspace} {root : Path} {table : Table}

/-- Settings in place alone are the whole mapping. -/
theorem run_readSettings_inPlace (w : Workspace) (root : Path) {config : ProjectConfig}
    (hfile : config.settingsFile = none) (hsettings : config.settings = some table) :
    (w.run (config.readSettings root)).1 = (SettingsMap.ofToml table).mapError .setting := by
  rw [ProjectConfig.readSettings, hfile, hsettings]
  dsimp only
  rw [pure_bind]
  cases hofToml : SettingsMap.ofToml table with
  | error error => rfl
  | ok settings =>
    have hextend : SettingsMap.empty.extend settings = settings :=
      @SettingsMap.extend_eq_append .empty _ (SettingsMap.names_nodup_of_ofToml hofToml)
    dsimp only
    rw [hextend]
    rfl

/-- And so is a settings file alone. -/
theorem run_readSettings_file {config : ProjectConfig} {file : Path} {content : String}
    (hfile : config.settingsFile = some file) (hsettings : config.settings = none)
    (hextension : (root.join file).extension? ≠ some "json")
    (hread : w.tree.read w.workingDirectory (root.join file) = .ok content)
    (hcontent : Toml.parse content = some table) :
    (w.run (config.readSettings root)).1 = (SettingsMap.ofToml table).mapError .setting := by
  have hofFile : SettingsMap.ofFile (root.join file) config.settingsPointer content =
      (SettingsMap.ofToml table).mapError .setting := by
    rw [SettingsMap.ofFile, if_neg hextension, hcontent]
  rw [ProjectConfig.readSettings, hfile, hsettings]
  dsimp only
  rw [bind_pure, run_readSettingsFile, hread]
  exact hofFile

/-- **Settings mean the same in place and in a file, dates and times aside.**  A table as the only
content of a project file has the mapping of the table with its dates and times as text; the same
table in a settings file has the mapping of the table itself.  So the two agree on tables without
dates and times, and on those that have a mapping in a file. -/
theorem settings_inPlace_and_inFile {path file : Path} {content fileContent : String}
    (hcontent : Toml.parse content = some [("settings", .table table)])
    (hfileContent : Toml.parse fileContent = some table) {config : ProjectConfig}
    (hfile : config.settingsFile = some file) (hsettings : config.settings = none)
    (hextension : (root.join file).extension? ≠ some "json")
    (hread : w.tree.read w.workingDirectory (root.join file) = .ok fileContent)
    (environment : List (String × String)) (strict : Bool) :
    ∃ inPlace, Config.resolve ⟨[(path, content)], environment, none, [], strict⟩ = .ok inPlace ∧
      (w.run (inPlace.readSettings root)).1 =
        (SettingsMap.ofToml (Config.replaceEntries .asText table)).mapError .setting ∧
      (w.run (config.readSettings root)).1 = (SettingsMap.ofToml table).mapError .setting ∧
      (Config.IsDateless (.table table) →
        (w.run (inPlace.readSettings root)).1 = (w.run (config.readSettings root)).1) ∧
      ∀ settings, (w.run (config.readSettings root)).1 = .ok settings →
        (w.run (inPlace.readSettings root)).1 = .ok settings := by
  let inPlace : ProjectConfig := { settings := some (Config.replaceEntries .asText table) }
  have hinPlace := run_readSettings_inPlace w root (show inPlace.settingsFile = none from rfl) rfl
  have hinFile := run_readSettings_file hfile hsettings hextension hread hfileContent
  have hagree (hdateless : Config.IsDateless (.table table)) :
      Config.replaceEntries .asText table = table :=
    Value.table.inj (Config.replace_eq_self .asText hdateless)
  refine ⟨inPlace, Config.resolve_settings hcontent environment strict, hinPlace, hinFile, ?_, ?_⟩
  · intro hdateless
    rw [hinPlace, hinFile, hagree hdateless]
  · intro settings hok
    rw [hinFile] at hok
    have hdateless := SettingsMap.isDateless_of_ofToml (mapError_eq_ok.mp hok)
    rw [hinPlace, hagree hdateless, hok]

/-- An array in a table in a table, in both ways. -/
theorem settings_inPlace_and_inFile_nested :
    let table : Table :=
      [("db", .table [("default", .table [("hosts", .array [.string "A", .string "B"])])])]
    let settings : SettingsMap :=
      ⟨[("db", .composite [(.string "default", .composite [(.string "hosts",
        .composite [(.integer 0, .leaf "A"), (.integer 1, .leaf "B")])])])]⟩
    let content := "[settings.db.default]\nhosts = [\"A\", \"B\"]\n"
    let fileContent := "[db.default]\nhosts = [\"A\", \"B\"]\n"
    let w : Workspace := ⟨⟨[(["p"], .directory), (["p", "s.toml"], .text fileContent)]⟩, ["p"], []⟩
    let config : ProjectConfig := { settingsFile := some ⟨"s.toml"⟩ }
    Toml.parse content = some [("settings", .table table)] ∧ Toml.parse fileContent = some table ∧
      Config.IsDateless (.table table) ∧
      ∃ inPlace, Config.resolve ⟨[(⟨"p.toml"⟩, content)], [], none, [], true⟩ = .ok inPlace ∧
        (w.run (config.readSettings ⟨"/p"⟩)).1 = .ok settings ∧
        (w.run (inPlace.readSettings ⟨"/p"⟩)).1 = .ok settings := by
  intro table settings content fileContent w config
  have hcontent : Toml.parse content = some [("settings", .table table)] := by
    dsimp only [content, table]
    decide +kernel
  have hfileContent : Toml.parse fileContent = some table := by
    dsimp only [fileContent, table]
    decide +kernel
  have hread : w.tree.read w.workingDirectory (Path.join ⟨"/p"⟩ ⟨"s.toml"⟩) = .ok fileContent := by
    dsimp only [w]
    decide +kernel
  have hextension : (Path.join ⟨"/p"⟩ ⟨"s.toml"⟩).extension? ≠ some "json" := by decide +kernel
  have hfile : config.settingsFile = some ⟨"s.toml"⟩ := rfl
  have hofToml : SettingsMap.ofToml table = .ok settings := by rfl
  obtain ⟨inPlace, hresolve, -, hinFile, hagree, -⟩ :=
    settings_inPlace_and_inFile hcontent hfileContent hfile rfl hextension hread [] true
  have hdateless := SettingsMap.isDateless_of_ofToml hofToml
  rw [hofToml] at hinFile
  exact ⟨hcontent, hfileContent, hdateless, inPlace, hresolve, hinFile,
    (hagree hdateless).trans hinFile⟩

/-- A date names a variable in place and is refused in a settings file. -/
theorem date_inPlace_ne_inFile :
    let w : Workspace :=
      ⟨⟨[(["p"], .directory), (["p", "s.toml"], .text "d = 1979-05-27\n")]⟩, ["p"], []⟩
    let config : ProjectConfig := { settingsFile := some ⟨"s.toml"⟩ }
    ∃ inPlace, Config.resolve
        ⟨[(⟨"p.toml"⟩, "[settings]\nd = 1979-05-27\n")], [], none, [], true⟩ = .ok inPlace ∧
      (w.run (inPlace.readSettings ⟨"/p"⟩)).1 = .ok ⟨[("d", .leaf "1979-05-27")]⟩ ∧
      (w.run (config.readSettings ⟨"/p"⟩)).1 = .error (.setting (.invalidSetting "d"
        "expected an environment variable name or a table, found datetime")) := by
  intro w config
  let table : Table := [("d", .datetime (.date ⟨1979, 5, 27⟩))]
  have hcontent : Toml.parse "[settings]\nd = 1979-05-27\n" =
      some [("settings", .table table)] := by
    dsimp only [table]
    decide +kernel
  have hfileContent : Toml.parse "d = 1979-05-27\n" = some table := by
    dsimp only [table]
    decide +kernel
  have hread : w.tree.read w.workingDirectory (Path.join ⟨"/p"⟩ ⟨"s.toml"⟩) =
      .ok "d = 1979-05-27\n" := by
    dsimp only [w]
    decide +kernel
  have hextension : (Path.join ⟨"/p"⟩ ⟨"s.toml"⟩).extension? ≠ some "json" := by decide +kernel
  have hfile : config.settingsFile = some ⟨"s.toml"⟩ := rfl
  have htext : (Datetime.date ⟨1979, 5, 27⟩).text = "1979-05-27" := by decide +kernel
  have hreplaced : Config.replaceEntries .asText table = [("d", .string "1979-05-27")] := by
    rw [← htext]
    rfl
  refine ⟨_, Config.resolve_settings hcontent [] true, ?_, ?_⟩
  · rw [run_readSettings_inPlace w ⟨"/p"⟩ rfl rfl, hreplaced]
    rfl
  · rw [run_readSettings_file hfile rfl hextension hread hfileContent]
    rfl

end SiteSettings
