import SiteSettings.Proofs.Config.Environment
import SiteSettings.Proofs.Config.Fields
import SiteSettings.Proofs.Config.Layers
import SiteSettings.Proofs.Project.Loading
import SiteSettings.Proofs.Toml.DistinctNames

/-!
# Which source wins

Five sources can give a field its value: the overrides, the variables of the environment, the
project files that were named, those that were found, and the defaults.  `load_precedence`
says that they come in this order, and that within each of them the last one that gives the
field a value wins.

All of it is merged as tables, where a value can also be hidden by one above its key or below it.
That this comes to the plain order of sources has three reasons.  A field holds one value, so a
configuration with a table there could not have been read.  Nothing ends above the key of a field at
the top, and what could end above those of `dotenv` is ruled out.  And overrides have keys of
fields, so none of them ends at `dotenv` itself.

The settings given in place are a table, in which overrides can meet; one that no later override has
to do with is found there in the end.
-/

namespace SiteSettings

open Toml

/-! ## The last that gives a value -/

namespace Config

variable {α β γ : Type}

theorem lastOf?_append (value? : α → Option β) (front back : List α) :
    lastOf? value? (front ++ back) = (lastOf? value? back).or (lastOf? value? front) := by
  rw [lastOf?, List.reverse_append, List.findSome?_append]
  rfl

theorem lastOf?_singleton (value? : α → Option β) (item : α) :
    lastOf? value? [item] = value? item := by
  rw [lastOf?, List.reverse_singleton, List.findSome?_singleton]

theorem lastOf?_map (value? : β → Option γ) (f : α → β) (items : List α) :
    lastOf? value? (items.map f) = lastOf? (fun item => value? (f item)) items := by
  rw [lastOf?, ← List.map_reverse, List.findSome?_map]
  rfl

theorem lastOf?_filterMap (value? : β → Option γ) (f : α → Option β) (items : List α) :
    lastOf? value? (items.filterMap f) = lastOf? (fun item => (f item).bind value?) items := by
  induction items using List.reverseRecOn with
  | nil => rfl
  | append_singleton items item ih =>
    rw [lastOf?_concat, List.filterMap_append, lastOf?_append, ih]
    cases hitem : f item with
    | none => simp [hitem, lastOf?]
    | some b => simp [hitem, lastOf?]

end Config

/-! ## The layers of a setup -/

/-- The table of a file, if it can be read and is well-formed. -/
def Workspace.tableAt? (w : Workspace) (path : Path) : Option Table :=
  (w.contentAt? path).bind Toml.parse

namespace ProjectSetup

/-- The tables that are merged, from the lowest to the highest priority. -/
def layers (setup : ProjectSetup) (w : Workspace) (directories : List Path) : List Table :=
  (setup.filePaths w directories).filterMap w.tableAt? ++ (setup.sources []).upperLayers

/-- The layer of the variables, if they are read. -/
def variableLayers (setup : ProjectSetup) : List Table :=
  (setup.variablePrefix.map fun variablePrefix =>
    Config.environmentTable variablePrefix setup.environment).toList

theorem layers_eq (setup : ProjectSetup) (w : Workspace) (directories : List Path) :
    setup.layers w directories = (setup.filePaths w directories).filterMap w.tableAt? ++
      setup.variableLayers ++ [Config.overrideTable setup.overrides] := by
  rw [layers, Config.Sources.upperLayers, ← List.append_assoc, variableLayers]
  have hsource : (setup.sources []).variablePrefix = setup.variablePrefix := rfl
  rw [hsource]
  cases setup.variablePrefix with
  | none => rfl
  | some variablePrefix => rfl

/-- What the last override of a key gives it. -/
def fromOverrides? (setup : ProjectSetup) (key : String) : Option Value :=
  Config.lastOf? (fun e => if e.1 = key then some e.2 else none) setup.overrides

/-- What the last variable whose name spells a key gives it. -/
def fromVariables? (setup : ProjectSetup) (path : List String) : Option Value :=
  setup.variablePrefix.bind fun variablePrefix =>
    Config.lastOf? (fun e => if Config.keyOfVariable? variablePrefix e.1 = some path
      then some (.string e.2) else none) setup.environment

/-- What the last of the named files that gives something to a key gives it. -/
def fromNamed? (setup : ProjectSetup) (w : Workspace) (path : List String) : Option Value :=
  Config.lastOf? (fun file => (w.tableAt? ((setup.rootIn w).join file)).bind (Table.at? path))
    setup.configFiles

/-- The same for the files that are found. -/
def fromFound? (setup : ProjectSetup) (w : Workspace) (directories : List Path)
    (path : List String) :
    Option Value :=
  Config.lastOf? (fun directory =>
    (w.tableAt? (directory.join ⟨setup.fileName⟩)).bind (Table.at? path)) directories

/-- What a dotted key is given, the first source that gives it something counting. -/
def given? (setup : ProjectSetup) (w : Workspace) (directories : List Path) (key : String) :
    Option Value :=
  let path := Text.pieces '.' key
  (setup.fromOverrides? key).or <| (setup.fromVariables? path).or <|
    (setup.fromNamed? w path).or (setup.fromFound? w directories path)

end ProjectSetup

/-! ## What is read -/

namespace Config

theorem parse_of_fileTable {strict : Bool} {path : Path} {content : String} {table : Table}
    (h : fileTable strict path content = .ok table) : Toml.parse content = some table := by
  rw [fileTable] at h
  cases hparse : Toml.parse content with
  | none =>
    rw [hparse] at h
    split at h
    · obtain ⟨_, -, h⟩ := bind_eq_ok.mp h
      cases h
    · cases h
  | some parsed =>
    rw [hparse] at h
    split at h
    · obtain ⟨_, -, h⟩ := bind_eq_ok.mp h
      rw [Except.ok.inj h]
    · rw [Except.ok.inj h]

/-- The tables of files that can be read are their texts read as tables. -/
theorem eq_tables_of_forall₂ {w : Workspace} {paths : List Path} {tables : List Table}
    (h : List.Forall₂ (fun file table => Toml.parse file.2 = some table)
      (w.readable paths) tables) :
    tables = paths.filterMap w.tableAt? := by
  induction paths generalizing tables with
  | nil =>
    cases h
    rfl
  | cons path rest ih =>
    rw [Workspace.readable, List.filterMap_cons] at h
    rw [List.filterMap_cons, Workspace.tableAt?]
    cases hcontent : w.contentAt? path with
    | none =>
      rw [hcontent] at h
      exact ih h
    | some content =>
      simp only [hcontent, Option.map_some] at h
      cases h with
      | cons hparse hrest =>
        rw [Option.bind_some, hparse, ih hrest]

/-- What a configuration was read from: the layers of the setup, merged. -/
theorem readConfig_of_resolve {setup : ProjectSetup} {w : Workspace} {directories : List Path}
    {config : ProjectConfig}
    (h : resolve (setup.sources (w.readable (setup.filePaths w directories))) = .ok config) :
    readConfig .asText (Table.mergeAll (setup.layers w directories)) = .ok config := by
  obtain ⟨table, htable, h⟩ := bind_eq_ok.mp h
  obtain ⟨files, hfiles, htable⟩ := bind_eq_ok.mp htable
  obtain rfl := Except.ok.inj htable
  have hparsed := (forall₂_of_mapM hfiles).imp fun _ _ hfile => parse_of_fileTable hfile
  rw [eq_tables_of_forall₂ hparsed] at h
  exact mapError_eq_ok.mp h

theorem hasDistinctNames_layers {setup : ProjectSetup}
    (hoverrides : ∀ e ∈ setup.overrides, e.2.HasDistinctNames) {w : Workspace}
    {directories : List Path} : ∀ layer ∈ setup.layers w directories, layer.HasDistinctNames := by
  intro layer hlayer
  rw [ProjectSetup.layers_eq] at hlayer
  rcases List.mem_append.mp hlayer with hlower | hoverride
  · rcases List.mem_append.mp hlower with hfile | hvariables
    · obtain ⟨path, -, htable⟩ := List.mem_filterMap.mp hfile
      obtain ⟨content, -, hparse⟩ := Option.bind_eq_some_iff.mp htable
      exact hasDistinctNames_of_parse hparse
    · obtain ⟨variablePrefix, -, rfl⟩ := Option.map_eq_some_iff.mp (Option.mem_toList.mp hvariables)
      exact hasDistinctNames_environmentTable variablePrefix setup.environment
  · obtain rfl := List.mem_singleton.mp hoverride
    exact hasDistinctNames_overrideTable hoverrides

/-! ## The way to a field -/

/-- Above a field stands the whole table and, if it is one of `dotenv`, the table there. -/
theorem eq_of_prefix_path {field : ScalarField} {front : List String} (hne : front ≠ [])
    (h : front <+: field.path) :
    front = field.path ∨ (∃ inner, field = .dotenv inner) ∧ front = ["dotenv"] := by
  rcases field.path_eq_or with hpath | ⟨inner, rfl⟩
  · rw [hpath] at h ⊢
    rcases List.prefix_cons_iff.mp h with rfl | ⟨rest, rfl, hrest⟩
    · exact absurd rfl hne
    · rw [List.prefix_nil.mp hrest]
      exact .inl rfl
  · rw [ScalarField.path_dotenv] at h ⊢
    rcases List.prefix_cons_iff.mp h with rfl | ⟨rest, rfl, hrest⟩
    · exact absurd rfl hne
    · rcases List.prefix_cons_iff.mp hrest with rfl | ⟨more, rfl, hmore⟩
      · exact .inr ⟨⟨inner, rfl⟩, rfl⟩
      · rw [List.prefix_nil.mp hmore]
        exact .inl rfl

/-- No override ends above a field. -/
theorem pieces_eq_of_prefix_path {key : String} (hvalid : isValidKey key) {field : ScalarField}
    (h : Text.pieces '.' key <+: field.path) : Text.pieces '.' key = field.path := by
  rcases eq_of_prefix_path (Text.pieces_ne_nil '.' key) h with hpath | ⟨-, hdotenv⟩
  · exact hpath
  · obtain rfl : key = "dotenv" := Text.pieces_injective '.' hdotenv
    exact absurd hvalid (by decide)

/-- No variable ends above a field if what the variables leave at `dotenv` is a table at most. -/
theorem key_eq_of_prefix_path {variablePrefix : String} {environment : List (String × String)}
    {field : ScalarField}
    (hdotenv : (∃ inner, field = .dotenv inner) → ∀ value,
      (environmentTable variablePrefix environment).at? ["dotenv"] = some value → value.isTable) :
    ∀ e ∈ environment, ∀ key, keyOfVariable? variablePrefix e.1 = some key → key <+: field.path →
      key = field.path := by
  intro e he key hkey hname
  rcases eq_of_prefix_path (keyOfVariable?_ne_nil hkey) hname with hpath | ⟨hfield, rfl⟩
  · exact hpath
  · -- such a variable would have left a text at `dotenv`, as nothing ends above that
    exfalso
    have hlone : ∀ e ∈ environment, ∀ key, keyOfVariable? variablePrefix e.1 = some key →
        key <+: ["dotenv"] → key = ["dotenv"] := by
      intro other _ key hother hfront
      rcases List.prefix_cons_iff.mp hfront with rfl | ⟨rest, rfl, hrest⟩
      · exact absurd rfl (keyOfVariable?_ne_nil hother)
      · rw [List.prefix_nil.mp hrest]
    have hat := holdsAt_environmentTable variablePrefix hlone
    cases hlast : lastVariable? variablePrefix ["dotenv"] environment with
    | some value =>
      rw [hlast] at hat
      have htable := hdotenv hfield value hat
      rw [isTable_of_lastVariable? variablePrefix hlast] at htable
      cases htable
    | none =>
      have hself := lastOf?_eq_none_iff.mp hlast e he
      rw [if_pos hkey] at hself
      cases hself

/-! ## The order of the sources -/

section Order

variable {setup : ProjectSetup} {w : Workspace} {directories : List Path} {field : ScalarField}

theorem lastOf?_files (path : List String) :
    lastOf? (Table.at? path) ((setup.filePaths w directories).filterMap w.tableAt?) =
      (setup.fromNamed? w path).or (setup.fromFound? w directories path) := by
  rw [lastOf?_filterMap, ProjectSetup.filePaths, lastOf?_append, lastOf?_map, lastOf?_map]
  rfl

/-- What the overrides leave at a field, if that is no table, is what the last one of its
key gives it. -/
theorem at?_overrideTable_field (hvalid : ∀ e ∈ setup.overrides, isValidKey e.1)
    (htable : ∀ entries,
      Table.at? field.path (overrideTable setup.overrides) ≠ some (.table entries)) :
    Table.at? field.path (overrideTable setup.overrides) = setup.fromOverrides? field.key := by
  have habove : ∀ e ∈ setup.overrides, Text.pieces '.' e.1 <+: field.path →
      Text.pieces '.' e.1 = field.path :=
    fun e he h => pieces_eq_of_prefix_path (hvalid e he) h
  have hkeys :
      (fun e : String × Value => if Text.pieces '.' e.1 = field.path then some e.2 else none) =
      fun e => if e.1 = field.key then some e.2 else none := by
    funext e
    simp only [ScalarField.path, (Text.pieces_injective '.').eq_iff]
  rw [at?_overrideTable habove htable, hkeys]
  rfl

/-- The same for the variables, if only tables are on the way. -/
theorem at?_environmentTable_field {variablePrefix : String}
    (hname : setup.variablePrefix = some variablePrefix)
    (hclear : (environmentTable variablePrefix setup.environment).IsClearTo field.path)
    (htable : ∀ entries, Table.at? field.path (environmentTable variablePrefix setup.environment) ≠
      some (.table entries)) :
    Table.at? field.path (environmentTable variablePrefix setup.environment) =
      setup.fromVariables? field.path := by
  have hdotenv : (∃ inner, field = .dotenv inner) → ∀ value,
      (environmentTable variablePrefix setup.environment).at? ["dotenv"] = some value →
        value.isTable := by
    rintro ⟨inner, rfl⟩ value hvalue
    rw [ScalarField.path_dotenv] at hclear
    exact hclear ["dotenv"] (List.prefix_append _ _) (by simp) value hvalue
  have hat := holdsAt_environmentTable variablePrefix (key_eq_of_prefix_path hdotenv)
  have hvariables : setup.fromVariables? field.path =
      lastVariable? variablePrefix field.path setup.environment := by
    rw [ProjectSetup.fromVariables?, hname]
    rfl
  rw [hvariables]
  cases hlast : lastVariable? variablePrefix field.path setup.environment with
  | some value =>
    rw [hlast] at hat
    exact hat
  | none =>
    rw [hlast] at hat
    by_contra hsome
    obtain ⟨value, hvalue⟩ := Option.ne_none_iff_exists'.mp hsome
    have hisTable := hat value hvalue
    cases value with
    | table entries => exact htable entries hvalue
    | _ => cases hisTable

theorem lastOf?_variableLayers
    (hclear : ∀ layer ∈ setup.variableLayers, layer.IsClearTo field.path)
    (htable : ∀ entries,
      lastOf? (Table.at? field.path) setup.variableLayers ≠ some (.table entries)) :
    lastOf? (Table.at? field.path) setup.variableLayers = setup.fromVariables? field.path := by
  cases hname : setup.variablePrefix with
  | none =>
    rw [ProjectSetup.variableLayers, ProjectSetup.fromVariables?, hname]
    rfl
  | some variablePrefix =>
    have hlayers : setup.variableLayers = [environmentTable variablePrefix setup.environment] := by
      rw [ProjectSetup.variableLayers, hname]
      rfl
    rw [hlayers, lastOf?_singleton] at htable ⊢
    rw [hlayers] at hclear
    exact at?_environmentTable_field hname (hclear _ (List.mem_singleton_self _)) htable

/-- What stands at a field in the merged layers, if that is no table and no layer has anything but a
table on the way, is what the field is given. -/
theorem at?_layers (hoverrides : ∀ e ∈ setup.overrides, e.2.HasDistinctNames)
    (hvalid : ∀ e ∈ setup.overrides, isValidKey e.1)
    (hclear : ∀ layer ∈ setup.layers w directories, layer.IsClearTo field.path)
    (htable : ∀ entries,
      Table.at? field.path (Table.mergeAll (setup.layers w directories)) ≠ some (.table entries)) :
    Table.at? field.path (Table.mergeAll (setup.layers w directories)) =
      setup.given? w directories field.key := by
  have hmerged : Table.at? field.path (Table.mergeAll (setup.layers w directories)) =
      lastOf? (Table.at? field.path) (setup.layers w directories) :=
    Table.at?_mergeAll_of_isClearTo (hasDistinctNames_layers hoverrides) hclear htable
  have hgiven : setup.given? w directories field.key =
      (setup.fromOverrides? field.key).or ((setup.fromVariables? field.path).or
        ((setup.fromNamed? w field.path).or (setup.fromFound? w directories field.path))) := rfl
  rw [hmerged] at htable ⊢
  rw [setup.layers_eq, lastOf?_concat, lastOf?_append, lastOf?_files] at htable ⊢
  -- the overrides come first; where they leave nothing, neither did one of the field's key
  have hoverride : Table.at? field.path (overrideTable setup.overrides) =
      setup.fromOverrides? field.key := by
    refine at?_overrideTable_field hvalid fun entries hentries => htable entries ?_
    exact congrArg (Option.or · _) hentries
  rw [hoverride] at htable ⊢
  rw [hgiven]
  cases hlast : setup.fromOverrides? field.key with
  | some value => rfl
  | none =>
    rw [hlast, Option.none_or] at htable
    have hclear' : ∀ layer ∈ setup.variableLayers, layer.IsClearTo field.path := by
      intro layer hlayer
      apply hclear
      rw [setup.layers_eq]
      exact List.mem_append_left _ (List.mem_append_right _ hlayer)
    have hvariables : lastOf? (Table.at? field.path) setup.variableLayers =
        setup.fromVariables? field.path := by
      refine lastOf?_variableLayers hclear' fun entries hentries => htable entries ?_
      exact congrArg (Option.or · _) hentries
    rw [hvariables]

/-- Only tables are on the way to a field if that is so at `dotenv`. -/
theorem isClearTo_path {table : Table}
    (hdotenv : (∃ inner, field = .dotenv inner) → ∀ value,
      Entries.find? "dotenv" table = some value → value.isTable) : table.IsClearTo field.path := by
  intro front hfront hne value hvalue
  by_cases hnil : front = []
  · subst hnil
    obtain rfl := Option.some.inj hvalue
    rfl
  · rcases eq_of_prefix_path hnil hfront with hpath | ⟨hfield, rfl⟩
    · exact absurd hpath hne
    · obtain ⟨inner, hinner, hself⟩ := Option.bind_eq_some_iff.mp hvalue
      rw [Value.at?_nil] at hself
      obtain rfl := Option.some.inj hself
      exact hdotenv hfield inner hinner

/-- A field has what it was given, or its default. -/
theorem read_of_layers (hoverrides : ∀ e ∈ setup.overrides, e.2.HasDistinctNames)
    (hvalid : ∀ e ∈ setup.overrides, isValidKey e.1) {config : ProjectConfig}
    (hconfig : readConfig .asText (Table.mergeAll (setup.layers w directories)) = .ok config)
    (hdotenv : (∃ inner, field = .dotenv inner) → ∀ layer ∈ setup.layers w directories, ∀ value,
      Entries.find? "dotenv" layer = some value → value.isTable) :
    match setup.given? w directories field.key with
    | some value => field.read (Dates.asText.replace value) = .ok (field.get config)
    | none => field.get config = field.get {} := by
  have hlayers : ∀ layer ∈ setup.layers w directories, layer.HasDistinctNames :=
    hasDistinctNames_layers hoverrides
  have hmerged : (Table.mergeAll (setup.layers w directories)).IsClearTo field.path := by
    refine isClearTo_path fun hfield value hvalue => ?_
    have htables : ∀ layer ∈ setup.layers w directories, ∀ value,
        layer.at? ["dotenv"] = some value → value.isTable :=
      fun layer hlayer value hvalue =>
        hdotenv hfield layer hlayer value ((Table.at?_singleton "dotenv" layer).symm.trans hvalue)
    exact Table.isTable_of_at?_mergeAll hlayers htables ((Table.at?_singleton _ _).trans hvalue)
  have hread := read_of_readConfig (Table.hasDistinctNames_mergeAll hlayers) hconfig hmerged
  have htable : ∀ entries, Table.at? field.path (Table.mergeAll (setup.layers w directories)) ≠
      some (.table entries) := by
    intro entries hentries
    rw [hentries] at hread
    cases ScalarField.isTable_of_read hread
  have hclear : ∀ layer ∈ setup.layers w directories, layer.IsClearTo field.path :=
    fun layer hlayer => isClearTo_path fun hfield => hdotenv hfield layer hlayer
  rw [at?_layers hoverrides hvalid hclear htable] at hread
  split at hread <;> rename_i hgiven <;> rw [hgiven] <;> exact hread

end Order

/-! ## Settings given in place -/

/-- What an override writes below `settings` is among the settings given in place, if no later
override has to do with its key. -/
theorem at?_settings {setup : ProjectSetup} {w : Workspace} {directories : List Path}
    (hoverrides : ∀ e ∈ setup.overrides, e.2.HasDistinctNames) {config : ProjectConfig}
    (hconfig : readConfig .asText (Table.mergeAll (setup.layers w directories)) = .ok config)
    {before after : List (String × Value)} {rest text : String}
    (hsplit : setup.overrides = before ++ ("settings." ++ rest, .string text) :: after)
    (hafter : ∀ e ∈ after, ¬ Extends ("settings." ++ rest) e.1 ∧
      ¬ Extends e.1 ("settings." ++ rest)) :
    ∃ settings, config.settings = some settings ∧
      Table.at? (Text.pieces '.' rest) settings = some (.string text) := by
  have hpieces : Text.pieces '.' ("settings." ++ rest) = "settings" :: Text.pieces '.' rest :=
    Text.pieces_append '.' "settings" rest
  have htop : Table.at? ("settings" :: Text.pieces '.' rest) (overrideTable setup.overrides) =
      some (.string text) := by
    rw [hsplit, ← hpieces]
    exact at?_overrideTable_of_unrelated hafter
  have hlayers : ∀ layer ∈ setup.layers w directories, layer.HasDistinctNames :=
    hasDistinctNames_layers hoverrides
  have hmerged : Table.at? ("settings" :: Text.pieces '.' rest)
      (Table.mergeAll (setup.layers w directories)) = some (.string text) := by
    rw [setup.layers_eq, Table.mergeAll_concat]
    exact (Table.at?_merge_eq_some_iff (hasDistinctNames_overrideTable hoverrides)
      rfl).mpr (.inl htop)
  rw [Table.at?_cons] at hmerged
  obtain ⟨value, hvalue, hbelow⟩ := Option.bind_eq_some_iff.mp hmerged
  obtain ⟨entries, rfl, hsettings⟩ :=
    settings_of_readConfig (Table.hasDistinctNames_mergeAll hlayers) hconfig hvalue
  refine ⟨_, hsettings, ?_⟩
  have hreplace := at?_replace (.table entries) (Text.pieces '.' rest)
  rw [hbelow] at hreplace
  exact hreplace

end Config

/-! ## Loading -/

/-- **The order of the sources.**  A project that loads has, in each field of one value, what the
field was given: by the last override of its key, or else the last variable, or else the last named
file, or else the last file found, or else its default.  A number and its decimal text are the same
indentation.  And the settings given in place hold the text of every override below them that no
later override has to do with. -/
theorem load_precedence {setup : ProjectSetup} {w w' : Workspace} {project : Project}
    (hoverrides : ∀ e ∈ setup.overrides, e.2.HasDistinctNames)
    (h : w.run (Project.load setup) = (.ok project, w')) :
    ∃ directories, setup.Searches w directories ∧
      (∀ field : Config.ScalarField,
        ((∃ inner, field = .dotenv inner) → ∀ layer ∈ setup.layers w directories, ∀ value,
          Entries.find? "dotenv" layer = some value → value.isTable) →
        match setup.given? w directories field.key with
        | some value => field.read (Config.Dates.asText.replace value) =
          .ok (field.get project.config)
        | none => field.get project.config = field.get {}) ∧
      (∀ (n : Int64) (width : UInt64), Config.ScalarField.indent.read (.integer n) = .ok width ↔
        Config.ScalarField.indent.read (.string (toString n.toInt)) = .ok width) ∧
      ∀ (before after : List (String × Value)) (rest text : String),
        setup.overrides = before ++ ("settings." ++ rest, .string text) :: after →
        (∀ e ∈ after, ¬ Config.Extends ("settings." ++ rest) e.1 ∧
          ¬ Config.Extends e.1 ("settings." ++ rest)) →
        ∃ settings, project.config.settings = some settings ∧
          Table.at? (Text.pieces '.' rest) settings = some (.string text) := by
  obtain ⟨hvalid, -, -, directories, hsearches, hresolve⟩ := Project.load_eq_ok h
  have hconfig := Config.readConfig_of_resolve hresolve
  refine ⟨directories, hsearches, ?_, Config.readIndent_toString, ?_⟩
  · intro field hdotenv
    exact Config.read_of_layers hoverrides hvalid hconfig hdotenv
  · intro before after rest text hsplit hafter
    exact Config.at?_settings hoverrides hconfig hsplit hafter

/-- A project file, two variables and two overrides: the file loses to an override and
to a variable. -/
theorem load_precedence_below_settings :
    let setup : ProjectSetup :=
      { searchPaths := [.ancestors none]
        variablePrefix := some "P"
        environment := [("P__INDENT", "4"), ("P__OUTPUT", "b")]
        overrides := [("settings.db", .string "DB"), ("output", .string "c")] }
    let w : Workspace :=
      ⟨⟨[(["p"], .directory),
        (["p", "env-settings.toml"], .text "output = \"a\"\nindent = 8\n")]⟩, ["p"], []⟩
    (∀ e ∈ setup.overrides, e.2.HasDistinctNames) ∧
      ∃ project w', w.run (Project.load setup) = (.ok project, w') ∧
        project.config.output = ⟨"c"⟩ ∧ project.config.indent = 4 ∧
        ∃ settings, project.config.settings = some settings ∧
          Table.at? ["db"] settings = some (.string "DB") := by
  intro setup w
  have hoverrides : ∀ e ∈ setup.overrides, e.2.HasDistinctNames := by
    simp [setup, Value.HasDistinctNames]
  have hok : (w.run (Project.load setup)).1.isOk := by
    dsimp only [setup, w]
    decide +kernel
  obtain ⟨project, w', hrun⟩ := Workspace.exists_run_eq_ok hok
  refine ⟨hoverrides, project, w', hrun, ?_⟩
  obtain ⟨directories, -, hfields, -, hsettings⟩ := load_precedence hoverrides hrun
  refine ⟨?_, ?_, hsettings [] [("output", .string "c")] "db" "DB" rfl ?_⟩
  · have houtput := hfields .output (by rintro ⟨_, hfield⟩; cases hfield)
    have hgiven : setup.given? w directories (Config.ScalarField.key .output) =
        some (.string "c") := rfl
    rw [hgiven] at houtput
    exact (Except.ok.inj houtput).symm
  · have hindent := hfields .indent (by rintro ⟨_, hfield⟩; cases hfield)
    have hpath : Text.pieces '.' "indent" = ["indent"] := by decide +kernel
    have hindentKey : Config.keyOfVariable? "P" "P__INDENT" = some ["indent"] := by decide +kernel
    have houtputKey : Config.keyOfVariable? "P" "P__OUTPUT" = some ["output"] := by decide +kernel
    have hvariable : setup.fromVariables? (Text.pieces '.' "indent") = some (.string "4") := by
      rw [hpath]
      simp [setup, ProjectSetup.fromVariables?, Config.lastOf?, hindentKey, houtputKey]
    have hgiven : setup.given? w directories (Config.ScalarField.key .indent) =
        some (.string "4") := by
      have hoverride : setup.fromOverrides? "indent" = none := rfl
      rw [ProjectSetup.given?, Config.ScalarField.key, hoverride, hvariable]
      rfl
    rw [hgiven] at hindent
    exact (Except.ok.inj hindent).symm
  · intro e he
    obtain rfl := List.mem_singleton.mp he
    rw [Config.extends_iff, Config.extends_iff]
    decide

end SiteSettings
