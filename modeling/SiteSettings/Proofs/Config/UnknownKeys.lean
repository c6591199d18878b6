import Mathlib.Data.List.Nodup
import SiteSettings.Proofs.Config.Fields
import SiteSettings.Proofs.Equality
import SiteSettings.Proofs.Project.Loading
import SiteSettings.Proofs.Toml.DistinctNames

/-!
# What a strict reading refuses

A project file that is read strictly is refused for two reasons.  A field with a value of a type
that it does not accept comes first (`Fits` says which types these are).  If there is none, every
key is reported that names no field: those of the table itself and those of its `dotenv` table, in
the order of the file.  Nothing else is looked at: neither what the settings hold, nor what stands
under a key that is reported already.

The order of a file is that of `Value.keyPaths`, which lists the keys of all its tables, a table's
before those in it.
-/

namespace SiteSettings

open Toml

/-! ## The keys of a document -/

namespace Toml

mutual

/-- The keys of all tables in a value, each by the names that lead to it, in order.  No names lead
to the tables in an array. -/
def Value.keyPaths : Value → List (List String)
  | .table entries => entryPaths entries
  | _ => []
termination_by structural value => value

/-- The keys of these entries and of all tables below them. -/
def entryPaths : List (String × Value) → List (List String)
  | [] => []
  | (name, value) :: rest => ([name] :: value.keyPaths.map (name :: ·)) ++ entryPaths rest
termination_by structural entries => entries

end

theorem entryPaths_eq_flatMap (entries : List (String × Value)) :
    entryPaths entries =
      entries.flatMap fun entry => [entry.1] :: entry.2.keyPaths.map (entry.1 :: ·) := by
  induction entries with
  | nil => rfl
  | cons entry rest ih => rw [entryPaths, ih, List.flatMap_cons]

theorem nil_notMem_entryPaths (entries : List (String × Value)) : [] ∉ entryPaths entries := by
  rw [entryPaths_eq_flatMap]
  intro h
  obtain ⟨entry, -, hpath⟩ := List.mem_flatMap.mp h
  simp at hpath

theorem nil_notMem_keyPaths (value : Value) : [] ∉ value.keyPaths := by
  cases value with
  | table entries => exact nil_notMem_entryPaths entries
  | _ => exact List.not_mem_nil

theorem singleton_mem_entryPaths_iff {name : String} {entries : List (String × Value)} :
    [name] ∈ entryPaths entries ↔ name ∈ Entries.names entries := by
  rw [entryPaths_eq_flatMap, Entries.names]
  simp [nil_notMem_keyPaths, eq_comm]

theorem cons_mem_entryPaths_iff {name inner : String} {rest : List String}
    {entries : List (String × Value)} :
    name :: inner :: rest ∈ entryPaths entries ↔
      ∃ value, (name, value) ∈ entries ∧ inner :: rest ∈ value.keyPaths := by
  rw [entryPaths_eq_flatMap]
  simp

theorem head?_of_mem_entryPaths {entries : List (String × Value)} {path : List String}
    (h : path ∈ entryPaths entries) : ∃ name ∈ Entries.names entries, path.head? = some name := by
  match path with
  | [] => exact absurd h (nil_notMem_entryPaths entries)
  | [name] => exact ⟨name, singleton_mem_entryPaths_iff.mp h, rfl⟩
  | name :: inner :: rest =>
    obtain ⟨value, hmem, -⟩ := cons_mem_entryPaths_iff.mp h
    exact ⟨name, List.mem_map_of_mem hmem, rfl⟩

/-- A choice that leaves out all keys below a name. -/
theorem filter_below_eq_nil {choose : List String → Bool} {name : String}
    (h : ∀ inner rest, choose (name :: inner :: rest) = false) (value : Value) :
    (value.keyPaths.map (name :: ·)).filter choose = [] := by
  rw [List.filter_eq_nil_iff]
  intro path hpath
  obtain ⟨below, hmem, rfl⟩ := List.mem_map.mp hpath
  match below with
  | [] => exact absurd hmem (nil_notMem_keyPaths value)
  | inner :: rest => simp [h]

/-- A choice among the keys of a table itself, which none below takes part in. -/
theorem filter_entryPaths (choose : List String → Bool)
    (hbelow : ∀ name inner rest, choose (name :: inner :: rest) = false)
    (entries : List (String × Value)) :
    (entryPaths entries).filter choose =
      ((Entries.names entries).filter fun name => choose [name]).map fun name => [name] := by
  induction entries with
  | nil => rfl
  | cons entry rest ih =>
    have hdrop := filter_below_eq_nil (hbelow entry.1) entry.2
    have hnames : Entries.names (entry :: rest) = entry.1 :: Entries.names rest := rfl
    rw [entryPaths, List.filter_append, List.filter_cons, hdrop, ih, hnames, List.filter_cons]
    split <;> rfl

mutual

/-- Where no table has a name twice, no key is listed twice. -/
theorem Value.nodup_keyPaths : ∀ {value : Value}, value.HasDistinctNames → value.keyPaths.Nodup
  | .table _, ⟨hnames, hentries⟩ => nodup_entryPaths hnames hentries
  | .string _, _ | .integer _, _ | .float _, _ | .boolean _, _ | .datetime _, _ | .array _, _ =>
    List.nodup_nil

theorem nodup_entryPaths : ∀ {entries : List (String × Value)}, (Entries.names entries).Nodup →
    entriesDistinct entries → (entryPaths entries).Nodup
  | [], _, _ => List.nodup_nil
  | (name, value) :: rest, hnames, ⟨hvalue, hrest⟩ => by
    obtain ⟨hfresh, hnames⟩ := List.nodup_cons.mp hnames
    have hbelow : (value.keyPaths.map (name :: ·)).Nodup :=
      (Value.nodup_keyPaths hvalue).map List.cons_injective
    have hself : [name] ∉ value.keyPaths.map (name :: ·) := by
      intro hmem
      obtain ⟨below, hbelow, heq⟩ := List.mem_map.mp hmem
      obtain rfl : below = [] := (List.cons.inj heq).2
      exact nil_notMem_keyPaths value hbelow
    refine List.nodup_append.mpr
      ⟨List.nodup_cons.mpr ⟨hself, hbelow⟩, nodup_entryPaths hnames hrest, ?_⟩
    rintro path hpath _ hother rfl
    obtain ⟨other, hmem, hhead⟩ := head?_of_mem_entryPaths hother
    have hname : path.head? = some name := by
      rcases List.mem_cons.mp hpath with rfl | hbelow
      · rfl
      · obtain ⟨below, -, rfl⟩ := List.mem_map.mp hbelow
        rfl
    obtain rfl : name = other := Option.some.inj (hname.symm.trans hhead)
    exact hfresh hmem

end

end Toml

namespace Config

variable {table : Table}

/-! ## Values that fit their fields -/

/-- Whether a value is text. -/
def IsText : Value → Prop
  | .string _ => True
  | _ => False

/-- Whether a value is a number of spaces, or the text of one. -/
def IsWidth : Value → Prop
  | .integer n => 0 ≤ n.toInt
  | .string text => (wholeNumber? text).isSome
  | _ => False

/-- Whether a value is a table.  The check of a file takes dates and times for tables, too. -/
def IsTableOrDate : Value → Prop
  | .table _ | .datetime _ => True
  | _ => False

/-- Whether the `dotenv` field accepts a value: a table whose known keys have text, or an array that
begins with the texts of both. -/
def FitsDotenv : Value → Prop
  | .table entries => ∀ entry ∈ entries, entry.1 ∈ dotenvKeys → IsText entry.2
  | .array (outFile :: template :: _) => IsText outFile ∧ IsText template
  | .datetime _ => True
  | _ => False

/-- Whether the field of a name accepts a value. -/
def Fits : String → Value → Prop
  | "indent", value => IsWidth value
  | "settings", value => IsTableOrDate value
  | "dotenv", value => FitsDotenv value
  | _, value => IsText value

/-- Whether every field that a table gives has a value of a type that it accepts. -/
def EveryFieldFits (table : Table) : Prop :=
  ∀ entry ∈ table, entry.1 ∈ topLevelKeys → Fits entry.1 entry.2

theorem replaceEntries_eq_map (dates : Dates) (entries : List (String × Value)) :
    replaceEntries dates entries = entries.map fun entry => (entry.1, dates.replace entry.2) := by
  induction entries with
  | nil => rfl
  | cons entry rest ih => rw [replaceEntries, ih, List.map_cons]

/-! ### What the readers accept -/

theorem isOk_readText_iff (wanted : String) (value : Value) :
    (readText wanted (Dates.asTables.replace value)).isOk ↔ IsText value := by
  cases value with
  | string text => exact iff_of_true rfl trivial
  | _ => exact iff_of_false Bool.false_ne_true id

theorem isOk_readPath_iff (value : Value) :
    (readPath (Dates.asTables.replace value)).isOk ↔ IsText value := by
  rw [readPath, isOk_map]
  exact isOk_readText_iff "path string" value

theorem isOk_readIndent_iff (value : Value) :
    (readIndent (Dates.asTables.replace value)).isOk ↔ IsWidth value := by
  cases value with
  | integer n =>
    by_cases hsign : 0 ≤ n.toInt
    · simp [Dates.replace, readIndent, IsWidth, hsign, Except.isOk, Except.toBool]
    · simp [Dates.replace, readIndent, IsWidth, hsign, Except.isOk, Except.toBool]
  | string text =>
    cases hnumber : wholeNumber? text <;>
      simp [Dates.replace, readIndent, IsWidth, hnumber, Except.isOk, Except.toBool]
  | _ => exact iff_of_false Bool.false_ne_true id

theorem isOk_readTable_iff (value : Value) :
    (readTable (Dates.asTables.replace value)).isOk ↔ IsTableOrDate value := by
  cases value with
  | table _ | datetime _ => exact iff_of_true rfl trivial
  | _ => exact iff_of_false Bool.false_ne_true id

theorem isOk_readDotenvEntry_iff (config : DotEnvConfig) (name : String) (value : Value) :
    (readDotenvEntry config (name, Dates.asTables.replace value)).isOk ↔
      (name ∈ dotenvKeys → IsText value) := by
  simp only [readDotenvEntry]
  split
  case h_1 | h_2 =>
    rw [forall_prop_of_true (by decide), isOk_bind_pure, atKey, isOk_mapError]
    exact isOk_readPath_iff value
  case h_3 houtFile htemplate =>
    exact iff_of_true rfl fun h => absurd h (by simpa [dotenvKeys] using ⟨houtFile, htemplate⟩)

theorem isOk_readDotenvItems_iff (items : List Value) :
    (readDotenvItems .asTables (replaceItems .asTables items)).isOk ↔
      FitsDotenv (.array items) := by
  match items with
  | [] => exact iff_of_false Bool.false_ne_true id
  | [first] =>
    refine iff_of_false (fun h => ?_) id
    cases hfirst : readPath (Dates.asTables.replace first) <;>
      simp [readDotenvItems, replaceItems, hfirst, bind, Except.bind, Except.isOk,
        Except.toBool] at h
  | first :: second :: more =>
    rw [FitsDotenv, ← isOk_readPath_iff first, ← isOk_readPath_iff second]
    cases hfirst : readPath (Dates.asTables.replace first) <;>
      cases hsecond : readPath (Dates.asTables.replace second) <;>
      simp [readDotenvItems, replaceItems, hfirst, hsecond, bind, Except.bind, Except.isOk,
        Except.toBool]

theorem isOk_readDotenv_iff (config : DotEnvConfig) (value : Value) :
    (readDotenv .asTables config (Dates.asTables.replace value)).isOk ↔ FitsDotenv value := by
  cases value with
  | table entries =>
    rw [Dates.replace, replaceEntries_eq_map, readDotenv, List.foldlM_map]
    exact isOk_foldlM_iff (fun s entry _ => isOk_readDotenvEntry_iff s entry.1 entry.2) config
  | array items =>
    rw [Dates.replace, readDotenv, atKey, isOk_mapError]
    exact isOk_readDotenvItems_iff items
  | datetime d => exact iff_of_true rfl trivial
  | _ => exact iff_of_false Bool.false_ne_true id

theorem isOk_readEntry_iff (config : ProjectConfig) (name : String) (value : Value) :
    (readEntry .asTables config (name, Dates.asTables.replace value)).isOk ↔
      (name ∈ topLevelKeys → Fits name value) := by
  simp only [readEntry]
  split
  case h_9 =>
    refine iff_of_true rfl fun h => absurd h ?_
    simp only [topLevelKeys, List.mem_cons, List.not_mem_nil, or_false, not_or]
    exact ⟨‹_›, ‹_›, ‹_›, ‹_›, ‹_›, ‹_›, ‹_›, ‹_›⟩
  all_goals rw [forall_prop_of_true (by decide), isOk_bind_pure]
  case h_8 => exact isOk_readDotenv_iff _ value
  all_goals rw [atKey, isOk_mapError]
  case h_3 | h_6 => exact isOk_readText_iff "a string" value
  case h_4 => exact isOk_readIndent_iff value
  case h_7 => exact isOk_readTable_iff value
  all_goals exact isOk_readPath_iff value

/-- Reading the fields of a file succeeds exactly if every field fits. -/
theorem isOk_readConfig_iff (table : Table) :
    (readConfig .asTables table).isOk ↔ EveryFieldFits table := by
  rw [readConfig, replaceEntries_eq_map, List.foldlM_map]
  exact isOk_foldlM_iff (fun s entry _ => isOk_readEntry_iff s entry.1 entry.2) {}

/-! ## Keys without a field -/

/-- Whether a key, by the names that lead to it, names no field: neither one of the whole nor one of
`dotenv`. Keys that stand elsewhere have nothing to name. -/
def isUnknown : List String → Bool
  | [name] => name ∉ topLevelKeys
  | ["dotenv", name] => name ∉ dotenvKeys
  | _ => false

/-- The keys of a table that name no field, in order. -/
def unknownPaths (table : Table) : List (List String) :=
  (entryPaths table).filter isUnknown

/-- Whether all keys of a table and of its `dotenv` table name fields. -/
def EveryKeyKnown (table : Table) : Prop :=
  (∀ name ∈ Entries.names table, name ∈ topLevelKeys) ∧
    ∀ entries, ("dotenv", .table entries) ∈ table →
      ∀ name ∈ Entries.names entries, name ∈ dotenvKeys

/-- A key as it is reported. -/
def dotted (path : List String) : String :=
  String.intercalate "." path

theorem dotted_dotenv (name : String) : dotted ["dotenv", name] = "dotenv." ++ name := by
  have hdot : "dotenv" ++ "." = "dotenv." := by decide
  rw [← hdot]
  rfl

/-- A table has an unknown key exactly if one is listed. -/
theorem unknownPaths_eq_nil_iff (table : Table) :
    unknownPaths table = [] ↔ EveryKeyKnown table := by
  rw [unknownPaths, List.filter_eq_nil_iff]
  constructor
  · intro h
    refine ⟨?_, ?_⟩
    · intro name hname
      simpa [isUnknown] using h [name] (singleton_mem_entryPaths_iff.mpr hname)
    · intro entries hentries name hname
      have hmem : ["dotenv", name] ∈ entryPaths table :=
        cons_mem_entryPaths_iff.mpr ⟨_, hentries, singleton_mem_entryPaths_iff.mpr hname⟩
      simpa [isUnknown] using h _ hmem
  · rintro ⟨htop, hdotenv⟩ path hpath
    simp only [isUnknown]
    split
    case h_1 name =>
      simpa using htop name (singleton_mem_entryPaths_iff.mp hpath)
    case h_2 name =>
      obtain ⟨value, hvalue, hname⟩ := cons_mem_entryPaths_iff.mp hpath
      cases value with
      | table entries =>
        simpa using hdotenv entries hvalue name (singleton_mem_entryPaths_iff.mp hname)
      | _ => cases hname
    case h_3 => simp

/-- What one entry of a table adds to the list. -/
theorem unknownPaths_cons (name : String) (value : Value) (rest : Table) :
    unknownPaths ((name, value) :: rest) =
      ([name] :: value.keyPaths.map (name :: ·)).filter isUnknown ++ unknownPaths rest := by
  rw [unknownPaths, entryPaths, List.filter_append]
  rfl

theorem filter_dotenv (entries : List (String × Value)) :
    ((["dotenv"] :: (entryPaths entries).map ("dotenv" :: ·)).filter isUnknown).map dotted =
      ((Entries.names entries).filter (· ∉ dotenvKeys)).map ("dotenv." ++ ·) := by
  have hself : isUnknown ["dotenv"] = false := by decide
  have hbelow :=
    filter_entryPaths (fun path => isUnknown ("dotenv" :: path)) (fun _ _ _ => rfl) entries
  rw [List.filter_cons_of_neg (by rw [hself]; decide), List.filter_map]
  have hcomp : isUnknown ∘ ("dotenv" :: ·) = fun path => isUnknown ("dotenv" :: path) := rfl
  rw [hcomp, hbelow, List.map_map, List.map_map]
  refine List.map_congr_left fun name _ => ?_
  exact dotted_dotenv name

theorem filter_other {name : String} (hname : name ≠ "dotenv") (value : Value) :
    ([name] :: value.keyPaths.map (name :: ·)).filter isUnknown =
      if name ∈ topLevelKeys then [] else [[name]] := by
  have hbelow (inner : String) (rest : List String) :
      isUnknown (name :: inner :: rest) = false := by
    cases rest with
    | nil => simp [isUnknown, hname]
    | cons next more => simp [isUnknown]
  rw [List.filter_cons, filter_below_eq_nil hbelow value]
  by_cases hknown : name ∈ topLevelKeys
  · simp [isUnknown, hknown]
  · simp [isUnknown, hknown]

/-- The keys that are reported are the unknown ones in order, unless `dotenv` is a date: that has
the reserved key in addition. -/
theorem unknownKeys_eq {table : Table} (hdate : ∀ d, ("dotenv", .datetime d) ∉ table) :
    unknownKeys .asTables table = (unknownPaths table).map dotted := by
  induction table with
  | nil => rfl
  | cons entry rest ih =>
    obtain ⟨name, value⟩ := entry
    have hrest := ih fun d hmem => hdate d (List.mem_cons_of_mem _ hmem)
    rw [unknownPaths_cons, List.map_append, ← hrest, unknownKeys, replaceEntries, List.flatMap_cons]
    refine congrArg (· ++ _) ?_
    dsimp only
    by_cases hname : name = "dotenv"
    · subst hname
      rw [if_pos rfl]
      cases value with
      | table entries =>
        have hnames := names_replaceEntries .asTables entries
        rw [Value.keyPaths, filter_dotenv, ← hnames, Entries.names, List.filter_map, List.map_map]
        rfl
      | datetime d => exact absurd List.mem_cons_self (hdate d)
      | _ => rfl
    · rw [filter_other hname, if_neg hname]
      by_cases hknown : name ∈ topLevelKeys
      · rw [if_pos hknown, if_pos hknown]
        rfl
      · rw [if_neg hknown, if_neg hknown]
        rfl

/-- A `dotenv` that is a date always has a key reported. -/
theorem unknownKeys_ne_nil_of_date {table : Table} {d : Datetime}
    (h : ("dotenv", .datetime d) ∈ table) :
    unknownKeys .asTables table ≠ [] := by
  intro hnil
  rw [unknownKeys, replaceEntries_eq_map, List.flatMap_map, List.flatMap_eq_nil_iff] at hnil
  have hreported := hnil _ h
  have hkey : dateKey ∉ dotenvKeys := by decide
  simp [Dates.replace, hkey] at hreported

/-! ## The check of a file -/

variable {path : Path} {content : String}

/-- What the check reports for an unknown key. -/
def report (path : Path) (content : String) (key : List String) : UnknownKey :=
  ⟨dotted key, path, keyLine content (dotted key)⟩

/-- A value of a wrong type is reported first. -/
theorem checkFile_of_not_fits (path : Path) (hcontent : Toml.parse content = some table)
    (h : ¬ EveryFieldFits table) :
    ∃ reason, checkFile path content = .error (.wrongType path reason) := by
  rw [← isOk_readConfig_iff] at h
  rw [checkFile, hcontent]
  cases hread : readConfig .asTables table with
  | ok config => exact absurd (by rw [hread]; rfl) h
  | error mistake => exact ⟨mistake.reason, by simp only [hread]⟩

/-- If every value fits, the unknown keys decide. -/
theorem checkFile_of_fits (hcontent : Toml.parse content = some table) (h : EveryFieldFits table) :
    checkFile path content =
      if unknownKeys .asTables table = [] then .ok ()
      else .error (.unknownKeys ((unknownKeys .asTables table).map fun key =>
        ⟨key, path, keyLine content key⟩)) := by
  rw [← isOk_readConfig_iff] at h
  rw [checkFile, hcontent]
  cases hread : readConfig .asTables table with
  | error mistake => rw [hread] at h; cases h
  | ok config =>
    simp only [hread]
    cases unknownKeys .asTables table with
    | nil => rfl
    | cons key rest => exact (if_neg (List.cons_ne_nil key rest)).symm

theorem checkFile_of_known (hcontent : Toml.parse content = some table)
    (hfits : EveryFieldFits table) (hdate : ∀ d, ("dotenv", .datetime d) ∉ table)
    (hknown : EveryKeyKnown table) :
    checkFile path content = .ok () := by
  have hnil : unknownKeys .asTables table = [] := by
    rw [unknownKeys_eq hdate, (unknownPaths_eq_nil_iff table).mpr hknown, List.map_nil]
  rw [checkFile_of_fits hcontent hfits, if_pos hnil]

theorem checkFile_of_unknown (path : Path) (hcontent : Toml.parse content = some table)
    (hfits : EveryFieldFits table) (hdate : ∀ d, ("dotenv", .datetime d) ∉ table)
    (hunknown : ¬ EveryKeyKnown table) :
    checkFile path content =
      .error (.unknownKeys ((unknownPaths table).map (report path content))) := by
  have hkeys := unknownKeys_eq hdate
  have hsome : unknownKeys .asTables table ≠ [] := by
    intro hnil
    rw [hkeys, List.map_eq_nil_iff, unknownPaths_eq_nil_iff] at hnil
    exact hunknown hnil
  rw [checkFile_of_fits hcontent hfits, if_neg hsome, hkeys, List.map_map]
  rfl

/-- What a file holds that passes the check. -/
theorem known_of_checkFile (h : checkFile path content = .ok ()) :
    ∃ table, Toml.parse content = some table ∧ EveryFieldFits table ∧ EveryKeyKnown table := by
  cases hcontent : Toml.parse content with
  | none => rw [checkFile, hcontent] at h; cases h
  | some table =>
    have hfits : EveryFieldFits table := by
      by_contra hnot
      obtain ⟨reason, hreason⟩ := checkFile_of_not_fits path hcontent hnot
      rw [hreason] at h
      cases h
    have hnil : unknownKeys .asTables table = [] := by
      by_contra hsome
      rw [checkFile_of_fits hcontent hfits, if_neg hsome] at h
      cases h
    have hdate : ∀ d, ("dotenv", .datetime d) ∉ table :=
      fun d hmem => unknownKeys_ne_nil_of_date hmem hnil
    rw [unknownKeys_eq hdate, List.map_eq_nil_iff, unknownPaths_eq_nil_iff] at hnil
    exact ⟨table, rfl, hfits, hnil⟩

/-! ## Strict loading -/

/-- Whether a key, by the names that lead to it, is taken over: as a field, or as part of
the settings. -/
def IsTaken : List String → Prop
  | [name] => name ∈ topLevelKeys
  | "settings" :: _ => True
  | ["dotenv", name] => name ∈ dotenvKeys
  | _ => False

/-- A key that is taken over sets what the reader has for its name: a field of one value, the
settings or `dotenv`. -/
theorem field_of_isTaken {dates : Dates} {config config' : ProjectConfig} {name : String}
    {value : Value} (h : readEntry dates config (name, value) = .ok config')
    (htaken : IsTaken [name]) :
    (∃ field : ScalarField, field.path = [name] ∧ field.read value = .ok (field.get config')) ∨
      (∃ table, name = "settings" ∧ readTable value = .ok table ∧ config'.settings = some table) ∨
      (name = "dotenv" ∧ readDotenv dates config.dotenv value = .ok config'.dotenv) := by
  have htakes := takes_of_readEntry h
  have hname : name ∈ topLevelKeys := htaken
  simp only [topLevelKeys, List.mem_cons, List.not_mem_nil, or_false] at hname
  have hfield (field : ScalarField) (hpath : field.path = [name]) :
      ∃ field : ScalarField, field.path = [name] ∧ field.read value = .ok (field.get config') :=
    ⟨field, hpath, htakes.read_of_path hpath⟩
  rcases hname with rfl | rfl | rfl | rfl | rfl | rfl | rfl | rfl
  · exact .inl (hfield .output rfl)
  · exact .inl (hfield .template rfl)
  · exact .inl (hfield .includeFile rfl)
  · exact .inl (hfield .indent rfl)
  · exact .inl (hfield .settingsFile rfl)
  · exact .inl (hfield .settingsPointer rfl)
  · obtain ⟨table, htable, hsettings⟩ := htakes.settings_of_eq rfl
    exact .inr (.inl ⟨table, rfl, htable, hsettings⟩)
  · exact .inr (.inr ⟨rfl, htakes.dotenv_of_eq rfl⟩)

/-- So does a key of the `dotenv` table. -/
theorem dotenvField_of_isTaken {config config' : DotEnvConfig} {name : String} {value : Value}
    (h : readDotenvEntry config (name, value) = .ok config') (htaken : IsTaken ["dotenv", name]) :
    ∃ field : DotenvField, field.key = name ∧ field.read value = .ok (field.get config') := by
  have hname : name ∈ dotenvKeys := htaken
  rcases dotenvEntry_cases h with ⟨rfl, path, hpath, rfl⟩ | ⟨rfl, path, hpath, rfl⟩ | ⟨hnot, -⟩
  · exact ⟨.outFile, rfl, hpath⟩
  · exact ⟨.template, rfl, by rw [DotenvField.read, hpath]; rfl⟩
  · exact absurd hname hnot

/-- A key that is not taken over changes nothing. -/
theorem eq_of_not_isTaken {dates : Dates} {config config' : ProjectConfig} {name : String}
    {value : Value} (h : readEntry dates config (name, value) = .ok config')
    (hnot : ¬ IsTaken [name]) : config' = config := by
  cases takes_of_readEntry h with
  | none _ => rfl
  | _ hname _ => exact absurd (hname ▸ (by decide : _ ∈ topLevelKeys)) hnot

theorem eq_or_eq_of_fits_table {name : String} {entries : List (String × Value)}
    (h : Fits name (.table entries)) : name = "settings" ∨ name = "dotenv" := by
  unfold Fits at h
  split at h
  · cases h
  · exact .inl rfl
  · exact .inr rfl
  · cases h

/-- Nothing below `dotenv` is left out if its keys are known and its values fit. -/
theorem isTaken_dotenv {entries : List (String × Value)} (hfits : FitsDotenv (.table entries))
    (hknown : ∀ name ∈ Entries.names entries, name ∈ dotenvKeys) {inner : String}
    {rest : List String} (hkey : inner :: rest ∈ entryPaths entries) :
    IsTaken ("dotenv" :: inner :: rest) := by
  match rest with
  | [] => exact hknown inner (singleton_mem_entryPaths_iff.mp hkey)
  | _ :: _ =>
    obtain ⟨value, hvalue, hbelow⟩ := cons_mem_entryPaths_iff.mp hkey
    have htext : IsText value := hfits _ hvalue (hknown inner (List.mem_map_of_mem hvalue))
    cases value with
    | string text => cases hbelow
    | _ => cases htext

/-- A file without unknown keys and values of wrong types has no key that is left out. -/
theorem isTaken_of_mem_entryPaths (hfits : EveryFieldFits table) (hknown : EveryKeyKnown table)
    {key : List String} (hkey : key ∈ entryPaths table) : IsTaken key := by
  obtain ⟨htop, hdotenv⟩ := hknown
  match key with
  | [] => exact absurd hkey (nil_notMem_entryPaths table)
  | [name] => exact htop name (singleton_mem_entryPaths_iff.mp hkey)
  | name :: inner :: rest =>
    obtain ⟨value, hvalue, hbelow⟩ := cons_mem_entryPaths_iff.mp hkey
    cases value with
    | table entries =>
      have hfitsEntry := hfits _ hvalue (htop name (List.mem_map_of_mem hvalue))
      obtain rfl | rfl := eq_or_eq_of_fits_table hfitsEntry
      · trivial
      · exact isTaken_dotenv hfitsEntry (hdotenv entries hvalue) hbelow
    | _ => cases hbelow

/-- A strict resolution succeeds only if all files pass the check. -/
theorem checkFile_of_resolve {sources : Sources} (hstrict : sources.strict) {config : ProjectConfig}
    (h : resolve sources = .ok config) {file : Path × String} (hfile : file ∈ sources.files) :
    checkFile file.1 file.2 = .ok () := by
  obtain ⟨table, htable, -⟩ := bind_eq_ok.mp h
  obtain ⟨tables, htables, -⟩ := bind_eq_ok.mp htable
  obtain ⟨read, hread⟩ := exists_ok_of_mapM htables hfile
  have hread : fileTable true file.1 file.2 = .ok read := hstrict ▸ hread
  rw [fileTable, if_pos rfl] at hread
  obtain ⟨_, hcheck, -⟩ := bind_eq_ok.mp hread
  exact hcheck

end Config

open Config

/-- **Strict reading is exact.**  A file is taken for its table.  If every field in it has a value
that it accepts, and `dotenv` is a table if it is there, the file passes exactly if all its keys
name fields, those of `dotenv` included.  Otherwise the error lists the ones that do not, in the
order of the file, each once, by their dotted names.  If a value does not fit its field, that is the
error, whatever the keys.

So when a project is loaded strictly, each of its files has a table of which every key
is taken over. -/
theorem strict_reading_exact :
    (∀ (path : Path) (content : String) (table : Table), Toml.parse content = some table →
      (EveryFieldFits table → (∀ value, ("dotenv", value) ∈ table → value.isTable) →
        (checkFile path content = .ok () ↔ EveryKeyKnown table) ∧
        (¬ EveryKeyKnown table → checkFile path content =
          .error (.unknownKeys ((unknownPaths table).map (report path content)))) ∧
        (unknownPaths table).Nodup) ∧
      (¬ EveryFieldFits table →
        ∃ reason, checkFile path content = .error (.wrongType path reason))) ∧
    ∀ (setup : ProjectSetup) (w w' : Workspace) (project : Project), setup.strict →
      w.run (Project.load setup) = (.ok project, w') →
      ∃ directories, setup.Searches w directories ∧
        ∀ file ∈ w.readable (setup.filePaths w directories),
          ∃ table, Toml.parse file.2 = some table ∧ ∀ key ∈ entryPaths table, IsTaken key := by
  refine ⟨?_, ?_⟩
  · intro path content table hcontent
    refine ⟨?_, checkFile_of_not_fits path hcontent⟩
    intro hfits hdotenv
    have hdate : ∀ d, ("dotenv", .datetime d) ∉ table := fun d hmem => by cases hdotenv _ hmem
    have hunknown := checkFile_of_unknown path hcontent hfits hdate
    refine ⟨⟨?_, checkFile_of_known hcontent hfits hdate⟩, hunknown, ?_⟩
    · intro hok
      by_contra hnot
      rw [hunknown hnot] at hok
      cases hok
    · obtain ⟨hnames, hentries⟩ := hasDistinctNames_of_parse hcontent
      exact (nodup_entryPaths hnames hentries).filter _
  · intro setup w w' project hstrict hload
    obtain ⟨-, -, -, directories, hsearches, hresolve⟩ := Project.load_eq_ok hload
    refine ⟨directories, hsearches, ?_⟩
    intro file hfile
    have hcheck : checkFile file.1 file.2 = .ok () := checkFile_of_resolve hstrict hresolve hfile
    obtain ⟨table, hcontent, hfits, hknown⟩ := known_of_checkFile hcheck
    exact ⟨table, hcontent, fun key => isTaken_of_mem_entryPaths hfits hknown⟩

/-- Of two unknown keys, one is the file's own and one in `dotenv`; and a file without
any is loaded. -/
theorem strict_reading_exact_two_unknown :
    (let content := "x=1\n[dotenv]\ny=1"
     let table : Table := [("x", .integer 1), ("dotenv", .table [("y", .integer 1)])]
     Toml.parse content = some table ∧ EveryFieldFits table ∧ ¬ EveryKeyKnown table ∧
      checkFile ⟨"f"⟩ content =
        .error (.unknownKeys [⟨"x", ⟨"f"⟩, 1⟩, ⟨"dotenv.y", ⟨"f"⟩, 3⟩])) ∧
    (let setup : ProjectSetup := { searchPaths := [.root] }
     let w : Workspace :=
      ⟨⟨[(["p"], .directory), (["p", "env-settings.toml"], .text "indent = 4\n")]⟩, ["p"], []⟩
     ∃ project w', w.run (Project.load setup) = (.ok project, w') ∧
      ∃ directories, setup.Searches w directories ∧
        ∀ file ∈ w.readable (setup.filePaths w directories),
          ∃ table, Toml.parse file.2 = some table ∧ ∀ key ∈ entryPaths table, IsTaken key) := by
  refine ⟨?_, ?_⟩
  · intro content table
    have hcontent : Toml.parse content = some table := by
      dsimp only [content, table]
      decide +kernel
    have hfits : EveryFieldFits table := by
      simp [EveryFieldFits, table, topLevelKeys, Fits, FitsDotenv, dotenvKeys]
    have hdotenv : ∀ value, ("dotenv", value) ∈ table → value.isTable := by
      simp [table, Value.isTable]
    have hunknown : ¬ EveryKeyKnown table := by
      intro hknown
      exact absurd (hknown.1 "x" (by decide)) (by decide)
    obtain ⟨⟨-, hreport, -⟩, -⟩ :=
      (strict_reading_exact.1 ⟨"f"⟩ content table hcontent).imp_left fun h => h hfits hdotenv
    have hlist : (unknownPaths table).map (report ⟨"f"⟩ content) =
        [⟨"x", ⟨"f"⟩, 1⟩, ⟨"dotenv.y", ⟨"f"⟩, 3⟩] := by
      decide +kernel
    exact ⟨hcontent, hfits, hunknown, hlist ▸ hreport hunknown⟩
  · intro setup w
    have hok : (w.run (Project.load setup)).1.isOk := by
      dsimp only [setup, w]
      decide +kernel
    obtain ⟨project, w', hrun⟩ := Workspace.exists_run_eq_ok hok
    exact ⟨project, w', hrun, strict_reading_exact.2 setup w w' project rfl hrun⟩

end SiteSettings
