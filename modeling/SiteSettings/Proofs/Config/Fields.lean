import SiteSettings.Config.Fields
import SiteSettings.Proofs.IntegerKeys
import SiteSettings.Proofs.Results
import SiteSettings.Proofs.Text.Trimming
import SiteSettings.Proofs.Toml.Paths

/-!
# Fields and their values

A configuration is read entry by entry, and every entry sets one field (`Takes`), so each field of a
configuration that could be read has a value of its own: it was read from what stands at its key, or
it is the default.

`ScalarField` lists the fields that hold one value, by the types of what they hold.  The two of
`dotenv` have a table of their own on their way; if it is a table, the same holds for them
(`read_of_readConfig`).
-/

namespace SiteSettings
namespace Config

open Toml

/-! ## Fields of one value -/

/-- The fields of `dotenv`. -/
inductive DotenvField
  | outFile
  | template

/-- The fields of a configuration that hold one value. -/
inductive ScalarField
  | output
  | template
  | includeFile
  | indent
  | settingsFile
  | settingsPointer
  | dotenv (field : DotenvField)

namespace DotenvField

def key : DotenvField → String
  | .outFile => "out_file"
  | .template => "template"

/-- The type of what the field holds. -/
abbrev Content : DotenvField → Type
  | .outFile => Path
  | .template => Option Path

/-- What a configuration holds in the field. -/
def get : (field : DotenvField) → DotEnvConfig → field.Content
  | .outFile, config => config.outFile
  | .template, config => config.template

/-- How a value of the field is read. -/
def read : (field : DotenvField) → Value → Except String field.Content
  | .outFile, value => readPath value
  | .template, value => (readPath value).map some

end DotenvField

namespace ScalarField

/-- The dotted key. -/
def key : ScalarField → String
  | .output => "output"
  | .template => "template"
  | .includeFile => "include_file"
  | .indent => "indent"
  | .settingsFile => "settings_file"
  | .settingsPointer => "settings_pointer"
  | .dotenv field => "dotenv." ++ field.key

/-- The names that lead to the field. -/
def path (field : ScalarField) : List String :=
  Text.pieces '.' field.key

/-- The type of what the field holds. -/
abbrev Content : ScalarField → Type
  | .output => Path
  | .template => Option Path
  | .includeFile => String
  | .indent => UInt64
  | .settingsFile => Option Path
  | .settingsPointer => String
  | .dotenv field => field.Content

/-- What a configuration holds in the field. -/
def get : (field : ScalarField) → ProjectConfig → field.Content
  | .output, config => config.output
  | .template, config => config.template
  | .includeFile, config => config.includeFile
  | .indent, config => config.indent
  | .settingsFile, config => config.settingsFile
  | .settingsPointer, config => config.settingsPointer
  | .dotenv field, config => field.get config.dotenv

/-- How a value of the field is read. -/
def read : (field : ScalarField) → Value → Except String field.Content
  | .output, value => readPath value
  | .template, value => (readPath value).map some
  | .includeFile, value => readText "a string" value
  | .indent, value => readIndent value
  | .settingsFile, value => (readPath value).map some
  | .settingsPointer, value => readText "a string" value
  | .dotenv field, value => field.read value

theorem path_dotenv (field : DotenvField) : (dotenv field).path = ["dotenv", field.key] := by
  cases field with
  | outFile => rfl
  | template => rfl

theorem path_eq_or (field : ScalarField) :
    field.path = [field.key] ∨ ∃ inner, field = .dotenv inner := by
  cases field with
  | dotenv inner => exact .inr ⟨inner, rfl⟩
  | _ => exact .inl rfl

/-- No field is a table. -/
theorem isTable_of_read {field : ScalarField} {value : Value} {content : field.Content}
    (h : field.read value = .ok content) : value.isTable = false := by
  cases value with
  | table entries =>
    cases field with
    | dotenv inner => cases inner <;> cases h
    | _ => cases h
  | _ => rfl

end ScalarField

/-! ## Dates and times replaced -/

theorem find?_replaceEntries (dates : Dates) (name : String) (entries : List (String × Value)) :
    Entries.find? name (replaceEntries dates entries) =
      (Entries.find? name entries).map dates.replace := by
  induction entries with
  | nil => rfl
  | cons entry rest ih =>
    obtain ⟨n, value⟩ := entry
    rw [replaceEntries, Entries.find?, Entries.find?, ih]
    split <;> rfl

theorem names_replaceEntries (dates : Dates) (entries : List (String × Value)) :
    Entries.names (replaceEntries dates entries) = Entries.names entries := by
  induction entries with
  | nil => rfl
  | cons entry rest ih =>
    obtain ⟨n, value⟩ := entry
    exact congrArg (n :: ·) ih

/-- Dates and times taken for text stand where they stood, and so does everything else. -/
theorem at?_replace (value : Value) (path : List String) :
    (Dates.asText.replace value).at? path = (value.at? path).map Dates.asText.replace := by
  induction path generalizing value with
  | nil => simp
  | cons name path ih =>
    cases value with
    | table entries =>
      have hreplace : Dates.asText.replace (.table entries) =
          .table (replaceEntries .asText entries) := rfl
      rw [hreplace, Value.at?_table_cons, Value.at?_table_cons, find?_replaceEntries]
      cases Entries.find? name entries with
      | none => rfl
      | some inner => exact ih inner
    | _ => rfl

/-! ## Entry by entry -/

/-- What a run over entries of distinct names makes of a part that only one of them changes. -/
theorem part_of_foldlM {σ α : Type} {step : σ → String × Value → Except Mistake σ} (part : σ → α)
    (name : String) (changes : Value → α → α → Prop)
    (hother : ∀ {s s' other value}, step s (other, value) = .ok s' → other ≠ name →
      part s' = part s)
    (hself : ∀ {s s' value}, step s (name, value) = .ok s' → changes value (part s) (part s'))
    {entries : List (String × Value)} (hnodup : (Entries.names entries).Nodup) {s s' : σ}
    (h : entries.foldlM step s = .ok s') :
    match Entries.find? name entries with
    | none => part s' = part s
    | some value => changes value (part s) (part s') := by
  induction entries generalizing s with
  | nil =>
    obtain rfl : s = s' := Except.ok.inj h
    rfl
  | cons entry rest ih =>
    obtain ⟨n, value⟩ := entry
    obtain ⟨hfresh, hnodup⟩ := List.nodup_cons.mp hnodup
    rw [List.foldlM_cons] at h
    obtain ⟨between, hstep, hrest⟩ := bind_eq_ok.mp h
    have hlater := ih hnodup hrest
    by_cases hn : n = name
    · subst hn
      rw [Entries.find?_eq_none_iff.mpr hfresh] at hlater
      rw [Entries.find?, if_pos rfl]
      exact hlater ▸ hself hstep
    · rw [Entries.find?, if_neg hn, ← hother hstep hn]
      exact hlater

/-- What an entry of `dotenv` does. -/
theorem dotenvEntry_cases {config config' : DotEnvConfig} {name : String} {value : Value}
    (h : readDotenvEntry config (name, value) = .ok config') :
    (name = "out_file" ∧ ∃ path, readPath value = .ok path ∧
      config' = { config with outFile := path }) ∨
    (name = "template" ∧ ∃ path, readPath value = .ok path ∧
      config' = { config with template := some path }) ∨
    (name ∉ dotenvKeys ∧ config' = config) := by
  simp only [readDotenvEntry] at h
  split at h
  · obtain ⟨path, hpath, h⟩ := bind_eq_ok.mp h
    exact .inl ⟨rfl, path, mapError_eq_ok.mp hpath, (Except.ok.inj h).symm⟩
  · obtain ⟨path, hpath, h⟩ := bind_eq_ok.mp h
    exact .inr (.inl ⟨rfl, path, mapError_eq_ok.mp hpath, (Except.ok.inj h).symm⟩)
  · rename_i houtFile htemplate
    exact .inr (.inr ⟨by simpa [dotenvKeys] using ⟨houtFile, htemplate⟩, (Except.ok.inj h).symm⟩)

/-- What an entry of the whole table does: it sets the field of its name, and an entry of another
name does nothing. -/
inductive Takes (dates : Dates) (config : ProjectConfig) (name : String) (value : Value) :
    ProjectConfig → Prop
  | output {path : Path} (hname : name = "output") (h : readPath value = .ok path) :
    Takes dates config name value { config with output := path }
  | template {path : Path} (hname : name = "template") (h : readPath value = .ok path) :
    Takes dates config name value { config with template := some path }
  | includeFile {text : String} (hname : name = "include_file")
    (h : readText "a string" value = .ok text) :
    Takes dates config name value { config with includeFile := text }
  | indent {n : UInt64} (hname : name = "indent") (h : readIndent value = .ok n) :
    Takes dates config name value { config with indent := n }
  | settingsFile {path : Path} (hname : name = "settings_file") (h : readPath value = .ok path) :
    Takes dates config name value { config with settingsFile := some path }
  | settingsPointer {text : String} (hname : name = "settings_pointer")
    (h : readText "a string" value = .ok text) :
    Takes dates config name value { config with settingsPointer := text }
  | settings {table : Table} (hname : name = "settings") (h : readTable value = .ok table) :
    Takes dates config name value { config with settings := some table }
  | dotenv {inner : DotEnvConfig} (hname : name = "dotenv")
    (h : readDotenv dates config.dotenv value = .ok inner) :
    Takes dates config name value { config with dotenv := inner }
  | none (hname : name ∉ topLevelKeys) : Takes dates config name value config

theorem takes_of_readEntry {dates : Dates} {config config' : ProjectConfig} {name : String}
    {value : Value} (h : readEntry dates config (name, value) = .ok config') :
    Takes dates config name value config' := by
  simp only [readEntry] at h
  split at h
  case h_9 =>
    obtain rfl : config = config' := Except.ok.inj h
    refine .none ?_
    simp only [topLevelKeys, List.mem_cons, List.not_mem_nil, or_false, not_or]
    exact ⟨‹_›, ‹_›, ‹_›, ‹_›, ‹_›, ‹_›, ‹_›, ‹_›⟩
  all_goals
    obtain ⟨answer, hanswer, h⟩ := bind_eq_ok.mp h
    obtain rfl := Except.ok.inj h
  · exact .output rfl (mapError_eq_ok.mp hanswer)
  · exact .template rfl (mapError_eq_ok.mp hanswer)
  · exact .includeFile rfl (mapError_eq_ok.mp hanswer)
  · exact .indent rfl (mapError_eq_ok.mp hanswer)
  · exact .settingsFile rfl (mapError_eq_ok.mp hanswer)
  · exact .settingsPointer rfl (mapError_eq_ok.mp hanswer)
  · exact .settings rfl (mapError_eq_ok.mp hanswer)
  · exact .dotenv rfl hanswer

variable {dates : Dates} {config config' : ProjectConfig} {name : String} {value : Value}

/-- An entry leaves alone the fields that have their names elsewhere. -/
theorem Takes.get_of_ne (h : Takes dates config name value config') {field : ScalarField}
    (hne : field.path.head? ≠ some name) : field.get config' = field.get config := by
  cases h with
  | none hname => rfl
  | _ hname h =>
    cases field with
    | dotenv inner => first | rfl | exact absurd (by rw [ScalarField.path_dotenv, hname]; rfl) hne
    | _ => first | rfl | exact absurd (hname ▸ rfl) hne

/-- An entry of the name of a field of one value sets that field. -/
theorem Takes.read_of_path (h : Takes dates config name value config') {field : ScalarField}
    (hpath : field.path = [name]) : field.read value = .ok (field.get config') := by
  cases field with
  | dotenv inner =>
    rw [ScalarField.path_dotenv] at hpath
    cases hpath
  | _ =>
    obtain rfl := List.cons.inj hpath |>.1
    cases h with
    | none hname => exact absurd (by decide) hname
    | _ hname h =>
      first
        | exact absurd hname (by decide)
        | simp [ScalarField.read, ScalarField.get, h, Except.map]

theorem Takes.dotenv_of_ne (h : Takes dates config name value config') (hne : name ≠ "dotenv") :
    config'.dotenv = config.dotenv := by
  cases h with
  | dotenv hname _ => exact absurd hname hne
  | _ => rfl

theorem Takes.dotenv_of_eq (h : Takes dates config name value config') (hname : name = "dotenv") :
    readDotenv dates config.dotenv value = .ok config'.dotenv := by
  subst hname
  cases h with
  | dotenv _ h => exact h
  | none hname => exact absurd (by decide) hname
  | _ hname => exact absurd hname (by decide)

theorem Takes.settings_of_ne (h : Takes dates config name value config') (hne : name ≠ "settings") :
    config'.settings = config.settings := by
  cases h with
  | settings hname _ => exact absurd hname hne
  | _ => rfl

theorem Takes.settings_of_eq (h : Takes dates config name value config')
    (hname : name = "settings") :
    ∃ table, readTable value = .ok table ∧ config'.settings = some table := by
  subst hname
  cases h with
  | settings _ h => exact ⟨_, h, rfl⟩
  | none hname => exact absurd (by decide) hname
  | _ hname => exact absurd hname (by decide)

/-! ## What a configuration was read from -/

theorem read_of_readDotenv {config config' : DotEnvConfig} {entries : List (String × Value)}
    (hnodup : (Entries.names entries).Nodup)
    (h : readDotenv dates config (.table entries) = .ok config') (field : DotenvField) :
    match Entries.find? field.key entries with
    | none => field.get config' = field.get config
    | some value => field.read value = .ok (field.get config') := by
  refine part_of_foldlM field.get field.key (fun value _ after => field.read value = .ok after)
    ?_ ?_ hnodup h
  · intro s s' other value hstep hne
    rcases dotenvEntry_cases hstep with ⟨rfl, _, -, rfl⟩ | ⟨rfl, _, -, rfl⟩ | ⟨-, rfl⟩
    · cases field with
      | outFile => exact absurd rfl hne
      | template => rfl
    · cases field with
      | outFile => rfl
      | template => exact absurd rfl hne
    · rfl
  · intro s s' value hstep
    rcases dotenvEntry_cases hstep with ⟨hname, _, hpath, rfl⟩ | ⟨hname, _, hpath, rfl⟩ | ⟨hname, -⟩
    · cases field with
      | outFile => exact hpath
      | template => exact absurd hname (by decide)
    · cases field with
      | outFile => exact absurd hname (by decide)
      | template => simp [DotenvField.read, DotenvField.get, hpath, Except.map]
    · cases field <;> exact absurd (by decide) hname

variable {table : Table}

/-- What reading a whole table makes of a part that only the entry of one name changes. -/
theorem part_of_readConfig {α : Type} (hdistinct : table.HasDistinctNames)
    (h : readConfig .asText table = .ok config) (part : ProjectConfig → α) (name : String)
    (changes : Value → α → α → Prop)
    (hother : ∀ {before after other value}, Takes .asText before other value after →
      other ≠ name → part after = part before)
    (hself : ∀ {before after value}, Takes .asText before name value after →
      changes value (part before) (part after)) :
    match Entries.find? name table with
    | none => part config = part {}
    | some value => changes (Dates.asText.replace value) (part {}) (part config) := by
  have hnodup : (Entries.names (replaceEntries .asText table)).Nodup := by
    rw [names_replaceEntries]
    exact hdistinct.1
  have hentry := part_of_foldlM part name changes (fun hstep => hother (takes_of_readEntry hstep))
    (fun hstep => hself (takes_of_readEntry hstep)) hnodup h
  rw [find?_replaceEntries] at hentry
  cases hfind : Entries.find? name table with
  | none =>
    rw [hfind] at hentry
    exact hentry
  | some value =>
    rw [hfind] at hentry
    exact hentry

/-- A field at the top is read from the entry of its name. -/
theorem read_of_readEntries (hdistinct : table.HasDistinctNames)
    (h : readConfig .asText table = .ok config) {field : ScalarField}
    (hpath : field.path = [name]) :
    match table.at? field.path with
    | none => field.get config = field.get {}
    | some value => field.read (Dates.asText.replace value) = .ok (field.get config) := by
  rw [hpath, Table.at?_singleton]
  refine part_of_readConfig hdistinct h field.get name
    (fun value _ after => field.read value = .ok after) ?_ ?_
  · intro before after other value htakes hne
    exact htakes.get_of_ne (by simpa [hpath] using Ne.symm hne)
  · intro before after value htakes
    exact htakes.read_of_path hpath

/-- A field of `dotenv` is read from its entry in the table there. -/
theorem read_of_dotenvEntries (hdistinct : table.HasDistinctNames)
    (h : readConfig .asText table = .ok config) {field : DotenvField}
    (hclear : table.IsClearTo ["dotenv", field.key]) :
    match table.at? ["dotenv", field.key] with
    | none => field.get config.dotenv = field.get {}
    | some value => field.read (Dates.asText.replace value) = .ok (field.get config.dotenv) := by
  have hdotenv := part_of_readConfig hdistinct h ProjectConfig.dotenv "dotenv"
    (fun value before after => readDotenv .asText before value = .ok after)
    (fun htakes hne => htakes.dotenv_of_ne hne) (fun htakes => htakes.dotenv_of_eq rfl)
  rw [Table.isClearTo_cons] at hclear
  rw [Table.at?_cons]
  cases hfind : Entries.find? "dotenv" table with
  | none =>
    rw [hfind] at hdotenv
    exact congrArg field.get hdotenv
  | some value =>
    rw [hfind] at hdotenv
    have htable := hclear value hfind [] List.nil_prefix (by simp) value (Value.at?_nil value)
    cases value with
    | table entries =>
      have hentries : (Entries.names (replaceEntries .asText entries)).Nodup := by
        rw [names_replaceEntries]
        exact (hdistinct.of_find? hfind).1
      have hat : (Value.table entries).at? [field.key] = Entries.find? field.key entries :=
        Table.at?_singleton field.key entries
      have hentry := read_of_readDotenv hentries hdotenv field
      rw [find?_replaceEntries] at hentry
      rw [Option.bind_some, hat]
      cases hvalue : Entries.find? field.key entries with
      | none =>
        rw [hvalue] at hentry
        exact hentry
      | some value =>
        rw [hvalue] at hentry
        exact hentry
    | _ => cases htable

/-- Each field of a configuration was read from what stands at its key, if only tables are on the
way; it has its default if nothing stands there. -/
theorem read_of_readConfig (hdistinct : table.HasDistinctNames)
    (h : readConfig .asText table = .ok config) {field : ScalarField}
    (hclear : table.IsClearTo field.path) :
    match table.at? field.path with
    | none => field.get config = field.get {}
    | some value => field.read (Dates.asText.replace value) = .ok (field.get config) := by
  rcases field.path_eq_or with hpath | ⟨inner, rfl⟩
  · exact read_of_readEntries hdistinct h hpath
  · rw [ScalarField.path_dotenv] at hclear ⊢
    exact read_of_dotenvEntries hdistinct h hclear

/-- The settings given in place are the table at their key. -/
theorem settings_of_readConfig (hdistinct : table.HasDistinctNames)
    (h : readConfig .asText table = .ok config) {value : Value}
    (hvalue : Entries.find? "settings" table = some value) :
    ∃ entries, value = .table entries ∧
      config.settings = some (replaceEntries .asText entries) := by
  have hsettings := part_of_readConfig hdistinct h ProjectConfig.settings "settings"
    (fun value _ after => ∃ table, readTable value = .ok table ∧ after = some table)
    (fun htakes hne => htakes.settings_of_ne hne) (fun htakes => htakes.settings_of_eq rfl)
  rw [hvalue] at hsettings
  obtain ⟨entries, hentries, hafter⟩ := hsettings
  cases value with
  | table inner =>
    obtain rfl := Except.ok.inj hentries
    exact ⟨inner, rfl, hafter⟩
  | _ => cases hentries

/-! ## The width of an indentation -/

/-- Digits are read as the number they are the digits of. -/
theorem wholeNumber?_toDigits {n : Nat} (h : n < UInt64.size) {text : String}
    (htext : text.toList = Nat.toDigits 10 n) : wholeNumber? text = some (UInt64.ofNat n) := by
  have hdigits : ∀ c ∈ Nat.toDigits 10 n, c.isDigit :=
    fun c hc => Nat.isDigit_of_mem_toDigits (by decide) (by decide) hc
  have htrim : Text.trim text.toList = Nat.toDigits 10 n := by
    rw [htext]
    exact Text.trim_eq_self fun c hc => Text.not_isBlank_of_isDigit (hdigits c hc)
  have hvalue : (Nat.toDigits 10 n).foldl (fun n c => 10 * n + (c.toNat - '0'.toNat)) 0 = n :=
    Nat.ofDigitChars_toDigits (by decide) (by decide)
  have hplus (rest : List Char) : Nat.toDigits 10 n ≠ '+' :: rest := by
    intro hplus
    have hdigit := hdigits '+' (hplus ▸ List.mem_cons_self)
    exact absurd hdigit (by decide)
  have hempty : (Nat.toDigits 10 n).isEmpty = false := by simp
  have hall : (Nat.toDigits 10 n).all Char.isDigit := List.all_eq_true.mpr hdigits
  rw [wholeNumber?, htrim]
  split
  · exact absurd ‹_› (hplus _)
  · simp only [hempty, hall, hvalue, h, Bool.not_true, Bool.or_self, Bool.false_eq_true, if_true,
      if_false]

theorem wholeNumber?_minus {n : Nat} {text : String}
    (htext : text.toList = '-' :: Nat.toDigits 10 n) : wholeNumber? text = none := by
  have htrim : Text.trim text.toList = '-' :: Nat.toDigits 10 n := by
    rw [htext]
    refine Text.trim_eq_self fun c hc => ?_
    rcases List.mem_cons.mp hc with rfl | hdigit
    · decide
    · exact Text.not_isBlank_of_isDigit (Nat.isDigit_of_mem_toDigits (by decide) (by decide) hdigit)
  have hall : ('-' :: Nat.toDigits 10 n).all Char.isDigit = false := rfl
  simp [wholeNumber?, htrim, hall]

/-- A whole number and its decimal text give the same indentation, or neither gives any. -/
theorem readIndent_toString (n : Int64) (width : UInt64) :
    readIndent (.integer n) = .ok width ↔
      readIndent (.string (toString n.toInt)) = .ok width := by
  by_cases hsign : 0 ≤ n.toInt
  · have hbound : n.toInt < 2 ^ 63 := n.toInt_lt
    have hsize : n.toInt.toNat < UInt64.size := by
      have hpow : UInt64.size = 2 ^ 64 := rfl
      omega
    have hread := wholeNumber?_toDigits hsize (toList_toString_of_nonneg hsign)
    simp only [readIndent, if_pos hsign, hread]
  · have hread := wholeNumber?_minus (toList_toString_of_neg (Int.not_le.mp hsign))
    simp only [readIndent, if_neg hsign, hread, reduceCtorEq]

/-- Every indentation can be given as text. -/
theorem readIndent_text (width : UInt64) :
    readIndent (.string (toString width.toNat)) = .ok width := by
  have htext : (toString width.toNat).toList = Nat.toDigits 10 width.toNat := by simp
  rw [readIndent, wholeNumber?_toDigits width.toNat_lt_size htext, UInt64.ofNat_toNat]

end Config
end SiteSettings
