import Mathlib.Data.List.Pairwise
import SiteSettings.Proofs.Config.Environment
import SiteSettings.Proofs.Toml.Reordering

/-!
# The order of variables

Variables apply one after another, and two of them that stop and go on at the same place treat each
other differently: the shorter one replaces the tables of the longer one, the longer one is dropped
where the shorter one was first.  Either way the shorter one stays.  So, as long as no key is given
twice, the order of the environment does not matter: what stands at a path can be said by the keys
alone (`at?_environmentTable_eq_string_iff`, `at?_environmentTable_eq_table_iff`), and the keys are
the same in every order.
-/

namespace SiteSettings
namespace Config

open Toml

variable (variablePrefix : String)

/-- The keys that the variables of an environment set, one for each such variable. -/
def variableKeys (environment : List (String × String)) : List (List String) :=
  environment.filterMap fun e => keyOfVariable? variablePrefix e.1

variable {variablePrefix} {environment : List (String × String)} {path : List String}

theorem mem_variableKeys {key : List String} :
    key ∈ variableKeys variablePrefix environment ↔
      ∃ e ∈ environment, keyOfVariable? variablePrefix e.1 = some key :=
  List.mem_filterMap

/-! ## Keys that nothing stops -/

/-- Whether the key is given, and no other one ends above it. -/
structure IsTopKey (variablePrefix : String) (environment : List (String × String))
    (key : List String) : Prop where
  mem : key ∈ variableKeys variablePrefix environment
  top : ∀ other ∈ variableKeys variablePrefix environment, other <+: key → other = key

/-- Of the keys that end at a path or above it, the shortest one is stopped by none. -/
theorem exists_isTopKey {key : List String} (hkey : key ∈ variableKeys variablePrefix environment)
    (hpath : key <+: path) :
    ∃ top, IsTopKey variablePrefix environment top ∧ top <+: path := by
  by_cases htop : ∀ other ∈ variableKeys variablePrefix environment, other <+: key → other = key
  · exact ⟨key, ⟨hkey, htop⟩, hpath⟩
  · push Not at htop
    obtain ⟨other, hother, hfront, hne⟩ := htop
    have hshorter : other.length < key.length :=
      Nat.lt_of_le_of_ne hfront.length_le fun hlength => hne (hfront.eq_of_length hlength)
    exact exists_isTopKey hother (hfront.trans hpath)
termination_by key.length

/-- A variable whose key is not stopped gives it its value, if no later one has the same key. -/
theorem IsTopKey.exists_at?_eq_string {key : List String}
    (h : IsTopKey variablePrefix environment key) :
    ∃ e ∈ environment, keyOfVariable? variablePrefix e.1 = some key ∧
      (environmentTable variablePrefix environment).at? key = some (.string e.2) := by
  have hholds : (environmentTable variablePrefix environment).HoldsAt key
      (lastVariable? variablePrefix key environment) :=
    holdsAt_environmentTable variablePrefix fun e he other hother hfront =>
      h.top other (mem_variableKeys.mpr ⟨e, he, hother⟩) hfront
  cases hlast : lastVariable? variablePrefix key environment with
  | none =>
    obtain ⟨e, he, hkey⟩ := mem_variableKeys.mp h.mem
    have hnone := lastOf?_eq_none_iff.mp hlast e he
    rw [if_pos hkey] at hnone
    cases hnone
  | some value =>
    obtain ⟨e, he, hvalue⟩ := exists_of_lastOf? hlast
    split at hvalue
    · rename_i hkey
      obtain rfl := Option.some.inj hvalue
      rw [hlast] at hholds
      exact ⟨e, he, hkey, hholds⟩
    · cases hvalue

/-- Where something stands, no variable ends but one of that very path. -/
theorem isTopKey_of_at? {key : List String} (hkey : key ∈ variableKeys variablePrefix environment)
    (hpath : key <+: path) {value : Value}
    (h : (environmentTable variablePrefix environment).at? path = some value) :
    IsTopKey variablePrefix environment path := by
  obtain ⟨top, htop, more, rfl⟩ := exists_isTopKey hkey hpath
  obtain ⟨e, -, -, hat⟩ := htop.exists_at?_eq_string
  rw [Table.at?_append, hat] at h
  cases more with
  | nil => rwa [List.append_nil]
  | cons name more => cases h

/-! ## What stands at a path -/

/-- Below a table there is the key of a variable. -/
theorem exists_key_of_at?_eq_table (hpath : path ≠ []) {entries : Table}
    (h : (environmentTable variablePrefix environment).at? path = some (.table entries)) :
    ∃ key ∈ variableKeys variablePrefix environment, path <+: key ∧ path ≠ key := by
  induction environment using List.reverseRecOn generalizing entries with
  | nil =>
    obtain ⟨name, path, rfl⟩ := List.exists_cons_of_ne_nil hpath
    cases h
  | append_singleton environment e ih =>
    have hearlier {entries : Table}
        (h : (environmentTable variablePrefix environment).at? path = some (.table entries)) :
        ∃ key ∈ variableKeys variablePrefix (environment ++ [e]), path <+: key ∧ path ≠ key := by
      obtain ⟨key, hkey, hbelow⟩ := ih h
      refine ⟨key, ?_, hbelow⟩
      rw [variableKeys, List.filterMap_append]
      exact List.mem_append_left _ hkey
    rcases environmentTable_cases variablePrefix environment e.1 e.2 with
      ⟨key, hkey, -, htable⟩ | ⟨-, htable⟩
    · rw [htable] at h
      have hmem : key ∈ variableKeys variablePrefix (environment ++ [e]) :=
        mem_variableKeys.mpr ⟨e, by simp, hkey⟩
      by_cases hbelow : key <+: path
      · obtain ⟨more, rfl⟩ := hbelow
        rw [at?_writeAt_append _ (keyOfVariable?_ne_nil hkey)] at h
        cases more <;> cases h
      · by_cases habove : path <+: key
        · exact ⟨key, hmem, habove, fun he => hbelow (he ▸ List.prefix_refl _)⟩
        · rw [at?_writeAt_beside _ hbelow habove] at h
          exact hearlier h
    · exact hearlier (htable ▸ h)

/-- A table stands below the whole exactly where a variable goes on and none ends there or above. -/
theorem exists_table_at?_environmentTable_iff (hpath : path ≠ []) :
    (∃ entries, (environmentTable variablePrefix environment).at? path = some (.table entries)) ↔
      (∃ key ∈ variableKeys variablePrefix environment, path <+: key ∧ path ≠ key) ∧
        ∀ key ∈ variableKeys variablePrefix environment, ¬ key <+: path := by
  constructor
  · rintro ⟨entries, hat⟩
    refine ⟨exists_key_of_at?_eq_table hpath hat, fun key hkey habove => ?_⟩
    obtain ⟨e, -, -, hstring⟩ := (isTopKey_of_at? hkey habove hat).exists_at?_eq_string
    rw [hat] at hstring
    cases hstring
  · rintro ⟨⟨key, hkey, hbelow, -⟩, hnone⟩
    obtain ⟨top, htop, habove⟩ := exists_isTopKey hkey (List.prefix_refl key)
    obtain ⟨e, -, -, hat⟩ := htop.exists_at?_eq_string
    rcases List.prefix_or_prefix_of_prefix hbelow habove with ⟨more, rfl⟩ | htoppath
    · refine Value.exists_table_of_at?_append (fun hmore => ?_) hat
      subst hmore
      exact hnone _ htop.mem (by simp)
    · exact absurd htoppath (hnone top htop.mem)

/-- No table is left empty. -/
theorem at?_environmentTable_ne_empty (hpath : path ≠ []) :
    (environmentTable variablePrefix environment).at? path ≠ some (.table []) := by
  intro hat
  obtain ⟨⟨key, hkey, hbelow, -⟩, hnone⟩ :=
    (exists_table_at?_environmentTable_iff hpath).mp ⟨[], hat⟩
  obtain ⟨top, htop, habove⟩ := exists_isTopKey hkey (List.prefix_refl key)
  obtain ⟨e, -, -, hstring⟩ := htop.exists_at?_eq_string
  rcases List.prefix_or_prefix_of_prefix hbelow habove with ⟨more, rfl⟩ | htoppath
  · rw [Table.at?_append, hat] at hstring
    cases more <;> cases hstring
  · exact hnone top htop.mem htoppath

/-- Whatever is not a table is the text of a variable with that very path, above which none ends. -/
theorem exists_variable_of_at?_ne_table {value : Value} (hvalue : value.isTable = false)
    (h : (environmentTable variablePrefix environment).at? path = some value) :
    IsTopKey variablePrefix environment path ∧
      ∃ e ∈ environment, keyOfVariable? variablePrefix e.1 = some path ∧ value = .string e.2 := by
  obtain ⟨e, he, hkey⟩ := exists_variable_of_at? variablePrefix hvalue h
  have htop := isTopKey_of_at? (mem_variableKeys.mpr ⟨e, he, hkey⟩) (List.prefix_refl path) h
  obtain ⟨e', he', hkey', hat⟩ := htop.exists_at?_eq_string
  exact ⟨htop, e', he', hkey', Option.some.inj (h.symm.trans hat)⟩

/-- Of distinct keys each is set by one variable. -/
theorem eq_of_keyOfVariable?_eq (hdistinct : (variableKeys variablePrefix environment).Nodup)
    {e e' : String × String} (he : e ∈ environment) (he' : e' ∈ environment) {key : List String}
    (hkey : keyOfVariable? variablePrefix e.1 = some key)
    (hkey' : keyOfVariable? variablePrefix e'.1 = some key) : e = e' := by
  by_contra hne
  have hpairwise := List.pairwise_filterMap.mp hdistinct
  have hsymm : Std.Symm fun a b : String × String =>
      ∀ key, keyOfVariable? variablePrefix a.1 = some key →
        ∀ key', keyOfVariable? variablePrefix b.1 = some key' → key ≠ key' :=
    ⟨fun a b h key hkey key' hkey' heq => h key' hkey' key hkey heq.symm⟩
  exact hpairwise.forall he he' hne key hkey key hkey' rfl

/-- A text stands at a path exactly if a variable of the path has it, and no key ends above. -/
theorem at?_environmentTable_eq_string_iff
    (hdistinct : (variableKeys variablePrefix environment).Nodup) {text : String} :
    (environmentTable variablePrefix environment).at? path = some (.string text) ↔
      (∃ name, (name, text) ∈ environment ∧ keyOfVariable? variablePrefix name = some path) ∧
        ∀ key ∈ variableKeys variablePrefix environment, key <+: path → key = path := by
  constructor
  · intro hat
    obtain ⟨htop, e, he, hkey, hvalue⟩ := exists_variable_of_at?_ne_table rfl hat
    cases hvalue
    exact ⟨⟨e.1, he, hkey⟩, htop.top⟩
  · rintro ⟨⟨name, hmem, hkey⟩, htop⟩
    have hisTop : IsTopKey variablePrefix environment path :=
      ⟨mem_variableKeys.mpr ⟨_, hmem, hkey⟩, htop⟩
    obtain ⟨e, he, hkey', hat⟩ := hisTop.exists_at?_eq_string
    rw [hat, eq_of_keyOfVariable?_eq hdistinct he hmem hkey' hkey]

/-! ## Every order -/

variable {environment' : List (String × String)}

theorem mem_variableKeys_of_perm (hperm : environment.Perm environment') {key : List String} :
    key ∈ variableKeys variablePrefix environment' ↔
      key ∈ variableKeys variablePrefix environment :=
  (hperm.filterMap _).mem_iff.symm

theorem nodup_variableKeys_of_perm (hperm : environment.Perm environment') :
    (variableKeys variablePrefix environment').Nodup ↔
      (variableKeys variablePrefix environment).Nodup :=
  (hperm.filterMap _).nodup_iff.symm

theorem at?_environmentTable_of_perm (hperm : environment.Perm environment')
    (hdistinct : (variableKeys variablePrefix environment').Nodup) {leaf : Value}
    (hleaf : leaf.isTable = false)
    (h : (environmentTable variablePrefix environment).at? path = some leaf) :
    (environmentTable variablePrefix environment').at? path = some leaf := by
  obtain ⟨htop, e, he, hkey, rfl⟩ := exists_variable_of_at?_ne_table hleaf h
  refine (at?_environmentTable_eq_string_iff hdistinct).mpr
    ⟨⟨e.1, hperm.mem_iff.mp he, hkey⟩, fun key hmem => ?_⟩
  exact htop.top key ((mem_variableKeys_of_perm hperm).mp hmem)

theorem environmentTable_reorders (hperm : environment.Perm environment')
    (hdistinct : (variableKeys variablePrefix environment).Nodup) :
    (Value.table (environmentTable variablePrefix environment)).Reorders
      (.table (environmentTable variablePrefix environment')) := by
  refine Value.reorders_of_at? (hasDistinctNames_environmentTable variablePrefix environment)
    (hasDistinctNames_environmentTable variablePrefix environment') fun path => ?_
  by_cases hpath : path = []
  · subst hpath
    trivial
  · have hdistinct' := (nodup_variableKeys_of_perm hperm).mpr hdistinct
    refine agreeUpToTables_of_iff (fun leaf hleaf => ?_) ?_
    · exact ⟨at?_environmentTable_of_perm hperm hdistinct' hleaf,
        at?_environmentTable_of_perm hperm.symm hdistinct hleaf⟩
    · have htable :=
        @exists_table_at?_environmentTable_iff variablePrefix environment' path hpath
      simp only [mem_variableKeys_of_perm hperm] at htable
      exact (exists_table_at?_environmentTable_iff hpath).trans htable.symm

/-- **The order of the environment does not matter.**  If no key is given twice, the variables make,
in every order, the same table up to the order of its entries.  A text stands in it exactly where a
variable with that text ends and none ends above; a table exactly where a variable goes on and none
ends there or above; nothing else stands in it, and no table but the whole can be empty. -/
theorem environmentTable_perm (hperm : environment.Perm environment')
    (hdistinct : (variableKeys variablePrefix environment).Nodup) :
    (Value.table (environmentTable variablePrefix environment)).Reorders
        (.table (environmentTable variablePrefix environment')) ∧
      (∀ path text,
        (environmentTable variablePrefix environment').at? path = some (.string text) ↔
          (∃ name, (name, text) ∈ environment ∧ keyOfVariable? variablePrefix name = some path) ∧
            ∀ key ∈ variableKeys variablePrefix environment, key <+: path → key = path) ∧
      (∀ path ≠ [],
        (∃ entries, (environmentTable variablePrefix environment').at? path =
            some (.table entries)) ↔
          (∃ key ∈ variableKeys variablePrefix environment, path <+: key ∧ path ≠ key) ∧
            ∀ key ∈ variableKeys variablePrefix environment, ¬ key <+: path) ∧
      ∀ path value, (environmentTable variablePrefix environment').at? path = some value →
        (∃ text, value = .string text) ∨
          ∃ entries, value = .table entries ∧ (path ≠ [] → entries ≠ []) := by
  have hdistinct' := (nodup_variableKeys_of_perm hperm).mpr hdistinct
  refine ⟨environmentTable_reorders hperm hdistinct, fun path text => ?_, fun path hpath => ?_,
    fun path value hat => ?_⟩
  · rw [at?_environmentTable_eq_string_iff hdistinct']
    simp only [mem_variableKeys_of_perm hperm, hperm.mem_iff]
  · rw [exists_table_at?_environmentTable_iff hpath]
    simp only [mem_variableKeys_of_perm hperm]
  · rcases value.table_or_leaf with ⟨entries, rfl⟩ | hleaf
    · refine .inr ⟨entries, rfl, ?_⟩
      rintro hpath rfl
      exact at?_environmentTable_ne_empty hpath hat
    · obtain ⟨-, e, -, -, hvalue⟩ := exists_variable_of_at?_ne_table hleaf hat
      exact .inl ⟨e.2, hvalue⟩

/-- The variable `a.b` wins over `a.b.c`, which comes before it and after it, and `a.d`
stays beside it. -/
theorem environmentTable_perm_stopped :
    let environment := [("P__A__B__C", "1"), ("P__A__D", "2"), ("P__A__B", "3"), ("Q__A", "4")]
    let environment' := [("P__A__B", "3"), ("Q__A", "4"), ("P__A__B__C", "1"), ("P__A__D", "2")]
    environment.Perm environment' ∧ (variableKeys "P" environment).Nodup ∧
      (environmentTable "P" environment').at? ["a", "b"] = some (.string "3") ∧
      (environmentTable "P" environment').at? ["a", "d"] = some (.string "2") ∧
      ∃ entries, (environmentTable "P" environment').at? ["a"] = some (.table entries) := by
  intro environment environment'
  have hperm : environment.Perm environment' := by decide
  have hkeys : variableKeys "P" environment = [["a", "b", "c"], ["a", "d"], ["a", "b"]] := by
    decide +kernel
  have hkey : keyOfVariable? "P" "P__A__B" = some ["a", "b"] := by decide +kernel
  have hbeside : keyOfVariable? "P" "P__A__D" = some ["a", "d"] := by decide +kernel
  have hdistinct : (variableKeys "P" environment).Nodup := by
    rw [hkeys]
    decide
  obtain ⟨-, hstring, htable, -⟩ := environmentTable_perm hperm hdistinct
  rw [hkeys] at htable
  simp only [hkeys] at hstring
  refine ⟨hperm, hdistinct, (hstring _ _).mpr ⟨⟨_, by simp [environment], hkey⟩, by decide⟩,
    (hstring _ _).mpr ⟨⟨_, by simp [environment], hbeside⟩, by decide⟩,
    (htable ["a"] (by decide)).mpr ⟨⟨["a", "d"], by decide, by decide⟩, by decide⟩⟩

end Config
end SiteSettings
