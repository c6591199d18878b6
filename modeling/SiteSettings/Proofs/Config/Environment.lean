import SiteSettings.Config.Environment
import SiteSettings.Proofs.Config.Overrides

/-!
# What variables set

A variable writes like an override if only tables are on its way, and changes nothing if not
(`setBelow_of_isClearTo`, `setBelow_of_not_isClearTo`).  Only variables put anything but tables into
the table, so what is in a variable's way is the value of another one (`exists_variable_of_at?`).

Hence, as long as no variable ends above a path, the last variable of the path decides what stands
there; without one there are at most the tables of longer variables (`holdsAt_environmentTable`).
-/

namespace SiteSettings

theorem Entries.insert_of_find? {α : Type} {name : String} {value : α} {entries : Entries α}
    (h : find? name entries = some value) : insert name value entries = entries := by
  induction entries with
  | nil => cases h
  | cons entry rest ih =>
    obtain ⟨n, v⟩ := entry
    rw [find?] at h
    rw [insert]
    split at h
    · rename_i hn
      cases h
      rw [if_pos hn]
    · rename_i hn
      rw [if_neg hn, ih h]

namespace Config

open Toml

/-! ## One variable -/

theorem setBelow_of_isClearTo (value : Value) {path : List String} {table : Table}
    (h : table.IsClearTo path) : setBelow value path table = writeAt value path table := by
  induction path generalizing table with
  | nil => rfl
  | cons name path ih =>
    cases path with
    | nil => rfl
    | cons next path =>
      have hclear := Table.isClearTo_cons.mp h
      simp only [setBelow, writeAt]
      cases hfind : Entries.find? name table with
      | none =>
        have hempty : Table.IsClearTo (next :: path) [] :=
          Table.isClearTo_cons.mpr (by simp [Entries.find?])
        simp only [ih hempty]
      | some inner =>
        have hinner := hclear inner hfind
        cases inner with
        | table entries => simp only [ih hinner]
        | _ => exact absurd hinner (Value.not_isClearTo_of_not_isTable rfl (List.cons_ne_nil _ _))

/-- A value in the way of a variable stays, and so does all else. -/
theorem setBelow_of_not_isClearTo (value : Value) {path : List String} {table : Table}
    (h : ¬ table.IsClearTo path) : setBelow value path table = table := by
  induction path generalizing table with
  | nil => rfl
  | cons name path ih =>
    have hblocked := mt Table.isClearTo_cons.mpr h
    cases path with
    | nil => exact absurd (fun inner _ => Value.isClearTo_nil inner) hblocked
    | cons next path =>
      simp only [setBelow]
      cases hfind : Entries.find? name table with
      | none => exact absurd (fun inner hinner => nomatch hfind ▸ hinner) hblocked
      | some inner =>
        cases inner with
        | table entries =>
          have hinner : ¬ Table.IsClearTo (next :: path) entries := by
            intro hclear
            refine hblocked fun inner' hinner' => ?_
            rw [hfind] at hinner'
            exact Option.some.inj hinner' ▸ hclear
          simp only [ih hinner]
          exact Entries.insert_of_find? hfind
        | _ => rfl

theorem splitAtPair_ne_nil (separator : Char) (s : List Char) :
    Text.splitAtPair separator s ≠ [] := by
  fun_induction Text.splitAtPair separator s with
  | case1 => simp
  | case2 c => simp
  | case3 c d rest h ih => simp
  | case4 c d rest h ih =>
    cases hpieces : Text.splitAtPair separator (d :: rest) with
    | nil => exact absurd hpieces ih
    | cons piece pieces => simp [Text.extendFirst]

theorem keyOfVariable?_ne_nil {variablePrefix name : String} {key : List String}
    (h : keyOfVariable? variablePrefix name = some key) : key ≠ [] := by
  unfold keyOfVariable? at h
  split at h
  · cases h
  · cases h
  · obtain rfl := Option.some.inj h
    intro hnil
    exact splitAtPair_ne_nil _ _ (List.map_eq_nil_iff.mp hnil)

/-! ## One after another -/

variable (variablePrefix : String)

theorem environmentTable_concat (environment : List (String × String)) (name text : String) :
    environmentTable variablePrefix (environment ++ [(name, text)]) =
      match keyOfVariable? variablePrefix name with
      | some key => setBelow (.string text) key (environmentTable variablePrefix environment)
      | none => environmentTable variablePrefix environment := by
  rw [environmentTable, List.foldl_append]
  rfl

/-- A variable writes its value, unless its name is none of a key or something is in the way. -/
theorem environmentTable_cases (environment : List (String × String)) (name text : String) :
    (∃ key, keyOfVariable? variablePrefix name = some key ∧
      (environmentTable variablePrefix environment).IsClearTo key ∧
      environmentTable variablePrefix (environment ++ [(name, text)]) =
        writeAt (.string text) key (environmentTable variablePrefix environment)) ∨
    ((∀ key, keyOfVariable? variablePrefix name = some key →
        ¬ (environmentTable variablePrefix environment).IsClearTo key) ∧
      environmentTable variablePrefix (environment ++ [(name, text)]) =
        environmentTable variablePrefix environment) := by
  rw [environmentTable_concat]
  cases hkey : keyOfVariable? variablePrefix name with
  | none => exact .inr ⟨fun _ h => (nomatch h), rfl⟩
  | some key =>
    by_cases hclear : (environmentTable variablePrefix environment).IsClearTo key
    · exact .inl ⟨key, rfl, hclear, setBelow_of_isClearTo _ hclear⟩
    · refine .inr ⟨fun other hother => ?_, setBelow_of_not_isClearTo _ hclear⟩
      exact Option.some.inj hother ▸ hclear

theorem hasDistinctNames_environmentTable (environment : List (String × String)) :
    (environmentTable variablePrefix environment).HasDistinctNames := by
  induction environment using List.reverseRecOn with
  | nil => exact Table.hasDistinctNames_nil
  | append_singleton environment e ih =>
    rcases environmentTable_cases variablePrefix environment e.1 e.2 with ⟨key, -, -, h⟩ | ⟨-, h⟩
    · have hvalue : (Value.string e.2).HasDistinctNames := trivial
      rw [h]
      exact hasDistinctNames_writeAt hvalue key ih
    · rw [h]
      exact ih

/-- Whatever is not a table was put there by a variable. -/
theorem exists_variable_of_at? {environment : List (String × String)} {path : List String}
    {value : Value} (hvalue : value.isTable = false)
    (h : (environmentTable variablePrefix environment).at? path = some value) :
    ∃ e ∈ environment, keyOfVariable? variablePrefix e.1 = some path := by
  induction environment using List.reverseRecOn with
  | nil =>
    cases path with
    | nil =>
      cases h
      cases hvalue
    | cons name path => cases h
  | append_singleton environment e ih =>
    have hearlier (h : (environmentTable variablePrefix environment).at? path = some value) :
        ∃ e' ∈ environment ++ [e], keyOfVariable? variablePrefix e'.1 = some path := by
      obtain ⟨e', he', hkey⟩ := ih h
      exact ⟨e', List.mem_append_left _ he', hkey⟩
    rcases environmentTable_cases variablePrefix environment e.1 e.2 with
      ⟨key, hkey, -, htable⟩ | ⟨-, htable⟩
    · rw [htable] at h
      by_cases hbelow : key <+: path
      · obtain ⟨more, rfl⟩ := hbelow
        rw [at?_writeAt_append _ (keyOfVariable?_ne_nil hkey)] at h
        cases more with
        | nil => exact ⟨e, by simp, by simpa using hkey⟩
        | cons name more => cases h
      · by_cases habove : path <+: key
        · have hne : path ≠ key := fun he => hbelow (he ▸ List.prefix_refl _)
          obtain ⟨entries, hentries⟩ := at?_writeAt_front (.string e.2) habove hne
            (environmentTable variablePrefix environment)
          rw [hentries] at h
          cases h
          cases hvalue
        · rw [at?_writeAt_beside _ hbelow habove] at h
          exact hearlier h
    · exact hearlier (htable ▸ h)

/-- What the last variable whose name spells a path gives it. -/
def lastVariable? (path : List String) (environment : List (String × String)) : Option Value :=
  lastOf? (fun e => if keyOfVariable? variablePrefix e.1 = some path
    then some (Value.string e.2) else none) environment

theorem lastVariable?_concat (path : List String) (environment : List (String × String))
    (e : String × String) :
    lastVariable? variablePrefix path (environment ++ [e]) =
      if keyOfVariable? variablePrefix e.1 = some path then some (.string e.2)
      else lastVariable? variablePrefix path environment := by
  rw [lastVariable?, lastOf?_concat]
  split
  · rfl
  · rfl

theorem isTable_of_lastVariable? {path : List String} {environment : List (String × String)}
    {value : Value} (h : lastVariable? variablePrefix path environment = some value) :
    value.isTable = false := by
  obtain ⟨e, -, he⟩ := exists_of_lastOf? h
  split at he
  · obtain rfl := Option.some.inj he
    rfl
  · cases he

/-- Where no variable ends above a path, the last variable of the path decides what stands there;
without one nothing does, or a table. -/
theorem holdsAt_environmentTable {environment : List (String × String)} {path : List String}
    (habove : ∀ e ∈ environment, ∀ key, keyOfVariable? variablePrefix e.1 = some key →
      key <+: path → key = path) :
    (environmentTable variablePrefix environment).HoldsAt path
      (lastVariable? variablePrefix path environment) := by
  induction environment using List.reverseRecOn with
  | nil =>
    intro value hvalue
    cases path with
    | nil =>
      cases hvalue
      rfl
    | cons name path => cases hvalue
  | append_singleton environment e ih =>
    specialize ih fun e he => habove e (List.mem_append_left _ he)
    have hself := habove e (by simp)
    rw [lastVariable?_concat]
    rcases environmentTable_cases variablePrefix environment e.1 e.2 with
      ⟨key, hkey, hclear, htable⟩ | ⟨hblocked, htable⟩
    · rw [htable]
      by_cases hpath : key = path
      · subst hpath
        rw [if_pos hkey]
        exact at?_writeAt_self _ (keyOfVariable?_ne_nil hkey) _
      · have hother : keyOfVariable? variablePrefix e.1 ≠ some path := by
          intro h
          exact hpath (Option.some.inj (hkey.symm.trans h))
        have hbelow : ¬ key <+: path := fun h => hpath (hself key hkey h)
        rw [if_neg hother]
        exact holdsAt_writeAt ih (fun _ => isTable_of_lastVariable? variablePrefix) hclear hbelow _
    · -- what blocks a variable of the path was put there by one that ends above it
      have hother : keyOfVariable? variablePrefix e.1 ≠ some path := by
        intro hkey
        refine hblocked path hkey fun front hfront hne inner hinner => ?_
        by_contra hinner'
        obtain ⟨e', he', hkey'⟩ :=
          exists_variable_of_at? variablePrefix (Bool.not_eq_true _ ▸ hinner') hinner
        exact hne (habove e' (List.mem_append_left _ he') front hkey' hfront)
      rw [htable, if_neg hother]
      exact ih

end Config
end SiteSettings
