import SiteSettings.Entries

/-!
# Inserting into ordered entries

What `Entries.insert` leaves in place: names stay distinct, and every entry is the new one or was
there. Where names are distinct, looking a name up and having an entry of that name is the same.
-/

namespace SiteSettings
namespace Entries

variable {α : Type} (name : String) (value : α)

theorem find?_eq_none_iff {name : String} {entries : Entries α} :
    find? name entries = none ↔ name ∉ names entries := by
  induction entries with
  | nil => simp [find?, names]
  | cons entry rest ih =>
    obtain ⟨n, v⟩ := entry
    simp only [names] at ih
    by_cases h : n = name
    · simp [find?, names, h]
    · simp [find?, names, h, ih, Ne.symm h]

theorem mem_of_find? {name : String} {value : α} {entries : Entries α}
    (h : find? name entries = some value) : (name, value) ∈ entries := by
  induction entries with
  | nil => cases h
  | cons entry rest ih =>
    obtain ⟨n, v⟩ := entry
    rw [find?] at h
    split at h
    · rename_i hn
      obtain rfl := Option.some.inj h
      exact hn ▸ List.mem_cons_self
    · exact List.mem_cons_of_mem _ (ih h)

theorem find?_of_mem {entries : Entries α} (h : (names entries).Nodup) {entry : String × α}
    (hmem : entry ∈ entries) : find? entry.1 entries = some entry.2 := by
  induction entries with
  | nil => cases hmem
  | cons first rest ih =>
    obtain ⟨hfresh, hrest⟩ := List.nodup_cons.mp h
    rw [find?]
    rcases List.mem_cons.mp hmem with rfl | hmem
    · rw [if_pos rfl]
    · have hne : first.1 ≠ entry.1 := fun he => hfresh (he ▸ List.mem_map_of_mem hmem)
      rw [if_neg hne, ih hrest hmem]

theorem names_insert (entries : Entries α) :
    names (insert name value entries) =
      if name ∈ names entries then names entries else names entries ++ [name] := by
  induction entries with
  | nil => rfl
  | cons entry rest ih =>
    obtain ⟨n, v⟩ := entry
    by_cases h : n = name
    · simp [insert, names, h]
    · simp only [names] at ih
      by_cases hmem : name ∈ rest.map Prod.fst <;> simp_all [insert, names, Ne.symm h]

theorem insert_of_notMem {name : String} (value : α) {entries : Entries α}
    (h : name ∉ names entries) :
    insert name value entries = entries ++ [(name, value)] := by
  induction entries with
  | nil => rfl
  | cons entry rest ih =>
    obtain ⟨n, v⟩ := entry
    obtain ⟨hne, hrest⟩ := not_or.mp (mt List.mem_cons.mpr h)
    rw [insert, if_neg (Ne.symm hne), ih hrest, List.cons_append]

theorem nodup_names_insert {entries : Entries α} (h : (names entries).Nodup) :
    (names (insert name value entries)).Nodup := by
  rw [names_insert]
  split
  · exact h
  · rename_i hnew
    refine List.nodup_append.mpr ⟨h, by simp, ?_⟩
    rintro a ha b hb rfl
    exact hnew (List.mem_singleton.mp hb ▸ ha)

theorem eq_or_mem_of_mem_insert {entries : Entries α} {entry : String × α}
    (h : entry ∈ insert name value entries) : entry = (name, value) ∨ entry ∈ entries := by
  induction entries with
  | nil => simpa [insert] using h
  | cons first rest ih =>
    obtain ⟨n, v⟩ := first
    rw [insert] at h
    split at h
    · rename_i hn
      rcases List.mem_cons.mp h with rfl | hrest
      · exact .inl (by rw [hn])
      · exact .inr (List.mem_cons_of_mem _ hrest)
    · rcases List.mem_cons.mp h with rfl | hrest
      · exact .inr (by simp)
      · exact (ih hrest).imp_right (List.mem_cons_of_mem _)

/-- Whether two lists of entries differ in what they have under one name alone: the others are the
same in the same order, and the name keeps its place or is new at the end. -/
structure DifferAt (name : String) (old new : Entries α) : Prop where
  others : new.filter (fun entry => entry.1 ≠ name) = old.filter (fun entry => entry.1 ≠ name)
  names_eq : names new = if name ∈ names old then names old else names old ++ [name]

theorem differAt_insert (entries : Entries α) :
    DifferAt name entries (insert name value entries) where
  others := by
    induction entries with
    | nil => simp [insert]
    | cons entry rest ih =>
      obtain ⟨n, v⟩ := entry
      rw [insert]
      split
      · rename_i hn
        simp [hn]
      · rw [List.filter_cons, List.filter_cons, ih]
  names_eq := names_insert name value entries

end Entries
end SiteSettings
