import SiteSettings.Proofs.Declared

/-!
# What the assignments leave behind

The generated assignments, run one after another, write each setting at the path that its chain of
single entries spells, and nothing else.  Where nothing was set before, every setting becomes the
value that its specification describes.  Where arrays were there, what is beside the path
survives.

An assignment touches one variable, and the names of a declared mapping are distinct.  So each
assignment finds in its variable what was there at the start (`runAll?_assignments`), and all else
is said by `writeAt?_spec` for one assignment.
-/

namespace SiteSettings
namespace Generator

open Php

variable (options : GeneratorOptions) (environment : String → Value)

/-- Comments have no effect. -/
theorem runAll?_assignmentStatements (settings : SettingsMap) (store : Store) :
    runAll? (options.runtime environment) store (settings.assignmentStatements options) =
      runAll? (options.runtime environment) store
        ((settings.assignmentCode options).map fun value => .expression value []) := by
  rw [SettingsMap.assignmentStatements]
  cases settings.assignmentCode options with
  | nil => rfl
  | cons first rest => cases first <;> rfl

/-- After the assignments of distinct variables, each holds what its own assignment makes of what it
held, and all other variables are as they were. -/
theorem runAll?_assignments {entries : Entries ValueSpec} (hnodup : (Entries.names entries).Nodup)
    (hproper : ∀ e ∈ entries, e.2.IsProper) {store : Store}
    (hwrite : ∀ e ∈ entries, CanWriteAt e.2.path (store e.1)) :
    ∃ final, runAll? (options.runtime environment) store
        (entries.map fun e => .expression (e.2.assignedTo options (.variable e.1)) []) =
          some final ∧
      (∀ e ∈ entries,
        final e.1 = writeAt? (e.2.core.meaning environment) e.2.path (store e.1)) ∧
      ∀ other ∉ Entries.names entries, final other = store other := by
  induction entries generalizing store with
  | nil => exact ⟨store, rfl, by simp, fun _ _ => rfl⟩
  | cons e rest ih =>
    obtain ⟨hfresh, hnodup⟩ := List.nodup_cons.mp hnodup
    obtain ⟨written, hwritten, -⟩ :=
      writeAt?_spec (e.2.core.meaning environment) (hwrite e (by simp))
    have hstep : Stmt.run? (options.runtime environment) store
        (.expression (e.2.assignedTo options (.variable e.1)) []) =
          some (store.set e.1 written) := by
      rw [run?_assignedTo options environment (hproper e (by simp)), hwritten]
      rfl
    -- the rest finds its own variables untouched
    have hkept {other : String} (h : other ≠ e.1) : store.set e.1 written other = store other :=
      if_neg h
    have hne {e' : String × ValueSpec} (h : e' ∈ rest) : e'.1 ≠ e.1 := by
      intro heq
      exact hfresh (heq ▸ List.mem_map_of_mem h)
    have hwrite' : ∀ e' ∈ rest, CanWriteAt e'.2.path (store.set e.1 written e'.1) := by
      intro e' he'
      rw [hkept (hne he')]
      exact hwrite e' (List.mem_cons_of_mem _ he')
    obtain ⟨final, hrun, hvalues, hframe⟩ :=
      ih hnodup (fun e' he' => hproper e' (List.mem_cons_of_mem _ he')) hwrite'
    refine ⟨final, ?_, ?_, ?_⟩
    · rw [runAll?] at hrun ⊢
      rw [List.map_cons, List.foldlM_cons, hstep]
      exact hrun
    · refine List.forall_mem_cons.mpr ⟨?_, fun e' he' => ?_⟩
      · rw [hframe e.1 hfresh, hwritten]
        exact if_pos rfl
      · rw [hvalues e' he', hkept (hne he')]
    · intro other hother
      obtain ⟨hhead, htail⟩ := not_or.mp (mt List.mem_cons.mpr hother)
      rw [hframe other htail, hkept hhead]

/-- The same for the statements of a sound mapping. -/
theorem runAll?_sound {settings : SettingsMap} (h : settings.Sound) {store : Store}
    (hwrite : ∀ e ∈ settings.entries, CanWriteAt e.2.path (store e.1)) :
    ∃ final, runAll? (options.runtime environment) store (settings.assignmentStatements options) =
        some final ∧
      (∀ e ∈ settings.entries,
        final e.1 = writeAt? (e.2.core.meaning environment) e.2.path (store e.1)) ∧
      ∀ other ∉ Entries.names settings.entries, final other = store other := by
  have hproper : ∀ e ∈ settings.entries, e.2.IsProper := fun e he => (h.specs e he).isProper
  have hrun := runAll?_assignments options environment h.nodup hproper hwrite
  rw [runAll?_assignmentStatements, SettingsMap.assignmentCode, List.map_map]
  exact hrun

/-- **The assignments of a declared mapping mean what its specifications describe.**  Run where none
of the names is set, they bind every name to the described value.  Run where every array on the way
is there or can be made, they write the described value below the chain and leave alone all that is
not on the chain or below it.  Other variables keep their values. -/
theorem addSettings_effect {settings : SettingsMap} (h : settings.Declared) (doc : Document) :
    ∃ stmts, addSettings options settings doc = .ok (doc.append stmts, settings.size) ∧
      (∀ store : Store, (∀ e ∈ settings.entries, store e.1 = none) →
        ∃ final, runAll? (options.runtime environment) store stmts = some final ∧
          (∀ e ∈ settings.entries, final e.1 = some (e.2.meaning environment)) ∧
          ∀ other ∉ Entries.names settings.entries, final other = store other) ∧
      ∀ store : Store, (∀ e ∈ settings.entries, CanWriteAt e.2.path (store e.1)) →
        ∃ final, runAll? (options.runtime environment) store stmts = some final ∧
          (∀ e ∈ settings.entries,
            at? e.2.path (final e.1) = some (e.2.core.meaning environment) ∧
            ∀ path, ¬ path <+: e.2.path → ¬ e.2.path <+: path →
              at? path (final e.1) = at? path (store e.1)) ∧
          ∀ other ∉ Entries.names settings.entries, final other = store other := by
  have hsound := h.sound
  refine ⟨settings.assignmentStatements options, ?_, fun store hnone => ?_, fun store hwrite => ?_⟩
  · rw [addSettings, assignments_eq hsound.isFilled, ← settings.length_assignmentStatements options]
    rfl
  · obtain ⟨final, hrun, hvalues, hframe⟩ := runAll?_sound options environment hsound
      fun e he => hnone e he ▸ canWriteAt_none e.2.path
    refine ⟨final, hrun, fun e he => ?_, hframe⟩
    rw [hvalues e he, hnone e he, writeAt?_none, ← ValueSpec.meaning_eq]
  · obtain ⟨final, hrun, hvalues, hframe⟩ := runAll?_sound options environment hsound hwrite
    refine ⟨final, hrun, fun e he => ?_, hframe⟩
    obtain ⟨written, hwritten, hat, hbeside⟩ :=
      writeAt?_spec (e.2.core.meaning environment) (hwrite e he)
    rw [hvalues e he, hwritten]
    exact ⟨hat, hbeside⟩

/-- Two entries make a literal, a single one below another an index of the target; the positions and
the name `"5"` are integers. -/
theorem addSettings_effect_nested :
    let table : Toml.Table :=
      [("db", .table [("5", .string "A"), ("host", .array [.string "B", .string "C"])]),
        ("list", .array [.table [("x", .string "D")]])]
    let settings : SettingsMap :=
      ⟨[("db", .composite [(.integer 5, .leaf "A"),
          (.string "host", .composite [(.integer 0, .leaf "B"), (.integer 1, .leaf "C")])]),
        ("list", .composite [(.integer 0, .composite [(.string "x", .leaf "D")])])]⟩
    let environment (name : String) : Value := .scalar (.string name)
    SettingsMap.ofToml table = .ok settings ∧
      ∃ stmts, addSettings {} settings .empty = .ok (Document.empty.append stmts, 2) ∧
        ∃ final,
          runAll? (GeneratorOptions.runtime {} environment) (fun _ => none) stmts = some final ∧
          final "db" = some (.array [(.integer 5, environment "A"),
            (.string "host",
              .array [(.integer 0, environment "B"), (.integer 1, environment "C")])]) ∧
          final "list" = some (.array [(.integer 0, .array [(.string "x", environment "D")])]) ∧
          final "other" = none := by
  intro table settings environment
  have hread : SettingsMap.ofToml table = .ok settings := by rfl
  have hone : IsInt64 1 := by decide
  have htwo : IsInt64 2 := by decide
  have hwf : (Toml.Value.table table).IsWellFormed := by
    simp [table, Toml.Value.IsWellFormed, TomlEntriesWellFormed, TomlItemsWellFormed, Entries.names,
      hone, htwo]
  obtain ⟨stmts, hstmts, hunset, -⟩ := addSettings_effect {} environment (.toml hwf hread) .empty
  obtain ⟨final, hrun, hvalues, hframe⟩ := hunset (fun _ => none) fun _ _ => rfl
  refine ⟨hread, stmts, hstmts, final, hrun, ?_, ?_, ?_⟩
  · exact hvalues _ (.head _)
  · exact hvalues _ (.tail _ (.head _))
  · exact hframe "other" (by simp [settings, Entries.names])

end Generator
end SiteSettings
