import SiteSettings.Proofs.SafeSettings

/-!
# Where a mapping cannot be generated

The generator has no code for an empty composite.  Of several it reports the first one, depth first,
by the keys that lead there, and then it adds no statement: all assignments are there before the
first of them goes into a document.

The order of the search is that of `ValueSpec.places`, which has every specification within the
given one and no other (`ValueSpec.within_iff_mem_places`).  The keys of single entries, which move
onto the target of an assignment, and those inside an array literal are parts of one path; nothing
of an earlier entry is left on it when a later one is reached.
-/

namespace SiteSettings

open Php Generator

/-! ## Places are the specifications within -/

namespace ValueSpec

mutual

theorem within_of_mem_places :
    ∀ {spec : ValueSpec} {path : List String} {place : List String × ValueSpec},
    place ∈ spec.places path → place.2.Within spec
  | .leaf _, _, _, h => by
    obtain rfl := List.mem_singleton.mp h
    exact .refl _
  | .composite _, _, _, h => by
    rcases List.mem_cons.mp h with rfl | h
    · exact .refl _
    · obtain ⟨e, he, hwithin⟩ := within_of_mem_entryPlaces h
      exact .entry he hwithin

theorem within_of_mem_entryPlaces : ∀ {entries : List (Key × ValueSpec)} {path : List String}
    {place : List String × ValueSpec}, place ∈ entryPlaces path entries →
      ∃ e ∈ entries, place.2.Within e.2
  | [], _, _, h => nomatch h
  | (key, spec) :: rest, _, _, h => by
    rcases List.mem_append.mp h with h | h
    · exact ⟨(key, spec), List.mem_cons_self, within_of_mem_places h⟩
    · obtain ⟨e, he, hwithin⟩ := within_of_mem_entryPlaces h
      exact ⟨e, List.mem_cons_of_mem _ he, hwithin⟩

end

/-- Every specification within another one has a place, and nothing else has. -/
theorem within_iff_mem_places {inner spec : ValueSpec} (path : List String) :
    inner.Within spec ↔ ∃ place ∈ spec.places path, place.2 = inner := by
  constructor
  · intro h
    induction h generalizing path with
    | refl =>
      refine ⟨(path, inner), ?_, rfl⟩
      cases inner with
      | leaf variableName => exact List.mem_singleton_self _
      | composite entries => exact List.mem_cons_self
    | @entry entry entries hmem _ ih =>
      obtain ⟨place, hplace, hinner⟩ := ih (path ++ [entry.1.text])
      have hentry := mem_entryPlaces_iff.mpr ⟨entry, hmem, hplace⟩
      exact ⟨place, List.mem_cons_of_mem _ hentry, hinner⟩
  · rintro ⟨place, hplace, rfl⟩
    exact within_of_mem_places hplace

end ValueSpec

/-! ## The first empty composite -/

/-- Whether a path leads to the first empty composite among places. -/
def IsFirstEmpty (places : List (List String × ValueSpec)) (path : List String) : Prop :=
  ∃ before after, places = before ++ (path, .composite []) :: after ∧
    ∀ place ∈ before, place.2 ≠ .composite []

/-- Whether the result for specifications, each given with its path, is an error exactly if an empty
composite is somewhere within them, and the error then names the first one. -/
structure FailsAtFirstEmpty {α : Type} (roots : List (List String × ValueSpec))
    (result : Except SettingError α) : Prop where
  fails_iff : (∃ error, result = .error error) ↔
    ∃ root ∈ roots, (ValueSpec.composite []).Within root.2
  names_first : ∀ error, result = .error error →
    ∃ path, IsFirstEmpty (roots.flatMap fun root => root.2.places root.1) path ∧
      error = .emptyComposite (dotted path)

theorem emptyAt?_eq_some_iff {place : List String × ValueSpec} {error : SettingError} :
    emptyAt? place = some error ↔
      place.2 = .composite [] ∧ error = .emptyComposite (dotted place.1) := by
  obtain ⟨path, spec⟩ := place
  cases spec with
  | leaf variableName => simp [emptyAt?]
  | composite entries =>
    cases entries with
    | nil => simp [emptyAt?, eq_comm]
    | cons entry rest => simp [emptyAt?]

theorem failsAtFirstEmpty_answerUnless {α : Type} (roots : List (List String × ValueSpec))
    (answer : α) :
    FailsAtFirstEmpty roots
      (answerUnless emptyAt? (roots.flatMap fun root => root.2.places root.1) answer) where
  fails_iff := by
    rw [exists_answerUnless_eq_error_iff]
    constructor
    · rintro ⟨place, hplace, hfault⟩
      obtain ⟨root, hroot, hplace⟩ := List.mem_flatMap.mp hplace
      obtain ⟨error, herror⟩ := Option.isSome_iff_exists.mp hfault
      obtain ⟨hempty, -⟩ := emptyAt?_eq_some_iff.mp herror
      exact ⟨root, hroot, (ValueSpec.within_iff_mem_places root.1).mpr ⟨place, hplace, hempty⟩⟩
    · rintro ⟨root, hroot, hwithin⟩
      obtain ⟨place, hplace, hempty⟩ := (ValueSpec.within_iff_mem_places root.1).mp hwithin
      refine ⟨place, List.mem_flatMap.mpr ⟨root, hroot, hplace⟩, ?_⟩
      rw [emptyAt?_eq_some_iff.mpr ⟨hempty, rfl⟩]
      rfl
  names_first := by
    intro error h
    obtain ⟨before, ⟨path, spec⟩, after, hplaces, hfault, hbefore⟩ :=
      List.findSome?_eq_some_iff.mp (answerUnless_eq_error_iff.mp h)
    obtain ⟨rfl, rfl⟩ := emptyAt?_eq_some_iff.mp hfault
    refine ⟨path, ⟨before, after, hplaces, ?_⟩, rfl⟩
    intro place hplace hempty
    have hnone := hbefore place hplace
    rw [emptyAt?_eq_some_iff.mpr ⟨hempty, rfl⟩] at hnone
    cases hnone

/-! ## Adding to a document in place -/

namespace Generator

variable {options : GeneratorOptions}

/-- Makes the assignments and then adds them one after another to the document at hand.  The answer
is how many there are. -/
def appendSettings (options : GeneratorOptions) (settings : SettingsMap) :
    ExceptT SettingError (StateM Document) Nat := do
  let stmts ← ExceptT.mk (pure (assignments options settings))
  stmts.forM fun stmt => modify fun doc => doc.push stmt
  pure stmts.length

theorem run_forM_push (stmts : List Stmt) (doc : Document) :
    (stmts.forM fun stmt => modify fun doc => doc.push stmt :
      ExceptT SettingError (StateM Document) PUnit).run.run doc = (.ok (), doc.append stmts) := by
  induction stmts generalizing doc with
  | nil =>
    show (Except.ok (), doc) = (.ok (), doc.append [])
    rw [Document.append, List.append_nil]
  | cons stmt rest ih =>
    have hpush : (doc.push stmt).append rest = doc.append (stmt :: rest) := by
      simp [Document.push, Document.append]
    rw [← hpush, ← ih]
    rfl

/-- In place the same is added, and on an error nothing. -/
theorem run_appendSettings (settings : SettingsMap) (doc : Document) :
    (appendSettings options settings).run.run doc =
      match addSettings options settings doc with
      | .ok (doc', count) => (.ok count, doc')
      | .error error => (.error error, doc) := by
  rw [addSettings]
  cases hstmts : assignments options settings with
  | error error =>
    rw [appendSettings, hstmts]
    rfl
  | ok stmts =>
    have hpush := run_forM_push stmts doc
    rw [appendSettings, hstmts]
    show ((stmts.forM fun stmt => modify fun doc => doc.push stmt) >>= fun _ => pure stmts.length :
      ExceptT SettingError (StateM Document) Nat).run.run doc = (.ok stmts.length, doc.append stmts)
    rw [ExceptT.run_bind, StateT.run_bind, hpush]
    rfl

/-! ## Failing and adding -/

/-- Whether a statement is the assignment of a setting, whatever its comments. -/
def IsAssignmentOf (options : GeneratorOptions) (setting : String × ValueSpec) (stmt : Stmt) :
    Prop :=
  ∃ expr comments, assignment options setting.1 setting.2 = .ok expr ∧
    stmt = .expression expr comments

theorem forall₂_assignmentStatements {settings : SettingsMap} (h : settings.isFilled) :
    List.Forall₂ (IsAssignmentOf options) settings.entries
      (settings.assignmentStatements options) := by
  have hall : ∀ e ∈ settings.entries, ∀ comments,
      IsAssignmentOf options e (.expression (e.2.assignedTo options (.variable e.1)) comments) := by
    intro e he comments
    exact ⟨_, comments, assignment_eq (List.all_eq_true.mp h e he) e.1, rfl⟩
  rw [SettingsMap.assignmentStatements, SettingsMap.assignmentCode]
  cases hentries : settings.entries with
  | nil => exact .nil
  | cons first rest =>
    rw [hentries] at hall
    obtain ⟨hfirst, hrest⟩ := List.forall_mem_cons.mp hall
    refine .cons (hfirst _) ?_
    rw [List.map_map, List.forall₂_map_right_iff]
    exact List.forall₂_same.mpr fun e he => hrest e he _

theorem addSettings_eq_answerUnless (settings : SettingsMap) (doc : Document) :
    addSettings options settings doc = answerUnless emptyAt? settings.places
      (doc.append (settings.assignmentStatements options), settings.size) := by
  rw [addSettings, assignments_eq_answerUnless, ← settings.length_assignmentStatements options]
  exact answerUnless_bind_of_ok rfl

/-- **Generating fails at the first empty composite and at nothing else.**  A mapping with one
anywhere is refused with its path, and the document stays as it is; every other mapping adds
one assignment for each of its settings, in order. The assignment of a single setting fails in
the same way, its path beginning with the name, and so does an array literal, where the path
begins with a key. -/
theorem addSettings_fails_at_first_empty (options : GeneratorOptions) :
    (∀ (settings : SettingsMap) (doc : Document),
      FailsAtFirstEmpty (settings.entries.map fun e => ([e.1], e.2))
        (addSettings options settings doc) ∧
        (∀ error, addSettings options settings doc = .error error →
          (appendSettings options settings).run.run doc = (.error error, doc)) ∧
        ∀ doc' count, addSettings options settings doc = .ok (doc', count) →
          (appendSettings options settings).run.run doc = (.ok count, doc') ∧
            count = settings.entries.length ∧
            ∃ stmts, doc' = doc.append stmts ∧
              List.Forall₂ (IsAssignmentOf options) settings.entries stmts) ∧
      (∀ (name : String) (spec : ValueSpec),
        FailsAtFirstEmpty [([name], spec)] (assignment options name spec)) ∧
      ∀ entries : List (Key × ValueSpec),
        FailsAtFirstEmpty [([], .composite entries)] (arrayLiteral options entries) := by
  refine ⟨?_, ?_, ?_⟩
  · intro settings doc
    refine ⟨?_, ?_, ?_⟩
    · have hplaces : settings.places =
          (settings.entries.map fun e => ([e.1], e.2)).flatMap fun root =>
            root.2.places root.1 := by
        rw [List.flatMap_map, SettingsMap.places]
      rw [addSettings_eq_answerUnless, hplaces]
      exact failsAtFirstEmpty_answerUnless _ _
    · intro error herror
      rw [run_appendSettings, herror]
    · intro doc' count hok
      have hrun : (appendSettings options settings).run.run doc = (.ok count, doc') := by
        rw [run_appendSettings, hok]
      rw [addSettings_eq_answerUnless, answerUnless_eq_ok_iff,
        ← settings.isFilled_iff_places] at hok
      obtain ⟨hfilled, hanswer⟩ := hok
      obtain ⟨rfl, rfl⟩ := Prod.mk.inj hanswer
      exact ⟨hrun, rfl, _, rfl, forall₂_assignmentStatements hfilled⟩
  · intro name spec
    have hplaces : spec.places [name] =
        [([name], spec)].flatMap fun root : List String × ValueSpec => root.2.places root.1 :=
      (List.append_nil _).symm
    rw [assignment_eq_answerUnless, hplaces]
    exact failsAtFirstEmpty_answerUnless _ _
  · intro entries
    have hplaces : (ValueSpec.composite entries).places [] =
        [([], .composite entries)].flatMap fun root : List String × ValueSpec =>
          root.2.places root.1 :=
      (List.append_nil _).symm
    rw [arrayLiteral, entryValue_eq, hplaces]
    exact failsAtFirstEmpty_answerUnless _ _

/-- Two empty composites behind nested siblings, below a single entry and an integer key: the first
one is reported. Without them there are two assignments. -/
theorem addSettings_fails_at_first_empty_nested :
    let nested : ValueSpec := .composite [(.string "a", .composite [(.string "deep", .leaf "A")]),
      (.string "b", .composite [(.integer 5, .composite [])]), (.string "c", .composite [])]
    let bad : SettingsMap := ⟨[("ok", .leaf "OK"), ("x", .composite [(.string "k", nested)])]⟩
    let good : SettingsMap := ⟨[("ok", .leaf "OK"), ("x", .composite [(.string "k", .leaf "A")])]⟩
    let doc : Document := ⟨[.verbatim ⟨"<?php\n", true⟩]⟩
    addSettings {} bad doc = .error (.emptyComposite "x.k.b.5") ∧
      (appendSettings {} bad).run.run doc = (.error (.emptyComposite "x.k.b.5"), doc) ∧
      (∃ path, IsFirstEmpty bad.places path ∧ dotted path = "x.k.b.5") ∧
      ∃ doc', addSettings {} good doc = .ok (doc', 2) ∧ doc'.statements.length = 3 := by
  intro nested bad good doc
  have hbad : addSettings {} bad doc = .error (.emptyComposite "x.k.b.5") := rfl
  obtain ⟨doc', hgood⟩ : ∃ doc', addSettings {} good doc = .ok (doc', 2) := ⟨_, rfl⟩
  obtain ⟨hfails, hsame, -⟩ := (addSettings_fails_at_first_empty {}).1 bad doc
  obtain ⟨path, hfirst, hpath⟩ := hfails.names_first _ hbad
  obtain ⟨-, -, stmts, hdoc', hstmts⟩ :=
    ((addSettings_fails_at_first_empty {}).1 good doc).2.2 doc' 2 hgood
  refine ⟨hbad, hsame _ hbad, ⟨path, ?_, ?_⟩, doc', hgood, ?_⟩
  · rw [List.flatMap_map] at hfirst
    exact hfirst
  · exact (SettingError.emptyComposite.inj hpath).symm
  · rw [hdoc', Document.append, List.length_append, ← hstmts.length_eq]
    rfl

end Generator
end SiteSettings
