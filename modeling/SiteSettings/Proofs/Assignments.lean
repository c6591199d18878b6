import SiteSettings.Generator
import SiteSettings.Proofs.Results

/-!
# The code of settings without empty composites

The generator answers with an error for one reason only: a composite without entries.  Where there
is none, every specification has its code, and that code is a plain function of the specification:
`ValueSpec.code` is the value written for it inside an array literal, `ValueSpec.assignedTo` the
whole assignment, in which the keys of single entries have moved onto the target.

The recursion of both follows the specification alone.  The dotted paths that the generator carries
along are needed for its errors and nothing else.  They are those of `ValueSpec.places`, which lists
the specifications within one in the order in which the generator comes to them; so each of its
functions answers with the code, unless one of the places is an empty composite, and with the first
of these if one is (`answerUnless`).  In particular whatever has code has no empty composite
(`assignments_eq_ok_iff`).
-/

namespace SiteSettings

open Php Generator

/-! ## Specifications that can be generated -/

mutual

/-- Whether no composite in the specification is empty. -/
def ValueSpec.isFilled : ValueSpec → Bool
  | .leaf _ => true
  | .composite entries => !entries.isEmpty && entriesFilled entries
termination_by structural spec => spec

/-- Whether no composite below any of the entries is empty. -/
def entriesFilled : List (Key × ValueSpec) → Bool
  | [] => true
  | (_, spec) :: rest => spec.isFilled && entriesFilled rest
termination_by structural entries => entries

end

/-- Whether no composite anywhere in the mapping is empty. -/
def SettingsMap.isFilled (settings : SettingsMap) : Bool :=
  settings.entries.all fun (_, spec) => spec.isFilled

theorem entriesFilled_eq_all (entries : List (Key × ValueSpec)) :
    entriesFilled entries = entries.all fun (_, spec) => spec.isFilled := by
  induction entries with
  | nil => rfl
  | cons entry rest ih => simp [entriesFilled, ih]

theorem ValueSpec.isFilled_composite {entries : List (Key × ValueSpec)} :
    (ValueSpec.composite entries).isFilled ↔ entries ≠ [] ∧ ∀ e ∈ entries, e.2.isFilled := by
  simp [ValueSpec.isFilled, entriesFilled_eq_all]

/-! ## Their code -/

mutual

/-- The value written for a specification inside an array literal. -/
def ValueSpec.code (options : GeneratorOptions) : ValueSpec → Expr
  | .leaf variableName => lookup options variableName
  | .composite entries => .array (entriesCode options entries)
termination_by structural spec => spec

/-- One keyed item for each entry, in order. -/
def entriesCode (options : GeneratorOptions) : List (Key × ValueSpec) → List ArrayItem
  | [] => []
  | (key, spec) :: rest => .keyed (keyLiteral key) (spec.code options) :: entriesCode options rest
termination_by structural entries => entries

end

/-- The assignment of a specification to a target. -/
def ValueSpec.assignedTo (options : GeneratorOptions) (target : Expr) : ValueSpec → Expr
  | .composite [(key, spec)] => spec.assignedTo options (.element target (keyLiteral key))
  | spec => .assign target (spec.code options)
termination_by structural spec => spec

/-- The assignments of a mapping, one for each setting, in order. -/
def SettingsMap.assignmentCode (options : GeneratorOptions) (settings : SettingsMap) : List Expr :=
  settings.entries.map fun (name, spec) => spec.assignedTo options (.variable name)

/-- The same as statements, the environment comment above the first one. -/
def SettingsMap.assignmentStatements (options : GeneratorOptions) (settings : SettingsMap) :
    List Stmt :=
  match settings.assignmentCode options with
  | [] => []
  | first :: rest =>
    .expression first [options.environmentComment] :: rest.map fun expr => .expression expr []

theorem SettingsMap.length_assignmentStatements (settings : SettingsMap)
    (options : GeneratorOptions) :
    (settings.assignmentStatements options).length = settings.size := by
  have hcode : (settings.assignmentCode options).length = settings.size := by
    simp [SettingsMap.assignmentCode, SettingsMap.size]
  rw [← hcode, SettingsMap.assignmentStatements]
  cases settings.assignmentCode options <;> simp

/-! ## Places -/

namespace ValueSpec

mutual

/-- The specifications within a specification that stands at `path`, depth first, each with
its own path. -/
def places (path : List String) : ValueSpec → List (List String × ValueSpec)
  | .leaf variableName => [(path, .leaf variableName)]
  | .composite entries => (path, .composite entries) :: entryPlaces path entries
termination_by structural spec => spec

/-- The same for the entries of a composite at `path`. -/
def entryPlaces (path : List String) : List (Key × ValueSpec) → List (List String × ValueSpec)
  | [] => []
  | (key, spec) :: rest => spec.places (path ++ [key.text]) ++ entryPlaces path rest
termination_by structural entries => entries

end

theorem mem_entryPlaces_iff {path : List String} {entries : List (Key × ValueSpec)}
    {place : List String × ValueSpec} :
    place ∈ entryPlaces path entries ↔ ∃ e ∈ entries, place ∈ e.2.places (path ++ [e.1.text]) := by
  induction entries with
  | nil => simp [entryPlaces]
  | cons entry rest ih => simp [entryPlaces, ih]

end ValueSpec

/-- The specifications within a mapping, depth first, each with its path from the name on. -/
def SettingsMap.places (settings : SettingsMap) : List (List String × ValueSpec) :=
  settings.entries.flatMap fun e => e.2.places [e.1]

/-- What is wrong at a place. -/
def emptyAt? : List String × ValueSpec → Option SettingError
  | (path, .composite []) => some (.emptyComposite (dotted path))
  | _ => none

mutual

theorem ValueSpec.isFilled_iff_places : ∀ (spec : ValueSpec) (path : List String),
    spec.isFilled ↔ ∀ place ∈ spec.places path, emptyAt? place = none
  | .leaf _, _ => by simp [ValueSpec.isFilled, ValueSpec.places, emptyAt?]
  | .composite [], _ => by simp [ValueSpec.isFilled, ValueSpec.places, emptyAt?]
  | .composite (entry :: entries), path => by
    have hself : emptyAt? (path, .composite (entry :: entries)) = none := rfl
    have hentries := entriesFilled_iff_places (entry :: entries) path
    rw [ValueSpec.isFilled_composite, ValueSpec.places, List.forall_mem_cons (a := (path, _)),
      hentries]
    exact and_congr_left fun _ => iff_of_true (List.cons_ne_nil entry entries) hself

theorem entriesFilled_iff_places : ∀ (entries : List (Key × ValueSpec)) (path : List String),
    (∀ e ∈ entries, e.2.isFilled) ↔
      ∀ place ∈ ValueSpec.entryPlaces path entries, emptyAt? place = none
  | [], _ => by simp [ValueSpec.entryPlaces]
  | (key, spec) :: rest, path => by
    rw [List.forall_mem_cons, ValueSpec.entryPlaces, List.forall_mem_append,
      ← entriesFilled_iff_places rest path, ← spec.isFilled_iff_places]

end

theorem SettingsMap.isFilled_iff_places (settings : SettingsMap) :
    settings.isFilled ↔ ∀ place ∈ settings.places, emptyAt? place = none := by
  rw [SettingsMap.isFilled, List.all_eq_true, SettingsMap.places, List.forall_mem_flatMap]
  exact forall₂_congr fun e _ => e.2.isFilled_iff_places [e.1]

/-! ## The answers of the generator -/

namespace Generator

variable {options : GeneratorOptions}

mutual

/-- The value of a specification is its code, unless an empty composite is in the way. -/
theorem entryValue_eq (path : List String) : ∀ spec : ValueSpec,
    entryValue options path spec = answerUnless emptyAt? (spec.places path) (spec.code options)
  | .leaf _ => rfl
  | .composite [] => rfl
  | .composite (entry :: entries) => by
    rw [entryValue, arrayItem_eq path entry, ValueSpec.places, answerUnless_cons_of_none rfl]
    apply answerUnless_bind
    rw [arrayItems_eq path entries]
    exact answerUnless_bind_of_ok rfl

theorem arrayItem_eq (path : List String) : ∀ entry : Key × ValueSpec,
    arrayItem options path entry = answerUnless emptyAt? (entry.2.places (path ++ [entry.1.text]))
      (.keyed (keyLiteral entry.1) (entry.2.code options))
  | (key, spec) => by
    rw [arrayItem, entryValue_eq (path ++ [key.text]) spec]
    exact answerUnless_bind_of_ok rfl

theorem arrayItems_eq (path : List String) : ∀ entries : List (Key × ValueSpec),
    arrayItems options path entries =
      answerUnless emptyAt? (ValueSpec.entryPlaces path entries) (entriesCode options entries)
  | [] => rfl
  | entry :: entries => by
    rw [arrayItems, arrayItem_eq path entry]
    apply answerUnless_bind
    rw [arrayItems_eq path entries]
    exact answerUnless_bind_of_ok rfl

end

/-- The keys of single entries go onto the target and onto the path alike. -/
theorem assignTo_eq (target : Expr) (path : List String) (spec : ValueSpec) :
    assignTo options target path spec =
      answerUnless emptyAt? (spec.places path) (spec.assignedTo options target) := by
  fun_induction ValueSpec.assignedTo options target spec generalizing path with
  | case1 target key spec ih =>
    rw [assignTo, ih, ValueSpec.places, answerUnless_cons_of_none rfl, ValueSpec.entryPlaces,
      ValueSpec.entryPlaces, List.append_nil]
  | case2 target spec hne =>
    rw [assignTo, entryValue_eq]
    · exact answerUnless_bind_of_ok rfl
    · exact hne

theorem assignment_eq_answerUnless (name : String) (spec : ValueSpec) :
    assignment options name spec =
      answerUnless emptyAt? (spec.places [name]) (spec.assignedTo options (.variable name)) :=
  assignTo_eq _ _ _

/-- A specification that can be generated is assigned by its code. -/
theorem assignment_eq {spec : ValueSpec} (h : spec.isFilled) (name : String) :
    assignment options name spec = .ok (spec.assignedTo options (.variable name)) := by
  rw [assignment_eq_answerUnless, answerUnless_eq_ok_iff]
  exact ⟨(spec.isFilled_iff_places [name]).mp h, rfl⟩

/-- A mapping has its assignments, the comment above the first one, unless an empty composite
is in the way. -/
theorem assignments_eq_answerUnless (settings : SettingsMap) :
    assignments options settings =
      answerUnless emptyAt? settings.places (settings.assignmentStatements options) := by
  have heach (e : String × ValueSpec) : assignment options e.1 e.2 = answerUnless emptyAt?
      (e.2.places [e.1]) (e.2.assignedTo options (.variable e.1)) :=
        assignment_eq_answerUnless e.1 e.2
  have hexprs : settings.entries.mapM (fun (name, spec) => assignment options name spec) =
      answerUnless emptyAt? settings.places (settings.assignmentCode options) :=
    answerUnless_mapM heach settings.entries
  rw [assignments, hexprs, answerUnless, answerUnless, SettingsMap.assignmentStatements]
  cases settings.places.findSome? emptyAt? with
  | some error => rfl
  | none => cases settings.assignmentCode options <;> rfl

/-- Exactly the mappings without empty composites have assignments. -/
theorem assignments_eq_ok_iff {settings : SettingsMap} {stmts : List Stmt} :
    assignments options settings = .ok stmts ↔
      settings.isFilled ∧ stmts = settings.assignmentStatements options := by
  rw [assignments_eq_answerUnless, answerUnless_eq_ok_iff, settings.isFilled_iff_places,
    eq_comm (a := stmts)]

theorem assignments_eq {settings : SettingsMap} (h : settings.isFilled) :
    assignments options settings = .ok (settings.assignmentStatements options) :=
  assignments_eq_ok_iff.mpr ⟨h, rfl⟩

end Generator
end SiteSettings
