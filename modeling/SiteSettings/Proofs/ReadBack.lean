import SiteSettings.Proofs.Assignments
import SiteSettings.Proofs.Php.Reading

/-!
# Generated statements read back

Every statement that the generator adds is code that can be read back, so that printing it loses
nothing and nothing in it can break out of it: not the names of settings and variables, not the
keys, not the path of the include guard.

Two things are asked for.  The function that looks variables up must have the name of a function,
because the name is written as it is.  And the finite floats among the keys must be read back from
their shortest digits as the same numbers.
-/

namespace SiteSettings

open Php Generator

/-! ## Keys -/

mutual

/-- The keys of a specification at every depth, in order. -/
def ValueSpec.keys : ValueSpec → List Key
  | .leaf _ => []
  | .composite entries => entryKeys entries
termination_by structural spec => spec

/-- The keys of entries and those below them. -/
def entryKeys : List (Key × ValueSpec) → List Key
  | [] => []
  | (key, spec) :: rest => key :: (spec.keys ++ entryKeys rest)
termination_by structural entries => entries

end

def SettingsMap.keys (settings : SettingsMap) : List Key :=
  settings.entries.flatMap fun e => e.2.keys

/-- Whether a key is read back from its literal, which is a question for finite floats only. -/
def Key.ReadsBack : Key → Prop
  | .float x => x.isFinite → x.ReadsBack
  | _ => True

theorem Key.isReadable_keyLiteral {key : Key} (h : key.ReadsBack) :
    (keyLiteral key).IsReadable := by
  cases key with
  | float x => exact h
  | _ => trivial

/-! ## Code -/

section

variable {options : GeneratorOptions}

theorem isReadable_lookup (hname : isIdentifier options.lookupFunction) (variableName : String) :
    (lookup options variableName).IsReadable :=
  ⟨hname, trivial, trivial⟩

mutual

theorem ValueSpec.isReadable_code (hname : isIdentifier options.lookupFunction) :
    ∀ {spec : ValueSpec}, (∀ key ∈ spec.keys, key.ReadsBack) →
    (spec.code options).IsReadable
  | .leaf variableName, _ => isReadable_lookup hname variableName
  | .composite _, h => itemsReadable_entriesCode hname h

theorem itemsReadable_entriesCode (hname : isIdentifier options.lookupFunction) :
    ∀ {entries : List (Key × ValueSpec)},
    (∀ key ∈ entryKeys entries, key.ReadsBack) → ItemsReadable (entriesCode options entries)
  | [], _ => trivial
  | (key, spec) :: rest, h => by
    rw [entryKeys, List.forall_mem_cons, List.forall_mem_append] at h
    obtain ⟨hkey, hspec, hrest⟩ := h
    have hitem : (ArrayItem.keyed (keyLiteral key) (spec.code options)).IsReadable :=
      ⟨Key.isReadable_keyLiteral hkey, ValueSpec.isReadable_code hname hspec⟩
    exact ⟨hitem, itemsReadable_entriesCode hname hrest⟩

end

theorem ValueSpec.isReadable_assignedTo (hname : isIdentifier options.lookupFunction)
    {target : Expr} (hplace : target.isPlace) (htarget : target.IsReadable) {spec : ValueSpec}
    (h : ∀ key ∈ spec.keys, key.ReadsBack) : (spec.assignedTo options target).IsReadable := by
  fun_induction ValueSpec.assignedTo options target spec with
  | case1 target key spec ih =>
    obtain ⟨hkey, hspec⟩ : key.ReadsBack ∧ ∀ k ∈ spec.keys, k.ReadsBack := by
      simpa [ValueSpec.keys, entryKeys] using h
    exact ih hplace ⟨hplace, htarget, Key.isReadable_keyLiteral hkey⟩ hspec
  | case2 target spec _ => exact ⟨hplace, htarget, ValueSpec.isReadable_code hname h⟩

theorem isReadable_assignmentStatements (hname : isIdentifier options.lookupFunction)
    {settings : SettingsMap} (h : ∀ key ∈ settings.keys, key.ReadsBack) :
    ∀ stmt ∈ settings.assignmentStatements options, stmt.IsReadable := by
  have hcode : ∀ value ∈ settings.assignmentCode options, value.IsReadable := by
    refine List.forall_mem_map.mpr fun e he => ?_
    have hkeys : ∀ key ∈ e.2.keys, key.ReadsBack := fun key hkey =>
      h key (List.mem_flatMap.mpr ⟨e, he, hkey⟩)
    have htarget : (Expr.variable e.1).IsReadable := trivial
    exact ValueSpec.isReadable_assignedTo hname rfl htarget hkeys
  rw [SettingsMap.assignmentStatements]
  cases hexprs : settings.assignmentCode options with
  | nil => exact List.forall_mem_nil _
  | cons first rest =>
    rw [hexprs, List.forall_mem_cons] at hcode
    refine List.forall_mem_cons.mpr ⟨hcode.1, List.forall_mem_map.mpr fun value hvalue => ?_⟩
    exact hcode.2 value hvalue

end

theorem isReadable_includeGuard (options : GeneratorOptions) :
    (includeGuard options).IsReadable := by
  have hname : isIdentifier "file_exists" := by decide
  exact ⟨⟨hname, trivial, trivial⟩, rfl, trivial, trivial⟩

/-! ## Statements -/

/-- **Generated statements are read back**: at any indentation, and whatever follows, the reader
takes exactly the text of the statement and answers with the statement itself, without the comments
that stand above it and with one number that is not a number in place of all of them. -/
theorem statement_text_generated {options : GeneratorOptions}
    (hname : isIdentifier options.lookupFunction)
    {settings : SettingsMap} (hkeys : ∀ key ∈ settings.keys, key.ReadsBack) {stmt : Stmt}
    (h : stmt = includeGuard options ∨
      ∃ stmts, assignments options settings = .ok stmts ∧ stmt ∈ stmts)
    (indent depth : Nat) (rest : List Char) :
    CodeReader.statement ((stmt.text indent depth).toList ++ rest) =
      some ((stmt.withComments []).oneNaN, rest) := by
  have hreadable : stmt.IsReadable := by
    rcases h with rfl | ⟨stmts, hstmts, hmem⟩
    · exact isReadable_includeGuard options
    · rw [(assignments_eq_ok_iff.mp hstmts).2] at hmem
      exact isReadable_assignmentStatements hname hkeys stmt hmem
  exact CodeReader.statement_text indent hreadable depth rest

/-- Quotes, backslashes, a closing tag, an empty text and a float do no harm, nor does
what follows. -/
theorem statement_text_generated_quotes :
    let half : Binary64 := ⟨0x3FE0000000000000⟩
    let settings : SettingsMap := ⟨[("it's ?>", .composite [(.float half, .leaf "A\\"),
      (.string "", .composite [(.boolean true, .leaf "'")])])]⟩
    let value : Expr := .assign (.variable "it's ?>") (.array [
      .keyed (.scalar (.float half)) (.call "getenv" [.string "A\\"]),
      .keyed (.string "") (.array [.keyed (.scalar (.integer 1)) (.call "getenv" [.string "'"])])])
    let stmt : Stmt := .expression value [GeneratorOptions.environmentComment {}]
    isIdentifier "getenv" ∧ half.ReadsBack ∧ assignments {} settings = .ok [stmt] ∧
      CodeReader.statement ((stmt.text 2 0).toList ++ "'; ?>".toList) =
        some (.expression value.oneNaN [], "'; ?>".toList) := by
  intro half settings value stmt
  have hname : isIdentifier "getenv" := by decide
  have hhalf : half.ReadsBack := by
    unfold Binary64.ReadsBack
    decide
  have hkeys : ∀ key ∈ settings.keys, key.ReadsBack := by
    have hall : settings.keys = [.float half, .string "", .boolean true] := by rfl
    rw [hall]
    exact List.forall_mem_cons.mpr ⟨fun _ => hhalf, List.forall_mem_cons.mpr ⟨trivial,
      List.forall_mem_cons.mpr ⟨trivial, fun _ h => nomatch h⟩⟩⟩
  have hstmts : assignments {} settings = .ok [stmt] := by rfl
  exact ⟨hname, hhalf, hstmts, statement_text_generated hname hkeys
    (.inr ⟨[stmt], hstmts, List.mem_singleton_self stmt⟩) 2 0 "'; ?>".toList⟩

end SiteSettings
