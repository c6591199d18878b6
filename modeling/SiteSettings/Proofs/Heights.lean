import SiteSettings.Proofs.Meaning
import SiteSettings.Proofs.Php.Levels
import SiteSettings.SettingsFile

/-!
# How deep a settings file gets

The deepest level of a settings file is that of its most deeply nested array literal, or the one of
the line inside the include guard if no literal has lines of its own.  The deepest level of a
literal is the height of what it is written out from.

So one product says whether a settings file can be printed: the spaces for each level times the
deepest level (`SettingsFile.widest`).
-/

namespace SiteSettings

open Php Generator

/-! ## Specifications and mappings -/

mutual

/-- How many array literals with lines of their own stand within one another where a specification
is written out. -/
def ValueSpec.height : ValueSpec → Nat
  | .leaf _ => 0
  | .composite entries => if entries.isEmpty then 0 else entriesHeight entries + 1
termination_by structural spec => spec

def entriesHeight : List (Key × ValueSpec) → Nat
  | [] => 0
  | (_, spec) :: rest => max spec.height (entriesHeight rest)
termination_by structural entries => entries

end

/-- The same for a mapping: the greatest height of what is left for the values of
its assignments. -/
def SettingsMap.height (settings : SettingsMap) : Nat :=
  (settings.entries.map fun e => e.2.core.height).foldr max 0

variable {options : GeneratorOptions}

theorem levels_keyLiteral (key : Key) (depth : Nat) : (keyLiteral key).levels depth = [] := by
  cases key <;> rfl

mutual

/-- Written out at some depth, a specification reaches as many levels below it as it is high. -/
theorem ValueSpec.reaches_code (depth : Nat) : ∀ spec : ValueSpec,
    Reaches depth (depth + spec.height) ((spec.code options).levels depth)
  | .leaf _ => .nil depth
  | .composite [] => .nil depth
  | .composite ((key, spec) :: entries) => by
    have hlines := reaches_entriesCode (depth + 1) ((key, spec) :: entries)
    have hheight : (ValueSpec.composite ((key, spec) :: entries)).height =
        entriesHeight ((key, spec) :: entries) + 1 := rfl
    rw [hheight, ValueSpec.code, entriesCode, Expr.levels, ← List.append_assoc (itemLevels _ _),
      Nat.add_comm _ 1, ← Nat.add_assoc]
    exact hlines.block

theorem reaches_entriesCode (depth : Nat) : ∀ entries : List (Key × ValueSpec),
    Reaches depth (depth + entriesHeight entries) (itemsLevels depth (entriesCode options entries))
  | [] => .nil depth
  | (key, spec) :: rest => by
    have hlines := (ValueSpec.reaches_code depth spec).append (reaches_entriesCode depth rest)
    rw [entriesHeight, ← Nat.add_max_add_left, entriesCode, itemsLevels, itemLevels,
      levels_keyLiteral, List.nil_append]
    exact hlines

end

/-- The keys of single entries need no lines. -/
theorem levels_assignedTo (name : String) (spec : ValueSpec) :
    (spec.assignedTo options (.variable name)).levels 0 = (spec.core.code options).levels 0 := by
  have htarget (keys : List Key) (target : Expr) (h : target.levels 0 = []) :
      (keys.foldl (fun base key => .element base (keyLiteral key)) target).levels 0 = [] := by
    induction keys generalizing target with
    | nil => exact h
    | cons key rest ih =>
      refine ih _ ?_
      rw [Expr.levels, h, levels_keyLiteral, List.append_nil]
  rw [ValueSpec.assignedTo_eq, Expr.levels, htarget _ _ rfl, List.nil_append]

theorem levels_assignmentStatements (settings : SettingsMap) :
    (settings.assignmentStatements options).flatMap (Stmt.levels 0) =
      (settings.assignmentCode options).flatMap (Expr.levels 0) := by
  rw [SettingsMap.assignmentStatements]
  cases settings.assignmentCode options with
  | nil => rfl
  | cons first rest => simp [Stmt.levels, List.flatMap_map]

theorem reaches_assignmentCode (settings : SettingsMap) :
    Reaches 0 settings.height ((settings.assignmentCode options).flatMap (Expr.levels 0)) := by
  rw [SettingsMap.height, SettingsMap.assignmentCode]
  induction settings.entries with
  | nil => exact .nil 0
  | cons entry rest ih =>
    have hentry : Reaches 0 (0 + entry.2.core.height) ((entry.2.core.code options).levels 0) :=
      entry.2.core.reaches_code 0
    rw [Nat.zero_add, ← levels_assignedTo entry.1] at hentry
    exact hentry.append ih

/-! ## The settings file -/

namespace SettingsFile

/-- The document of a settings file: the chunks of the template, the guard and the assignments. -/
def completed (chunks : List Chunk) (settings : SettingsMap) (options : GeneratorOptions) :
    Document :=
  ⟨chunks.map .verbatim ++ [includeGuard options] ++ settings.assignmentStatements options⟩

/-- The template has no levels, the guard has one, and the assignments have those of
their literals. -/
theorem reaches_completed (chunks : List Chunk) (settings : SettingsMap)
    (options : GeneratorOptions) :
    Reaches 0 (max 1 settings.height) (completed chunks settings options).levels := by
  have htemplate : (chunks.map Stmt.verbatim).flatMap (Stmt.levels 0) = [] := by
    simp [List.flatMap_map, Stmt.levels]
  have hguard : Reaches 0 1 ((includeGuard options).levels 0) := Reaches.block (.nil 1)
  have hassignments :
      Reaches 0 settings.height ((settings.assignmentCode options).flatMap (Expr.levels 0)) :=
    reaches_assignmentCode settings
  rw [Document.levels, completed, List.flatMap_append, List.flatMap_append, htemplate,
    List.nil_append, List.flatMap_singleton, levels_assignmentStatements]
  exact hguard.append hassignments

/-- The widest margin in the settings file of a mapping. -/
def widest (settings : SettingsMap) (indent : UInt64) : Nat :=
  indent.toNat * max 1 settings.height

/-- The settings file is printed exactly if its widest margin is no longer than a text can be. -/
theorem print?_completed (chunks : List Chunk) (settings : SettingsMap)
    (options : GeneratorOptions) :
    (completed chunks settings options).print? options.indent =
      if widest settings options.indent ≤ Text.longest then
        some ((completed chunks settings options).render options.indent.toNat)
      else none := by
  have hreaches := reaches_completed chunks settings options
  refine if_congr ⟨fun h => ?_, fun h level hlevel => ?_⟩ rfl rfl
  · exact h _ (hreaches.mem (by omega))
  · exact Nat.le_trans (Nat.mul_le_mul_left _ (hreaches.le level hlevel)) h

end SettingsFile

end SiteSettings
