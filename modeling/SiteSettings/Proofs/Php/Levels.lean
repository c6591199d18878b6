import SiteSettings.Php.Levels

/-!
# How deep the levels get

Two things are said about the levels of generated code.  They are `Gradual`: nothing stands more
than one level deeper than what came before.  And a whole `Reaches` a deepest level, which is the
greatest of those that its parts reach.
-/

namespace SiteSettings
namespace Php

/-! ## Step by step -/

/-- Whether every level is at most one step deeper than the deepest one before it, `deepest`
at the start. -/
def Gradual (deepest : Nat) : List Nat → Prop
  | [] => True
  | level :: rest => level ≤ deepest + 1 ∧ Gradual (max deepest level) rest

theorem Gradual.mono {levels : List Nat} {deepest deeper : Nat} (h : Gradual deepest levels)
    (hle : deepest ≤ deeper) : Gradual deeper levels := by
  induction levels generalizing deepest deeper with
  | nil => trivial
  | cons level rest ih =>
    obtain ⟨hlevel, hrest⟩ := h
    exact ⟨by omega, ih hrest (by omega)⟩

theorem Gradual.append {levels more : List Nat} {deepest : Nat} (h : Gradual deepest levels)
    (hmore : Gradual deepest more) : Gradual deepest (levels ++ more) := by
  induction levels generalizing deepest with
  | nil => exact hmore
  | cons level rest ih =>
    obtain ⟨hlevel, hrest⟩ := h
    exact ⟨hlevel, ih hrest (hmore.mono (by omega))⟩

/-- The lines of a block stand one step deeper than the block. -/
theorem Gradual.block {levels : List Nat} {depth : Nat} (h : Gradual (depth + 1) levels) :
    Gradual depth ([depth + 1] ++ (levels ++ [depth])) := by
  refine ⟨Nat.le_refl _, ?_⟩
  rw [Nat.max_eq_right (Nat.le_succ depth)]
  exact h.append ⟨by omega, trivial⟩

mutual

theorem Expr.gradual_levels (depth : Nat) : ∀ expr : Expr, Gradual depth (expr.levels depth)
  | .variable _ => trivial
  | .element base index => (base.gradual_levels depth).append (index.gradual_levels depth)
  | .assign target value => (target.gradual_levels depth).append (value.gradual_levels depth)
  | .call _ arguments => gradual_argumentLevels depth arguments
  | .inclusion _ path => path.gradual_levels depth
  | .array [] => trivial
  | .array (item :: items) => by
    rw [Expr.levels, ← List.append_assoc (itemLevels _ item)]
    exact ((gradual_itemLevels _ item).append (gradual_itemsLevels _ items)).block
  | .scalar _ => trivial

theorem gradual_argumentLevels (depth : Nat) : ∀ arguments : List Expr,
    Gradual depth (argumentLevels depth arguments)
  | [] => trivial
  | argument :: rest => (argument.gradual_levels depth).append (gradual_argumentLevels depth rest)

theorem gradual_itemLevels (depth : Nat) : ∀ item : ArrayItem, Gradual depth (itemLevels depth item)
  | .plain value => value.gradual_levels depth
  | .keyed key value => (key.gradual_levels depth).append (value.gradual_levels depth)

theorem gradual_itemsLevels (depth : Nat) : ∀ items : List ArrayItem,
    Gradual depth (itemsLevels depth items)
  | [] => trivial
  | item :: rest => (gradual_itemLevels depth item).append (gradual_itemsLevels depth rest)

end

mutual

theorem Stmt.gradual_levels (depth : Nat) : ∀ stmt : Stmt, Gradual depth (stmt.levels depth)
  | .verbatim _ => trivial
  | .expression value _ => value.gradual_levels depth
  | .ifThen condition body _ =>
    (condition.gradual_levels depth).append (gradual_bodyLevels _ body).block

theorem gradual_bodyLevels (depth : Nat) :
    ∀ stmts : List Stmt, Gradual depth (bodyLevels depth stmts)
  | [] => trivial
  | stmt :: rest => (stmt.gradual_levels depth).append (gradual_bodyLevels depth rest)

end

/-- Whatever is deep in a document comes behind something that is one step less so. -/
theorem Document.gradual_levels (doc : Document) : Gradual 0 doc.levels := by
  rw [levels]
  induction doc.statements with
  | nil => trivial
  | cons stmt rest ih => exact (stmt.gradual_levels 0).append ih

/-! ## The deepest level -/

/-- Whether `deepest` is where the levels of something that stands at nesting `depth` end: none is
deeper, and it is one of them, unless they stay where they start. -/
structure Reaches (depth deepest : Nat) (levels : List Nat) : Prop where
  depth_le : depth ≤ deepest
  le : ∀ level ∈ levels, level ≤ deepest
  mem : depth < deepest → deepest ∈ levels

namespace Reaches

variable {depth deepest deeper : Nat} {levels more : List Nat}

theorem nil (depth : Nat) : Reaches depth depth [] :=
  ⟨Nat.le_refl depth, List.forall_mem_nil _, fun h => absurd h (Nat.lt_irrefl depth)⟩

theorem append (h : Reaches depth deepest levels) (hmore : Reaches depth deeper more) :
    Reaches depth (max deepest deeper) (levels ++ more) where
  depth_le := Nat.le_trans h.depth_le (Nat.le_max_left ..)
  le := List.forall_mem_append.mpr
    ⟨fun level hlevel => Nat.le_trans (h.le level hlevel) (Nat.le_max_left ..),
      fun level hlevel => Nat.le_trans (hmore.le level hlevel) (Nat.le_max_right ..)⟩
  mem hlt := by
    rcases Nat.le_total deepest deeper with hle | hle
    · rw [Nat.max_eq_right hle] at hlt ⊢
      exact List.mem_append_right _ (hmore.mem hlt)
    · rw [Nat.max_eq_left hle] at hlt ⊢
      exact List.mem_append_left _ (h.mem hlt)

/-- A block reaches what its lines reach. -/
theorem block (h : Reaches (depth + 1) deepest levels) :
    Reaches depth deepest ([depth + 1] ++ (levels ++ [depth])) where
  depth_le := Nat.le_of_succ_le h.depth_le
  le := by
    have hdepth := h.depth_le
    simp only [List.singleton_append, List.forall_mem_cons, List.forall_mem_append]
    exact ⟨hdepth, h.le, Nat.le_of_succ_le hdepth, List.forall_mem_nil _⟩
  mem _ := by
    rcases Nat.lt_or_eq_of_le h.depth_le with hlt | rfl
    · exact List.mem_append_right _ (List.mem_append_left _ (h.mem hlt))
    · exact List.mem_cons_self

end Reaches

end Php
end SiteSettings
