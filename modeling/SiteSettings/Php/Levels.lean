import SiteSettings.Php.Syntax

/-!
# Levels of indentation

A line inside an array literal or a block stands one level deeper than the line on which that
begins, and the closing bracket goes back to where it began.  `levels` lists the levels of generated
code, in order: for every literal and every block the level of its lines, those of what is in the
lines, and the level of the bracket.
-/

namespace SiteSettings
namespace Php

mutual

/-- The levels of an expression whose first line stands at nesting `depth`. -/
def Expr.levels (depth : Nat) : Expr → List Nat
  | .variable _ => []
  | .element base index => base.levels depth ++ index.levels depth
  | .assign target value => target.levels depth ++ value.levels depth
  | .call _ arguments => argumentLevels depth arguments
  | .inclusion _ path => path.levels depth
  | .array [] => []
  | .array (item :: items) =>
    [depth + 1] ++ (itemLevels (depth + 1) item ++ (itemsLevels (depth + 1) items ++ [depth]))
  | .scalar _ => []
termination_by structural expr => expr

def argumentLevels (depth : Nat) : List Expr → List Nat
  | [] => []
  | argument :: rest => argument.levels depth ++ argumentLevels depth rest
termination_by structural arguments => arguments

def itemLevels (depth : Nat) : ArrayItem → List Nat
  | .plain value => value.levels depth
  | .keyed key value => key.levels depth ++ value.levels depth
termination_by structural item => item

def itemsLevels (depth : Nat) : List ArrayItem → List Nat
  | [] => []
  | item :: rest => itemLevels depth item ++ itemsLevels depth rest
termination_by structural items => items

end

mutual

def Stmt.levels (depth : Nat) : Stmt → List Nat
  | .verbatim _ => []
  | .expression value _ => value.levels depth
  | .ifThen condition body _ =>
    condition.levels depth ++ ([depth + 1] ++ (bodyLevels (depth + 1) body ++ [depth]))
termination_by structural stmt => stmt

def bodyLevels (depth : Nat) : List Stmt → List Nat
  | [] => []
  | stmt :: rest => stmt.levels depth ++ bodyLevels depth rest
termination_by structural stmts => stmts

end

/-- The levels of the statements, one after another. -/
def Document.levels (doc : Document) : List Nat :=
  doc.statements.flatMap (Stmt.levels 0)

end Php
end SiteSettings
