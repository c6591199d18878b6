import SiteSettings.Number.Binary64

/-!
# The PHP that is generated

Generated code needs little of PHP: assignments to variables and their elements, calls, includes,
array literals, scalars, and the `if` block of the include guard.  Template text is not part
of it: a template's statements are carried along as `Chunk`s, the exact text they were cut from.

A `Document` is a list of statements of both kinds.
-/

namespace SiteSettings
namespace Php

inductive Scalar
  | string (text : String)
  | integer (n : Int64)
  | float (x : Binary64)
deriving DecidableEq, Repr

/-- The four ways to run another file. -/
inductive Inclusion
  | includeAlways
  | includeOnce
  | requireAlways
  | requireOnce
deriving DecidableEq, Repr

def Inclusion.keyword : Inclusion → String
  | .includeAlways => "include"
  | .includeOnce => "include_once"
  | .requireAlways => "require"
  | .requireOnce => "require_once"

mutual

inductive Expr
  | variable (name : String)
  /-- The element of `base` at `index`. -/
  | element (base index : Expr)
  | assign (target value : Expr)
  /-- A call of a global function. -/
  | call (function : String) (arguments : List Expr)
  | inclusion (kind : Inclusion) (path : Expr)
  | array (items : List ArrayItem)
  | scalar (value : Scalar)

/-- An item of an array literal, with or without a key. -/
inductive ArrayItem
  | plain (value : Expr)
  | keyed (key value : Expr)

end

namespace Expr

def string (text : String) : Expr :=
  .scalar (.string text)

end Expr

/-- Template text that is passed through untouched: a statement with everything that
precedes it, or the text after the last statement. -/
structure Chunk where
  text : String
  /-- Whether code, rather than plain text, would follow. -/
  endsInCode : Bool
deriving DecidableEq, Repr

inductive Stmt
  | verbatim (chunk : Chunk)
  | ifThen (condition : Expr) (body : List Stmt) (comments : List String)
  | expression (value : Expr) (comments : List String)

namespace Stmt

/-- The comments of a generated statement; template text keeps its own to itself. -/
def comments : Stmt → List String
  | .verbatim _ => []
  | .ifThen _ _ comments => comments
  | .expression _ comments => comments

/-- Replaces the comments of a generated statement. -/
def withComments (stmt : Stmt) (comments : List String) : Stmt :=
  match stmt with
  | .verbatim chunk => .verbatim chunk
  | .ifThen condition body _ => .ifThen condition body comments
  | .expression value _ => .expression value comments

end Stmt

/-- Statements in order: those of a template and those generated after it. -/
structure Document where
  statements : List Stmt

namespace Document

def empty : Document := ⟨[]⟩

/-- Adds a statement after all others. -/
def push (doc : Document) (stmt : Stmt) : Document :=
  ⟨doc.statements ++ [stmt]⟩

/-- Adds statements after all others, in order. -/
def append (doc : Document) (stmts : List Stmt) : Document :=
  ⟨doc.statements ++ stmts⟩

def size (doc : Document) : Nat :=
  doc.statements.length

end Document
end Php
end SiteSettings
