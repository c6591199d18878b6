import SiteSettings.Number.Layout
import SiteSettings.Php.Levels
import SiteSettings.Text.Ending
import SiteSettings.Text.Pieces

/-!
# Writing PHP

Template chunks are written as they are.  Generated statements are laid out: one to a line, array
literals in short syntax with one item to a line and a comma after each, everything nested
indented by a fixed number of spaces for each level.

Between a chunk and a generated statement stands only what the text so far requires: a line end,
an opening tag if plain text would follow, and a blank line before comments.

Printing a document stops without a text (`Document.print?`) if a margin would be longer than any
text can be.  There is no other bound: memory for every shorter margin, and for the text, is
taken for granted.
-/

namespace SiteSettings
namespace Php

/-! ## Literals and variables -/

/-- A backslash before every backslash and single quote. -/
def escapeQuotes : List Char → List Char
  | [] => []
  | c :: rest =>
    if c = '\\' ∨ c = '\'' then '\\' :: c :: escapeQuotes rest else c :: escapeQuotes rest

/-- A single-quoted string literal. -/
def quoted (text : String) : String :=
  "'" ++ String.ofList (escapeQuotes text.toList) ++ "'"

/-- A letter, an underscore or any character beyond ASCII. -/
def isNameStart (c : Char) : Bool :=
  c.isAlpha || c == '_' || 0x80 ≤ c.toNat

/-- A character that may follow in a name: a digit as well. -/
def isNameChar (c : Char) : Bool :=
  isNameStart c || c.isDigit

/-- Whether a variable of this name can be written with a dollar sign alone. -/
def isPlainName (name : String) : Bool :=
  match name.toList with
  | [] => false
  | c :: rest => isNameStart c && rest.all isNameChar

/-- A variable; any other name is quoted inside braces. -/
def variableText (name : String) : String :=
  if isPlainName name then "$" ++ name else "$\x7b" ++ quoted name ++ "\x7d"

/-- A scalar literal.  The least integer has no literal of its own, as its digits without the sign
are out of range; numbers that are not finite are named by constants. -/
def Scalar.text : Scalar → String
  | .string s => quoted s
  | .integer n => if n = Int64.minValue then "PHP_INT_MIN" else toString n.toInt
  | .float x =>
    if x.isNaN then "NAN"
    else if x.isInfinite then (if x.isNegative then "-INF" else "INF")
    else x.literal

/-! ## Expressions -/

/-- The pieces with `separator` between them. -/
def joinText (separator : String) : List String → String
  | [] => ""
  | [piece] => piece
  | piece :: rest => piece ++ separator ++ joinText separator rest

mutual

/-- An expression whose first line stands at nesting `depth`. -/
def Expr.text (indent depth : Nat) : Expr → String
  | .variable name => variableText name
  | .element base index => base.text indent depth ++ "[" ++ index.text indent depth ++ "]"
  | .assign target value => target.text indent depth ++ " = " ++ value.text indent depth
  | .call function arguments =>
    function ++ "(" ++ joinText ", " (argumentTexts indent depth arguments) ++ ")"
  | .inclusion kind path => kind.keyword ++ " " ++ path.text indent depth
  | .array [] => "[]"
  | .array (item :: items) =>
    "[\n" ++ itemLine indent (depth + 1) item ++ itemLines indent (depth + 1) items ++
      Text.spaces (indent * depth) ++ "]"
  | .scalar value => value.text
termination_by structural expr => expr

def argumentTexts (indent depth : Nat) : List Expr → List String
  | [] => []
  | argument :: rest => argument.text indent depth :: argumentTexts indent depth rest
termination_by structural arguments => arguments

/-- An item of an array literal on a line of its own, with its comma. -/
def itemLine (indent depth : Nat) : ArrayItem → String
  | .plain value => Text.spaces (indent * depth) ++ value.text indent depth ++ ",\n"
  | .keyed key value =>
    Text.spaces (indent * depth) ++ key.text indent depth ++ " => " ++
      value.text indent depth ++ ",\n"
termination_by structural item => item

def itemLines (indent depth : Nat) : List ArrayItem → String
  | [] => ""
  | item :: rest => itemLine indent depth item ++ itemLines indent depth rest
termination_by structural items => items

end

/-! ## Statements -/

/-- The lines of comments, each indented. -/
def commentLines (pad : String) (comments : List String) : String :=
  String.join <| comments.flatMap fun comment =>
    (Text.lines comment.toList).map fun line => pad ++ String.ofList line ++ "\n"

mutual

/-- A statement at nesting `depth`, without indentation before it or a line end after it. -/
def Stmt.text (indent depth : Nat) : Stmt → String
  | .verbatim chunk => chunk.text
  | .expression value _ => value.text indent depth ++ ";"
  | .ifThen condition body _ =>
    "if (" ++ condition.text indent depth ++ ") \x7b\n" ++ bodyLines indent (depth + 1) body ++
      Text.spaces (indent * depth) ++ "\x7d"
termination_by structural stmt => stmt

/-- The statements of a block, each on lines of its own below its comments. -/
def bodyLines (indent depth : Nat) : List Stmt → String
  | [] => ""
  | stmt :: rest =>
    let pad := Text.spaces (indent * depth)
    commentLines pad stmt.comments ++ pad ++ stmt.text indent depth ++ "\n" ++
      bodyLines indent depth rest
termination_by structural stmts => stmts

end

/-! ## Documents -/

/-- What has been written so far, and whether code may follow it. -/
structure Rendering where
  text : String
  inCode : Bool

namespace Rendering

def start : Rendering := ⟨"", false⟩

/-- What must come before a generated statement: a line end and an opening tag, where missing. -/
def lead (r : Rendering) : String :=
  (if r.text ≠ "" ∧ ¬ Text.endsLine r.text then "\n" else "") ++
    (if r.inCode then "" else "<?php\n")

/-- Comments of a top-level statement below the text `before`, blank lines around them. -/
def commentBlock (before : String) (comments : List String) : String :=
  if comments.isEmpty then ""
  else
    (if before ≠ "" ∧ ¬ Text.endsBlankLine before then "\n" else "") ++
      joinText "\n" (comments.map (· ++ "\n"))

/-- Writes the next statement of a document. -/
def write (indent : Nat) (r : Rendering) (stmt : Stmt) : Rendering :=
  match stmt with
  | .verbatim chunk => ⟨r.text ++ chunk.text, chunk.endsInCode⟩
  | stmt =>
    let before := r.text ++ r.lead
    ⟨before ++ commentBlock before stmt.comments ++ stmt.text indent 0 ++ "\n", true⟩

end Rendering

/-- The text of a document, nested lines of generated code indented by `indent` spaces a level. -/
def Document.render (doc : Document) (indent : Nat) : String :=
  (doc.statements.foldl (Rendering.write indent) Rendering.start).text

/-- The text of a document, unless a margin that the printer makes would be longer than
a text can be. -/
def Document.print? (doc : Document) (indent : UInt64) : Option String :=
  if ∀ level ∈ doc.levels, indent.toNat * level ≤ Text.longest then some (doc.render indent.toNat)
  else none

end Php
end SiteSettings
