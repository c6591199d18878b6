/-!
# Terminals and syntactic forms

The grammar of templates is written in the usual extended notation: sequence, choice, repetition,
terminals and named rules.  A `Form` is a right-hand side in that notation.

Terminals are what the lexer can find at a place: keywords, marks, names, numbers, and the parts of
string literals.  Literals have an inner structure, since code can be nested in them, so a literal
is not one terminal: an `opening`, its parts, and a `closing`.

Two facts about a form drive recognition: whether it derives the empty text (`nullable`), and
what is left of it after one terminal (`after`).  No rule of the grammar derives the empty text, so
`nullable` never looks into rules.
-/

namespace SiteSettings
namespace Php

/-- The kinds of string literals, by how they are delimited. -/
inductive Quote
  | single
  | double
  | backtick
  | heredoc
  | nowdoc
deriving DecidableEq, Repr

/-- Where in a literal the next part is looked for. -/
inductive TextPlace
  /-- Behind the delimiter that opens a literal of several lines, still on its line. -/
  | opened (q : Quote)
  /-- Anywhere. -/
  | inside (q : Quote)
  /-- At the start of a line of a literal of several lines. -/
  | lineStart (q : Quote)
  /-- Right behind a variable, which an index or a property may follow. -/
  | afterVariable (q : Quote)
  /-- Right behind an index or a property of a variable, which may not be followed
  by another one. -/
  | afterAccess (q : Quote)
deriving DecidableEq, Repr

inductive Terminal
  /-- A keyword, in lower case; it may be spelled in either case. -/
  | word (text : String)
  /-- A word that is a keyword in lower case only. -/
  | lowerWord (text : String)
  | mark (text : String)
  /-- A parenthesis with no blank in front of it. -/
  | tightParen
  | name
  | integer
  | float
  | opening (q : Quote)
  | closing (q : Quote)
  /-- Text of a literal. -/
  | content
  /-- A line end in a literal of several lines. -/
  | lineEnd
  /-- Where a closing tag stands in for a semicolon; it has no text of its own. -/
  | endTag
deriving DecidableEq, Repr

/-- The names of the grammar's rules. -/
inductive Rule
  -- names, variables, arguments
  | qualifiedName | namespaceName | variableName | simpleVariable | reservedName
  | arguments | argument | member | elementAccess | scopeAccess
  -- expressions
  | expr | operand | operatorTail | atom | primary | castOperand | castPrimary
  | variableStart | valueStart | assignable | assignableRest | reference
  | operandAfterVariable | operandAfterValue | primaryAfterVariable | primaryAfterValue
  | assignmentTail | classTest | literal | text (place : TextPlace) | arrayLiteral | arrayItem
  | listPattern | arrayPattern | classReference | newVariable | anonymousClass
  | closure | arrowFunction | matchExpr | matchArm | castMark | parenthesized
  -- declarations
  | parameters | parameter | type | simpleType | returnType | attributes | visibility | modifier
  | propertyHooks | classBody | classMember | enumBody | traitUse | traitAdaptation
  | extendsClause | implementsClause | constantDeclaration
  -- statements
  | statement | semi | block | ifStatement | switchCase | foreachTarget | useDeclaration
  | declaration
deriving DecidableEq, Repr

/-- A right-hand side of the grammar. -/
inductive Form
  | empty
  | token (t : Terminal)
  | rule (r : Rule)
  | seq (first rest : Form)
  | alt (one other : Form)
  | many (item : Form)
deriving DecidableEq, Repr

instance : Coe Rule Form := ⟨.rule⟩

/-- In a form, text stands for the keyword or mark it spells. -/
instance : Coe String Form :=
  ⟨fun s => .token (if s.toList.all fun c => c.isAlpha || c == '_' then .word s else .mark s)⟩

instance : Coe Terminal Form := ⟨.token⟩

namespace Form

/-! ## Shorthands -/

def opt (f : Form) : Form := .alt f .empty

/-- All of the forms in order. -/
def seqs : List Form → Form
  | [] => .empty
  | [f] => f
  | f :: rest => .seq f (seqs rest)

/-- One of the forms. -/
def alts : List Form → Form
  | [] => .empty
  | [f] => f
  | f :: rest => .alt f (alts rest)

/-- One of the keywords or marks. -/
def oneOf (texts : List String) : Form :=
  alts (texts.map fun (s : String) => (s : Form))

/-- One of the words, in lower case only. -/
def oneOfLower (words : List String) : Form :=
  alts (words.map fun w => .token (.lowerWord w))

/-- Items with a mark between them. -/
def separated (mark : String) (item : Form) : Form :=
  .seq item (.many (.seq mark item))

/-- Items with commas between them. -/
def list (item : Form) : Form := separated "," item

/-- Items with commas between them and perhaps one after the last. -/
def listTrailing (item : Form) : Form :=
  .seq (list item) (opt ",")

def parens (f : Form) : Form := seqs ["(", f, ")"]

def braces (f : Form) : Form := seqs ["\x7b", f, "\x7d"]

/-! ## Derivation -/

/-- Whether the form derives the empty text. -/
def nullable : Form → Bool
  | .empty => true
  | .token _ => false
  | .rule _ => false
  | .seq first rest => first.nullable && rest.nullable
  | .alt one other => one.nullable || other.nullable
  | .many _ => true

/-- What can be left of the form once `t` is taken from its front, each possibility as a list of
forms still to come.  `ruleAfter` answers the same for rules. -/
def after (ruleAfter : Rule → List (List Form)) (t : Terminal) : Form → List (List Form)
  | .empty => []
  | .token u => if u = t then [[]] else []
  | .rule r => ruleAfter r
  | .seq first rest =>
    (first.after ruleAfter t).map (· ++ [rest]) ++
      if first.nullable then rest.after ruleAfter t else []
  | .alt one other => one.after ruleAfter t ++ other.after ruleAfter t
  | .many item => (item.after ruleAfter t).map (· ++ [.many item])

end Form
end Php
end SiteSettings
