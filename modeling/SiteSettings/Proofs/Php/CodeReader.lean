import SiteSettings.Php.Printer
import SiteSettings.Proofs.IntegerKeys

/-!
# Reading the PHP that is generated

A reader for the part of PHP that generated statements are written in.  It follows the language and
not the printer: blanks may stand between any two lexemes, lists may end with a comma or without
one, an integer that is out of range is a float, and a word that the language reserves is never the
name of a function.

Every reader takes what it reads off the front of a text and leaves the rest.  Readers of nested
things are handed the reader for what is inside them, so that only `expression` and `statement` are
recursive; the number that they count down is the nesting that they still allow, and the length of
the text is always enough.
-/

namespace SiteSettings
namespace Php

/-- Reads something off the front of a text; what follows it is left. -/
abbrev CodeReader (α : Type) := List Char → Option (α × List Char)

/-! ## Words -/

/-- The words that are not names of functions, in lower case. -/
def reservedWords : List String :=
  ["__halt_compiler", "abstract", "and", "array", "as", "break", "callable", "case", "catch",
    "class", "clone", "const", "continue", "declare", "default", "die", "do", "echo", "else",
    "elseif", "empty", "enddeclare", "endfor", "endforeach", "endif", "endswitch", "endwhile",
    "eval", "exit", "extends", "final", "finally", "fn", "for", "foreach", "function", "global",
    "goto", "if", "implements", "include", "include_once", "instanceof", "insteadof", "interface",
    "isset", "list", "match", "namespace", "new", "or", "print", "private", "protected", "public",
    "readonly", "require", "require_once", "return", "static", "switch", "throw", "trait", "try",
    "unset", "use", "var", "while", "xor", "yield", "__class__", "__dir__", "__file__",
    "__function__", "__line__", "__method__", "__namespace__", "__trait__"]

/-- A word in lower case, in which the language compares its own words. -/
def lowered (word : String) : String :=
  String.ofList (word.toList.map Char.toLower)

/-- Whether a text is the name of a function: a plain name that is not reserved. -/
def isIdentifier (name : String) : Bool :=
  isPlainName name && !reservedWords.contains (lowered name)

/-- The inclusion that a word stands for. -/
def inclusion? (word : String) : Option Inclusion :=
  [Inclusion.includeAlways, .includeOnce, .requireAlways, .requireOnce].find? fun kind =>
    kind.keyword == lowered word

/-- The predefined constants that stand for scalars. -/
def constant? (word : String) : Option Scalar :=
  if word = "INF" then some (.float (Binary64.infinity false))
  else if word = "NAN" then some (.float (Binary64.nan false))
  else if word = "PHP_INT_MIN" then some (.integer Int64.minValue)
  else none

/-- Whether an expression is a variable or an element of one, which can be assigned to. -/
def Expr.isPlace : Expr → Bool
  | .variable _ => true
  | .element base _ => base.isPlace
  | _ => false
termination_by structural expr => expr

/-! ## Numerals -/

/-- A number as it is written, without a sign. -/
structure Numeral where
  whole : List Char
  /-- The digits behind the point, if there is one. -/
  fraction : Option (List Char)
  exponent : Option Int
deriving DecidableEq, Repr

namespace Numeral

/-- Whether the number is a whole one by its spelling. -/
def isInteger (n : Numeral) : Bool :=
  n.fraction.isNone && n.exponent.isNone

/-- The double-precision number nearest to a numeral. -/
def toBinary64 (negative : Bool) (n : Numeral) : Binary64 :=
  let fraction := n.fraction.getD []
  Binary64.ofDecimal negative (Nat.ofDigitChars 10 (n.whole ++ fraction) 0)
    (n.exponent.getD 0 - (fraction.length : Int))

/-- The scalar that a numeral is.  Whole numbers with a leading zero are octal and not read here.
The sign is not part of the number: what counts is whether the number without it is in range. -/
def scalar? (negative : Bool) (n : Numeral) : Option Scalar :=
  if n.isInteger then
    let size : Int := Nat.ofDigitChars 10 n.whole 0
    if n.whole.head? = some '0' ∧ n.whole ≠ ['0'] then none
    else if IsInt64 size then some (.integer (Int64.ofInt (if negative then -size else size)))
    else some (.float (n.toBinary64 negative))
  else some (.float (n.toBinary64 negative))

end Numeral

namespace CodeReader

/-! ## Lexemes -/

def isSpace (c : Char) : Bool :=
  c == ' ' || c == '\n' || c == '\t' || c == '\r'

def skipSpace (s : List Char) : List Char :=
  s.dropWhile isSpace

/-- What follows a mark, if it comes next. -/
def mark? (mark : Char) (s : List Char) : Option (List Char) :=
  match skipSpace s with
  | c :: rest => if c = mark then some rest else none
  | [] => none

/-- What follows the arrow of an item, if it comes next. -/
def arrow? (s : List Char) : Option (List Char) :=
  match skipSpace s with
  | '=' :: '>' :: rest => some rest
  | _ => none

/-- What follows an equals sign that assigns, if it comes next. -/
def assign? (s : List Char) : Option (List Char) :=
  match skipSpace s with
  | '=' :: c :: rest => if c = '>' ∨ c = '=' then none else some (c :: rest)
  | _ => none

/-- A name, as long as it goes. -/
def name : CodeReader String
  | c :: rest =>
    if isNameStart c then
      some (String.ofList (c :: rest.takeWhile isNameChar), rest.dropWhile isNameChar)
    else none
  | [] => none

/-- The text of a single-quoted literal behind its opening quote.  A backslash escapes a quote and
another backslash; before anything else it is a character of the text. -/
def quotedText : CodeReader (List Char)
  | '\\' :: '\\' :: s => (quotedText s).map fun (text, s) => ('\\' :: text, s)
  | '\\' :: '\'' :: s => (quotedText s).map fun (text, s) => ('\'' :: text, s)
  | '\'' :: s => some ([], s)
  | c :: s => (quotedText s).map fun (text, s) => (c :: text, s)
  | [] => none

/-- A single-quoted literal. -/
def literal : CodeReader String
  | '\'' :: s => (quotedText s).map fun (text, s) => (String.ofList text, s)
  | _ => none

/-- A point with the digits behind it, if there is one. -/
def fraction (s : List Char) : Option (List Char) × List Char :=
  match s with
  | '.' :: s => (some (s.takeWhile Char.isDigit), s.dropWhile Char.isDigit)
  | s => (none, s)

/-- The digits of an exponent, at least one. -/
def exponentDigits (negative : Bool) (s : List Char) : Option (Int × List Char) :=
  let digits := s.takeWhile Char.isDigit
  let size : Int := Nat.ofDigitChars 10 digits 0
  if digits = [] then none else some (if negative then -size else size, s.dropWhile Char.isDigit)

/-- The number of an exponent, with a sign or without one. -/
def exponentNumber (s : List Char) : Option (Int × List Char) :=
  match s with
  | '-' :: s => exponentDigits true s
  | '+' :: s => exponentDigits false s
  | s => exponentDigits false s

/-- An exponent, if there is one. -/
def exponent (s : List Char) : Option Int × List Char :=
  match s with
  | 'e' :: digits =>
    match exponentNumber digits with
    | some (n, rest) => (some n, rest)
    | none => (none, s)
  | s => (none, s)

/-- A number without a sign. -/
def numeral (s : List Char) : Option (Numeral × List Char) :=
  let whole := s.takeWhile Char.isDigit
  if whole = [] then none
  else
    let (fraction, s) := fraction (s.dropWhile Char.isDigit)
    let (exponent, s) := exponent s
    some (⟨whole, fraction, exponent⟩, s)

/-- A number behind its sign. -/
def number (negative : Bool) (s : List Char) : Option (Scalar × List Char) := do
  let (n, s) ← numeral s
  let value ← n.scalar? negative
  some (value, s)

/-- What a minus sign can stand before: a number, or the constant for an infinity. -/
def negated (s : List Char) : Option (Scalar × List Char) :=
  match number true s with
  | some answer => some answer
  | none => do
    let (word, s) ← name s
    if word = "INF" then some (.float (Binary64.infinity true), s) else none

/-! ## Expressions -/

/-- A variable, its name plain or quoted in braces. -/
def variableExpr : CodeReader Expr
  | '$' :: '\x7b' :: s => do
    let (text, s) ← literal (skipSpace s)
    let s ← mark? '\x7d' s
    some (.variable text, s)
  | '$' :: s => (name s).map fun (text, s) => (.variable text, s)
  | _ => none

section

variable (expression : CodeReader Expr)

/-- Elements with commas between them up to a closing mark; a comma may stand before the
mark as well. -/
def listUntil {α : Type} (close : Char) (element : CodeReader α) : Nat → CodeReader (List α)
  | 0, _ => none
  | limit + 1, s =>
    match element s with
    | none => (mark? close s).map fun s => ([], s)
    | some (first, s) =>
      match mark? ',' s with
      | none => (mark? close s).map fun s => ([first], s)
      | some s => (listUntil close element limit s).map fun (rest, s) => (first :: rest, s)

/-- An item of an array. -/
def item (s : List Char) : Option (ArrayItem × List Char) := do
  let (first, s) ← expression s
  match arrow? s with
  | some s => (expression s).map fun (value, s) => (.keyed first value, s)
  | none => some (.plain first, s)

/-- What a word begins: an inclusion, a call, or a constant. -/
def wordOperand (limit : Nat) (s : List Char) : Option (Expr × List Char) := do
  let (word, s) ← name s
  match inclusion? word with
  | some kind => (expression s).map fun (path, s) => (.inclusion kind path, s)
  | none =>
    if reservedWords.contains (lowered word) then none
    else
      match mark? '(' s with
      | some s => (listUntil ')' expression limit s).map fun (arguments, s) =>
        (.call word arguments, s)
      | none => (constant? word).map fun value => (.scalar value, s)

/-- An expression that is not put together by indices or by an assignment. -/
def operand (limit : Nat) (s : List Char) : Option (Expr × List Char) :=
  match s with
  | '$' :: _ => variableExpr s
  | '\'' :: _ => (literal s).map fun (text, s) => (.string text, s)
  | '[' :: s => (listUntil ']' (item expression) limit s).map fun (items, s) => (.array items, s)
  | '-' :: s => (negated s).map fun (value, s) => (.scalar value, s)
  | s =>
    match number false s with
    | some (value, s) => some (.scalar value, s)
    | none => wordOperand expression limit s

/-- The indices behind an expression. -/
def indices : Nat → Expr → CodeReader Expr
  | 0, _, _ => none
  | limit + 1, base, s =>
    match mark? '[' s with
    | none => some (base, s)
    | some s => do
      let (index, s) ← expression s
      let s ← mark? ']' s
      indices limit (.element base index) s

/-- An operand with its indices. -/
def indexed (limit : Nat) (s : List Char) : Option (Expr × List Char) := do
  let (base, s) ← operand expression limit (skipSpace s)
  indices expression limit base s

end

/-- An expression. -/
def expression : Nat → CodeReader Expr
  | 0, _ => none
  | limit + 1, s => do
    let (place, s) ← indexed (expression limit) limit s
    match if place.isPlace then assign? s else none with
    | some s => (expression limit s).map fun (value, s) => (.assign place value, s)
    | none => some (place, s)

/-! ## Statements -/

/-- What follows the word `if`, if it comes next. -/
def ifWord? (s : List Char) : Option (List Char) := do
  let (word, s) ← name (skipSpace s)
  if lowered word = "if" then some s else none

/-- The statements of a block up to its closing brace. -/
def block (statement : CodeReader Stmt) : Nat → CodeReader (List Stmt)
  | 0, _ => none
  | limit + 1, s =>
    match statement s with
    | none => (mark? '\x7d' s).map fun s => ([], s)
    | some (first, s) => (block statement limit s).map fun (rest, s) => (first :: rest, s)

/-- The rest of an `if` block behind its first word. -/
def conditional (limit : Nat) (statement : CodeReader Stmt) (s : List Char) :
    Option (Stmt × List Char) := do
  let s ← mark? '(' s
  let (condition, s) ← expression limit s
  let s ← mark? ')' s
  let s ← mark? '\x7b' s
  let (body, s) ← block statement limit s
  some (.ifThen condition body [], s)

/-- A statement that leaves room for so many levels inside it. -/
def nestedStatement : Nat → CodeReader Stmt
  | 0, _ => none
  | limit + 1, s =>
    match expression limit s with
    | some (value, s) => (mark? ';' s).map fun s => (.expression value [], s)
    | none => do
      let s ← ifWord? s
      conditional limit (nestedStatement limit) s

/-- A statement: an expression with a semicolon, or an `if` block. -/
def statement : CodeReader Stmt := fun s =>
  nestedStatement (s.length + 1) s

end CodeReader

/-! ## Numbers alone -/

/-- The double-precision number that a text stands for. -/
def Numeral.read? (text : String) : Option Binary64 :=
  let (negative, digits) :=
    match text.toList with
    | '-' :: digits => (true, digits)
    | digits => (false, digits)
  match CodeReader.numeral digits with
  | some (n, []) => some (n.toBinary64 negative)
  | _ => none

end Php
end SiteSettings
