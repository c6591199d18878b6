import SiteSettings.Php.Form

/-!
# The lexemes of templates

What stands at a place in a template depends on where that place is: in plain text, in code, or
inside a string literal, which has a module of its own.

In code, blanks and comments may stand anywhere (`blankLength`, `commentLength`), and a place
between them may hold several lexemes at once: `foreach` is a keyword and a name, `...` begins with
a point, and a point alone is a number.  `codeLexemes` lists them all, the longest ones first and of
equal ones a keyword before a number and a number before a name; the recogniser takes the first one
that the grammar can use.

A closing tag leaves the code, and everything up to the next opening tag is plain text
(`interruption?`).
-/

namespace SiteSettings
namespace Php

/-- A terminal and the number of characters it spans. -/
structure Lexeme where
  terminal : Terminal
  length : Nat
deriving DecidableEq, Repr

/-! ## Characters -/

/-- A character that may begin a name: a letter or underscore, or most of what lies beyond ASCII
within sixteen bits; a few invisible blanks are left out. -/
def isLexicalNameStart (c : Char) : Bool :=
  let n := c.toNat
  c.isAlpha || c == '_' || (0x80 ≤ n && n ≤ 0x9f) || (0xa1 ≤ n && n ≤ 0x200a) ||
    (0x200c ≤ n && n ≤ 0x205f) || (0x2061 ≤ n && n ≤ 0xfefe) || (0xff00 ≤ n && n ≤ 0xffff)

/-- A character that may go on in a name. -/
def isLexicalNameChar (c : Char) : Bool :=
  isLexicalNameStart c || c.isDigit

/-- The blanks of ASCII. -/
def isPlainBlank (c : Char) : Bool :=
  c == ' ' || ('\t' ≤ c && c ≤ '\r')

/-- The blanks that may stand between lexemes of code. -/
def isCodeBlank (c : Char) : Bool :=
  isPlainBlank c || c == '\u00a0' || c == '\u200b' || c == '\u2060' || c == '\ufeff'

/-- Whether the text begins with `start`. -/
def beginsWith (start : String) (s : List Char) : Bool :=
  start.toList.isPrefixOf s

/-- How many characters at the front satisfy the predicate. -/
def runLength (p : Char → Bool) (s : List Char) : Nat :=
  (s.takeWhile p).length

/-! ## Tags -/

/-- The length of an opening tag at the front of the text, which begins with `<?`: it may go on
with `=` or with `php` in letters of either case. -/
def tagLength : List Char → Nat
  | '<' :: '?' :: '=' :: _ => 3
  | '<' :: '?' :: a :: b :: c :: _ =>
    if [a.toLower, b.toLower, c.toLower] = ['p', 'h', 'p'] then 5 else 2
  | _ => 2

/-- What follows blanks and comments that begin with two slashes and end with their line, here even
if there is a tag in them. -/
def afterGap (inComment : Bool) : List Char → List Char
  | [] => []
  | c :: rest =>
    if inComment then afterGap (c != '\n') rest
    else if isPlainBlank c then afterGap false rest
    else if c = '/' ∧ rest.head? = some '/' then afterGap true rest
    else c :: rest

/-- Whether only blanks and such comments follow up to a closing tag. -/
def tagFollows (s : List Char) : Bool :=
  beginsWith "?>" (afterGap false s)

/-- Whether only blanks and such comments follow up to the end. -/
def endFollows (s : List Char) : Bool :=
  (afterGap false s).isEmpty

/-- The length of the plain text up to and with the next opening tag, and whether there is one. -/
def plainLength : List Char → Nat × Bool
  | [] => (0, false)
  | c :: rest =>
    if beginsWith "<?" (c :: rest) then (tagLength (c :: rest), true)
    else
      let (n, opens) := plainLength rest
      (n + 1, opens)

/-- The same for plain text behind a closing tag.  Such text can end early, behind an angle bracket
with nothing but a gap up to the end: what looks like an opening tag there is none. -/
def plainLengthInside : List Char → Nat × Bool
  | [] => (0, false)
  | c :: rest =>
    if beginsWith "<?" (c :: rest) then (tagLength (c :: rest), true)
    else if c = '<' ∧ endFollows rest then (1, false)
    else
      let (n, opens) := plainLengthInside rest
      (n + 1, opens)

/-- A closing tag at the front and the plain text after it: their length with the next opening
tag, and whether there is one. -/
def interruption? (s : List Char) : Option (Nat × Bool) :=
  if beginsWith "?>" s then
    let rest := s.drop 2
    let (n, opens) := if endFollows rest then (0, false) else plainLengthInside rest
    some (n + 2, opens)
  else none

/-! ## Blanks and comments -/

/-- The number of blanks at the front. -/
def blankLength (s : List Char) : Nat :=
  runLength isCodeBlank s

/-- The length of a comment that ends with its line, after its first characters.  A closing tag ends
it too, and a question mark right before the line end takes the line end along; any other question
mark takes the character after it along. -/
def lineCommentLength : List Char → Nat
  | [] => 0
  | '\n' :: _ => 0
  | '\r' :: _ => 0
  | '?' :: '\n' :: _ => 2
  | '?' :: '\r' :: '\n' :: _ => 3
  | ['?'] => 0
  | '?' :: c :: rest => if c = '>' ∨ c = '\r' then 0 else lineCommentLength rest + 2
  | _ :: rest => lineCommentLength rest + 1

/-- The length of a block comment after its first two characters, if it is closed. -/
def blockCommentLength? : List Char → Option Nat
  | [] => none
  | '*' :: '/' :: _ => some 2
  | _ :: rest => (blockCommentLength? rest).map (· + 1)

/-- The length of a comment at the front of the text; zero if there is none.  A hash is a comment by
itself in front of a bracket, a question mark or a line end. -/
def commentLength : List Char → Nat
  | '/' :: '/' :: rest => lineCommentLength rest + 2
  | ['#'] => 1
  | '#' :: c :: rest => if c ∈ ['[', '?', '\r', '\n'] then 1 else lineCommentLength rest + 2
  | '/' :: '*' :: rest => ((blockCommentLength? rest).map (· + 2)).getD 0
  | _ => 0

/-! ## Numbers -/

/-- The length of digits with single underscores among them, or in front of them. -/
def groupsLength (isDigit : Char → Bool) : List Char → Nat
  | [] => 0
  | c :: rest =>
    if isDigit c then groupsLength isDigit rest + 1
    else if c = '_' ∧ rest.head?.any isDigit then groupsLength isDigit rest + 1
    else 0

def isHexDigit (c : Char) : Bool :=
  c.isDigit || ('a' ≤ c.toLower && c.toLower ≤ 'f')

/-- The length of digits of a base after its marker, which must be followed by one. -/
def markedLength (isDigit : Char → Bool) (s : List Char) : Nat :=
  if s.head?.any isDigit then groupsLength isDigit s + 2 else 1

/-- The length of an integer at the front of the text; zero if there is none. -/
def integerLength : List Char → Nat
  | '0' :: c :: rest =>
    if c.toLower = 'x' then markedLength isHexDigit rest
    else if c.toLower = 'b' then markedLength (fun d => d == '0' || d == '1') rest
    else if c.toLower = 'o' then groupsLength (fun d => '0' ≤ d && d ≤ '7') rest + 2
    else groupsLength (fun d => '0' ≤ d && d ≤ '7') (c :: rest) + 1
  | c :: rest => if c.isDigit then groupsLength Char.isDigit rest + 1 else 0
  | [] => 0

/-- The length of an exponent at the front of the text; zero if there is none. -/
def exponentLength : List Char → Nat
  | c :: rest =>
    if c.toLower = 'e' then
      let signed : Bool := rest.head?.any fun d => d == '+' || d == '-'
      let digits := if signed then rest.drop 1 else rest
      if digits.head?.any Char.isDigit then
        groupsLength Char.isDigit digits + (if signed then 2 else 1)
      else 0
    else 0
  | [] => 0

/-- The length of a point with the digits after it; zero if there is no point. -/
def fractionLength : List Char → Nat
  | '.' :: rest => groupsLength Char.isDigit rest + 1
  | _ => 0

/-- The length of a float at the front of the text; zero if there is none.  It has a point or an
exponent, and needs no digits before them: a point alone is a float. -/
def floatLength (s : List Char) : Nat :=
  let whole := groupsLength Char.isDigit s
  let fraction := fractionLength (s.drop whole)
  let exponent := exponentLength (s.drop (whole + fraction))
  if fraction = 0 ∧ exponent = 0 then 0 else whole + fraction + exponent

/-! ## Names and literals -/

/-- The length of a name at the front of the text; zero if there is none. -/
def nameLength : List Char → Nat
  | c :: rest => if isLexicalNameStart c then runLength isLexicalNameChar rest + 1 else 0
  | [] => 0

/-- The openings of literals within a line; a `b` may come before a quote. -/
def quoteOpening? : List Char → Option Lexeme
  | '\'' :: _ => some ⟨.opening .single, 1⟩
  | '"' :: _ => some ⟨.opening .double, 1⟩
  | '`' :: _ => some ⟨.opening .backtick, 1⟩
  | c :: '\'' :: _ => if c.toLower = 'b' then some ⟨.opening .single, 2⟩ else none
  | c :: '"' :: _ => if c.toLower = 'b' then some ⟨.opening .double, 2⟩ else none
  | _ => none

/-! ## Lexemes of code -/

/-- The marks. -/
def marks : List String :=
  ["<<=", ">>=", "**=", "??=", "...", "<=>", "===", "!==", "?->",
    "#[", "||", "&&", "??", "==", "!=", "<>", "<=", ">=", "<<", ">>", "**", "*=", "/=", "%=", "+=",
    "-=", ".=", "&=", "^=", "|=", "->", "=>", "::", "++", "--",
    "(", ")", "[", "]", "\x7b", "\x7d", ";", ",", ":", "?", "=", "<", ">", "+", "-", "*", "/", "%",
    ".", "&", "|", "^", "~", "!", "@", "$", "\\"]

def markLexemes (s : List Char) : List Lexeme :=
  (marks.filter (beginsWith · s)).map fun m => ⟨.mark m, m.length⟩

/-- A parenthesis without a blank in front of it. -/
def tightLexemes (tight : Bool) (s : List Char) : List Lexeme :=
  if tight ∧ s.head? = some '(' then [⟨.tightParen, 1⟩] else []

/-- A word as a keyword of either kind. -/
def keywordLexemes (s : List Char) : List Lexeme :=
  let word := s.take (nameLength s)
  [⟨.lowerWord (String.ofList word), word.length⟩,
    ⟨.word (String.ofList (word.map Char.toLower)), word.length⟩]

/-- What is not spelled out in the grammar: numbers and names. -/
def classLexemes (s : List Char) : List Lexeme :=
  [⟨.float, floatLength s⟩, ⟨.integer, integerLength s⟩, ⟨.name, nameLength s⟩]

/-- Puts a lexeme before the first one of a list that is not longer. -/
def insertByLength (lexeme : Lexeme) : List Lexeme → List Lexeme
  | [] => [lexeme]
  | other :: rest =>
    if other.length ≤ lexeme.length then lexeme :: other :: rest
    else other :: insertByLength lexeme rest

/-- The lexemes with the longest ones first; of equal ones, the order stays. -/
def byLength (lexemes : List Lexeme) : List Lexeme :=
  lexemes.foldr insertByLength []

/-- The lexemes at the front of the text, in the order in which they are to be tried.  `tight` says
whether there is no blank in front. -/
def codeLexemes (tight : Bool) (s : List Char) : List Lexeme :=
  byLength ((quoteOpening? s).toList ++ tightLexemes tight s ++ markLexemes s ++
    (keywordLexemes s ++ classLexemes s).filter (·.length ≠ 0))

end Php
end SiteSettings
