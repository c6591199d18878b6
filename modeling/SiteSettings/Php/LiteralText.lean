import SiteSettings.Php.Lexeme

/-!
# The lexemes of string literals

A literal is opened, continued in parts, and closed; variables and code can stand in most kinds.
Nothing is skipped inside.  `contentLength` says how far plain text reaches: up to what closes the
literal, begins a variable or code, or is an escape that counts as a part of its own.

Two kinds of literals span several lines: the opening names a delimiter, and a line that begins
with it closes the literal.  When that is so, and when the delimiter is mere text, is the
subtle part here.

* A literal that holds code is closed at the start of a line by the delimiter as a whole word,
  whatever follows.  The line can be text all the same (`stopsText` says when it cannot), and then
  both readings are possible; so there may be two lexemes at a place.
* In a literal that is text alone, what follows the delimiter decides between the two.
-/

namespace SiteSettings
namespace Php

/-! ## Delimiters -/

/-- A character of a delimiter, and what may follow a dollar sign or an arrow in text. -/
def isDelimiterChar (c : Char) : Bool :=
  c.isAlphanum || c == '_' || 0x80 ≤ c.toNat

/-- The length of blanks and comments at the front of the text, taken from `fuel`
characters at most. -/
def gapLength : Nat → List Char → Nat
  | 0, _ => 0
  | fuel + 1, s =>
    let n := max (blankLength s) (commentLength s)
    if n = 0 then 0 else n + gapLength fuel (s.drop n)

/-- The opening of a literal of several lines, up to its delimiter. -/
structure LineOpening where
  quote : Quote
  length : Nat
  delimiter : List Char

/-- Reads such an opening: three angle brackets and the delimiter.  A literal that is text alone has
single quotes around the delimiter; double quotes may stand on either side of it. -/
def lineOpening? (s : List Char) : Option LineOpening :=
  if beginsWith "<<<" s then
    let gap := 3 + gapLength s.length (s.drop 3)
    let mark := (s.drop gap).head?.filter fun c => c == '\'' || c == '"'
    let start := if mark.isSome then gap + 1 + gapLength s.length (s.drop (gap + 1)) else gap
    let delimiter := (s.drop start).takeWhile isDelimiterChar
    let stop := start + delimiter.length
    let next := (s.drop stop).head?
    if delimiter.isEmpty then none
    else if mark = some '\'' then
      if next = some '\'' then some ⟨.nowdoc, stop + 1, delimiter⟩ else none
    else some ⟨.heredoc, if next = some '"' then stop + 1 else stop, delimiter⟩
  else none

/-- A character that ends a line. -/
def isLineEnd (c : Char) : Bool :=
  c == '\n' || c == '\r'

/-- The length of a line end at the front; zero if there is none. -/
def lineEndLength : List Char → Nat
  | '\n' :: _ => 1
  | '\r' :: '\n' :: _ => 2
  | '\r' :: _ => 1
  | _ => 0

/-- The blanks of a line. -/
def lineBlankLength (s : List Char) : Nat :=
  runLength (fun c => isPlainBlank c && !isLineEnd c) s

/-- Whether text cannot go on here since the delimiter stands here in a way that ends a literal:
with a semicolon, comma, parenthesis or line end behind it. -/
def stopsText (delimiter s : List Char) : Bool :=
  let rest := s.drop (lineBlankLength s)
  let behind := (rest.drop delimiter.length)
  delimiter.isPrefixOf rest &&
    (behind.drop (lineBlankLength behind)).head?.any fun c =>
      c == ';' || c == ',' || c == ')' || isLineEnd c

/-- The delimiter as a whole word behind some blanks. -/
def closing? (q : Quote) (delimiter : List Char) (blanks : Nat) (s : List Char) : Option Lexeme :=
  if (s.drop blanks).takeWhile isDelimiterChar = delimiter then
    some ⟨.closing q, blanks + delimiter.length⟩
  else none

/-! ## Text -/

/-- The character that closes a literal within a line. -/
def closingChar? : Quote → Option Char
  | .single => some '\''
  | .double => some '"'
  | .backtick => some '`'
  | .heredoc => none
  | .nowdoc => none

/-- Whether a character always ends text. -/
def endsText (q : Quote) (c : Char) : Bool :=
  closingChar? q == some c || ((q == .heredoc || q == .nowdoc) && isLineEnd c)

/-- Whether variables and code can stand in a literal. -/
def holdsCode : Quote → Bool
  | .single => false
  | .nowdoc => false
  | _ => true

/-- The length of what a backslash makes an escape of; zero if the backslash is text. -/
def escapeLength : List Char → Nat
  | [] => 0
  | c :: rest =>
    if c ∈ ['n', 'r', 't', 'v', 'e', 'f', '\\', '$', '"'] then 1
    else if c = 'x' then
      let digits := min 2 (runLength isHexDigit rest)
      if digits = 0 then 0 else digits + 1
    else if c = 'u' then
      let digits := runLength isHexDigit (rest.drop 1)
      if rest.head? = some '\x7b' ∧ digits ≠ 0 ∧ (rest.drop (digits + 1)).head? = some '\x7d' then
        digits + 3
      else 1
    else min 3 (runLength (fun d => '0' ≤ d && d ≤ '7') (c :: rest))

/-- How many characters a backslash keeps from being looked at, if it begins no escape. -/
def shieldedLength (q : Quote) : List Char → Nat
  | c :: _ =>
    if c = '\x7b' ∨ (q = .heredoc ∧ c = '\\') then 1
    else if c = 'x' then 1
    else 0
  | [] => 0

/-- Whether an escape begins behind a backslash. -/
def beginsEscape (q : Quote) (s : List Char) : Bool :=
  if q = .heredoc ∧ s.head? = some '\\' then false
  else if q = .backtick ∧ s.head? = some '`' then true
  else escapeLength s ≠ 0

/-- Whether a variable begins behind a dollar sign. -/
def beginsVariable (s : List Char) : Bool :=
  s.head?.any fun c => c == '\x7b' || (isDelimiterChar c && !c.isDigit)

/-- Whether an arrow to a property begins behind a hyphen. -/
def beginsProperty : List Char → Bool
  | '>' :: c :: _ => isDelimiterChar c
  | _ => false

/-- How many characters of text stand at the front in a literal that holds code.  The first
`shielded` of them are not looked at; `behind` says whether a variable ends right in front. -/
def codeTextLength (q : Quote) : Nat → Bool → List Char → Nat
  | _, _, [] => 0
  | shielded + 1, _, _ :: rest => codeTextLength q shielded false rest + 1
  | 0, behind, c :: rest =>
    let ends : Bool :=
      endsText q c || (c == '\\' && beginsEscape q rest) || (c == '$' && beginsVariable rest) ||
        (c == '\x7b' && rest.head? == some '$') ||
        (behind && (c == '[' || (c == '-' && beginsProperty rest)))
    if ends then 0
    else codeTextLength q (if c = '\\' then shieldedLength q rest else 0) false rest + 1

/-- How many characters of text stand at the front in a literal that is text alone.  In one that a
quote closes, a backslash takes a backslash or quote along. -/
def plainTextLength (q : Quote) : Nat → List Char → Nat
  | _, [] => 0
  | shielded + 1, _ :: rest => plainTextLength q shielded rest + 1
  | 0, c :: rest =>
    if endsText q c then 0
    else
      let escape : Bool :=
        q == .single && c == '\\' && rest.head?.any fun d => d == '\\' || d == '\''
      plainTextLength q (if escape then 1 else 0) rest + 1

/-- How many characters of text stand at the front. -/
def contentLength (q : Quote) (behind : Bool) (s : List Char) : Nat :=
  if holdsCode q then codeTextLength q 0 behind s else plainTextLength q 0 s

/-! ## Lexemes -/

/-- What stands where text ends. -/
def textEnd? (q : Quote) : List Char → Option Lexeme
  | [] => none
  | '\\' :: rest => some ⟨.content, max 1 (escapeLength rest) + 1⟩
  | '$' :: _ => some ⟨.mark "$", 1⟩
  | '\x7b' :: _ => some ⟨.mark "\x7b", 1⟩
  | '[' :: _ => some ⟨.mark "[", 1⟩
  | '-' :: _ => some ⟨.mark "->", 2⟩
  | c :: rest =>
    if closingChar? q = some c then some ⟨.closing q, 1⟩
    else some ⟨.lineEnd, lineEndLength (c :: rest)⟩

/-- Text, or what stands where it ends.  `behind` says whether a variable ends right in front. -/
def part? (q : Quote) (behind : Bool) (s : List Char) : Option Lexeme :=
  let n := contentLength q behind s
  if n ≠ 0 then some ⟨.content, n⟩ else textEnd? q s

/-- The same where a delimiter may keep text from going on. -/
def partOfLine? (q : Quote) (behind : Bool) (delimiter s : List Char) : Option Lexeme :=
  if q = .heredoc ∧ stopsText delimiter s then none else part? q behind s

/-- What follows the opening of a literal of several lines: its end right away, perhaps on a later
line, or the end of its line. -/
def afterOpening? (q : Quote) (delimiter s : List Char) : Option Lexeme :=
  match closing? q delimiter (runLength isPlainBlank s) s with
  | some lexeme => some lexeme
  | none =>
    let blanks := runLength (fun c => isCodeBlank c && !isLineEnd c) s
    let n := lineEndLength (s.drop blanks)
    if n = 0 then none else some ⟨.lineEnd, blanks + n⟩

/-- What can stand at the start of a line, text first. -/
def lineStartLexemes (q : Quote) (delimiter s : List Char) : List Lexeme :=
  let closing := closing? q delimiter (lineBlankLength s) s
  if q = .nowdoc then
    if stopsText delimiter s then closing.toList else (part? q false s).toList
  else (partOfLine? q false delimiter s).toList ++ closing.toList

/-- The lexemes at a place of a literal, each of which begins a reading of its own.  `delimiter`
closes a literal of several lines. -/
def textLexemes (place : TextPlace) (delimiter s : List Char) : List Lexeme :=
  match place with
  | .opened q => (afterOpening? q delimiter s).toList
  | .lineStart q => lineStartLexemes q delimiter s
  | .inside q => (partOfLine? q false delimiter s).toList
  | .afterVariable q => (partOfLine? q true delimiter s).toList
  | .afterAccess q => (partOfLine? q true delimiter s).toList

end Php
end SiteSettings
