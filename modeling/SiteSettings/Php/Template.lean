import SiteSettings.Php.LiteralText
import SiteSettings.Php.Stack
import SiteSettings.Php.Syntax
import SiteSettings.Text.Alphanumeric
import SiteSettings.Text.Blank

/-!
# Templates

A template is PHP that someone has written by hand.  It is accepted only if all of it is valid, and
then cut into chunks of exact text, one for each top-level statement: the statement together with
all the blanks, comments and plain text before it.  What follows the last statement is a chunk of
its own unless it is empty.  Joined again, the chunks are the template.

`Reader` goes through the template from left to right.  It holds the statement being read as the
`Ways` it can go on.  A lexeme goes to the current statement if that can use it; if not, and the
statement is complete, the lexeme begins the next one.  A lexeme that neither can use is where the
template stops being valid; the message names it.

In a string literal there can be two readings of what comes next.  They are tried in order, and the
first one in which all of the template is valid counts.
-/

namespace SiteSettings
namespace Php

/-! ## Errors -/

/-- Where a template stops being valid. -/
structure SyntaxError where
  /-- What stands there; nothing at the end of the template. -/
  found : Option String
  /-- The line, from one. -/
  line : Nat
deriving DecidableEq, Repr

def SyntaxError.message (e : SyntaxError) : String :=
  let what :=
    match e.found with
    | some text => "'" ++ text ++ "'"
    | none => "EOF"
  "Syntax error, unexpected " ++ what ++ " on line " ++ toString e.line

/-- A character of a word in a message. -/
def isMessageWord (c : Char) : Bool :=
  Text.isAlphanumeric c || c == '_'

/-- What a message names at the front of a text: a closing tag, a variable, a word or
one character. -/
def leadingToken : List Char → List Char
  | '?' :: '>' :: _ => ['?', '>']
  | '$' :: rest => '$' :: rest.takeWhile isMessageWord
  | c :: rest => if isMessageWord c then (c :: rest).takeWhile isMessageWord else [c]
  | [] => []

/-- The error at the place where `rest` is what remains of `source`. -/
def SyntaxError.before (source rest : List Char) : SyntaxError :=
  let token := Text.trimLeft rest
  let read := source.take (source.length - token.length)
  { found := if token.isEmpty then none else some (String.ofList (leadingToken token))
    line := 1 + read.count '\n' }

/-! ## Reading -/

/-- How far a template has been read.  Lengths count characters. -/
structure Reader where
  /-- The lengths of the chunks before the current one, the last one first, and whether each of
  them ends in code. -/
  chunks : List (Nat × Bool)
  /-- Whether a statement has begun. -/
  begun : Bool
  /-- How the current statement can go on. -/
  ways : Ways
  /-- The length of the current chunk, up to the last lexeme of the statement. -/
  chunk : Nat
  /-- The length of what follows, up to the last comment or plain text. -/
  passed : Nat
  /-- The number of blanks after that. -/
  blanks : Nat
  /-- Whether the current chunk ends in code. -/
  inCode : Bool
  /-- The same after the plain text behind the last lexeme, if there was any. -/
  interrupted : Option Bool
  /-- The delimiter of the literal of several lines that was opened last.  It stays in force after
  that literal, so one around it that has another delimiter is never closed. -/
  delimiter : List Char

namespace Reader

/-- The reader behind the first opening tag, or behind all of the template if it has none. -/
def start (plain : Nat) (opens : Bool) : Reader :=
  { chunks := [], begun := false, ways := Ways.finished, chunk := 0, passed := plain, blanks := 0,
    inCode := opens, interrupted := none, delimiter := [] }

def passBlanks (r : Reader) (length : Nat) : Reader :=
  { r with blanks := r.blanks + length }

def passComment (r : Reader) (length : Nat) : Reader :=
  { r with passed := r.passed + r.blanks + length, blanks := 0 }

/-- Takes a closing tag with the plain text after it. -/
def passPlain (r : Reader) (length : Nat) (opens : Bool) : Reader :=
  { r.passComment length with interrupted := some opens }

/-- Adds a lexeme to the current statement. -/
def extend (r : Reader) (ways : Ways) (text : List Char) : Reader :=
  { r with
    ways
    chunk := r.chunk + r.passed + r.blanks + text.length
    passed := 0
    blanks := 0
    interrupted := none }

/-- Closes the current chunk if it holds a statement; the text behind it begins the next one. -/
def closeChunk (r : Reader) : Reader :=
  { r with
    chunks := if r.begun then (r.chunk, r.inCode) :: r.chunks else r.chunks
    begun := false
    chunk := 0
    inCode := r.interrupted.getD r.inCode
    interrupted := none }

/-- Uses a lexeme in the current statement or, if that is complete, as the first one of the next. -/
def take? (r : Reader) (lexeme : Lexeme) (s : List Char) : Option Reader :=
  let text := s.take lexeme.length
  match r.ways.after? lexeme.terminal with
  | some ways => some (r.extend ways text)
  | none =>
    if r.ways.canEnd then
      ((Ways.ofForm (.rule .statement)).after? lexeme.terminal).map fun ways =>
        { r.closeChunk with begun := true }.extend ways text
    else none

/-- Ends a statement that a closing tag may end, if the tag follows: before the blanks, and the
comments with two slashes, that come between. -/
def endAtTag (r : Reader) (s : List Char) : Reader :=
  if r.blanks = 0 ∧ tagFollows s then
    match r.ways.after? .endTag with
    | some ways => { r with ways, chunk := r.chunk + r.passed, passed := 0, interrupted := none }
    | none => r
  else r

/-- The first of the lexemes that can be used: the reader after it and its length. -/
def firstUsable (r : Reader) (s : List Char) : List Lexeme → Option (Reader × Nat)
  | [] => none
  | lexeme :: rest =>
    match r.take? lexeme s with
    | some r' => some (r', lexeme.length)
    | none => firstUsable r s rest

/-- The opening of a literal of several lines, if it can be used. -/
def openLines? (r : Reader) (s : List Char) : Option (Reader × Nat) := do
  let opening ← lineOpening? s
  let r' ← r.take? ⟨.opening opening.quote, opening.length⟩ s
  some ({ r' with delimiter := opening.delimiter }, opening.length)

/-- A comment at the front of the text. -/
def comment? (r : Reader) (s : List Char) : Option (Reader × Nat) :=
  let n := commentLength s
  if n = 0 then none else some (r.passComment n, n)

/-- One step in code at `s`: a tag, blanks, a lexeme or a comment.  `#[` may begin a lexeme as
well as a comment, so lexemes come first there. -/
def stepCode (r : Reader) (s : List Char) : Option (Reader × Nat) :=
  let r := r.endAtTag s
  match interruption? s with
  | some (n, opens) => some (r.passPlain n opens, n)
  | none =>
    let blanks := blankLength s
    if blanks ≠ 0 then some (r.passBlanks blanks, blanks)
    else if beginsWith "#[" s then
      r.firstUsable s (codeLexemes (r.blanks == 0) s) <|> r.comment? s
    else
      r.comment? s <|> r.openLines? s <|> r.firstUsable s (codeLexemes (r.blanks == 0) s)

/-- A step behind the opening of a literal of several lines, where no line has ended yet: comments
and blanks may stand there. -/
def stepOpened (r : Reader) (s : List Char) : Option (Reader × Nat) :=
  let blanks := runLength (fun c => isCodeBlank c && !isLineEnd c) s
  if blanks ≠ 0 then some (r.passBlanks blanks, blanks) else r.comment? s

/-- The steps possible at `s`, with the number of characters that each takes, in order
of preference. -/
def steps (r : Reader) (s : List Char) : List (Reader × Nat) :=
  match r.ways.textPlace? with
  | some place =>
    let found := (textLexemes place r.delimiter s).filterMap fun lexeme => r.firstUsable s [lexeme]
    match place, found with
    | .opened _, [] => (r.stepOpened s).toList
    | _, found => found
  | none => (r.stepCode s).toList

/-- Reads to the end of the template, or to the text that no step can take.  Of two readings that
both fail, the longer one says where the template stops being valid. -/
def run : Nat → Reader → List Char → Except (List Char) Reader
  | 0, _, s => .error s
  | _, r, [] => if r.ways.canEnd then .ok r else .error []
  | fuel + 1, r, c :: rest =>
    match r.steps (c :: rest) with
    | [] => .error (c :: rest)
    | [(r', n)] => run fuel r' ((c :: rest).drop n)
    | (r', n) :: (r'', m) :: _ =>
      match run fuel r' ((c :: rest).drop n) with
      | .ok last => .ok last
      | .error stop =>
        match run fuel r'' ((c :: rest).drop m) with
        | .ok last => .ok last
        | .error stop' => .error (if stop'.length < stop.length then stop' else stop)

end Reader

/-! ## Chunks -/

/-- Cuts a text into pieces of the given lengths.  What is left is one more piece, unless it is
empty, and ends in code if `lastInCode`. -/
def cutChunks (lastInCode : Bool) : List (Nat × Bool) → List Char → List Chunk
  | [], [] => []
  | [], s => [⟨String.ofList s, lastInCode⟩]
  | (n, inCode) :: rest, s =>
    ⟨String.ofList (s.take n), inCode⟩ :: cutChunks lastInCode rest (s.drop n)

/-- Cuts a template into chunks, one for each top-level statement, and perhaps one more. -/
def templateChunks (source : List Char) : Except SyntaxError (List Chunk) :=
  let (plain, opens) := plainLength source
  match Reader.run (source.length + 1) (Reader.start plain opens) (source.drop plain) with
  | .ok reader =>
    let reader := reader.closeChunk
    .ok (cutChunks reader.inCode reader.chunks.reverse source)
  | .error rest => .error (SyntaxError.before source rest)

/-- A template as a document of untouched chunks. -/
def Document.ofTemplate (template : String) : Except SyntaxError Document :=
  (templateChunks template.toList).map fun chunks => ⟨chunks.map .verbatim⟩

end Php
end SiteSettings
