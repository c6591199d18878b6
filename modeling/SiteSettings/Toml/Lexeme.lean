import SiteSettings.Text.Pieces
import SiteSettings.Toml.Value

/-!
# The lexemes of a configuration document

Scanners for the smallest parts of a TOML document: blanks, comments and line ends, the four kinds
of strings, keys, and the scalar values.  A scanner takes the text at its place and answers
what it read together with the text that follows, or `none` if the document is malformed.

A scalar that is not a string is read in two steps.  Its token is the longest run of characters
that scalars are made of; none of them can follow a value, so the token is the whole scalar or the
document is malformed.  The token is then read as a boolean, a date or time, a float or an integer.
-/

namespace SiteSettings
namespace Toml

/-! ## Blanks, comments, line ends -/

def isSpace (c : Char) : Bool :=
  c == ' ' || c == '\t'

/-- Skips spaces and tabs. -/
def skipSpaces (s : List Char) : List Char :=
  s.dropWhile isSpace

/-- Whether a character may stand in a comment or in a literal string: not a control
character, the tab apart. -/
def isPrintable (c : Char) : Bool :=
  c == '\t' || (' ' ≤ c && c != '\x7f')

/-- Skips a comment, up to the line end. -/
def skipComment : List Char → List Char
  | '#' :: rest => rest.dropWhile isPrintable
  | s => s

/-- The text after a line end: a line feed, with a carriage return before it or not. -/
def lineEnd? : List Char → Option (List Char)
  | '\n' :: rest => some rest
  | '\r' :: '\n' :: rest => some rest
  | _ => none

/-- The text after the end of a line of the document: spaces, a comment, and the line end or
the end of the document. -/
def endOfLine? (s : List Char) : Option (List Char) :=
  match skipComment (skipSpaces s) with
  | [] => some []
  | rest => lineEnd? rest

/-- Skips spaces, comments and line ends inside an array; `fuel` bounds the number of lines. -/
def skipLines : Nat → List Char → List Char
  | 0, s => s
  | fuel + 1, s =>
    match lineEnd? (skipComment (skipSpaces s)) with
    | some rest => skipLines fuel rest
    | none => skipSpaces s

/-! ## Strings -/

def hexDigit? (c : Char) : Option Nat :=
  if c.isDigit then some (c.toNat - '0'.toNat)
  else if 'a' ≤ c ∧ c ≤ 'f' then some (c.toNat - 'a'.toNat + 10)
  else if 'A' ≤ c ∧ c ≤ 'F' then some (c.toNat - 'A'.toNat + 10)
  else none

/-- The number written with the hexadecimal digits `digits`. -/
def hexNumber? (digits : List Char) : Option Nat :=
  digits.foldlM (fun n c => (hexDigit? c).map (16 * n + ·)) 0

/-- The character with exactly `count` hexadecimal digits of code point at the front. -/
def codePoint? (count : Nat) (s : List Char) : Option (Char × List Char) :=
  let digits := s.take count
  match hexNumber? digits with
  | some n =>
    if h : digits.length = count ∧ n.isValidChar then some (Char.ofNatAux n h.2, s.drop count)
    else none
  | none => none

/-- The character of an escape sequence, given the text after its backslash. -/
def escape? : List Char → Option (Char × List Char)
  | 'b' :: rest => some ('\x08', rest)
  | 't' :: rest => some ('\t', rest)
  | 'n' :: rest => some ('\n', rest)
  | 'f' :: rest => some ('\x0c', rest)
  | 'r' :: rest => some ('\r', rest)
  | '"' :: rest => some ('"', rest)
  | '\\' :: rest => some ('\\', rest)
  | 'u' :: rest => codePoint? 4 rest
  | 'U' :: rest => codePoint? 8 rest
  | _ => none

/-- The text of a basic string after its opening quote; `fuel` bounds its length. -/
def basicString? : Nat → List Char → Option (List Char × List Char)
  | 0, _ => none
  | _, [] => none
  | fuel + 1, c :: rest =>
    if c = '"' then some ([], rest)
    else if c = '\\' then do
      let (d, rest) ← escape? rest
      let (text, rest) ← basicString? fuel rest
      some (d :: text, rest)
    else if isPrintable c then do
      let (text, rest) ← basicString? fuel rest
      some (c :: text, rest)
    else none

/-- The text of a literal string after its opening quote. -/
def literalString? : List Char → Option (List Char × List Char)
  | [] => none
  | c :: rest =>
    if c = '\'' then some ([], rest)
    else if isPrintable c then do
      let (text, rest) ← literalString? rest
      some (c :: text, rest)
    else none

/-- The end of a multi-line string: three to five of its quotes in a row, of which the first
ones beyond three belong to the text. -/
def closingQuotes? (quote : Char) (s : List Char) : Option (List Char × List Char) :=
  let run := (s.takeWhile (· == quote)).length
  if run < 3 then none
  else
    let extra := min (run - 3) 2
    some (List.replicate extra quote, s.drop (extra + 3))

/-- The text after a backslash at the end of a line: all blanks and line ends are left out.
`none` if something else than blanks follows the backslash on its line. -/
def lineContinuation? (s : List Char) : Option (List Char) :=
  (lineEnd? (skipSpaces s)).map fun rest => skip rest.length rest
where
  skip : Nat → List Char → List Char
    | 0, s => s
    | fuel + 1, s =>
      match lineEnd? (skipSpaces s) with
      | some rest => skip fuel rest
      | none => skipSpaces s

/-- The text of a multi-line basic string after its opening quotes. -/
def multiLineBasic? : Nat → List Char → Option (List Char × List Char)
  | 0, _ => none
  | _, [] => none
  | fuel + 1, c :: rest =>
    match closingQuotes? '"' (c :: rest) with
    | some closed => some closed
    | none =>
      if c = '\\' then
        match lineContinuation? rest with
        | some rest => multiLineBasic? fuel rest
        | none => do
          let (d, rest) ← escape? rest
          let (text, rest) ← multiLineBasic? fuel rest
          some (d :: text, rest)
      else
        match lineEnd? (c :: rest) with
        | some rest => do
          let (text, rest) ← multiLineBasic? fuel rest
          some ('\n' :: text, rest)
        | none =>
          if isPrintable c then do
            let (text, rest) ← multiLineBasic? fuel rest
            some (c :: text, rest)
          else none

/-- The text of a multi-line literal string after its opening quotes. -/
def multiLineLiteral? : Nat → List Char → Option (List Char × List Char)
  | 0, _ => none
  | _, [] => none
  | fuel + 1, c :: rest =>
    match closingQuotes? '\'' (c :: rest) with
    | some closed => some closed
    | none =>
      match lineEnd? (c :: rest) with
      | some rest => do
        let (text, rest) ← multiLineLiteral? fuel rest
        some ('\n' :: text, rest)
      | none =>
        if isPrintable c then do
          let (text, rest) ← multiLineLiteral? fuel rest
          some (c :: text, rest)
        else none

/-- A line end right after the opening quotes of a multi-line string is left out. -/
def dropFirstLineEnd (s : List Char) : List Char :=
  (lineEnd? s).getD s

/-- A string of any of the four kinds, if the text begins with a quote. -/
def stringValue? : List Char → Option (List Char × List Char)
  | '"' :: '"' :: '"' :: rest => multiLineBasic? (rest.length + 1) (dropFirstLineEnd rest)
  | '\'' :: '\'' :: '\'' :: rest => multiLineLiteral? (rest.length + 1) (dropFirstLineEnd rest)
  | '"' :: rest => basicString? (rest.length + 1) rest
  | '\'' :: rest => literalString? rest
  | _ => none

/-! ## Keys -/

def isBareKeyChar (c : Char) : Bool :=
  c.isAlphanum || c == '_' || c == '-'

/-- One part of a key: bare, or a quoted string on one line. -/
def keyPart? : List Char → Option (String × List Char)
  | '"' :: rest => (basicString? (rest.length + 1) rest).map fun (k, r) => (String.ofList k, r)
  | '\'' :: rest => (literalString? rest).map fun (k, r) => (String.ofList k, r)
  | s =>
    let bare := s.takeWhile isBareKeyChar
    if bare.isEmpty then none else some (String.ofList bare, s.drop bare.length)

/-- The parts of a dotted key, with blanks around the dots and at both ends. -/
def keyParts? : Nat → List Char → Option (List String × List Char)
  | 0, _ => none
  | fuel + 1, s => do
    let (part, rest) ← keyPart? (skipSpaces s)
    match skipSpaces rest with
    | '.' :: rest =>
      let (parts, rest) ← keyParts? fuel rest
      some (part :: parts, rest)
    | rest => some ([part], rest)

/-- Nesting, of values and of keys alike, stays below this depth. -/
def nestingLimit : Nat := 80

/-- A dotted key; one with too many parts is refused. -/
def dottedKey? (s : List Char) : Option (List String × List Char) :=
  keyParts? (nestingLimit - 1) s

/-! ## Scalars -/

/-- Digits in groups with single underscores between them, without the underscores. -/
def digitGroups? (isDigit : Char → Bool) (s : List Char) : Option (List Char) :=
  let groups := Text.splitAt '_' s
  if groups.all fun g => !g.isEmpty && g.all isDigit then some groups.flatten else none

/-- A sign split off: whether it is a minus, and the rest. -/
def splitSign : List Char → Bool × List Char
  | '-' :: rest => (true, rest)
  | '+' :: rest => (false, rest)
  | s => (false, s)

/-- The digits of a decimal whole number: no leading zero. -/
def wholeDigits? (s : List Char) : Option (List Char) :=
  match s with
  | '0' :: _ :: _ => none
  | _ => digitGroups? Char.isDigit s

/-- The number with the given digits in `base`. -/
def numberOfDigits (base : Nat) (digits : List Char) : Nat :=
  digits.foldl (fun n c => base * n + (hexDigit? c).getD 0) 0

/-- An integer of 64 bits. -/
def int64? (n : Int) : Option Int64 :=
  if Int64.minValue.toInt ≤ n ∧ n ≤ Int64.maxValue.toInt then some (Int64.ofInt n) else none

/-- An integer in base 16, 8 or 2 after its marker. -/
def baseInteger? (base : Nat) (s : List Char) : Option Int64 := do
  let digits ← digitGroups? (fun c => (hexDigit? c).any (· < base)) s
  int64? (numberOfDigits base digits)

/-- A token as an integer. -/
def integer? : List Char → Option Int64
  | '0' :: 'x' :: s => baseInteger? 16 s
  | '0' :: 'o' :: s => baseInteger? 8 s
  | '0' :: 'b' :: s => baseInteger? 2 s
  | s => do
    let (negative, s) := splitSign s
    let digits ← wholeDigits? s
    let n : Int := numberOfDigits 10 digits
    int64? (if negative then -n else n)

/-- The exponent of a float after its `e`. -/
def floatExponent? (s : List Char) : Option Int := do
  let (negative, s) := splitSign s
  let digits ← digitGroups? Char.isDigit s
  let n : Int := numberOfDigits 10 digits
  some (if negative then -n else n)

/-- The decimal digits of a float's mantissa, and how many of them stand after the point. -/
def mantissa? (s : List Char) : Option (List Char × Nat) := do
  match Text.splitAt '.' s with
  | [whole] =>
    let digits ← wholeDigits? whole
    some (digits, 0)
  | [whole, fraction] =>
    let digits ← wholeDigits? whole
    let more ← digitGroups? Char.isDigit fraction
    some (digits ++ more, more.length)
  | _ => none

/-- A float with digits: a point or an exponent makes it one. A value above the finite range is
refused; one below it is the negative infinity. -/
def decimalFloat? (token : List Char) : Option Binary64 := do
  let (negative, s) := splitSign token
  let lower := s.map fun c => if c = 'E' then 'e' else c
  let (mantissa, exponent) ←
    match Text.splitAt 'e' lower with
    | [m] => if m.contains '.' then some (m, (0 : Int)) else none
    | [m, e] => (floatExponent? e).map (m, ·)
    | _ => none
  let (digits, places) ← mantissa? mantissa
  let x := Binary64.ofDecimal negative (numberOfDigits 10 digits) (exponent - places)
  if x.isInfinite && !negative then none else some x

/-- A token as a float. -/
def float? (token : List Char) : Option Binary64 :=
  let (negative, s) := splitSign token
  if s = "inf".toList then some (Binary64.infinity negative)
  else if s = "nan".toList then some (Binary64.nan negative)
  else decimalFloat? token

/-- A token as a scalar value. -/
def scalar? (token : List Char) : Option Value :=
  if token = "true".toList then some (.boolean true)
  else if token = "false".toList then some (.boolean false)
  else
    match Datetime.read? token, float? token, integer? token with
    | some d, _, _ => some (.datetime d)
    | none, some x, _ => some (.float x)
    | none, none, some n => some (.integer n)
    | none, none, none => none

/-- The characters that scalars other than strings are made of. -/
def isScalarChar (c : Char) : Bool :=
  c.isAlphanum || c == '_' || c == '+' || c == '-' || c == '.' || c == ':'

/-- A scalar other than a string.  A date may be followed by a space and a time. -/
def scalarValue? (s : List Char) : Option (Value × List Char) :=
  let token := s.takeWhile isScalarChar
  let rest := s.drop token.length
  match rest with
  | ' ' :: after =>
    let time := after.takeWhile isScalarChar
    match Datetime.read? (token ++ ' ' :: time) with
    | some d => some (.datetime d, after.drop time.length)
    | none => (scalar? token).map (·, rest)
  | _ => (scalar? token).map (·, rest)

end Toml
end SiteSettings
