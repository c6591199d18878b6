import SiteSettings.Json.Value

/-!
# JSON texts

`parse` reads a JSON text strictly: nothing but blanks around one value, no control characters in
strings, no unpaired surrogate, no number beyond the range of double precision, and at most 127
levels of arrays and objects.  A malformed text has no answer; which rule it breaks is not told.
-/

namespace SiteSettings
namespace Json

/-- Skips the four blanks of JSON. -/
def skipBlanks (s : List Char) : List Char :=
  s.dropWhile fun c => c == ' ' || c == '\t' || c == '\n' || c == '\r'

/-! ## Strings -/

/-- The value of a hexadecimal digit. -/
def hexValue? (c : Char) : Option Nat :=
  if c.isDigit then some (c.toNat - '0'.toNat)
  else if 'a' ≤ c ∧ c ≤ 'f' then some (c.toNat - 'a'.toNat + 10)
  else if 'A' ≤ c ∧ c ≤ 'F' then some (c.toNat - 'A'.toNat + 10)
  else none

/-- The code unit of four hexadecimal digits at the front of the text. -/
def codeUnit? : List Char → Option (Nat × List Char)
  | a :: b :: c :: d :: rest => do
    let a ← hexValue? a
    let b ← hexValue? b
    let c ← hexValue? c
    let d ← hexValue? d
    some (((a * 16 + b) * 16 + c) * 16 + d, rest)
  | _ => none

/-- The character of a `\u` escape: one code unit, or a pair of surrogates. -/
def unicodeEscape? (s : List Char) : Option (Char × List Char) := do
  let (high, rest) ← codeUnit? s
  if 0xd800 ≤ high ∧ high < 0xdc00 then
    match rest with
    | '\\' :: 'u' :: rest => do
      let (low, rest) ← codeUnit? rest
      if 0xdc00 ≤ low ∧ low < 0xe000 then
        some (Char.ofNat (0x10000 + (high - 0xd800) * 0x400 + (low - 0xdc00)), rest)
      else none
    | _ => none
  else if 0xdc00 ≤ high ∧ high < 0xe000 then none
  else some (Char.ofNat high, rest)

/-- The character of an escape sequence, given the text after its backslash. -/
def escape? : List Char → Option (Char × List Char)
  | '"' :: rest => some ('"', rest)
  | '\\' :: rest => some ('\\', rest)
  | '/' :: rest => some ('/', rest)
  | 'b' :: rest => some ('\x08', rest)
  | 'f' :: rest => some ('\x0c', rest)
  | 'n' :: rest => some ('\n', rest)
  | 'r' :: rest => some ('\r', rest)
  | 't' :: rest => some ('\t', rest)
  | 'u' :: rest => unicodeEscape? rest
  | _ => none

/-- The text of a string after its opening quote; `fuel` bounds its length. -/
def stringText? : Nat → List Char → Option (List Char × List Char)
  | 0, _ => none
  | _, [] => none
  | fuel + 1, c :: rest =>
    if c = '"' then some ([], rest)
    else if c = '\\' then do
      let (d, rest) ← escape? rest
      let (text, rest) ← stringText? fuel rest
      some (d :: text, rest)
    else if c < ' ' then none
    else do
      let (text, rest) ← stringText? fuel rest
      some (c :: text, rest)

/-- A string after its opening quote. -/
def string? (s : List Char) : Option (String × List Char) :=
  (stringText? (s.length + 1) s).map fun (text, rest) => (String.ofList text, rest)

/-! ## Numbers -/

/-- Digits of a number, with the text after them; at least one. -/
def digits? (s : List Char) : Option (List Char × List Char) :=
  let digits := s.takeWhile Char.isDigit
  if digits.isEmpty then none else some (digits, s.drop digits.length)

def natOfDigits (digits : List Char) : Nat :=
  digits.foldl (fun n c => 10 * n + (c.toNat - '0'.toNat)) 0

/-- The digits after a decimal point, none if there is no point. -/
def fraction? : List Char → Option (List Char × List Char)
  | '.' :: rest => digits? rest
  | s => some ([], s)

/-- The exponent, `none` inside if there is none. -/
def exponent? : List Char → Option (Option Int × List Char)
  | c :: rest =>
    if c = 'e' ∨ c = 'E' then do
      let (negative, rest) :=
        match rest with
        | '-' :: rest => (true, rest)
        | '+' :: rest => (false, rest)
        | rest => (false, rest)
      let (digits, rest) ← digits? rest
      let n : Int := natOfDigits digits
      some (some (if negative then -n else n), rest)
    else some (none, c :: rest)
  | [] => some (none, [])

/-- The number that the leading digits make, as many of them as fit into 64 bits after the number
`n` of those before, and how many digits are left. -/
def leadingDigits (n : Nat) : List Char → Nat × Nat
  | [] => (n, 0)
  | c :: rest =>
    let next := 10 * n + (c.toNat - '0'.toNat)
    if next < UInt64.size then leadingDigits next rest else (n, rest.length + 1)

/-- The number `± significand · 10 ^ exponent`.  With a positive exponent the significand and the
power are rounded each for itself, and then their product; so numbers right below the end of the
range can come out as infinite. -/
def scaled (negative : Bool) (significand : Nat) (exponent : Int) : Binary64 :=
  if exponent < 0 then Binary64.ofDecimal negative significand exponent
  else (Binary64.ofDecimal negative significand 0).mul (Binary64.ofDecimal false 1 exponent)

/-- A number.  It is an integer if it has neither fraction nor exponent and fits into 64 bits. -/
def number? (s : List Char) : Option (Value × List Char) := do
  let (negative, rest) :=
    match s with
    | '-' :: rest => (true, rest)
    | rest => (false, rest)
  let (whole, rest) ← digits? rest
  if whole.head? = some '0' ∧ whole.length ≠ 1 then none
  else do
    let (fraction, rest) ← fraction? rest
    let (exponent, rest) ← exponent? rest
    let n : Int := if negative then -natOfDigits whole else natOfDigits whole
    let inRange : Bool :=
      if negative then Int64.minValue.toInt ≤ n && n != 0 else n < UInt64.size
    if fraction.isEmpty ∧ exponent.isNone ∧ inRange then some (.integer n, rest)
    else
      let (significand, dropped) := leadingDigits 0 (whole ++ fraction)
      let x := scaled negative significand (exponent.getD 0 - fraction.length + dropped)
      if x.isInfinite then none else some (.float x, rest)

/-! ## Values -/

/-- The text after `word`, if it begins with it. -/
def afterWord? (word : String) (s : List Char) : Option (List Char) :=
  if word.toList.isPrefixOf s then some (s.drop word.toList.length) else none

mutual

/-- A value of any kind; `depth` more levels may follow, and `fuel` bounds the work on the text. -/
def value? : Nat → Nat → List Char → Option (Value × List Char)
  | 0, _, _ => none
  | _ + 1, 0, '[' :: _ => none
  | _ + 1, 0, '{' :: _ => none
  | fuel + 1, depth + 1, '[' :: rest =>
    match skipBlanks rest with
    | ']' :: rest => some (.array [], rest)
    | rest => do
      let (items, rest) ← items? fuel depth rest
      some (.array items, rest)
  | fuel + 1, depth + 1, '{' :: rest =>
    match skipBlanks rest with
    | '}' :: rest => some (.object [], rest)
    | rest => do
      let (members, rest) ← members? fuel depth [] rest
      some (.object members, rest)
  | _ + 1, _, '"' :: rest => (string? rest).map fun (text, rest) => (.string text, rest)
  | _ + 1, _, s =>
    match afterWord? "null" s, afterWord? "true" s, afterWord? "false" s with
    | some rest, _, _ => some (.null, rest)
    | _, some rest, _ => some (.boolean true, rest)
    | _, _, some rest => some (.boolean false, rest)
    | none, none, none => number? s
termination_by structural fuel => fuel

/-- The items of an array up to its closing bracket, at least one. -/
def items? : Nat → Nat → List Char → Option (List Value × List Char)
  | 0, _, _ => none
  | fuel + 1, depth, s => do
    let (v, rest) ← value? fuel depth (skipBlanks s)
    match skipBlanks rest with
    | ',' :: rest =>
      let (vs, rest) ← items? fuel depth rest
      some (v :: vs, rest)
    | ']' :: rest => some ([v], rest)
    | _ => none
termination_by structural fuel => fuel

/-- The members of an object up to its closing brace, at least one, added to those before. -/
def members? : Nat → Nat → Entries Value → List Char → Option (Entries Value × List Char)
  | 0, _, _, _ => none
  | fuel + 1, depth, members, s =>
    match skipBlanks s with
    | '"' :: rest => do
      let (name, rest) ← string? rest
      match skipBlanks rest with
      | ':' :: rest =>
        let (v, rest) ← value? fuel depth (skipBlanks rest)
        let members := Entries.insert name v members
        match skipBlanks rest with
        | ',' :: rest => members? fuel depth members rest
        | '}' :: rest => some (members, rest)
        | _ => none
      | _ => none
    | _ => none
termination_by structural fuel => fuel

end

/-- The deepest nesting of arrays and objects. -/
def nestingLimit : Nat := 127

/-- The value of a JSON text, or `none` if it is malformed. -/
def parse (text : String) : Option Value := do
  let s := skipBlanks text.toList
  let (v, rest) ← value? (2 * s.length + 2) nestingLimit s
  if (skipBlanks rest).isEmpty then some v else none

end Json
end SiteSettings
