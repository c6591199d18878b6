/-!
# Dates and times in configuration files

A configuration value may be a date, a time of day, or both, the latter with an offset from
universal time.  No setting takes one, but a file that holds one is well formed, so they
are read with all range checks (lengths of months, leap years, a leap second) and written back in
one spelling: `T` between date and time, a fraction without trailing zeros.
-/

namespace SiteSettings
namespace Toml

structure Date where
  year : Nat
  month : Nat
  day : Nat
deriving DecidableEq, Repr

/-- A time of day; the fraction of a second is kept to the nanosecond. -/
structure Time where
  hour : Nat
  minute : Nat
  second : Nat
  nanosecond : Nat
deriving DecidableEq, Repr

inductive Offset
  | utc
  | minutes (east : Int)
deriving DecidableEq, Repr

/-- At least one of date and time; an offset needs both. -/
inductive Datetime
  | date (d : Date)
  | time (t : Time)
  | moment (d : Date) (t : Time) (offset : Option Offset)
deriving DecidableEq, Repr

/-! ## Written form -/

/-- A number with leading zeros up to `width` digits. -/
def zeroPadded (width n : Nat) : String :=
  let digits := Nat.toDigits 10 n
  String.ofList (List.replicate (width - digits.length) '0' ++ digits)

namespace Date

def text (d : Date) : String :=
  zeroPadded 4 d.year ++ "-" ++ zeroPadded 2 d.month ++ "-" ++ zeroPadded 2 d.day

def isLeapYear (year : Nat) : Bool :=
  year % 4 == 0 && (year % 100 != 0 || year % 400 == 0)

def daysInMonth (year month : Nat) : Nat :=
  if month = 2 then (if isLeapYear year then 29 else 28)
  else if month = 4 ∨ month = 6 ∨ month = 9 ∨ month = 11 then 30
  else 31

end Date

namespace Time

/-- Hours, minutes and seconds, and the fraction if there is one. -/
def text (t : Time) : String :=
  let whole := zeroPadded 2 t.hour ++ ":" ++ zeroPadded 2 t.minute ++ ":" ++ zeroPadded 2 t.second
  if t.nanosecond = 0 then whole
  else
    let digits := (zeroPadded 9 t.nanosecond).toList
    whole ++ "." ++ String.ofList (digits.reverse.dropWhile (· == '0')).reverse

end Time

namespace Offset

def text : Offset → String
  | .utc => "Z"
  | .minutes east =>
    (if east < 0 then "-" else "+") ++
      zeroPadded 2 (east.natAbs / 60) ++ ":" ++ zeroPadded 2 (east.natAbs % 60)

end Offset

namespace Datetime

def text : Datetime → String
  | .date d => d.text
  | .time t => t.text
  | .moment d t none => d.text ++ "T" ++ t.text
  | .moment d t (some offset) => d.text ++ "T" ++ t.text ++ offset.text

end Datetime

/-! ## Reading -/

/-- A number of exactly `count` decimal digits, and what follows it. -/
def fixedDigits? (count : Nat) (s : List Char) : Option (Nat × List Char) :=
  let digits := s.take count
  if digits.length = count ∧ digits.all Char.isDigit then
    some (digits.foldl (fun n c => 10 * n + (c.toNat - '0'.toNat)) 0, s.drop count)
  else none

/-- The text after the character `c`. -/
def afterChar? (c : Char) : List Char → Option (List Char)
  | [] => none
  | d :: rest => if d = c then some rest else none

/-- A date at the front of the text, and what follows it. -/
def Date.scan? (s : List Char) : Option (Date × List Char) := do
  let (year, s) ← fixedDigits? 4 s
  let s ← afterChar? '-' s
  let (month, s) ← fixedDigits? 2 s
  let s ← afterChar? '-' s
  let (day, s) ← fixedDigits? 2 s
  if 1 ≤ month ∧ month ≤ 12 ∧ 1 ≤ day ∧ day ≤ Date.daysInMonth year month then
    some (⟨year, month, day⟩, s)
  else none

/-- Nanoseconds from the digits of a fraction; digits beyond the ninth are dropped. -/
def nanosecondsOfFraction (digits : List Char) : Nat :=
  let kept := digits.take 9
  (kept ++ List.replicate (9 - kept.length) '0').foldl
    (fun n c => 10 * n + (c.toNat - '0'.toNat)) 0

/-- A time of day at the front of the text, and what follows it. -/
def Time.scan? (s : List Char) : Option (Time × List Char) := do
  let (hour, s) ← fixedDigits? 2 s
  let s ← afterChar? ':' s
  let (minute, s) ← fixedDigits? 2 s
  let s ← afterChar? ':' s
  let (second, s) ← fixedDigits? 2 s
  if hour ≤ 23 ∧ minute ≤ 59 ∧ second ≤ 60 then
    match s with
    | '.' :: rest =>
      let digits := rest.takeWhile Char.isDigit
      if digits.isEmpty then none
      else some (⟨hour, minute, second, nanosecondsOfFraction digits⟩, rest.drop digits.length)
    | _ => some (⟨hour, minute, second, 0⟩, s)
  else none

/-- The whole text as an offset; the empty text is none at all. -/
def Offset.read? : List Char → Option (Option Offset)
  | [] => some none
  | ['Z'] => some (some .utc)
  | ['z'] => some (some .utc)
  | sign :: s => do
    let (hour, s) ← fixedDigits? 2 s
    let s ← afterChar? ':' s
    let (minute, s) ← fixedDigits? 2 s
    if s.isEmpty ∧ hour ≤ 23 ∧ minute ≤ 59 ∧ (sign = '+' ∨ sign = '-') then
      let east : Int := hour * 60 + minute
      some (some (.minutes (if sign = '-' then -east else east)))
    else none

/-- The whole text as a date, a time, or both with a `T` or a space between them. -/
def Datetime.read? (s : List Char) : Option Datetime :=
  match Date.scan? s with
  | some (d, []) => some (.date d)
  | some (d, separator :: rest) =>
    if separator = 'T' ∨ separator = 't' ∨ separator = ' ' then do
      let (t, rest) ← Time.scan? rest
      let offset ← Offset.read? rest
      some (.moment d t offset)
    else none
  | none =>
    match Time.scan? s with
    | some (t, []) => some (.time t)
    | _ => none

end Toml
end SiteSettings
