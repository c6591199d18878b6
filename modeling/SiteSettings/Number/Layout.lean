import SiteSettings.Number.Shortest

/-!
# Written forms of a number

Three texts of a double-precision number are in use, all made from its shortest digits:

* `positional`: digits with a point where one is needed and never an exponent (`1`, `0.5`,
  `100000000000000000000`), the form keys take in messages;
* `positionalWithPoint`: the same, a whole number marked by `.0`, the form values take in
  messages about wrong types;
* `literal`: always recognisable as a number with a fraction, with an exponent for very
  small and very large numbers, the form they take in generated code.
-/

namespace SiteSettings
namespace Binary64

/-- The digits and the number of places before the point, for a finite number. -/
def digitsAndPoint (x : Binary64) : List Char × Int :=
  if x.isZero then (['0'], 1)
  else
    let d := x.shortest
    let digits := Nat.toDigits 10 d.digits
    (digits, (digits.length : Int) + d.exponent)

/-- Digits with a decimal point after `point` places, zeros filled in on either side. -/
def placePoint (digits : List Char) (point : Int) : String :=
  if point ≤ 0 then
    "0." ++ String.ofList (List.replicate (-point).toNat '0' ++ digits)
  else if digits.length ≤ point.toNat then
    String.ofList (digits ++ List.replicate (point.toNat - digits.length) '0')
  else
    String.ofList (digits.take point.toNat) ++ "." ++ String.ofList (digits.drop point.toNat)

/-- A minus sign for a negative number. -/
def sign (x : Binary64) : String :=
  if x.isNegative then "-" else ""

/-- Shortest digits, positional, no exponent; `NaN`, `inf`, `-inf`, `-0`. -/
def positional (x : Binary64) : String :=
  if x.isNaN then "NaN"
  else if x.isInfinite then x.sign ++ "inf"
  else
    let (digits, point) := x.digitsAndPoint
    x.sign ++ placePoint digits point

/-- As `positional`, with `.0` after a whole finite number. -/
def positionalWithPoint (x : Binary64) : String :=
  let text := x.positional
  if x.isFinite && !text.toList.contains '.' then text ++ ".0" else text

/-- Digits in exponent notation: a point after the first digit if more follow. -/
def placeExponent (digits : List Char) (point : Int) : String :=
  let mantissa :=
    match digits with
    | [] => ""
    | [d] => String.singleton d
    | d :: rest => String.singleton d ++ "." ++ String.ofList rest
  mantissa ++ "e" ++ toString (point - 1)

/-- Text of a finite number that is never that of an integer: positional from `0.0001` to below
`10 ^ 16`, exponent notation outside. -/
def literal (x : Binary64) : String :=
  let (digits, point) := x.digitsAndPoint
  if x.isZero || (-3 ≤ point && point ≤ 16) then x.positionalWithPoint
  else x.sign ++ placeExponent digits point

end Binary64
end SiteSettings
