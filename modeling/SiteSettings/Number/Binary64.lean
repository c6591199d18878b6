/-!
# Double-precision numbers

Array keys and numbers in configuration files can be IEEE 754 double-precision numbers.
Hardly anything is computed with them: they are read from decimal text, compared, and
written as decimal text again.  So the type holds the 64 bits themselves, and every finite
number is seen through its exact value `± significand · 2 ^ exponent` over the natural numbers.

Reading decimal text is `ofDecimal`: the exact quotient is rounded once, to the nearest
number, a half to the even neighbour, and a value beyond the finite range becomes infinite.
-/

namespace SiteSettings

/-- A double-precision number, as its 64 bits: sign, eleven exponent bits, 52 fraction bits. -/
structure Binary64 where
  bits : UInt64
deriving DecidableEq, Repr

namespace Binary64

/-! ## The parts of a number -/

/-- The value of the sign bit. -/
def signBit : Nat := Nat.pow 2 63

/-- The value of the least exponent bit, and of the leading bit that normal numbers leave out. -/
def hiddenBit : Nat := Nat.pow 2 52

/-- Whether the sign bit is set; it is also set in `-0`. -/
def isNegative (x : Binary64) : Bool :=
  signBit ≤ x.bits.toNat

/-- The bits without the sign. -/
def magnitude (x : Binary64) : Nat :=
  x.bits.toNat % signBit

/-- The eleven exponent bits. -/
def exponentField (x : Binary64) : Nat :=
  x.magnitude / hiddenBit

/-- The 52 fraction bits. -/
def fraction (x : Binary64) : Nat :=
  x.magnitude % hiddenBit

/-- All exponent bits set and a fraction: not a number. -/
def isNaN (x : Binary64) : Bool :=
  x.exponentField == 2047 && x.fraction != 0

/-- All exponent bits set and no fraction: an infinity. -/
def isInfinite (x : Binary64) : Bool :=
  x.exponentField == 2047 && x.fraction == 0

/-- Neither an infinity nor not a number. -/
def isFinite (x : Binary64) : Bool :=
  x.exponentField != 2047

/-- Zero of either sign. -/
def isZero (x : Binary64) : Bool :=
  x.magnitude == 0

/-- The whole number `m` of the exact value `m · 2 ^ exponent` of a finite number.
Subnormal numbers lack the hidden leading bit. -/
def significand (x : Binary64) : Nat :=
  if x.exponentField = 0 then x.fraction else hiddenBit + x.fraction

/-- The power of two of the exact value of a finite number. -/
def exponent (x : Binary64) : Int :=
  if x.exponentField = 0 then -1074 else (x.exponentField : Int) - 1075

/-! ## Numbers from bits -/

/-- The number of the given sign and magnitude bits. -/
def ofMagnitude (negative : Bool) (magnitude : Nat) : Binary64 :=
  ⟨UInt64.ofNat ((if negative then signBit else 0) + magnitude)⟩

/-- The infinity of the given sign. -/
def infinity (negative : Bool) : Binary64 :=
  ofMagnitude negative (2047 * hiddenBit)

/-- The quiet number that is not a number, of the given sign. -/
def nan (negative : Bool) : Binary64 :=
  ofMagnitude negative (2047 * hiddenBit + hiddenBit / 2)

/-! ## Rounding a quotient -/

/-- The quotient `n / d` rounded to a whole number, a half to the even neighbour. -/
def roundHalfEven (n d : Nat) : Nat :=
  let q := n / d
  let twice := 2 * (n % d)
  if twice < d then q
  else if d < twice then q + 1
  else if q % 2 = 0 then q else q + 1

/-- The greatest `e` at or above the subnormal exponent with `2 ^ 52 ≤ n / (d · 2 ^ e)`, found
from the bit lengths: they leave two candidates. -/
def quotientExponent (n d : Nat) : Int :=
  let e : Int := (n.log2 : Int) - (d.log2 : Int) - 53
  let reaches (e : Int) : Bool :=
    d * Nat.pow 2 e.toNat * hiddenBit ≤ n * Nat.pow 2 (-e).toNat
  max (-1074) (if reaches (e + 1) then e + 1 else e)

/-- The number nearest to `n / d`.  The exponent bits and the rounded significand simply add
up: a significand that rounds up to the next power of two carries into the exponent. -/
def ofQuotient (negative : Bool) (n d : Nat) : Binary64 :=
  if n = 0 then ofMagnitude negative 0
  else
    let e := quotientExponent n d
    let m := roundHalfEven (n * Nat.pow 2 (-e).toNat) (d * Nat.pow 2 e.toNat)
    let magnitude := (e + 1074).toNat * hiddenBit + m
    if 2047 * hiddenBit ≤ magnitude then infinity negative else ofMagnitude negative magnitude

/-- The number nearest to `± digits · 10 ^ exponent`.  Exponents far outside the range are
answered at once, so that no huge power is computed: a number with `k` digits lies between
`10 ^ (k - 1)` and `10 ^ k`. -/
def ofDecimal (negative : Bool) (digits : Nat) (exponent : Int) : Binary64 :=
  let length : Int := (digits.log2 : Int) * 30103 / 100000 + 1
  if digits = 0 then ofMagnitude negative 0
  else if length + exponent > 320 then infinity negative
  else if length + exponent < -340 then ofMagnitude negative 0
  else ofQuotient negative (digits * Nat.pow 10 exponent.toNat) (Nat.pow 10 (-exponent).toNat)

/-- The product of two numbers, neither of which is `nan`, rounded once. -/
def mul (x y : Binary64) : Binary64 :=
  let e := x.exponent + y.exponent
  ofQuotient (x.isNegative != y.isNegative)
    (x.significand * y.significand * Nat.pow 2 e.toNat) (Nat.pow 2 (-e).toNat)

end Binary64
end SiteSettings
