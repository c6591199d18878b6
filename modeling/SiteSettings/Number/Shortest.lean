import SiteSettings.Number.Binary64

/-!
# The shortest decimal that reads back

A finite number is written with the fewest decimal digits that still read back as the same
number, and of those digit strings with the one nearest to the exact value.

The exact value is `m · 2 ^ q`.  The decimals that read back as it form an interval around
it that ends halfway to the two neighbouring numbers; the ends belong to it exactly when `m`
is even.  For one digit, two digits, and so on up to seventeen, the value's two neighbours on
that decimal grid are tested: the first grid with a hit wins, of two hits the nearer one, and
of two equally near ones the upper.  Everything is exact arithmetic on natural numbers.
-/

namespace SiteSettings

/-- The decimal number `digits · 10 ^ exponent`. -/
structure Decimal where
  digits : Nat
  exponent : Int
deriving DecidableEq, Repr

namespace Decimal

/-- Trailing zeros moved into the exponent. -/
def trimZeros (d : Decimal) : Decimal :=
  go d.digits d.digits d.exponent
where
  /-- At most `fuel` zeros; a number has fewer digits than its value. -/
  go : Nat → Nat → Int → Decimal
    | 0, n, e => ⟨n, e⟩
    | fuel + 1, n, e =>
      if n ≠ 0 ∧ n % 10 = 0 then go fuel (n / 10) (e + 1) else ⟨n, e⟩

end Decimal

/-- The interval of values that read back as one number, in quarters of its last place:
the value is `centre · 2 ^ scale`, with `lower` and `upper` in the same unit. -/
structure RoundingInterval where
  lower : Nat
  centre : Nat
  upper : Nat
  scale : Int
  closed : Bool
deriving DecidableEq, Repr

namespace RoundingInterval

/-- The interval of `m · 2 ^ q`.  Below a power of two the neighbour is half as far away,
unless it is the least normal number. -/
def ofNumber (x : Binary64) : RoundingInterval :=
  let m := x.significand
  let nearBelow := x.fraction = 0 ∧ 1 < x.exponentField
  { lower := if nearBelow then 4 * m - 1 else 4 * m - 2
    centre := 4 * m
    upper := 4 * m + 2
    scale := x.exponent - 2
    closed := m % 2 = 0 }

/-- Factors that bring the interval and the grid of step `10 ^ k` to one unit: a bound `b`
of the interval becomes `b · 2 ^ scale`, a grid point `d` becomes `d · 10 ^ k`, both times
the same power. -/
def boundFactor (i : RoundingInterval) (k : Int) : Nat :=
  Nat.pow 2 i.scale.toNat * Nat.pow 10 (-k).toNat

/-- The factor of the grid points, see `boundFactor`. -/
def gridFactor (i : RoundingInterval) (k : Int) : Nat :=
  Nat.pow 10 k.toNat * Nat.pow 2 (-i.scale).toNat

/-- Whether the grid point `d · 10 ^ k` reads back as the number. -/
def contains (i : RoundingInterval) (d : Nat) (k : Int) : Bool :=
  let point := d * i.gridFactor k
  let low := i.lower * i.boundFactor k
  let high := i.upper * i.boundFactor k
  if i.closed then low ≤ point ∧ point ≤ high else low < point ∧ point < high

/-- The better of the value's two neighbours on the grid of step `10 ^ k`, if one of them
reads back. -/
def nearestOnGrid? (i : RoundingInterval) (k : Int) : Option Nat :=
  let value := i.centre * i.boundFactor k
  let below := value / i.gridFactor k
  let above := below + 1
  match i.contains below k, i.contains above k with
  | true, true =>
    if value - below * i.gridFactor k < above * i.gridFactor k - value then some below
    else some above
  | true, false => some below
  | false, true => some above
  | false, false => none

/-- The number of digits before the decimal point of the value, negative for leading zeros
after it: the least `e` with value below `10 ^ e`. -/
def pointPosition (i : RoundingInterval) : Int :=
  let guess : Int := ((i.centre.log2 : Int) + i.scale) * 30103 / 100000
  let above (e : Int) : Bool := i.centre * i.boundFactor e < i.gridFactor e
  if above guess then guess
  else if above (guess + 1) then guess + 1
  else guess + 2

/-- The first hit on the grids from `n` digits on, at most `fuel` of them. -/
def search (i : RoundingInterval) (position : Int) : Nat → Nat → Decimal
  | 0, _ => ⟨i.centre, i.scale⟩
  | fuel + 1, n =>
    let k := position - (n : Int)
    match i.nearestOnGrid? k with
    | some d => ⟨d, k⟩
    | none => search i position fuel (n + 1)

end RoundingInterval

namespace Binary64

/-- The shortest decimal that reads back as a finite number other than zero. -/
def shortest (x : Binary64) : Decimal :=
  let i := RoundingInterval.ofNumber x
  (i.search i.pointPosition 18 1).trimZeros

end Binary64
end SiteSettings
