/-!
# Shortest decimals

The decimal with the fewest digits that reads back as a given 64-bit floating-point number. A
number `mantissa · 2 ^ exponent` owns the interval of reals that round to it; for one digit, two
digits and so on, the two neighbours of the number on that decimal grid are tried, and the first
grid with a neighbour inside the interval decides. All arithmetic is on natural numbers, scaled by
`10 ^ 400` so that every grid in use has a whole step.
-/

namespace SchemaAtlas

/-- The number `coefficient · 10 ^ exponent`. -/
structure Decimal where
  coefficient : Nat
  exponent : Int
deriving DecidableEq

namespace Decimal

/-- Move trailing zeros of the coefficient into the exponent. -/
def strip (coefficient : Nat) (exponent : Int) : Decimal :=
  if h : coefficient ≠ 0 ∧ coefficient % 10 = 0 then
    strip (coefficient / 10) (exponent + 1)
  else ⟨coefficient, exponent⟩
termination_by coefficient
decreasing_by omega

/-- How many digits stand before the point; negative when zeros follow it. -/
def decade (d : Decimal) : Int :=
  (Nat.toDigits 10 d.coefficient).length + d.exponent

end Decimal

/-- A positive number with the ends of the interval that rounds to it, over one denominator. -/
structure Rounding where
  low : Nat
  value : Nat
  high : Nat
  denominator : Nat
  /-- Whether the ends themselves round to the number. -/
  closed : Bool

namespace Rounding

/-- Fraction bits and biased exponent of a finite positive number. Below a power of two the
neighbour is only half as far away, except at the subnormal end. -/
def ofParts (fraction biased : Nat) : Rounding :=
  let mantissa := if biased = 0 then fraction else fraction + Nat.pow 2 52
  let lowGap := if fraction = 0 ∧ 1 < biased then 1 else 2
  let shift := if biased = 0 then 1 else biased
  let scale := Nat.pow 2 (shift - 1077)
  { low := (4 * mantissa - lowGap) * scale
    value := 4 * mantissa * scale
    high := (4 * mantissa + 2) * scale
    denominator := Nat.pow 2 (1077 - shift)
    closed := mantissa % 2 = 0 }

/-- Places that every grid in use has room for. -/
def gridPlaces : Nat := 400

def gridScale : Nat := Nat.pow 10 gridPlaces

def holds (r : Rounding) (scaled : Nat) : Bool :=
  let low := r.low * gridScale
  let high := r.high * gridScale
  if r.closed then low ≤ scaled && scaled ≤ high else low < scaled && scaled < high

/-- The decade of the number: the `k` with `10 ^ (k - 1) ≤ value < 10 ^ k`, raised by the scale. -/
def raisedDecade (r : Rounding) : Nat :=
  (Nat.toDigits 10 (r.value * gridScale / r.denominator)).length

/-- The nearest point of the grid with `digits` digits that reads back, if one does. Of two points
at the same distance the larger is taken. -/
def onGrid (r : Rounding) (digits : Nat) : Option Decimal :=
  let raised := r.raisedDecade - digits
  let step := Nat.pow 10 raised * r.denominator
  let value := r.value * gridScale
  let below := value / step
  let above := below + 1
  let exponent : Int := (raised : Int) - gridPlaces
  match r.holds (below * step), r.holds (above * step) with
  | true, true =>
    if 2 * (value - below * step) < step then some (Decimal.strip below exponent)
    else some (Decimal.strip above exponent)
  | true, false => some (Decimal.strip below exponent)
  | false, true => some (Decimal.strip above exponent)
  | false, false => none

/-- Seventeen digits always suffice. -/
def shortest (r : Rounding) : Decimal :=
  ((List.range 17).findSome? fun n => r.onGrid (n + 1)).getD ⟨0, 0⟩

end Rounding

end SchemaAtlas
