import RtiAssembly.Number.Numeral

/-!
# The shortest decimal that reads back

A binary floating-point number stands for every real that rounds to it.  This
module finds the decimal with the fewest digits among those reals and, among
decimals of that length, the one nearest to the number itself.

All arithmetic is exact: the number and the ends of its interval are natural
numerators over one denominator, and each decimal grid is tested at the two
grid points around the number.  When a grid has any point in the interval it
has one of these two.
-/

namespace RtiAssembly

/-- The decimal `coefficient * 10 ^ exponent`. -/
structure Decimal where
  coefficient : Nat
  exponent : Int
  deriving DecidableEq, Repr

namespace Decimal

/-- The digits of the coefficient. -/
def digits (decimal : Decimal) : List Digit :=
  Digit.ofNat decimal.coefficient

/-- Drop trailing zeros of the coefficient, at most as many as `limit`. -/
def trimmed (decimal : Decimal) : Nat → Decimal
  | 0 => decimal
  | limit + 1 =>
      if decimal.coefficient ≠ 0 ∧ decimal.coefficient % 10 = 0 then
        trimmed ⟨decimal.coefficient / 10, decimal.exponent + 1⟩ limit
      else
        decimal

end Decimal

/-- Which of two equally near decimals of the same length is taken. -/
inductive Tie
  | up
  | even
  deriving DecidableEq, Repr

/-- A positive rational together with the interval of reals that round to it,
all over one denominator. -/
structure RoundingInterval where
  low : Nat
  middle : Nat
  high : Nat
  denominator : Nat
  /-- Whether the two ends belong to the interval. -/
  closed : Bool
  deriving Repr

namespace RoundingInterval

/-- The interval of the binary number `mantissa * 2 ^ power`.  It reaches half
a step to both sides, and only a quarter of a step downwards where the steps
below are half as long. -/
def ofBinary (mantissa : Nat) (power : Int) (halfStepBelow : Bool) : RoundingInterval :=
  let scale := Nat.pow 2 (power - 2).toNat
  { low := (4 * mantissa - if halfStepBelow then 1 else 2) * scale
    middle := 4 * mantissa * scale
    high := (4 * mantissa + 2) * scale
    denominator := Nat.pow 2 (2 - power).toNat
    closed := mantissa % 2 == 0 }

/-- The number `e` with `10 ^ (e - 1) ≤ middle / denominator < 10 ^ e`. -/
def magnitude (interval : RoundingInterval) : Int :=
  if interval.denominator ≤ interval.middle then
    (Digit.ofNat (interval.middle / interval.denominator)).length
  else
    let count := (Digit.ofNat (interval.denominator / interval.middle)).length
    if interval.middle * Nat.pow 10 (count - 1) = interval.denominator then
      2 - (count : Int)
    else
      1 - (count : Int)

/-- Multiply everything by a power of ten, so that the grid of unit
`10 ^ (-power)` becomes the integers. -/
def scaled (interval : RoundingInterval) (power : Int) : RoundingInterval :=
  let up := Nat.pow 10 power.toNat
  { interval with
    low := interval.low * up
    middle := interval.middle * up
    high := interval.high * up
    denominator := interval.denominator * Nat.pow 10 (-power).toNat }

/-- Whether an integer lies in the interval. -/
def holds (interval : RoundingInterval) (candidate : Nat) : Bool :=
  let numerator := candidate * interval.denominator
  if interval.closed then
    interval.low ≤ numerator && numerator ≤ interval.high
  else
    interval.low < numerator && numerator < interval.high

/-- The integer of the interval that is nearest to its middle. -/
def nearest? (interval : RoundingInterval) (tie : Tie) : Option Nat :=
  let below := interval.middle / interval.denominator
  let above := below + 1
  match interval.holds below, interval.holds above with
  | true, false => some below
  | false, true => some above
  | false, false => none
  | true, true =>
      let toBelow := interval.middle - below * interval.denominator
      let toAbove := above * interval.denominator - interval.middle
      if toBelow < toAbove then some below
      else if toAbove < toBelow then some above
      else
        match tie with
        | .up => some above
        | .even => some (if below % 2 = 0 then below else above)

/-- Try ever finer grids, from `count` digits on. -/
def search (interval : RoundingInterval) (tie : Tie) (magnitude : Int) :
    (count : Nat) → (attempts : Nat) → Decimal
  | count, 0 =>
      let grid := interval.scaled (count - magnitude)
      ⟨grid.middle / grid.denominator, magnitude - count⟩
  | count, attempts + 1 =>
      match (interval.scaled (count - magnitude)).nearest? tie with
      | some coefficient => ⟨coefficient, magnitude - count⟩
      | none => interval.search tie magnitude (count + 1) attempts

/-- The shortest decimal in the interval; seventeen digits always suffice for
a double. -/
def shortest (interval : RoundingInterval) (tie : Tie) : Decimal :=
  (interval.search tie interval.magnitude 1 17).trimmed 20

end RoundingInterval

end RtiAssembly
