import RtiAssembly.Number.Rounding
import RtiAssembly.Number.Scalar

/-!
# Double-precision scalars

Double-precision numbers as a number system.  Writing goes through the shortest
decimal that reads back.  Reading gathers the digits into a 64-bit significand
and scales it by one power of ten at a time, so its result can differ from the
nearest double in the last place.
-/

namespace RtiAssembly

namespace Double

/-- The spelling of a double.  Below a power of two the next double is only half
as far away, except at the least exponent. -/
def spell (spelling : Spelling) (value : Float) : Spelled :=
  let number := Dyadic.ofFloat value
  if value.isNaN then
    .notANumber
  else if value.isInf then
    .infinity number.negative
  else if number.significand = 0 then
    .numeral (spelling.zero number.negative)
  else
    let isPowerOfTwo := number.significand = Nat.pow 2 52 ∧ -1074 < number.exponent
    let interval := RoundingInterval.ofBinary number.significand number.exponent isPowerOfTwo
    .numeral (spelling.numeral number.negative (interval.shortest spelling.tie))

/-- A significand below `2 ^ 64` and a power of ten. -/
structure Scaled where
  significand : Nat
  power : Int
  deriving Repr

namespace Scaled

/-- Whether one more digit still fits the significand. -/
def fits (scaled : Scaled) (digit : Digit) : Bool :=
  10 * scaled.significand + digit.val < Nat.pow 2 64

/-- Gather the digits before the point.  From the first one that does not fit,
each remaining digit only raises the power of ten. -/
def gatherWhole (scaled : Scaled) : List Digit → Scaled
  | [] => scaled
  | digit :: rest =>
      if scaled.fits digit then
        gatherWhole ⟨10 * scaled.significand + digit.val, scaled.power⟩ rest
      else
        ⟨scaled.significand, scaled.power + (digit :: rest).length⟩

/-- Gather the digits after the point.  From the first one that does not fit,
the remaining digits are dropped. -/
def gatherFraction (scaled : Scaled) : List Digit → Scaled
  | [] => scaled
  | digit :: rest =>
      if scaled.fits digit then
        gatherFraction ⟨10 * scaled.significand + digit.val, scaled.power - 1⟩ rest
      else
        scaled

/-- The digits of a numeral, without its exponent. -/
def ofDigits (numeral : Numeral) : Scaled :=
  (gatherWhole ⟨0, 0⟩ numeral.whole).gatherFraction (numeral.fraction.getD [])

/-- The largest power of ten that a double represents is `10 ^ 308`. -/
def powerOfTen (power : Nat) : Float :=
  Float.ofScientific 1 false power

/-- Divide by `10 ^ 308` while the power is below the table of powers, then
scale once.  There is no result above the range of doubles. -/
def scale (value : Float) (power : Int) : (attempts : Nat) → Option Float
  | 0 => some value
  | attempts + 1 =>
      if power.natAbs ≤ 308 then
        if 0 ≤ power then
          let scaled := value * powerOfTen power.natAbs
          if scaled.isInf then none else some scaled
        else
          some (value / powerOfTen power.natAbs)
      else if value == 0 then
        some value
      else if 0 ≤ power then
        none
      else
        scale (value / powerOfTen 308) (power + 308) attempts

/-- The nearest reachable double of a significand and a power of ten.  Three
divisions by `10 ^ 308` bring every significand to zero. -/
def toFloat? (scaled : Scaled) : Option Float :=
  scale (Float.ofNat scaled.significand) scaled.power 8

end Scaled

/-- The magnitude of a numeral.  A written exponent beyond 32 bits decides the
result on its own, and the sum of both powers is kept within 32 bits. -/
def magnitude? (numeral : Numeral) : Option Float :=
  let scaled := Scaled.ofDigits numeral
  match numeral.exponent with
  | none => scaled.toFloat?
  | some exponent =>
      let power := exponent.value
      if Nat.pow 2 31 ≤ power.natAbs then
        if scaled.significand ≠ 0 ∧ 0 ≤ power then none else some 0
      else
        Scaled.toFloat?
          ⟨scaled.significand, max (-2147483648) (min 2147483647 (scaled.power + power))⟩

/-- The double that a numeral denotes, if it is in range. -/
def ofNumeral? (numeral : Numeral) : Option Float :=
  (magnitude? numeral).map fun value => if numeral.negative then -value else value

end Double

/-- Double-precision numbers with the comparisons and rounding of the hardware. -/
instance : Scalar Float where
  zero := 0
  one := 1
  abs := Float.abs
  mulAdd := Double.mulAdd
  half := 0.5
  ofInt := Float.ofInt
  less left right := left < right
  same left right := left == right
  isFinite := Float.isFinite
  truncate value := value.toInt64.toInt
  spell := Double.spell
  ofNumeral? := Double.ofNumeral?

end RtiAssembly
