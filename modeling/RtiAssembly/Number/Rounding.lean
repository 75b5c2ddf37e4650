/-!
# Rounding to double precision

Finite doubles are exact dyadic numbers.  Their exact products and sums are
rounded once, to the nearest double, of two equally near ones to the one with
an even significand.
-/

namespace RtiAssembly.Double

/-- The number `± significand * 2 ^ exponent`. -/
structure Dyadic where
  negative : Bool
  significand : Nat
  exponent : Int
  deriving DecidableEq, Repr

namespace Dyadic

/-- The value of a finite double. -/
def ofFloat (value : Float) : Dyadic :=
  let bits := value.toBits
  let biased := (bits >>> 52 &&& 0x7ff).toNat
  let stored := (bits &&& 0xfffffffffffff).toNat
  let negative := bits >>> 63 == 1
  if biased = 0 then
    ⟨negative, stored, -1074⟩
  else
    ⟨negative, stored + 0x10000000000000, (biased : Int) - 1075⟩

/-- The product of two numbers. -/
def mul (left right : Dyadic) : Dyadic :=
  ⟨left.negative != right.negative, left.significand * right.significand,
    left.exponent + right.exponent⟩

/-- The signed significand of a number at a smaller exponent. -/
def scaledTo (number : Dyadic) (exponent : Int) : Int :=
  let magnitude : Int := (number.significand <<< (number.exponent - exponent).toNat : Nat)
  if number.negative then -magnitude else magnitude

/-- The sum of two numbers. -/
def add (left right : Dyadic) : Dyadic :=
  let exponent := min left.exponent right.exponent
  let sum := left.scaledTo exponent + right.scaledTo exponent
  ⟨sum < 0, sum.natAbs, exponent⟩

/-- The quotient by a power of two, rounded to nearest, ties to even. -/
def shiftRounded (significand places : Nat) : Nat :=
  let quotient := significand >>> places
  let doubled := 2 * (significand - quotient <<< places)
  let unit := 1 <<< places
  if unit < doubled ∨ (doubled = unit ∧ quotient % 2 = 1) then
    quotient + 1
  else
    quotient

/-- The nearest double.  A significand of 53 bits next to its exponent is the
encoding of a double, and so is any smaller one at the least exponent; a carry
moves on to the next exponent by itself. -/
def toFloat (number : Dyadic) : Float :=
  let bits : Int := Nat.log2 number.significand + 1
  let exponent := max (number.exponent + bits - 53) (-1074)
  let places := exponent - number.exponent
  let significand :=
    if 0 ≤ places then
      shiftRounded number.significand places.toNat
    else
      number.significand <<< (-places).toNat
  let encoded := min ((exponent + 1074).toNat <<< 52 + significand) 0x7ff0000000000000
  Float.ofBits (encoded.toUInt64 ||| if number.negative then 0x8000000000000000 else 0)

end Dyadic

/-- The product of two doubles plus a third one, rounded once. -/
def mulAdd (left right addend : Float) : Float :=
  if left.isFinite && right.isFinite && left != 0 && right != 0 then
    if addend.isFinite then
      let sum := ((Dyadic.ofFloat left).mul (.ofFloat right)).add (.ofFloat addend)
      if sum.significand = 0 then 0 else sum.toFloat
    else
      addend
  else
    left * right + addend

end RtiAssembly.Double
