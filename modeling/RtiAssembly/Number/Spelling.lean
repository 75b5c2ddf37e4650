import RtiAssembly.Number.Shortest

/-!
# Spellings of numbers

A `Spelling` fixes how the digits of a number become a numeral: which numbers
are written positionally, whether a whole number keeps its point, how the sign
of an exponent appears.  The generated C, the canonical description and plain
messages each have their own.
-/

namespace RtiAssembly

/-- The conventions of one number format. -/
structure Spelling where
  /-- The least decimal exponent of the leading digit that is written
  positionally; no bound if absent. -/
  leastPositional : Option Int
  /-- The first decimal exponent of the leading digit that is no longer written
  positionally; no bound if absent. -/
  positionalLimit : Option Int
  /-- Whether a whole number in positional form ends in `.0`. -/
  keepsPoint : Bool
  /-- Whether a nonnegative exponent shows its sign. -/
  showsPlus : Bool
  /-- Which of two equally near shortest decimals is written. -/
  tie : Tie

namespace Spelling

/-- Literals of the generated code and of listings: positional from `0.0001`
to below `10 ^ 16`, always recognizable as a real number. -/
def literal : Spelling where
  leastPositional := some (-4)
  positionalLimit := some 16
  keepsPoint := true
  showsPlus := false
  tie := .up

/-- Numbers of the canonical description: positional from `0.00001` to below
`10 ^ 16`, an exponent always with its sign. -/
def canonical : Spelling where
  leastPositional := some (-5)
  positionalLimit := some 16
  keepsPoint := true
  showsPlus := true
  tie := .even

/-- Numbers inside messages: always positional, a whole number without point. -/
def plain : Spelling where
  leastPositional := none
  positionalLimit := none
  keepsPoint := false
  showsPlus := false
  tie := .up

/-- Whether a number whose leading digit has this decimal exponent is written
positionally. -/
def isPositional (spelling : Spelling) (leading : Int) : Bool :=
  spelling.leastPositional.all (· ≤ leading) && spelling.positionalLimit.all (leading < ·)

/-- The numeral of zero. -/
def zero (spelling : Spelling) (negative : Bool) : Numeral :=
  ⟨negative, [0], if spelling.keepsPoint then some [0] else none, none⟩

/-- The positional numeral with digits `digits` and the decimal point after
position `point`. -/
def positional (spelling : Spelling) (negative : Bool) (digits : List Digit) (point : Int) :
    Numeral :=
  if point ≤ 0 then
    ⟨negative, [0], some (List.replicate (-point).toNat 0 ++ digits), none⟩
  else if point < digits.length then
    ⟨negative, digits.take point.toNat, some (digits.drop point.toNat), none⟩
  else
    ⟨negative, digits ++ List.replicate (point.toNat - digits.length) 0,
      if spelling.keepsPoint then some [0] else none, none⟩

/-- The numeral in exponent form, one digit before the point. -/
def scientific (spelling : Spelling) (negative : Bool) (digits : List Digit) (leading : Int) :
    Numeral :=
  let rest := digits.drop 1
  ⟨negative, digits.take 1, if rest.isEmpty then none else some rest,
    some (Exponent.ofInt spelling.showsPlus leading)⟩

/-- The numeral of a signed decimal. -/
def numeral (spelling : Spelling) (negative : Bool) (decimal : Decimal) : Numeral :=
  if decimal.coefficient = 0 then
    spelling.zero negative
  else
    let digits := decimal.digits
    let point := decimal.exponent + digits.length
    if spelling.isPositional (point - 1) then
      spelling.positional negative digits point
    else
      spelling.scientific negative digits (point - 1)

end Spelling

/-- A spelled value: a numeral, or one of the values without digits. -/
inductive Spelled
  | numeral (written : Numeral)
  | notANumber
  | infinity (negative : Bool)
  deriving DecidableEq, Repr

/-- The text of a spelled value. -/
def Spelled.text : Spelled → String
  | .numeral written => written.text
  | .notANumber => "NaN"
  | .infinity false => "inf"
  | .infinity true => "-inf"

end RtiAssembly
