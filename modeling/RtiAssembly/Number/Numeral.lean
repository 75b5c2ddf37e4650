/-!
# Decimal numerals as they are written

A `Numeral` is a signed decimal number in its written form: the digits before
the point, the digits after it, and the exponent.  It is kept apart from the
number it denotes, because both reading and writing depend on the digits
themselves: a size must be written without a point, and a number read from a
text may not be representable.
-/

namespace RtiAssembly

/-- A decimal digit. -/
abbrev Digit := Fin 10

namespace Digit

/-- The character of a digit. -/
def char (digit : Digit) : Char :=
  Char.ofNat (48 + digit.val)

/-- The digit written by an ASCII character. -/
def ofChar? (c : Char) : Option Digit :=
  if bounds : 48 ≤ c.toNat ∧ c.toNat < 58 then
    some ⟨c.toNat - 48, by omega⟩
  else
    none

/-- The number that a digit sequence denotes, the leading digit first. -/
def value (digits : List Digit) : Nat :=
  digits.foldl (fun total digit => 10 * total + digit.val) 0

/-- The digits of a number, the leading digit first.  Zero has one digit. -/
def ofNat (n : Nat) : List Digit :=
  if small : n < 10 then
    [⟨n, small⟩]
  else
    ofNat (n / 10) ++ [⟨n % 10, Nat.mod_lt n (by decide)⟩]
termination_by n
decreasing_by omega

/-- The text of a digit sequence. -/
def text (digits : List Digit) : String :=
  String.ofList (digits.map char)

end Digit

/-- How the sign of an exponent is written. -/
inductive ExponentSign
  | implicit
  | plus
  | minus
  deriving DecidableEq, Repr

/-- The written exponent of a numeral. -/
structure Exponent where
  sign : ExponentSign
  digits : List Digit
  deriving DecidableEq, Repr

namespace Exponent

/-- The power of ten that an exponent denotes. -/
def value (exponent : Exponent) : Int :=
  match exponent.sign with
  | .minus => -(Digit.value exponent.digits : Int)
  | _ => Digit.value exponent.digits

/-- The exponent for a power of ten; a nonnegative one shows its sign only if
`showsPlus` is set. -/
def ofInt (showsPlus : Bool) (power : Int) : Exponent where
  sign :=
    if power < 0 then .minus
    else if showsPlus then .plus
    else .implicit
  digits := Digit.ofNat power.natAbs

/-- The text of an exponent, with its letter. -/
def text (exponent : Exponent) : String :=
  let sign :=
    match exponent.sign with
    | .implicit => ""
    | .plus => "+"
    | .minus => "-"
  "e" ++ sign ++ Digit.text exponent.digits

end Exponent

/-- A signed decimal number in its written form. -/
structure Numeral where
  negative : Bool
  whole : List Digit
  /-- The digits after the point, if there is a point. -/
  fraction : Option (List Digit)
  exponent : Option Exponent
  deriving DecidableEq, Repr

namespace Numeral

/-- The numeral of a natural number. -/
def ofNat (n : Nat) : Numeral :=
  ⟨false, Digit.ofNat n, none, none⟩

/-- The text of a numeral. -/
def text (numeral : Numeral) : String :=
  let sign := if numeral.negative then "-" else ""
  let fraction :=
    match numeral.fraction with
    | none => ""
    | some digits => "." ++ Digit.text digits
  let exponent :=
    match numeral.exponent with
    | none => ""
    | some exponent => exponent.text
  sign ++ Digit.text numeral.whole ++ fraction ++ exponent

/-- The integer that a numeral denotes, if it is written as a whole number
that fits sixty-four bits: unsigned when positive, signed when negative.
Minus zero is no integer. -/
def integer? (numeral : Numeral) : Option Int :=
  match numeral.fraction, numeral.exponent with
  | none, none =>
      let magnitude := Digit.value numeral.whole
      if numeral.negative then
        if 0 < magnitude ∧ magnitude ≤ Nat.pow 2 63 then some (-(magnitude : Int)) else none
      else
        if magnitude < Nat.pow 2 64 then some magnitude else none
  | _, _ => none

end Numeral

end RtiAssembly
