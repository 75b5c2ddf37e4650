import RtiAssembly.Number.Spelling

/-!
# Number systems

Problems, routines and their evaluation are stated over any type of scalars.
A program is run over double-precision numbers; the algebraic facts about it
are facts over exact number systems, and both are instances of `Scalar`.
-/

namespace RtiAssembly

/-- A number system: its arithmetic, its comparisons as the program makes them,
and its written form. -/
class Scalar (α : Type) extends Zero α, One α, Add α, Sub α, Mul α, Neg α where
  abs : α → α
  /-- The product of two numbers plus a third one, rounded once. -/
  mulAdd : α → α → α → α
  half : α
  ofInt : Int → α
  /-- Strictly less. -/
  less : α → α → Bool
  /-- Equal as numbers. -/
  same : α → α → Bool
  isFinite : α → Bool
  /-- The integer obtained by dropping the fraction. -/
  truncate : α → Int
  spell : Spelling → α → Spelled
  /-- The number that a numeral denotes, if it is in range. -/
  ofNumeral? : Numeral → Option α

namespace Scalar

variable {α : Type} [Scalar α]

/-- Equal to zero, of either sign. -/
def isZero (value : α) : Bool :=
  same value 0

/-- The text of a number in a given spelling. -/
def text (spelling : Spelling) (value : α) : String :=
  (spell spelling value).text

/-- The magnitude that stands for an absent bound. -/
def unbounded : α :=
  ofInt 1000000000000

/-- The sum of a sequence from left to right, starting from its first entry.
The empty sum is zero. -/
def sum : List α → α
  | [] => 0
  | first :: rest => rest.foldl (· + ·) first

end Scalar

end RtiAssembly
