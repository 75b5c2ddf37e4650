/-!
# Affine indices

Every position in an array is an affine function of at most one variable: a
loop variable or an index parameter of the routine.
-/

namespace RtiAssembly

/-- The index `coefficient * variable + constant`, or a constant. -/
structure AffineIndex where
  /-- The variable with its coefficient. -/
  variablePart : Option (String × Nat)
  constant : Nat
  deriving DecidableEq, Repr

namespace AffineIndex

/-- The constant index. -/
def const (constant : Nat) : AffineIndex :=
  ⟨none, constant⟩

/-- The variable itself. -/
def var (name : String) : AffineIndex :=
  ⟨some (name, 1), 0⟩

/-- The index multiplied by a number. -/
def scaled (index : AffineIndex) (factor : Nat) : AffineIndex where
  variablePart := index.variablePart.map fun (name, coefficient) => (name, coefficient * factor)
  constant := index.constant * factor

/-- The index moved by a number. -/
def plus (index : AffineIndex) (amount : Nat) : AffineIndex :=
  { index with constant := index.constant + amount }

/-- Whether the index does not depend on its variable. -/
def isConst (index : AffineIndex) : Bool :=
  index.variablePart.all fun (_, coefficient) => coefficient == 0

/-- The name of the variable, if there is one. -/
def variableName? (index : AffineIndex) : Option String :=
  index.variablePart.map Prod.fst

/-- The value of the index when its variable has the value `value`. -/
def eval (index : AffineIndex) (value : Nat) : Nat :=
  match index.variablePart with
  | some (_, coefficient) => coefficient * value + index.constant
  | none => index.constant

/-- The value of the index in a scope that may bind its variable. -/
def evalIn? (index : AffineIndex) (lookup : String → Option Nat) : Option Nat :=
  match index.variablePart with
  | some (name, coefficient) => (lookup name).map fun value => coefficient * value + index.constant
  | none => some index.constant

/-- The text of an index; a variable without effect is not shown. -/
def display (index : AffineIndex) : String :=
  match index.variablePart with
  | some (name, coefficient) =>
      if coefficient = 0 then
        toString index.constant
      else
        let scaled := if coefficient = 1 then name else name ++ " * " ++ toString coefficient
        if index.constant = 0 then scaled else scaled ++ " + " ++ toString index.constant
  | none => toString index.constant

end AffineIndex

end RtiAssembly
