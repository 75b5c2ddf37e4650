import RtiAssembly.Matrix
import RtiAssembly.Routine.Window

/-!
# Matrix expressions

Right-hand sides of assignments: reads of windows and known matrices, combined
by sums, differences, products and absolute values.
-/

namespace RtiAssembly

/-- A matrix expression. -/
inductive Expr (α : Type)
  | read (window : Window)
  /-- A matrix known when the program is generated. -/
  | known (value : Matrix α)
  | add (left right : Expr α)
  | sub (left right : Expr α)
  | mul (left right : Expr α)
  /-- Entrywise absolute value. -/
  | abs (inner : Expr α)

namespace Expr

variable {α : Type}

/-- A known number. -/
def scalar (value : α) : Expr α :=
  .known (.scalar value)

/-- The shape of an expression; none if operands do not fit together. -/
def shape? : Expr α → Option (Nat × Nat)
  | .read window => some window.shape
  | .known value => some value.shape
  | .add left right => sameShape? left.shape? right.shape?
  | .sub left right => sameShape? left.shape? right.shape?
  | .mul left right => productShape? left.shape? right.shape?
  | .abs inner => inner.shape?
where
  /-- Operands of sums and differences have one shape. -/
  sameShape? (left right : Option (Nat × Nat)) : Option (Nat × Nat) := do
    let first ← left
    let second ← right
    if first = second then some first else none
  /-- Factors meet in the inner dimension. -/
  productShape? (left right : Option (Nat × Nat)) : Option (Nat × Nat) := do
    let first ← left
    let second ← right
    if first.2 = second.1 then some (first.1, second.2) else none

/-- The windows that an expression reads, from left to right. -/
def windows : Expr α → List Window
  | .read window => [window]
  | .known _ => []
  | .add left right => left.windows ++ right.windows
  | .sub left right => left.windows ++ right.windows
  | .mul left right => left.windows ++ right.windows
  | .abs inner => inner.windows

/-- Whether a product occurs in an expression. -/
def hasProduct : Expr α → Bool
  | .read _ => false
  | .known _ => false
  | .add left right => left.hasProduct || right.hasProduct
  | .sub left right => left.hasProduct || right.hasProduct
  | .mul _ _ => true
  | .abs inner => inner.hasProduct

variable [Scalar α]

/-- The transposed expression; factors of a product change places. -/
def transpose : Expr α → Expr α
  | .read window => .read window.transpose
  | .known value => .known value.transpose
  | .add left right => .add left.transpose right.transpose
  | .sub left right => .sub left.transpose right.transpose
  | .mul left right => .mul right.transpose left.transpose
  | .abs inner => .abs inner.transpose

/-- The value of an expression, given what its windows show. -/
def value (view : Window → Matrix α) : Expr α → Matrix α
  | .read window => view window
  | .known matrix => matrix
  | .add left right => (left.value view).add (right.value view)
  | .sub left right => (left.value view).sub (right.value view)
  | .mul left right => (left.value view).mul (right.value view)
  | .abs inner => (inner.value view).abs

/-- Whether two expressions are built alike from the same windows and from
equal numbers. -/
def same : Expr α → Expr α → Bool
  | .read first, .read second => first == second
  | .known first, .known second => first.same second
  | .add a b, .add c d => a.same c && b.same d
  | .sub a b, .sub c d => a.same c && b.same d
  | .mul a b, .mul c d => a.same c && b.same d
  | .abs a, .abs b => a.same b
  | _, _ => false

end Expr

end RtiAssembly
