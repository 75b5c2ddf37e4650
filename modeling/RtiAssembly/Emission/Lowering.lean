import RtiAssembly.Emission.Instruction
import RtiAssembly.Storage.Table

/-!
# From statements to instructions

Matrix statements become scalar stores, row by row.  Elements of constant
arrays at fixed positions become numbers.  A product that reads the array it is
assigned to goes through a temporary array, because its elements read what the
stores before them overwrite.
-/

namespace RtiAssembly

variable {α : Type}

/-- The place of an element of a window. -/
def Window.place (window : Window) (row col : Nat) : Place :=
  ⟨window.base, window.element row col⟩

/-- What a routine's statements are lowered against: the arrays of the module
and those of the routine. -/
structure Scope (α : Type) where
  table : ArrayTable α
  locals : List (ArrayDecl α)

namespace Scope

/-- The kind of the elements of an array; parameters are real. -/
def kindOf (scope : Scope α) : Base → ElementKind
  | .global id => (scope.table.get? id).elim .real ArrayDecl.kind
  | .own position => (scope.locals[position]?).elim .real ArrayDecl.kind
  | .parameter _ => .real

/-- The known content of a constant array. -/
def content? (scope : Scope α) : Base → Option (Matrix α)
  | .global id =>
      match scope.table.get? id with
      | some decl => if decl.storage = .constant then decl.given else none
      | none => none
  | _ => none

variable [Scalar α]

/-- The term of an element of a window. -/
def read (scope : Scope α) (window : Window) (row col : Nat) : Term α :=
  let place := window.place row col
  match scope.content? window.base, place.index.isConst with
  | some content, true =>
      let position := place.index.constant
      .number (content.entry (position / content.cols) (position % content.cols))
  | _, _ => .element place

/-- The term of an element of an expression.  The terms of a product are added
from left to right. -/
def element (scope : Scope α) : Expr α → (row col : Nat) → Term α
  | .read window, row, col => scope.read window row col
  | .known value, row, col => .number (value.entry row col)
  | .add left right, row, col =>
      (scope.element left row col).add (scope.element right row col)
  | .sub left right, row, col =>
      (scope.element left row col).sub (scope.element right row col)
  | .abs inner, row, col => (scope.element inner row col).abs
  | .mul left right, row, col =>
      let inner := left.shape?.elim 0 Prod.snd
      (List.range inner).foldl
        (fun sum position =>
          sum.add ((scope.element left row position).mul (scope.element right position col)))
        (.number 0)

/-- Whether an assignment overwrites what a product still has to read. -/
def isAliased (target : Window) (value : Expr α) : Bool :=
  decide (1 < target.size) && value.hasProduct &&
    value.windows.any fun window => window.base == target.base

/-- The stores of an assignment, row by row. -/
def stores (scope : Scope α) (target : Window) (value : Expr α) : List (Place × Term α) :=
  target.elements.map fun (row, col) => (target.place row col, scope.element value row col)

/-- The instructions of an assignment.  Adding or subtracting a known zero
leaves no instruction. -/
def assign (scope : Scope α) (target : Window) (op : AssignOp) (value : Expr α) :
    List (Instruction α) :=
  let stores := scope.stores target value
  if isAliased target value then
    [.stage op stores]
  else
    let isWhole := scope.kindOf target.base != .real
    (stores.filter fun (_, term) => op == .set || !term.isZero).map fun (place, term) =>
      .store place op term isWhole

/-- The operand of an argument. -/
def operand : Argument → Operand
  | .reference window => .address ⟨window.base, window.offset⟩
  | .index index => .index index

mutual

/-- The instructions of a statement. -/
def lower (scope : Scope α) : Statement α → List (Instruction α)
  | .assign target op value => scope.assign target op value
  | .clear id => [.clear id]
  | .loop name start stop body =>
      if stop ≤ start then [] else [.loop name start stop (lowerAll scope body)]
  | .call callee arguments status =>
      [.call callee (arguments.map operand) (status.map fun window => window.place 0 0)]
  | .comment text => [.comment text]

/-- The instructions of a list of statements. -/
def lowerAll (scope : Scope α) : List (Statement α) → List (Instruction α)
  | [] => []
  | statement :: rest => lower scope statement ++ lowerAll scope rest

end

end Scope

end RtiAssembly
