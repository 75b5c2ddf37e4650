import RtiAssembly.Routine.Basic
import RtiAssembly.Storage.Plan

/-!
# Inputs of node functions

The functions that evaluate one node see its state, its control and its online
data packed into one buffer.  The terminal node has no control, so its online
data follow the state.
-/

namespace RtiAssembly

namespace Plan

variable {α : Type} [Scalar α] (plan : Plan α) (dims : Dimensions)

/-- Copy consecutive elements from one quantity to another. -/
def copy (target : Quantity) (targetOffset : AffineIndex) (source : Quantity)
    (sourceOffset : AffineIndex) (length : Nat) : Statement α :=
  .set (plan.flat target targetOffset length) (.read (plan.flat source sourceOffset length))

/-- Pack state, control and online data of a node into a buffer. -/
def loadNodeInput (buffer : Quantity) (node : AffineIndex) (withControl : Bool) :
    List (Statement α) :=
  let state := plan.copy buffer (.const 0) .x (node.scaled dims.nx) dims.nx
  let control := plan.copy buffer (.const dims.nx) .u (node.scaled dims.nu) dims.nu
  let onlineStart := if withControl then dims.nx + dims.nu else dims.nx
  let onlineData := plan.copy buffer (.const onlineStart) .od (node.scaled dims.nod) dims.nod
  [state] ++ (if withControl then [control] else []) ++ (if plan.has .od then [onlineData] else [])

/-- The argument that passes a whole quantity. -/
def passWhole (quantity : Quantity) : Argument :=
  .reference (plan.whole quantity)

/-- The argument that passes consecutive elements of a quantity. -/
def passFlat (quantity : Quantity) (offset : AffineIndex) (length : Nat) : Argument :=
  .reference (plan.flat quantity offset length)

/-- The argument that passes whole rows of a quantity. -/
def passRows (quantity : Quantity) (first : AffineIndex) (count : Nat) : Argument :=
  .reference (plan.rows quantity first count)

/-- Call a function that maps an input buffer to an output buffer. -/
def evaluate (function : External) (input output : Quantity) : Statement α :=
  .invoke function [plan.passWhole input, plan.passWhole output] none

/-- A block at a node: a known one is the same at every node. -/
def blockAt (block : Block α) (node : AffineIndex) (rows : Nat) : Expr α :=
  match block with
  | .given value => .known value
  | .computed quantity => .read (plan.rows quantity (node.scaled rows) rows)

/-- The stage weighting of a node, if it is supplied at run time. -/
def weightWindow? (flags : Flags α) (node : AffineIndex) : Option Window :=
  if plan.has .w then
    some
      (if flags.variableWeighting then
        plan.rows .w (node.scaled dims.ny) dims.ny
      else
        plan.whole .w)
  else
    none

end Plan

end RtiAssembly
