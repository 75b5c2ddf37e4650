import RtiAssembly.Description.Basic
import RtiAssembly.Matrix

/-!
# Validated problems

A problem is a description whose parts fit together: given matrices have their
shapes, bounds are stacked over the horizon, and every constraint knows how
many rows it contributes.
-/

namespace RtiAssembly

/-- The linear terms of the objective. -/
inductive LinearTerms (α : Type)
  | none
  | given (x u : List α)
  | runtime

/-- Stacked lower and upper bounds. -/
structure BoundValues (α : Type) where
  lower : List α
  upper : List α

/-- A constraint on every interval of the horizon. -/
structure PathConstraint (α : Type) where
  name : String
  dim : Nat
  /-- Bounds of all intervals, one after the other. -/
  bounds : BoundValues α
  jacX : Option (Matrix α)
  jacU : Option (Matrix α)

/-- Number of outputs of the function of a path constraint: its values, then
each derivative that is not given. -/
def PathConstraint.outputWidth {α : Type} (path : PathConstraint α) (nx nu : Nat) : Nat :=
  path.dim + (if path.jacX.isNone then path.dim * nx else 0) +
    (if path.jacU.isNone then path.dim * nu else 0)

/-- A constraint on one node. -/
structure PointConstraint (α : Type) where
  name : String
  /-- Number of outputs of its function. -/
  width : Nat
  dim : Nat
  bounds : BoundValues α

/-- A validated problem. -/
structure Problem (α : Type) where
  moduleName : String
  dims : Dimensions
  flags : Flags α
  /-- Stage weighting, if it is known. -/
  weight : Option (Matrix α)
  /-- Terminal weighting, if it is known. -/
  terminalWeight : Option (Matrix α)
  jacX : Option (Matrix α)
  jacU : Option (Matrix α)
  jacXEnd : Option (Matrix α)
  crossTerm : Bool
  linearTerms : LinearTerms α
  /-- Bounds of the controls of nodes `0` to `n - 1`, then of the states of
  nodes `1` to `n`. -/
  boxBounds : BoundValues α
  path : Option (PathConstraint α)
  points : NodeMap (PointConstraint α)
  /-- Bounds of the affine rows, node by node, path rows before point rows. -/
  affineBounds : BoundValues α
  /-- Number of affine rows of each node `0` to `n`. -/
  rowCounts : List Nat

namespace Problem

variable {α : Type}

/-- Whether the initial state is free, as in moving-horizon estimation. -/
def estimatesInitialState (problem : Problem α) : Bool :=
  !problem.flags.initialStateFixed

/-- Number of variables of the quadratic program. -/
def numQpVars (problem : Problem α) : Nat :=
  let dims := problem.dims
  if problem.flags.initialStateFixed then
    dims.n * dims.nx + dims.n * dims.nu
  else
    (dims.n + 1) * dims.nx + dims.n * dims.nu

/-- Number of rows of the path constraint on each interval. -/
def pathDim (problem : Problem α) : Nat :=
  problem.path.elim 0 PathConstraint.dim

/-- Number of rows of all point constraints. -/
def pointDim (problem : Problem α) : Nat :=
  (problem.points.values.map PointConstraint.dim).foldr (· + ·) 0

/-- Number of affine rows over the horizon. -/
def affineDim (problem : Problem α) : Nat :=
  problem.rowCounts.foldr (· + ·) 0

/-- Number of box rows over the horizon. -/
def boxDim (problem : Problem α) : Nat :=
  problem.dims.n * (problem.dims.nu + problem.dims.nx)

/-- The first affine row of a node. -/
def affineOffset (problem : Problem α) (node : Nat) : Nat :=
  (problem.rowCounts.take node).foldr (· + ·) 0

/-- Whether sensitivities are propagated backwards, so that linear terms belong
to each node. -/
def isAdjoint (problem : Problem α) : Bool :=
  match problem.flags.sensitivityMode with
  | .forward => false
  | .backward => true
  | .inexact => problem.flags.liftedGradientUpdate

/-- Whether any path or point constraint is present. -/
def hasConstraints (problem : Problem α) : Bool :=
  problem.path.isSome || !problem.points.isEmpty

end Problem

end RtiAssembly
