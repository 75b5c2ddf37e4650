import RtiAssembly.NodeMap
import RtiAssembly.Number.Scalar

/-!
# Problem descriptions

A description states an optimal control problem as its author wrote it: the
dimensions, the features of the solver, the objective, the bounds and the
constraints.  Nothing here is checked for consistency; that is the business of
validation.
-/

namespace RtiAssembly

/-- The sizes of a problem. -/
structure Dimensions where
  /-- Number of intervals of the horizon. -/
  n : Nat
  /-- Number of states. -/
  nx : Nat
  /-- Number of controls. -/
  nu : Nat
  /-- Number of stage residuals. -/
  ny : Nat
  /-- Number of terminal residuals. -/
  nyn : Nat
  /-- Number of online data. -/
  nod : Nat
  deriving DecidableEq, Repr

/-- How sensitivities are propagated along the horizon. -/
inductive SensitivityMode
  | forward
  | backward
  | inexact
  deriving DecidableEq, Repr

/-- The features of a solver. -/
structure Flags (α : Type) where
  useArrivalCost : Bool
  variableWeighting : Bool
  hardcodeConstraints : Bool
  initialStateFixed : Bool
  sensitivityMode : SensitivityMode
  levenbergMarquardt : α
  liftedGradientUpdate : Bool

/-- The features of a description that names none. -/
def Flags.default {α : Type} [Scalar α] : Flags α where
  useArrivalCost := false
  variableWeighting := false
  hardcodeConstraints := false
  initialStateFixed := true
  sensitivityMode := .forward
  levenbergMarquardt := 0
  liftedGradientUpdate := false

namespace Description

/-- A weighting matrix known when the solver is generated, or supplied when it
runs. -/
inductive Weighting (α : Type)
  | given (rows : List (List α))
  | runtime

/-- The linear terms of the objective. -/
inductive LinearTerms (α : Type)
  | none
  | runtime
  | given (x u : List α)

/-- The least-squares objective. -/
structure Objective (α : Type) where
  weight : Weighting α
  terminalWeight : Weighting α
  /-- Derivative of the stage residual by the state, if constant. -/
  jacobianX : Option (List (List α))
  /-- Derivative of the stage residual by the control, if constant. -/
  jacobianU : Option (List (List α))
  /-- Derivative of the terminal residual by the state, if constant. -/
  terminalJacobianX : Option (List (List α))
  /-- Whether the state-control block of the Hessian is used. -/
  crossTerm : Bool
  linearTerms : LinearTerms α

/-- A lower and an upper bound; an absent side is unbounded. -/
structure BoundPair (α : Type) where
  lower : Option (List α)
  upper : Option (List α)

/-- Bounds on states and controls by node. -/
structure Bounds (α : Type) where
  x : NodeMap (BoundPair α)
  u : NodeMap (BoundPair α)

/-- A constraint on every interval of the horizon. -/
structure PathConstraint (α : Type) where
  /-- Symbol of the function that evaluates it. -/
  name : String
  dim : Nat
  /-- One bound for every node, or one for each. -/
  lower : List α
  upper : List α
  jacobianX : Option (List (List α))
  jacobianU : Option (List (List α))

/-- A constraint on one node. -/
structure PointConstraint (α : Type) where
  /-- Symbol of the function that evaluates it. -/
  name : String
  /-- Number of outputs of the function: values and derivatives together. -/
  outputWidth : Nat
  lower : List α
  upper : List α

end Description

/-- An optimal control problem as its author described it. -/
structure Description (α : Type) where
  /-- The name in front of every emitted symbol. -/
  moduleName : String
  dims : Dimensions
  flags : Flags α
  objective : Description.Objective α
  bounds : Description.Bounds α
  pathConstraint : Option (Description.PathConstraint α)
  pointConstraints : NodeMap (Description.PointConstraint α)

end RtiAssembly
