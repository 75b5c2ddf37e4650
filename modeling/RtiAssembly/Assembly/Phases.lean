import RtiAssembly.Assembly.Constraints
import RtiAssembly.Assembly.Horizon
import RtiAssembly.Assembly.Objective

/-!
# The two phases of an iteration

`preparation` linearizes the problem before a measurement is known; `feedback`
forms the gradient, solves the quadratic program and takes the full step.
Beside them stand the residual of the optimality conditions and the update of
the arrival cost.
-/

namespace RtiAssembly.Phases

variable {α : Type} [Scalar α]

/-- The name of the preparation phase. -/
def preparationName : String := "preparation"

/-- The name of the feedback phase. -/
def feedbackName : String := "feedback"

/-- The name of the residual of the optimality conditions. -/
def optimalityName : String := "getKKT"

/-- The name of the update of the arrival cost. -/
def arrivalCostName : String := "updateArrivalCost"

/-- The window over a scalar of the routine's own. -/
def ownScalar (position : Nat) : Window :=
  .dense (.own position) (.const 0) 1 1

/-- Integrate with sensitivities, then evaluate objective and constraints. -/
def preparationRoutine : Routine α where
  name := preparationName
  doc := some "Preparation step of the RTI scheme"
  parameters := []
  locals := [.own "ret" 1 1 .int]
  result := some 0
  body :=
    [.invoke .modelSimulation [] (some (ownScalar 0)),
      .run Objective.evaluateName [],
      .run Constraints.evaluateName []]

section Assembly

variable (problem : Problem α) (plan : Plan α)

/-- The linear-term arguments of the gradient routine on a node. -/
def linearArguments (node : AffineIndex) : List Argument :=
  let dims := problem.dims
  match plan.linear with
  | .none => []
  | .given _ _ => []
  | .shared => [plan.passWhole .wlx, plan.passWhole .wlu]
  | .perNode =>
      [plan.passFlat .wlx (node.scaled dims.nx) dims.nx,
        plan.passFlat .wlu (node.scaled dims.nu) dims.nu]

/-- The linear term of the terminal state. -/
def terminalLinear : Option (Expr α) :=
  let dims := problem.dims
  match plan.linear with
  | .none => none
  | .given x _ => some (.known x)
  | .shared => some (.read (plan.whole .wlx))
  | .perNode => some (.read (plan.flat .wlx (.const (dims.n * dims.nx)) dims.nx))

/-- The deviation of the first state from the measured one. -/
def initialDeviation : List (Statement α) :=
  let nx := problem.dims.nx
  if plan.has .x0 then
    [.set (plan.flat .qpx (.const 0) nx)
      (.sub (.read (plan.whole .x0)) (.read (plan.flat .x (.const 0) nx)))]
  else
    []

/-- The arrival cost of a free first state.  A known Hessian block is written
anew with the arrival weighting, so that weightings do not pile up; a computed
one is fresh from the preparation. -/
def arrivalCost : List (Statement α) :=
  let nx := problem.dims.nx
  let weighting := Expr.read (plan.whole .sAC)
  let first := plan.rows .hessianQ (.const 0) nx
  let hessian : Statement α :=
    match plan.blocks.q1.given? with
    | some known => .set first (.add (.known known) weighting)
    | none => .increase first weighting
  if plan.has .dxAC then
    [.comment "Arrival cost",
      .set (plan.whole .dxAC)
        (.sub (.read (plan.flat .x (.const 0) nx)) (.read (plan.whole .xAC))),
      hessian,
      .increase (plan.flat .gradientQ (.const 0) nx)
        (.mul weighting (.read (plan.whole .dxAC)))]
  else
    []

/-- Form residuals and gradients, solve the quadratic program, take the step. -/
def feedbackRoutine : Routine α :=
  let dims := problem.dims
  let node := AffineIndex.var Objective.nodeName
  let gradientCall : Statement α :=
    .run Objective.gradientName
      ([plan.passFlat .gradientQ (node.scaled dims.nx) dims.nx,
          plan.passFlat .gradientR (node.scaled dims.nu) dims.nu] ++
        linearArguments problem plan node ++ [.index node])
  let terminalGradient : Expr α :=
    .mul (plan.blockAt plan.blocks.qN2 (.const 0) dims.nx) (.read (plan.whole .dyN))
  { name := feedbackName
    doc := some "Feedback/estimation step of the RTI scheme"
    parameters := []
    locals := [.own "retVal" 1 1 .int]
    result := some 0
    body :=
      initialDeviation problem plan ++
      [.decrease (plan.whole .dy) (.read (plan.flat .y (.const 0) (dims.n * dims.ny))),
        .decrease (plan.whole .dyN) (.read (plan.whole .yN)),
        .loop Objective.nodeName 0 dims.n [gradientCall],
        .set (plan.whole .gradientQf)
          (Objective.withLinear terminalGradient (terminalLinear problem plan))] ++
      arrivalCost problem plan ++
      [.invoke .qpSolve [] (some (ownScalar 0)),
        .increase (plan.flat .x (.const 0) ((dims.n + 1) * dims.nx))
          (.read (plan.whole .qpx)),
        .increase (plan.flat .u (.const 0) (dims.n * dims.nu)) (.read (plan.whole .qpu))] }

/-- The residual of the optimality conditions: products of gradients with the
step, and of bounds with their multipliers.  Multipliers of inequalities count
only for a fixed first state. -/
def optimalityRoutine : Routine α :=
  let dims := problem.dims
  let value := ownScalar 0
  let product := ownScalar 1
  let index := AffineIndex.var "index"
  let accumulate (left right : Window) : List (Statement α) :=
    [.set product (.mul (.read left.transpose) (.read right)),
      .increase value (.abs (.read product))]
  let multiplied (left right : Quantity) (rightStart count : Nat) : Statement α :=
    .loop "index" 0 count
      [.increase value
        (.abs (.mul (.read (plan.flat left index 1))
          (.read (plan.flat right (index.plus rightStart) 1))))]
  let boxes := dims.n * (dims.nu + dims.nx)
  let affine := problem.affineDim
  let inequalities : List (Statement α) :=
    [multiplied .qpLb .qpMu 0 boxes, multiplied .qpUb .qpMu boxes boxes] ++
      (if 0 < affine then
        [multiplied .qpLbA .qpMu (2 * boxes) affine,
          multiplied .qpUbA .qpMu (2 * boxes + affine) affine]
      else
        [])
  { name := optimalityName
    doc := some "Get the KKT tolerance of the current iterate"
    parameters := []
    locals := [.own "kkt" 1 1 .real, .own "tmp" 1 1 .real]
    result := some 0
    body :=
      [.set value Horizon.zero] ++
        accumulate (plan.whole .gradientQ) (plan.flat .qpx (.const 0) (dims.n * dims.nx)) ++
        accumulate (plan.whole .gradientQf)
          (plan.flat .qpx (.const (dims.n * dims.nx)) dims.nx) ++
        accumulate (plan.whole .gradientR) (plan.whole .qpu) ++
        [multiplied .d .qpLambda 0 (dims.n * dims.nx)] ++
        (if problem.flags.initialStateFixed then inequalities else []) }

/-- The update of the arrival cost. -/
def arrivalCostRoutine : Routine α where
  name := arrivalCostName
  doc := some "Update the arrival cost; reset = 1 restarts from the current weighting"
  parameters := [⟨"reset", .index 2⟩]
  locals := [.own "ret" 1 1 .int]
  result := some 0
  body :=
    [.invoke .arrivalCostBackend
      [.index (.var "reset"), plan.passWhole .wL, plan.passWhole .xAC, plan.passWhole .sAC]
      (some (ownScalar 0))]

/-- The routines around the iteration, both phases, and what inspects or
updates the iterate, callees before callers. -/
def assemble : Section α where
  routines :=
    [Horizon.simulateRoutine problem plan, Horizon.shiftStatesRoutine problem plan,
      Horizon.shiftControlsRoutine problem plan, Horizon.objectiveRoutine problem plan,
      preparationRoutine, feedbackRoutine problem plan, optimalityRoutine problem plan] ++
      (if problem.flags.useArrivalCost then [arrivalCostRoutine plan] else [])
  initialization := []

end Assembly

end RtiAssembly.Phases
