import RtiAssembly.Routine.Declaration
import RtiAssembly.Storage.Blocks

/-!
# The quantities of a solver

Every array of a generated solver holds one quantity.  A problem decides which
quantities are present and what shape and owner each of them has; that decision
is made here, once for each quantity.
-/

namespace RtiAssembly

/-- Where the outputs of the residual functions keep their derivatives.  A
function returns its values first, then each derivative that is not given. -/
structure EvaluationLayout where
  /-- Start of the state derivative in the stage output. -/
  stageFx : Option Nat
  /-- Start of the control derivative in the stage output. -/
  stageFu : Option Nat
  stageWidth : Nat
  /-- Start of the state derivative in the terminal output. -/
  terminalFx : Option Nat
  terminalWidth : Nat
  deriving DecidableEq, Repr

/-- The layout of the residual functions of a problem. -/
def EvaluationLayout.ofProblem {α : Type} (problem : Problem α) : EvaluationLayout :=
  let dims := problem.dims
  let fxWidth := if problem.jacX.isNone then dims.ny * dims.nx else 0
  let fuWidth := if problem.jacU.isNone then dims.ny * dims.nu else 0
  let terminalFxWidth := if problem.jacXEnd.isNone then dims.nyn * dims.nx else 0
  { stageFx := if problem.jacX.isNone then some dims.ny else none
    stageFu := if problem.jacU.isNone then some (dims.ny + fxWidth) else none
    stageWidth := dims.ny + fxWidth + fuWidth
    terminalFx := if problem.jacXEnd.isNone then some dims.nyn else none
    terminalWidth := dims.nyn + terminalFxWidth }

/-- A quantity of the solver. -/
inductive Quantity
  | x | u | od | y | yN | w | wN | wlx | wlu | x0 | xAC | sAC | sigmaN | wL
  | lbValues | ubValues | lbAValues | ubAValues
  | d | state | objValueIn | objValueOut | dy | dyN
  | hessianQ | hessianR | hessianS | hessianQf | q2 | r2 | qN2
  | gradientQ | gradientQf | gradientR | qpx | qpu
  | qpLb | qpUb | qpLbA | qpUbA | qpLambda | qpMu | dxAC
  | conValueIn | conValueOut
  | pacEvH | pacEvHx | pacEvHu | pocEvH | pocEvHx | pocEvHu
  deriving DecidableEq, Repr

namespace Quantity

/-- All quantities in the order in which they are declared. -/
def all : List Quantity :=
  [.x, .u, .od, .y, .yN, .w, .wN, .wlx, .wlu, .x0, .xAC, .sAC, .sigmaN, .wL,
    .lbValues, .ubValues, .lbAValues, .ubAValues,
    .d, .state, .objValueIn, .objValueOut, .dy, .dyN,
    .hessianQ, .hessianR, .hessianS, .hessianQf, .q2, .r2, .qN2,
    .gradientQ, .gradientQf, .gradientR, .qpx, .qpu,
    .qpLb, .qpUb, .qpLbA, .qpUbA, .qpLambda, .qpMu, .dxAC,
    .conValueIn, .conValueOut,
    .pacEvH, .pacEvHx, .pacEvHu, .pocEvH, .pocEvHx, .pocEvHu]

/-- The name of the array that holds a quantity. -/
def name : Quantity → String
  | .x => "x"
  | .u => "u"
  | .od => "od"
  | .y => "y"
  | .yN => "yN"
  | .w => "W"
  | .wN => "WN"
  | .wlx => "Wlx"
  | .wlu => "Wlu"
  | .x0 => "x0"
  | .xAC => "xAC"
  | .sAC => "SAC"
  | .sigmaN => "sigmaN"
  | .wL => "WL"
  | .lbValues => "lbValues"
  | .ubValues => "ubValues"
  | .lbAValues => "lbAValues"
  | .ubAValues => "ubAValues"
  | .d => "d"
  | .state => "state"
  | .objValueIn => "objValueIn"
  | .objValueOut => "objValueOut"
  | .dy => "Dy"
  | .dyN => "DyN"
  | .hessianQ => "qpQ"
  | .hessianR => "qpR"
  | .hessianS => "qpS"
  | .hessianQf => "qpQf"
  | .q2 => "Q2"
  | .r2 => "R2"
  | .qN2 => "QN2"
  | .gradientQ => "qpq"
  | .gradientQf => "qpqf"
  | .gradientR => "qpr"
  | .qpx => "qpx"
  | .qpu => "qpu"
  | .qpLb => "qpLb"
  | .qpUb => "qpUb"
  | .qpLbA => "qpLbA"
  | .qpUbA => "qpUbA"
  | .qpLambda => "qpLambda"
  | .qpMu => "qpMu"
  | .dxAC => "DxAC"
  | .conValueIn => "conValueIn"
  | .conValueOut => "conValueOut"
  | .pacEvH => "pacEvH"
  | .pacEvHx => "pacEvHx"
  | .pacEvHu => "pacEvHu"
  | .pocEvH => "pocEvH"
  | .pocEvHx => "pocEvHx"
  | .pocEvHu => "pocEvHu"

section Declarations

variable {α : Type} [Scalar α] (problem : Problem α)

/-- A quantity of the control loop. -/
def variablePart (quantity : Quantity) (present : Bool) (rows cols : Nat) (doc : String) :
    Option (ArrayDecl α) :=
  if present then some (.real .variable quantity.name rows cols doc) else none

/-- A quantity of the solver's own. -/
def workspace? (quantity : Quantity) (present : Bool) (rows cols : Nat) (doc : String) :
    Option (ArrayDecl α) :=
  if present then some (.real .workspace quantity.name rows cols doc) else none

/-- Stacked bounds: a constant if they are hardcoded, else a quantity that the
initialization fills. -/
def boundValues? (quantity : Quantity) (present : Bool) (values : List α) (doc : String) :
    Option (ArrayDecl α) :=
  if present && problem.flags.hardcodeConstraints then
    some (.ofContent quantity.name (.column values) (some doc))
  else
    quantity.variablePart present values.length 1 doc

/-- Whether linear terms are supplied at run time. -/
def hasRuntimeLinearTerms : Bool :=
  match problem.linearTerms with
  | .runtime => true
  | _ => false

/-- Whether linear terms belong to each node rather than to all of them. -/
def hasLinearTermsPerNode : Bool :=
  problem.flags.variableWeighting || problem.isAdjoint

/-- Number of outputs of the widest constraint function. -/
def constraintWidth : Nat :=
  let path := problem.path.elim 0 (·.outputWidth problem.dims.nx problem.dims.nu)
  (problem.points.values.map PointConstraint.width).foldl max path

/-- The array that holds a quantity, if the problem has the quantity. -/
def describe (quantity : Quantity) : Option (ArrayDecl α) :=
  let n := problem.dims.n
  let nx := problem.dims.nx
  let nu := problem.dims.nu
  let ny := problem.dims.ny
  let nyn := problem.dims.nyn
  let nod := problem.dims.nod
  let free := problem.estimatesInitialState
  let affine := problem.affineDim
  let layout := EvaluationLayout.ofProblem problem
  let known := KnownBlocks.ofProblem problem
  let linear := hasRuntimeLinearTerms problem
  let perNode := hasLinearTermsPerNode problem
  let varying := problem.flags.variableWeighting
  let pathRows := n * problem.pathDim
  let points := problem.pointDim
  match quantity with
  | .x => quantity.variablePart true (n + 1) nx "state trajectory"
  | .u => quantity.variablePart true n nu "control trajectory"
  | .od => quantity.variablePart (0 < nod) (n + 1) nod "online data"
  | .y => quantity.variablePart true n ny "stage references"
  | .yN => quantity.variablePart true nyn 1 "terminal reference"
  | .w =>
      quantity.variablePart problem.weight.isNone (if varying then n * ny else ny) ny
        (if varying then "stage weighting, one block per node" else "stage weighting")
  | .wN => quantity.variablePart problem.terminalWeight.isNone nyn nyn "terminal weighting"
  | .wlx =>
      quantity.variablePart linear (if perNode then (n + 1) * nx else nx) 1
        (if perNode then "state linear terms per node" else "state linear term")
  | .wlu =>
      quantity.variablePart linear (if perNode then n * nu else nu) 1
        (if perNode then "control linear terms per node" else "control linear term")
  | .x0 => quantity.variablePart (!free) nx 1 "current state feedback"
  | .xAC => quantity.variablePart free nx 1 "arrival-cost reference"
  | .sAC => quantity.variablePart free nx nx "arrival-cost weighting"
  | .sigmaN => quantity.variablePart free nx nx "arrival-cost covariance"
  | .wL =>
      quantity.variablePart problem.flags.useArrivalCost nx nx "arrival-cost weighting factor"
  | .lbValues =>
      quantity.boundValues? problem true problem.boxBounds.lower "box lower bounds"
  | .ubValues =>
      quantity.boundValues? problem true problem.boxBounds.upper "box upper bounds"
  | .lbAValues =>
      quantity.boundValues? problem (0 < affine) problem.affineBounds.lower
        "affine lower bounds"
  | .ubAValues =>
      quantity.boundValues? problem (0 < affine) problem.affineBounds.upper
        "affine upper bounds"
  | .d => quantity.workspace? true (n * nx) 1 "integration defects"
  | .state => quantity.workspace? true 1 (nx + nu + nod) "single-node integration buffer"
  | .objValueIn => quantity.workspace? true 1 (nx + nu + nod) "objective evaluation input"
  | .objValueOut =>
      quantity.workspace? true 1 (max layout.stageWidth layout.terminalWidth)
        "objective evaluation output"
  | .dy => quantity.workspace? true (n * ny) 1 "stage residuals"
  | .dyN => quantity.workspace? true nyn 1 "terminal residual"
  | .hessianQ => quantity.workspace? true (n * nx) nx "QP Hessian, state blocks (Q1)"
  | .hessianR => quantity.workspace? true (n * nu) nu "QP Hessian, control blocks (R1)"
  | .hessianS => quantity.workspace? true (n * nx) nu "QP Hessian, cross blocks (S1)"
  | .hessianQf => quantity.workspace? true nx nx "QP Hessian, terminal block (QN1)"
  | .q2 => quantity.workspace? known.states.isNone (n * nx) ny "gradient weighting Fx'S"
  | .r2 => quantity.workspace? known.controls.isNone (n * nu) ny "gradient weighting Fu'S"
  | .qN2 =>
      quantity.workspace? known.terminal.isNone nx nyn "terminal gradient weighting FxN'SN"
  | .gradientQ => quantity.workspace? true (n * nx) 1 "QP gradient, states"
  | .gradientQf => quantity.workspace? true nx 1 "QP gradient, terminal state"
  | .gradientR => quantity.workspace? true (n * nu) 1 "QP gradient, controls"
  | .qpx => quantity.workspace? true ((n + 1) * nx) 1 "QP primal solution, states"
  | .qpu => quantity.workspace? true (n * nu) 1 "QP primal solution, controls"
  | .qpLb => quantity.workspace? true (n * (nu + nx)) 1 "QP box lower bounds"
  | .qpUb => quantity.workspace? true (n * (nu + nx)) 1 "QP box upper bounds"
  | .qpLbA => quantity.workspace? true (max affine 1) 1 "QP affine lower bounds"
  | .qpUbA => quantity.workspace? true (max affine 1) 1 "QP affine upper bounds"
  | .qpLambda => quantity.workspace? true (n * nx) 1 "QP multipliers, dynamics"
  | .qpMu =>
      quantity.workspace? true (2 * n * (nx + nu) + 2 * affine) 1
        "QP multipliers, inequalities"
  | .dxAC => quantity.workspace? free nx 1 "arrival-cost residual"
  | .conValueIn =>
      quantity.workspace? problem.hasConstraints 1 (nx + nu + nod) "constraint evaluation input"
  | .conValueOut =>
      quantity.workspace? problem.hasConstraints 1 (constraintWidth problem)
        "constraint evaluation output"
  | .pacEvH => quantity.workspace? problem.path.isSome pathRows 1 "path constraint values"
  | .pacEvHx =>
      quantity.workspace? (problem.path.any (·.jacX.isNone)) pathRows nx
        "path constraint state Jacobians"
  | .pacEvHu =>
      quantity.workspace? (problem.path.any (·.jacU.isNone)) pathRows nu
        "path constraint control Jacobians"
  | .pocEvH => quantity.workspace? (0 < points) points 1 "point constraint values"
  | .pocEvHx => quantity.workspace? (0 < points) points nx "point constraint state Jacobians"
  | .pocEvHu =>
      quantity.workspace? (0 < points) points nu "point constraint control Jacobians"

end Declarations

end Quantity

end RtiAssembly
