import RtiAssembly.Assembly.NodeInput

/-!
# Routines around the iteration

What the control loop calls besides the two phases: clearing and filling the
workspace, simulating the trajectory forward, shifting it by one node, and
evaluating the objective.
-/

namespace RtiAssembly.Horizon

variable {α : Type} [Scalar α]

/-- The name of the initialization. -/
def initializeName : String := "initialize"

/-- The name of the forward simulation. -/
def simulateName : String := "initializeNodes"

/-- The name of the shift of states. -/
def shiftStatesName : String := "shiftStates"

/-- The name of the shift of controls. -/
def shiftControlsName : String := "shiftControls"

/-- The name of the evaluation of the objective. -/
def objectiveName : String := "getObjective"

/-- The number zero. -/
def zero : Expr α :=
  .known (.zeros 1 1)

/-- Clear the workspace, then run the statements of all sections. -/
def initializeRoutine (plan : Plan α) (initialization : List (Statement α)) : Routine α where
  name := initializeName
  doc := some "Initialize the solver workspace"
  parameters := []
  locals := [.own "ret" 1 1 .int]
  result := some 0
  body :=
    (plan.table.ofClass .workspace).map (fun (id, _) => .clear id) ++ initialization ++
      [.set (.dense (.own 0) (.const 0) 1 1) zero]

section Assembly

variable (problem : Problem α) (plan : Plan α)

/-- Simulate the controls forward from the first state. -/
def simulateRoutine : Routine α :=
  let dims := problem.dims
  let index := AffineIndex.var "index"
  let body :=
    plan.loadNodeInput dims .state index true ++
      [.invoke .integrate [plan.passWhole .state, .index index] none,
        plan.copy .x ((index.scaled dims.nx).plus dims.nx) .state (.const 0) dims.nx]
  { name := simulateName
    doc := some "Initialize shooting nodes by forward simulation"
    parameters := []
    locals := []
    result := none
    body := [.loop "index" 0 dims.n body] }

/-- Move every block of a trajectory one node back, up to node `last`. -/
def moveBack (quantity : Quantity) (size last : Nat) : Statement α :=
  let index := AffineIndex.var "index"
  .loop "index" 0 last
    [plan.copy quantity (index.scaled size) quantity ((index.scaled size).plus size) size]

/-- Put a parameter behind the last moved block. -/
def appendBlock (quantity : Quantity) (size last : Nat) : Statement α :=
  .set (plan.flat quantity (.const (last * size)) size)
    (.read (.dense (.parameter 0) (.const 0) size 1))

/-- Shift the states; the last one is passed. -/
def shiftStatesRoutine : Routine α :=
  let n := problem.dims.n
  let nx := problem.dims.nx
  { name := shiftStatesName
    doc := some "Shift states one node back; xEnd becomes x_N"
    parameters := [⟨"xEnd", .array nx 1⟩]
    locals := []
    result := none
    body := [moveBack plan .x nx n, appendBlock plan .x nx n] }

/-- Shift the controls; the last one is passed.  A horizon of one interval has
nothing to move. -/
def shiftControlsRoutine : Routine α :=
  let n := problem.dims.n
  let nu := problem.dims.nu
  { name := shiftControlsName
    doc := some "Shift controls one node back; uEnd becomes u_\x7bN-1\x7d"
    parameters := [⟨"uEnd", .array nu 1⟩]
    locals := []
    result := none
    body :=
      (if 1 < n then [moveBack plan .u nu (n - 1)] else []) ++ [appendBlock plan .u nu (n - 1)] }

/-- The quadratic form of a vector. -/
def quadratic (vector : Window) (weight : Expr α) : Expr α :=
  .mul (.mul (.read vector.transpose) weight) (.read vector)

/-- Half the weighted sum of squares of freshly evaluated residuals. -/
def objectiveRoutine : Routine α :=
  let dims := problem.dims
  let node := AffineIndex.var "lRun1"
  let value := Window.dense (.own 0) (.const 0) 1 1
  let residual := Window.dense (.own 1) (.const 0) dims.ny 1
  let terminalResidual := Window.dense (.own 2) (.const 0) dims.nyn 1
  let weight : Expr α :=
    match problem.weight, plan.weightWindow? dims problem.flags node with
    | some known, _ => .known known
    | none, some window => .read window
    | none, none => .known (.scaledIdentity dims.ny 1)
  let terminalWeight : Expr α :=
    match problem.terminalWeight with
    | some known => .known known
    | none =>
        if plan.has .wN then .read (plan.whole .wN) else .known (.scaledIdentity dims.nyn 1)
  let stage :=
    plan.loadNodeInput dims .objValueIn node true ++
      [plan.evaluate .stageCost .objValueIn .objValueOut,
        .set residual
          (.sub (.read (plan.flat .objValueOut (.const 0) dims.ny))
            (.read (plan.flat .y (node.scaled dims.ny) dims.ny))),
        .increase value (quadratic residual weight)]
  let terminal :=
    plan.loadNodeInput dims .objValueIn (.const dims.n) false ++
      [plan.evaluate .terminalCost .objValueIn .objValueOut,
        .set terminalResidual
          (.sub (.read (plan.flat .objValueOut (.const 0) dims.nyn))
            (.read (plan.whole .yN))),
        .increase value (quadratic terminalResidual terminalWeight)]
  { name := objectiveName
    doc := some "Objective value at the current iterate"
    parameters := []
    locals :=
      [.own "objVal" 1 1 .real, .own "tmpDy" dims.ny 1 .real, .own "tmpDyN" dims.nyn 1 .real]
    result := some 0
    body :=
      [.set value zero, .loop "lRun1" 0 dims.n stage] ++ terminal ++
        [.set value (.mul (.scalar Scalar.half) (.read value))] }

end Assembly

end RtiAssembly.Horizon
