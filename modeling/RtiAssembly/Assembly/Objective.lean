import RtiAssembly.Assembly.NodeInput

/-!
# Routines of the objective

`evaluateObjective` evaluates the residuals over the horizon and computes the
Gauss-Newton blocks that are not known; each kind of block has a routine of its
own, called once for every node.  `setStagef` forms the gradient of one node.
-/

namespace RtiAssembly.Objective

variable {α : Type} [Scalar α]

/-- The name of the routine that evaluates the objective. -/
def evaluateName : String := "evaluateObjective"

/-- The name of the routine that forms the gradient of a node. -/
def gradientName : String := "setStagef"

/-- The loop variable over nodes. -/
def nodeName : String := "runObj"

/-! ## Block routines -/

/-- Take the next parameter: an array of given shape. -/
def takeArray (name : String) (rows cols : Nat) : StateM (List Parameter) Window := do
  let taken ← get
  set (taken ++ [⟨name, .array rows cols⟩])
  pure (.dense (.parameter taken.length) (.const 0) rows cols)

/-- A matrix that a routine needs: known, or its next parameter. -/
def takeMatrix (name : String) (rows cols : Nat) (known : Option (Matrix α)) :
    StateM (List Parameter) (Expr α) :=
  match known with
  | some value => pure (.known value)
  | none => do
      let window ← takeArray name rows cols
      pure (.read window)

/-- The sum of a matrix and a multiple of the identity; nothing is added for
zero. -/
def damped (value : Expr α) (size : Nat) (amount : α) : Expr α :=
  if Scalar.isZero amount then
    value
  else
    .add value (.known (.scaledIdentity size amount))

/-- The names in a routine for a Hessian block and its gradient block. -/
structure BlockNames where
  routine : String
  doc : String
  jacobian : String
  weight : String
  hessian : String
  gradient : String

/-- The routine that computes a gradient block `J'S` and the Hessian block
`J'SJ + λI` of a residual with `rows` outputs and `cols` arguments. -/
def blockRoutine (names : BlockNames) (damping : α) (rows cols : Nat)
    (jacobian weight : Option (Matrix α)) : Routine α :=
  let assembled : StateM (List Parameter) (List (Statement α)) := do
    let jacobian ← takeMatrix names.jacobian rows cols jacobian
    let weight ← takeMatrix names.weight rows rows weight
    let hessian ← takeArray names.hessian cols cols
    let gradient ← takeArray names.gradient cols rows
    pure
      [.set gradient (.mul jacobian.transpose weight),
        .set hessian (damped (.mul (.read gradient) jacobian) cols damping)]
  let (body, parameters) := assembled.run []
  ⟨names.routine, some names.doc, parameters, [], none, body⟩

/-- The names for the state blocks. -/
def stateNames : BlockNames where
  routine := "setObjQ1Q2"
  doc := "Q2 = Fx'*S, Q1 = Q2*Fx (+ lambda*I)"
  jacobian := "Fx"
  weight := "S"
  hessian := "Q11"
  gradient := "Q22"

/-- The names for the control blocks. -/
def controlNames : BlockNames where
  routine := "setObjR1R2"
  doc := "R2 = Fu'*S, R1 = R2*Fu (+ lambda*I)"
  jacobian := "Fu"
  weight := "S"
  hessian := "R11"
  gradient := "R22"

/-- The names for the terminal blocks. -/
def terminalNames : BlockNames where
  routine := "setObjQN1QN2"
  doc := "QN2 = FxN'*SN, QN1 = QN2*FxN (+ lambda*I)"
  jacobian := "FxN"
  weight := "SN"
  hessian := "QN1"
  gradient := "QN2"

/-- The name of the routine for the cross block. -/
def crossName : String := "setObjS1"

/-- The routine that computes the cross block `Fx'SFu` by way of `Fx'S`. -/
def crossRoutine (problem : Problem α) : Routine α :=
  let dims := problem.dims
  let product := Window.dense (.own 0) (.const 0) dims.nx dims.ny
  let assembled : StateM (List Parameter) (List (Statement α)) := do
    let jacX ← takeMatrix "Fx" dims.ny dims.nx problem.jacX
    let jacU ← takeMatrix "Fu" dims.ny dims.nu problem.jacU
    let weight ← takeMatrix "S" dims.ny dims.ny problem.weight
    let cross ← takeArray "S11" dims.nx dims.nu
    pure
      [.set product (.mul jacX.transpose weight),
        .set cross (.mul (.read product) jacU)]
  let (body, parameters) := assembled.run []
  ⟨crossName, some "S1 = Fx'*S*Fu", parameters, [.own "tmpS2" dims.nx dims.ny .real], none, body⟩

/-! ## Evaluation over the horizon -/

section Assembly

variable (problem : Problem α) (plan : Plan α)

/-- The routines of the blocks that are not known. -/
def blockRoutines : List (Routine α) :=
  let dims := problem.dims
  let damping := problem.flags.levenbergMarquardt
  (if plan.blocks.q1.isGiven then []
    else [blockRoutine stateNames damping dims.ny dims.nx problem.jacX problem.weight]) ++
  (if plan.blocks.r1.isGiven then []
    else [blockRoutine controlNames damping dims.ny dims.nu problem.jacU problem.weight]) ++
  (if plan.blocks.s1.isGiven then [] else [crossRoutine problem]) ++
  (if plan.blocks.qN1.isGiven then []
    else
      [blockRoutine terminalNames damping dims.nyn dims.nx problem.jacXEnd
        problem.terminalWeight])

/-- The calls of the block routines for one node. -/
def stageCalls (node : AffineIndex) : List (Statement α) :=
  let dims := problem.dims
  let fx := plan.layout.stageFx.map fun start =>
    plan.passFlat .objValueOut (.const start) (dims.ny * dims.nx)
  let fu := plan.layout.stageFu.map fun start =>
    plan.passFlat .objValueOut (.const start) (dims.ny * dims.nu)
  let weight := (plan.weightWindow? dims problem.flags node).map Argument.reference
  let stateCall :=
    match plan.blocks.q2.computed? with
    | some gradient =>
        [.run stateNames.routine
          (fx.toList ++ weight.toList ++
            [plan.passRows .hessianQ (node.scaled dims.nx) dims.nx,
              plan.passRows gradient (node.scaled dims.nx) dims.nx])]
    | none => []
  let controlCall :=
    match plan.blocks.r2.computed? with
    | some gradient =>
        [.run controlNames.routine
          (fu.toList ++ weight.toList ++
            [plan.passRows .hessianR (node.scaled dims.nu) dims.nu,
              plan.passRows gradient (node.scaled dims.nu) dims.nu])]
    | none => []
  let crossCall :=
    if plan.blocks.s1.isGiven then
      []
    else
      [.run crossName
        (fx.toList ++ fu.toList ++ weight.toList ++
          [plan.passRows .hessianS (node.scaled dims.nx) dims.nx])]
  stateCall ++ controlCall ++ crossCall

/-- The call of the terminal block routine. -/
def terminalCall : List (Statement α) :=
  let dims := problem.dims
  match plan.blocks.qN2.computed? with
  | some gradient =>
      let fx := plan.layout.terminalFx.map fun start =>
        plan.passFlat .objValueOut (.const start) (dims.nyn * dims.nx)
      let weight := if plan.has .wN then [plan.passWhole .wN] else []
      [.run terminalNames.routine
        (fx.toList ++ weight ++ [plan.passWhole .hessianQf, plan.passWhole gradient])]
  | none => []

/-- The routine that evaluates residuals and blocks over the horizon. -/
def evaluateRoutine : Routine α :=
  let dims := problem.dims
  let node := AffineIndex.var nodeName
  let stage :=
    plan.loadNodeInput dims .objValueIn node true ++
      [plan.evaluate .stageCost .objValueIn .objValueOut,
        plan.copy .dy (node.scaled dims.ny) .objValueOut (.const 0) dims.ny] ++
      stageCalls problem plan node
  let terminal :=
    plan.loadNodeInput dims .objValueIn (.const dims.n) false ++
      [plan.evaluate .terminalCost .objValueIn .objValueOut,
        .set (plan.whole .dyN) (.read (plan.flat .objValueOut (.const 0) dims.nyn))] ++
      terminalCall problem plan
  { name := evaluateName
    doc := some "Evaluate residuals and the Gauss-Newton blocks over the horizon"
    parameters := []
    locals := []
    result := none
    body := [.loop nodeName 0 dims.n stage] ++ terminal }

/-! ## Gradient of a node -/

/-- A gradient with its linear term, if it has one. -/
def withLinear (gradient : Expr α) : Option (Expr α) → Expr α
  | some linear => .add gradient linear
  | none => gradient

/-- Whether linear terms reach the gradient routine as parameters. -/
def passesLinear (linear : LinearStorage α) : Bool :=
  match linear with
  | .none => false
  | .given _ _ => false
  | .shared => true
  | .perNode => true

/-- The routine that forms the gradient of the node `index`. -/
def gradientRoutine : Routine α :=
  let dims := problem.dims
  let vector (position length : Nat) : Window :=
    .dense (.parameter position) (.const 0) length 1
  let linearParameters : List Parameter :=
    if passesLinear plan.linear then
      [⟨"Slx", .array dims.nx 1⟩, ⟨"Slu", .array dims.nu 1⟩]
    else
      []
  let (linearX, linearU) : Option (Expr α) × Option (Expr α) :=
    match plan.linear with
    | .none => (none, none)
    | .given x u => (some (.known x), some (.known u))
    | .shared => (some (.read (vector 2 dims.nx)), some (.read (vector 3 dims.nu)))
    | .perNode => (some (.read (vector 2 dims.nx)), some (.read (vector 3 dims.nu)))
  let index := AffineIndex.var "index"
  let residual := Expr.read (plan.flat .dy (index.scaled dims.ny) dims.ny)
  { name := gradientName
    doc := some "Gradient of node `index`: q = Q2*Dy, r = R2*Dy"
    parameters :=
      [⟨"stageq", .array dims.nx 1⟩, ⟨"stager", .array dims.nu 1⟩] ++ linearParameters ++
        [⟨"index", .index dims.n⟩]
    locals := []
    result := none
    body :=
      [.set (vector 0 dims.nx)
          (withLinear (.mul (plan.blockAt plan.blocks.q2 index dims.nx) residual) linearX),
        .set (vector 1 dims.nu)
          (withLinear (.mul (plan.blockAt plan.blocks.r2 index dims.nu) residual) linearU)] }

/-! ## Initialization -/

/-- Fill the Hessian with the known blocks.  A zero cross block is left to the
clearing of the workspace. -/
def initialization : List (Statement α) :=
  let dims := problem.dims
  let node := AffineIndex.var nodeName
  let fill (quantity : Quantity) (rows : Nat) (value : Option (Matrix α)) :
      List (Statement α) :=
    match value with
    | some value => [.set (plan.rows quantity (node.scaled rows) rows) (.known value)]
    | none => []
  let stage :=
    fill .hessianQ dims.nx plan.blocks.q1.given? ++
      fill .hessianR dims.nu plan.blocks.r1.given? ++
      fill .hessianS dims.nx (plan.blocks.s1.given?.filter fun value => !value.isZero)
  let terminal :=
    match plan.blocks.qN1.given? with
    | some value => [.set (plan.whole .hessianQf) (.known value)]
    | none => []
  (if stage.isEmpty then [] else [.loop nodeName 0 dims.n stage]) ++ terminal

/-- All routines of the objective, callees before callers. -/
def assemble : Section α where
  routines :=
    blockRoutines problem plan ++ [evaluateRoutine problem plan, gradientRoutine problem plan]
  initialization := initialization problem plan

end Assembly

end RtiAssembly.Objective
