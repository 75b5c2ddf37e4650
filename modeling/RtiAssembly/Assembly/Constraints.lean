import RtiAssembly.Assembly.NodeInput

/-!
# Routines of the constraints

`evaluateConstraints` writes the bounds of the quadratic program relative to
the current trajectory: box bounds of controls and states, then the affine rows
of path and point constraints.  Affine bounds of a path constraint go through
`setStagePac`, once for every node.
-/

namespace RtiAssembly.Constraints

variable {α : Type} [Scalar α]

/-- The name of the routine that evaluates the constraints. -/
def evaluateName : String := "evaluateConstraints"

/-- The name of the routine that writes the affine bounds of one node. -/
def pathBoundsName : String := "setStagePac"

/-- The loop variable over nodes. -/
def nodeName : String := "runPac"

section Assembly

variable (problem : Problem α) (plan : Plan α)

/-- The routine that writes the affine bounds of one node's path constraint:
the configured bounds minus the values of the constraint. -/
def pathBoundsRoutine (path : PathConstraint α) : Routine α :=
  let dim := path.dim
  let value :=
    Expr.read (plan.flat .pacEvH ((AffineIndex.var "ind").scaled dim) dim)
  let side (target : Quantity) (position : Nat) : Statement α :=
    .set (plan.flat target (.var "offset") dim)
      (.sub (.read (.dense (.parameter position) (.const 0) dim 1)) value)
  { name := pathBoundsName
    doc := some "Affine bounds of one node's path constraint"
    parameters :=
      [⟨"offset", .index (problem.affineDim - dim + 1)⟩, ⟨"ind", .index problem.dims.n⟩,
        ⟨"lbA", .array dim 1⟩, ⟨"ubA", .array dim 1⟩]
    locals := []
    result := none
    body := [side .qpLbA 2, side .qpUbA 3] }

/-- One side of the box bounds: configured bounds minus the trajectory. -/
def boxSide (target configured : Quantity) : List (Statement α) :=
  let dims := problem.dims
  let controls := dims.n * dims.nu
  let states := dims.n * dims.nx
  [.set (plan.flat target (.const 0) controls)
      (.sub (.read (plan.flat configured (.const 0) controls))
        (.read (plan.flat .u (.const 0) controls))),
    .set (plan.flat target (.const controls) states)
      (.sub (.read (plan.flat configured (.const controls) states))
        (.read (plan.flat .x (.const dims.nx) states)))]

/-- Evaluate the path constraint on one node and keep its outputs. -/
def pathStage (path : PathConstraint α) (node : AffineIndex) : List (Statement α) :=
  let dims := problem.dims
  let dim := path.dim
  let controlStart := if plan.has .pacEvHx then dim + dim * dims.nx else dim
  let derivative (target : Quantity) (start cols : Nat) : List (Statement α) :=
    if plan.has target then
      [.set (plan.rows target (node.scaled dim) dim)
        (.read (plan.dense .conValueOut (.const start) dim cols))]
    else
      []
  plan.loadNodeInput dims .conValueIn node true ++
    [plan.evaluate (.constraint path.name) .conValueIn .conValueOut,
      plan.copy .pacEvH (node.scaled dim) .conValueOut (.const 0) dim] ++
    derivative .pacEvHx dim dims.nx ++
    derivative .pacEvHu controlStart dims.nu

/-- The call that writes the affine bounds of the path constraint on one node. -/
def pathBoundsCall (path : PathConstraint α) (node : Nat) : Statement α :=
  let offset := problem.affineOffset node
  .run pathBoundsName
    [.index (.const offset), .index (.const node),
      plan.passFlat .lbAValues (.const offset) path.dim,
      plan.passFlat .ubAValues (.const offset) path.dim]

/-- The path constraint over the horizon. -/
def pathPart (path : PathConstraint α) : List (Statement α) :=
  let n := problem.dims.n
  [.loop nodeName 0 n (pathStage problem plan path (.var nodeName))] ++
    (if plan.has .lbAValues then
      (List.range n).map (pathBoundsCall problem plan path)
    else
      [])

/-- One point constraint, whose values start at row `row` of all point rows. -/
def pointPart (row node : Nat) (point : PointConstraint α) : List (Statement α) :=
  let dims := problem.dims
  let dim := point.dim
  let isInterior := node < dims.n
  let offset := problem.affineOffset node + if isInterior then problem.pathDim else 0
  let value := plan.flat .pocEvH (.const row) dim
  let derivative (target : Quantity) (start cols : Nat) : Statement α :=
    .set (plan.rows target (.const row) dim)
      (.read (plan.dense .conValueOut (.const start) dim cols))
  let side (target configured : Quantity) : Statement α :=
    .set (plan.flat target (.const offset) dim)
      (.sub (.read (plan.flat configured (.const offset) dim)) (.read value))
  [.comment ("Evaluating constraint on node: #" ++ toString node)] ++
    plan.loadNodeInput dims .conValueIn (.const node) isInterior ++
    [plan.evaluate (.constraint point.name) .conValueIn .conValueOut,
      plan.copy .pocEvH (.const row) .conValueOut (.const 0) dim,
      derivative .pocEvHx dim dims.nx] ++
    (if isInterior then [derivative .pocEvHu (dim + dim * dims.nx) dims.nu] else []) ++
    [side .qpLbA .lbAValues, side .qpUbA .ubAValues]

/-- Point constraints one after the other, each behind the rows of those before
it. -/
def pointParts (row : Nat) : List (Nat × PointConstraint α) → List (Statement α)
  | [] => []
  | (node, point) :: rest =>
      pointPart problem plan row node point ++ pointParts (row + point.dim) rest

/-- The routine that writes all bounds of the quadratic program. -/
def evaluateRoutine : Routine α where
  name := evaluateName
  doc := some "Box and affine constraint data of the QP"
  parameters := []
  locals := []
  result := none
  body :=
    boxSide problem plan .qpLb .lbValues ++ boxSide problem plan .qpUb .ubValues ++
      problem.path.elim [] (pathPart problem plan) ++
      pointParts problem plan 0 problem.points.entries

/-- Fill the bound values that are not hardcoded. -/
def initialization : List (Statement α) :=
  let bounds :=
    [(Quantity.lbValues, problem.boxBounds.lower), (.ubValues, problem.boxBounds.upper),
      (.lbAValues, problem.affineBounds.lower), (.ubAValues, problem.affineBounds.upper)]
  if problem.flags.hardcodeConstraints then
    []
  else
    (bounds.filter fun (quantity, _) => plan.has quantity).map fun (quantity, values) =>
      .set (plan.whole quantity) (.known (.column values))

/-- All routines of the constraints, callees before callers. -/
def assemble : Section α where
  routines :=
    (problem.path.map (pathBoundsRoutine problem plan)).toList ++ [evaluateRoutine problem plan]
  initialization := initialization problem plan

end Assembly

end RtiAssembly.Constraints
