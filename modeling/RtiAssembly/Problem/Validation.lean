import RtiAssembly.Diagnostic
import RtiAssembly.Identifier
import RtiAssembly.Problem.Basic

/-!
# Validation

A description is turned into a problem, or into the errors that prevent it.
Dimensions, the module name and the features are checked first; shapes mean
nothing while these are wrong, so further checks wait for them.
-/

namespace RtiAssembly

namespace Validation

variable {α : Type} [Scalar α]

/-! ## Dimensions, names and features -/

/-- Every dimension but the number of online data must be positive. -/
def checkDims (dims : Dimensions) : Checked Unit :=
  Checked.forAll
    [("N", "n", dims.n), ("NX", "nx", dims.nx), ("NU", "nu", dims.nu), ("NY", "ny", dims.ny),
      ("NYN", "nyn", dims.nyn)]
    fun (symbol, field, value) =>
      Checked.reportIf (value == 0)
        (.error .dimension ("dims." ++ field) (symbol ++ " must be positive"))

/-- The finding that a name is no identifier. -/
def noIdentifier (subject name : String) : Diagnostic :=
  .error .identifier subject ("'" ++ name ++ "' is not a valid C identifier")

/-- The damping factor must be finite and nonnegative, an arrival cost needs a
free initial state, and a lifted update needs the inexact mode to matter. -/
def checkFlags (flags : Flags α) : Checked Unit := do
  let damping := flags.levenbergMarquardt
  Checked.reportIf (!Scalar.isFinite damping || Scalar.less damping 0)
    (.error .damping "flags.levenbergMarquardt"
      ("Levenberg-Marquardt factor must be finite and >= 0, got " ++
        Scalar.text .plain damping))
  Checked.reportIf (flags.useArrivalCost && flags.initialStateFixed)
    (Diagnostic.withHint
      (.error .features "flags.useArrivalCost" "arrival cost requires a free initial state")
      "set initialStateFixed to false for moving-horizon estimation")
  Checked.reportIf (flags.liftedGradientUpdate && flags.sensitivityMode != .inexact)
    (.warning .features "flags.liftedGradientUpdate"
      "lifted gradient update has no effect unless sensitivityMode is inexact")

/-! ## Matrices and vectors -/

/-- The finding that given rows do not form a matrix of the expected shape. -/
def wrongShape (code : DiagnosticCode) (subject : String) (rows cols : Nat)
    (values : List (List α)) : Diagnostic :=
  let isRagged := values.any (·.length != cols)
  let found :=
    if isRagged then
      " of unequal length"
    else
      " of " ++ toString ((values.head?.map List.length).getD 0) ++ " columns"
  .error code subject
    ("expected a " ++ toString rows ++ "x" ++ toString cols ++ " matrix, found " ++
      toString values.length ++ " rows" ++ found)

/-- The matrix of given rows. -/
def checkMatrix (code : DiagnosticCode) (subject : String) (rows cols : Nat)
    (values : List (List α)) : Checked (Option (Matrix α)) :=
  if values.length != rows || values.any (·.length != cols) then
    Checked.refuse (wrongShape code subject rows cols values)
  else if values.flatten.any (!Scalar.isFinite ·) then
    Checked.refuse (.error code subject "matrix entries must be finite")
  else
    pure (some (.ofRows rows cols values))

/-- A vector of given length. -/
def checkVector (subject : String) (length : Nat) (values : List α) :
    Checked (Option (List α)) :=
  if values.length != length then
    Checked.refuse
      (.error .shape subject
        ("expected " ++ toString length ++ " entries, found " ++ toString values.length))
  else
    pure (some values)

/-! ## Objective -/

/-- The stage weighting; a given one cannot vary from node to node. -/
def checkWeight (description : Description α) : Checked (Option (Matrix α)) :=
  match description.objective.weight with
  | .runtime => pure none
  | .given rows =>
      if description.flags.variableWeighting then
        Checked.refuse
          (Diagnostic.withHint
            (.error .weighting "objective.weight"
              "weighting matrix is given but variable weighting is requested")
            "use \"runtime\" for per-node weighting")
      else
        checkMatrix .shape "objective.weight" description.dims.ny description.dims.ny rows

/-- The terminal weighting. -/
def checkTerminalWeight (description : Description α) : Checked (Option (Matrix α)) :=
  match description.objective.terminalWeight with
  | .runtime => pure none
  | .given rows =>
      checkMatrix .shape "objective.terminalWeight" description.dims.nyn description.dims.nyn rows

/-- The linear terms. -/
def checkLinearTerms (description : Description α) : Checked (LinearTerms α) :=
  match description.objective.linearTerms with
  | .none => pure .none
  | .runtime => pure .runtime
  | .given x u => do
      let x? ← checkVector "objective.linearTerms.x" description.dims.nx x
      let u? ← checkVector "objective.linearTerms.u" description.dims.nu u
      match x?, u? with
      | some x, some u => pure (.given x u)
      | _, _ => pure .none

/-! ## Bounds -/

/-- The finding that a lower bound lies above its upper bound. -/
def crossedBounds (subject : String) : Diagnostic :=
  .error .bounds subject "lower bound exceeds upper bound"

/-- Whether some lower bound lies above its upper bound. -/
def areCrossed (bounds : BoundValues α) : Bool :=
  (bounds.lower.zip bounds.upper).any fun (lower, upper) => Scalar.less upper lower

/-- One side of a bound; an absent side is filled with a default. -/
def checkSide (subject : String) (length : Nat) (default : α) (side : Option (List α)) :
    Checked (List α) :=
  match side with
  | none => pure (List.replicate length default)
  | some values =>
      if values.length = length then
        pure values
      else
        ⟨List.replicate length default,
          [.error .bounds subject
            ("expected " ++ toString length ++ " bound values, found " ++
              toString values.length)]⟩

/-- Both sides of a bound. -/
def checkSides (subject : String) (length : Nat) (lower upper : Option (List α)) :
    Checked (BoundValues α) := do
  let lower ← checkSide (subject ++ ".lower") length (-Scalar.unbounded) lower
  let upper ← checkSide (subject ++ ".upper") length Scalar.unbounded upper
  Checked.reportIf (areCrossed ⟨lower, upper⟩) (crossedBounds subject)
  pure ⟨lower, upper⟩

/-- The bounds of one node. -/
def checkNodeBounds (subject : String) (length : Nat)
    (pair : Option (Description.BoundPair α)) : Checked (BoundValues α) :=
  checkSides subject length (pair.bind (·.lower)) (pair.bind (·.upper))

/-- The name of an entry of a map over nodes. -/
def nodeSubject (map : String) (node : Nat) : String :=
  map ++ "[" ++ toString node ++ "]"

/-- Control bounds belong to nodes below `n`. -/
def checkControlNode (n node : Nat) : Checked Unit :=
  Checked.reportIf (n ≤ node)
    (.error .bounds (nodeSubject "bounds.u" node)
      ("control bound on node " ++ toString node ++ " outside 0.." ++ toString n))

/-- State bounds belong to nodes up to `n`, and those of node `0` are not used. -/
def checkStateNode (n node : Nat) : Checked Unit :=
  if n < node then
    Checked.report
      (.error .bounds (nodeSubject "bounds.x" node)
        ("state bound on node " ++ toString node ++ " outside 1..=" ++ toString n))
  else
    Checked.reportIf (node == 0)
      (Diagnostic.withHint
        (.warning .bounds "bounds.x[0]" "state bounds on node 0 are ignored")
        "node 0 is fixed by the state feedback or the arrival cost")

/-- Stack bounds one after the other. -/
def stack (bounds : List (BoundValues α)) : BoundValues α where
  lower := bounds.flatMap BoundValues.lower
  upper := bounds.flatMap BoundValues.upper

/-- The bounds of a list of nodes, stacked. -/
def checkNodes (map : String) (length : Nat)
    (bounds : NodeMap (Description.BoundPair α)) (nodes : List Nat) :
    Checked (BoundValues α) :=
  let checked := nodes.map fun node =>
    checkNodeBounds (nodeSubject map node) length (bounds.get? node)
  ⟨stack (checked.map Checked.value), checked.flatMap Checked.diagnostics⟩

/-- The box bounds: controls of nodes `0` to `n - 1`, then states of nodes `1`
to `n`. -/
def checkBoxBounds (description : Description α) : Checked (BoundValues α) := do
  let dims := description.dims
  let bounds := description.bounds
  Checked.forAll (bounds.u.entries.map Prod.fst) (checkControlNode dims.n)
  Checked.forAll (bounds.x.entries.map Prod.fst) (checkStateNode dims.n)
  let controls ← checkNodes "bounds.u" dims.nu bounds.u (List.range dims.n)
  let states ← checkNodes "bounds.x" dims.nx bounds.x (List.range' 1 dims.n)
  pure (stack [controls, states])

/-! ## Constraints -/

/-- Path bounds over the horizon: one bound for every node is repeated, one for
each is taken as it is. -/
def stackPath (n dim : Nat) (values : List α) : Option (List α) :=
  if values.length = dim then
    some (List.replicate n values).flatten
  else if values.length = n * dim then
    some values
  else
    none

/-- A path constraint.  One without rows is no constraint. -/
def checkPath (dims : Dimensions) (spec : Description.PathConstraint α) :
    Checked (Option (PathConstraint α)) :=
  if !isIdentifier spec.name then
    Checked.refuse (noIdentifier "pathConstraint.name" spec.name)
  else if spec.dim = 0 then
    pure none
  else
    match stackPath dims.n spec.dim spec.lower, stackPath dims.n spec.dim spec.upper with
    | some lower, some upper => do
        Checked.reportIf (areCrossed ⟨lower, upper⟩) (crossedBounds "pathConstraint")
        let jacX ← Checked.onOption
          (checkMatrix .pathShape "pathConstraint.jacobianX" spec.dim dims.nx) spec.jacobianX
        let jacU ← Checked.onOption
          (checkMatrix .pathShape "pathConstraint.jacobianU" spec.dim dims.nu) spec.jacobianU
        pure (some ⟨spec.name, spec.dim, ⟨lower, upper⟩, jacX, jacU⟩)
    | _, _ =>
        Checked.refuse
          (.error .pathShape "pathConstraint"
            ("path bounds need " ++ toString spec.dim ++ " or " ++ toString (dims.n * spec.dim) ++
              " values, found " ++ toString spec.lower.length ++ " lower and " ++
              toString spec.upper.length ++ " upper"))

/-- Number of outputs per row of a point constraint: the value and its
derivatives.  The terminal node has no control. -/
def outputsPerRow (dims : Dimensions) (node : Nat) : Nat :=
  if node < dims.n then 1 + dims.nx + dims.nu else 1 + dims.nx

/-- A point constraint.  One without rows is no constraint. -/
def checkPoint (dims : Dimensions) (node : Nat) (spec : Description.PointConstraint α) :
    Checked (Option (PointConstraint α)) :=
  let subject := nodeSubject "pointConstraints" node
  let perRow := outputsPerRow dims node
  let dim := spec.outputWidth / perRow
  if dims.n < node then
    Checked.refuse
      (.error .pointNode subject
        ("node " ++ toString node ++ " is outside the horizon 0..=" ++ toString dims.n))
  else if !isIdentifier spec.name then
    Checked.refuse (noIdentifier subject spec.name)
  else if spec.outputWidth % perRow ≠ 0 then
    Checked.refuse
      (.error .pointWidth subject
        ("output width " ++ toString spec.outputWidth ++ " is not a multiple of " ++
          toString perRow))
  else if dim = 0 then
    pure none
  else do
    let bounds ← checkSides subject dim (some spec.lower) (some spec.upper)
    pure (some ⟨spec.name, spec.outputWidth, dim, bounds⟩)

/-- All point constraints, in ascending order of their nodes. -/
def checkPoints (description : Description α) : Checked (NodeMap (PointConstraint α)) :=
  let check := checkPoint description.dims
  ⟨description.pointConstraints.filterMap fun node spec => (check node spec).value,
    description.pointConstraints.entries.flatMap fun (node, spec) =>
      (check node spec).diagnostics⟩

/-- Number of affine rows of each node: path rows before the terminal node, and
the rows of the node's point constraint. -/
def rowCounts (n : Nat) (path : Option (PathConstraint α))
    (points : NodeMap (PointConstraint α)) : List Nat :=
  (List.range (n + 1)).map fun node =>
    (if node < n then path.elim 0 PathConstraint.dim else 0) +
      (points.get? node).elim 0 PointConstraint.dim

/-- The bounds that a path constraint puts on one interval. -/
def pathRows (path : PathConstraint α) (node : Nat) : BoundValues α where
  lower := (path.bounds.lower.drop (node * path.dim)).take path.dim
  upper := (path.bounds.upper.drop (node * path.dim)).take path.dim

/-- The bounds of the affine rows of one node. -/
def affineRows (n : Nat) (path : Option (PathConstraint α))
    (points : NodeMap (PointConstraint α)) (node : Nat) : BoundValues α :=
  let fromPath :=
    match path with
    | some path => if node < n then [pathRows path node] else []
    | none => []
  stack (fromPath ++ ((points.get? node).map PointConstraint.bounds).toList)

/-- The bounds of all affine rows, node by node. -/
def affineBounds (n : Nat) (path : Option (PathConstraint α))
    (points : NodeMap (PointConstraint α)) : BoundValues α :=
  stack ((List.range (n + 1)).map (affineRows n path points))

/-! ## Whole descriptions -/

/-- The checks that come first. -/
def checkFrame (description : Description α) : Checked Unit := do
  checkDims description.dims
  Checked.reportIf (!isIdentifier description.moduleName)
    (noIdentifier "moduleName" description.moduleName)
  checkFlags description.flags

/-- The checks of the content, with the problem that they produce. -/
def checkContent (description : Description α) : Checked (Problem α) := do
  let dims := description.dims
  let objective := description.objective
  let weight ← checkWeight description
  let terminalWeight ← checkTerminalWeight description
  let jacX ← Checked.onOption
    (checkMatrix .shape "objective.jacobianX" dims.ny dims.nx) objective.jacobianX
  let jacU ← Checked.onOption
    (checkMatrix .shape "objective.jacobianU" dims.ny dims.nu) objective.jacobianU
  let jacXEnd ← Checked.onOption
    (checkMatrix .shape "objective.terminalJacobianX" dims.nyn dims.nx)
    objective.terminalJacobianX
  let linearTerms ← checkLinearTerms description
  let boxBounds ← checkBoxBounds description
  let path ← Checked.onOption (checkPath dims) description.pathConstraint
  let points ← checkPoints description
  pure
    { moduleName := description.moduleName
      dims, flags := description.flags
      weight, terminalWeight, jacX, jacU, jacXEnd
      crossTerm := objective.crossTerm
      linearTerms, boxBounds, path, points
      affineBounds := affineBounds dims.n path points
      rowCounts := rowCounts dims.n path points }

/-- All checks; the content is only looked at if the frame has no error. -/
def check (description : Description α) : Checked (Option (Problem α)) :=
  let frame := checkFrame description
  if hasErrors frame.diagnostics then
    ⟨none, frame.diagnostics⟩
  else
    let content := checkContent description
    ⟨some content.value, frame.diagnostics ++ content.diagnostics⟩

end Validation

/-- Validate a description: its problem if there is no error, and all
diagnostics. -/
def Description.validate {α : Type} [Scalar α] (description : Description α) :
    Checked (Option (Problem α)) :=
  let checked := Validation.check description
  { checked with value := if hasErrors checked.diagnostics then none else checked.value }

end RtiAssembly
