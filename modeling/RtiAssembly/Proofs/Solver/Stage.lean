import RtiAssembly.Proofs.Solver.Blocks
import RtiAssembly.Proofs.Solver.Nodes

/-!
# What the evaluation of a stage computes

A node of the horizon is evaluated by one call.  Behind it the node's share of
the residuals and of every computed block holds what the outputs of the call
give, and no later node touches that share.
-/

namespace RtiAssembly

open Statement

namespace Objective

variable {α σ : Type} [Scalar α] {problem : Problem α} {frame : Frame}

/-! ## Inputs of the blocks -/

section Places

variable (problem)

/-- Where the state derivative of a stage lies if it is not known. -/
def stageFxPlace : Place :=
  ⟨.objValueOut, problem.plan.layout.stageFx.getD 0⟩

/-- Where the control derivative of a stage lies if it is not known. -/
def stageFuPlace : Place :=
  ⟨.objValueOut, problem.plan.layout.stageFu.getD 0⟩

/-- Where the terminal derivative lies if it is not known. -/
def terminalFxPlace : Place :=
  ⟨.objValueOut, problem.plan.layout.terminalFx.getD 0⟩

/-- Where the weighting of a node lies if it is not known: in its rows if
weightings vary. -/
def stageWeightPlace (node : Nat) : Place :=
  ⟨.w, if problem.flags.variableWeighting then node * (problem.dims.ny * problem.dims.ny) else 0⟩

/-- Where the terminal weighting lies if it is not known. -/
def terminalWeightPlace : Place :=
  ⟨.wN, 0⟩

/-- The block of a node in a quantity with blocks of a given size. -/
def nodePlace (quantity : Quantity) (size node : Nat) : Place :=
  ⟨quantity, node * size⟩

end Places

/-- Rows of a node start behind the rows of the nodes before it. -/
theorem startOf_rows {quantity : Quantity} {count cols size number : Nat} {node : AffineIndex}
    (shape : problem.shapeOf? quantity = some (count, cols))
    (value : frame.valueOf node = number) :
    frame.startOf (problem.plan.rows quantity (node.scaled size) size) =
      ⟨.global (problem.plan.id quantity), number * (size * cols)⟩ := by
  rw [Frame.rows_eq _ _ shape, Frame.startOf_global, Frame.valueOf_scaled,
    Frame.valueOf_scaled, value, Nat.mul_assoc]

theorem bindingOf_passRows {quantity : Quantity} {count cols size number : Nat}
    {node : AffineIndex} (shape : problem.shapeOf? quantity = some (count, cols))
    (value : frame.valueOf node = number) :
    frame.bindingOf (problem.plan.passRows quantity (node.scaled size) size) =
      (nodePlace quantity (size * cols) number).binding problem :=
  congrArg Binding.array (startOf_rows shape value)

/-- Derivatives that are not known are passed where the outputs keep them. -/
theorem bindings_derivatives (length : Nat) :
    (problem.plan.layout.stageFx.map fun start =>
        problem.plan.passFlat .objValueOut (.const start) length).toList.map frame.bindingOf =
      (stageFxPlace problem).bindings problem problem.jacX ∧
    (problem.plan.layout.stageFu.map fun start =>
        problem.plan.passFlat .objValueOut (.const start) length).toList.map frame.bindingOf =
      (stageFuPlace problem).bindings problem problem.jacU ∧
    (problem.plan.layout.terminalFx.map fun start =>
        problem.plan.passFlat .objValueOut (.const start) length).toList.map frame.bindingOf =
      (terminalFxPlace problem).bindings problem problem.jacXEnd := by
  have start (offset : Nat) : frame.bindingOf
      (problem.plan.passFlat .objValueOut (.const offset) length) =
        (Place.mk .objValueOut offset).binding problem :=
    congrArg Binding.array (Frame.startOf_global _ _ _ _)
  simp only [stageFxPlace, stageFuPlace, terminalFxPlace, Place.bindings, Problem.layout_plan,
    EvaluationLayout.ofProblem]
  refine ⟨?_, ?_, ?_⟩
  · cases problem.jacX <;> simp [start]
  · cases problem.jacU <;> simp [start]
  · cases problem.jacXEnd <;> simp [start]

/-- A weighting that is not known is passed from the rows of its node. -/
theorem bindings_weight {node : AffineIndex} {number : Nat}
    (value : frame.valueOf node = number) :
    ((problem.plan.weightWindow? problem.dims problem.flags node).map
        Argument.reference).toList.map frame.bindingOf =
      (stageWeightPlace problem number).bindings problem problem.weight := by
  unfold Plan.weightWindow? Place.bindings stageWeightPlace
  cases weight : problem.weight with
  | some _ => simp [weight]
  | none =>
      have shape : problem.shapeOf? .w = some (if problem.flags.variableWeighting then
          problem.dims.n * problem.dims.ny else problem.dims.ny, problem.dims.ny) := by
        simp [weight]
      cases varying : problem.flags.variableWeighting with
      | true =>
          simp [shape]
          exact bindingOf_passRows shape value
      | false =>
          simp [shape]
          exact congrArg Binding.array (Frame.startOf_whole .w)

/-! ## Blocks of a stage -/

section Stage

variable (problem)

/-- The state derivative of a stage. -/
def stageFx (memory : problem.Contents) : Matrix α :=
  (stageFxPlace problem).getD problem problem.jacX memory problem.dims.ny problem.dims.nx

/-- The control derivative of a stage. -/
def stageFu (memory : problem.Contents) : Matrix α :=
  (stageFuPlace problem).getD problem problem.jacU memory problem.dims.ny problem.dims.nu

/-- The weighting of a node. -/
def stageWeight (memory : problem.Contents) (node : Nat) : Matrix α :=
  (stageWeightPlace problem node).getD problem problem.weight memory problem.dims.ny
    problem.dims.ny

/-- The number of elements for each node in a quantity that the stages write;
known blocks are not written. -/
def stageSize? (quantity : Quantity) : Option Nat :=
  let dims := problem.dims
  let known := KnownBlocks.ofProblem problem
  match quantity with
  | .dy => some dims.ny
  | .hessianQ => if known.states.isNone then some (dims.nx * dims.nx) else none
  | .q2 => if known.states.isNone then some (dims.nx * dims.ny) else none
  | .hessianR => if known.controls.isNone then some (dims.nu * dims.nu) else none
  | .r2 => if known.controls.isNone then some (dims.nu * dims.ny) else none
  | .hessianS => if known.cross.isNone then some (dims.nx * dims.nu) else none
  | _ => none

/-- The elements of a node in these quantities. -/
def nodeShare (node : Nat) (quantity : Quantity) (position : Nat) : Prop :=
  ∃ size ∈ stageSize? problem quantity, node * size ≤ position ∧ position < node * size + size

/-- What a stage leaves in its computed blocks. -/
structure StageBlocks (node : Nat) (fx fu weight : Matrix α) (memory : problem.Contents) :
    Prop where
  states : (KnownBlocks.ofProblem problem).states = none →
    let dims := problem.dims
    problem.part memory .q2 (node * (dims.nx * dims.ny)) dims.nx dims.ny =
        fx.transpose.mul weight ∧
      problem.part memory .hessianQ (node * (dims.nx * dims.nx)) dims.nx dims.nx =
        ((fx.transpose.mul weight).mul fx).shifted problem.flags.levenbergMarquardt
  controls : (KnownBlocks.ofProblem problem).controls = none →
    let dims := problem.dims
    problem.part memory .r2 (node * (dims.nu * dims.ny)) dims.nu dims.ny =
        fu.transpose.mul weight ∧
      problem.part memory .hessianR (node * (dims.nu * dims.nu)) dims.nu dims.nu =
        ((fu.transpose.mul weight).mul fu).shifted problem.flags.levenbergMarquardt
  cross : (KnownBlocks.ofProblem problem).cross = none →
    let dims := problem.dims
    problem.part memory .hessianS (node * (dims.nx * dims.nu)) dims.nx dims.nu =
      (fx.transpose.mul weight).mul fu

end Stage

section StageCalls

variable {host : Host α σ problem.program.table.sizes} {depth : Nat}
  {world : problem.Recorded σ} {node : AffineIndex} {number : Nat}

/-- The blocks of a node lie inside their quantity. -/
theorem nodePlace_room {quantity : Quantity} {size cols : Nat}
    (shape : problem.shapeOf? quantity = some (problem.dims.n * size, cols))
    (number_lt : number < problem.dims.n) :
    number * (size * cols) + size * cols ≤ problem.sizeOf quantity := by
  rw [problem.sizeOf_eq shape, Nat.mul_assoc]
  exact block_le (size * cols) number_lt

theorem Place.Covers.nodeShare {quantity : Quantity} {size position : Nat} {other : Quantity}
    (covers : (nodePlace quantity size number).Covers size other position)
    (written : stageSize? problem quantity = some size) :
    nodeShare problem number other position := by
  obtain ⟨rfl, start_le, position_lt⟩ := covers
  exact ⟨size, written, start_le, position_lt⟩

variable (host) (depth) (world)

/-- Both blocks of one kind on a node, unless they are known. -/
theorem moves_nodeBlocks {β : Type} {known : Option β} {names : BlockNames} {cols : Nat}
    {jacobian : Option (Matrix α)} {place : Place} {hessian gradient : Quantity}
    {arguments : List Argument} (wellFormed : problem.WellFormed)
    (number_lt : number < problem.dims.n)
    (mem : known = none → blockRoutine names problem.flags.levenbergMarquardt problem.dims.ny
      cols jacobian problem.weight ∈ problem.program.routines)
    (shapeJacobian : ∀ matrix ∈ jacobian, matrix.shape = (problem.dims.ny, cols))
    (shapeHessian : problem.shapeOf? hessian = some (problem.dims.n * cols, cols))
    (shapeGradient : known = none →
      problem.shapeOf? gradient = some (problem.dims.n * cols, problem.dims.ny))
    (bound : known = none → arguments.map frame.bindingOf = place.bindings problem jacobian ++
      (stageWeightPlace problem number).bindings problem problem.weight ++
      [(nodePlace hessian (cols * cols) number).binding problem,
        (nodePlace gradient (cols * problem.dims.ny) number).binding problem])
    (apart : place.quantity ≠ gradient ∧ gradient ≠ hessian)
    (written : known = none → stageSize? problem hessian = some (cols * cols) ∧
      stageSize? problem gradient = some (cols * problem.dims.ny)) :
    let memory := world.store.memory
    let jacobianValue := place.getD problem jacobian memory problem.dims.ny cols
    let gradientValue := jacobianValue.transpose.mul (stageWeight problem memory number)
    let after := effects (problem.program.scene host.recorded (depth + 1)) frame
      (if known.isNone then [.run names.routine arguments] else []) world
    problem.Moves (fun quantity position => (quantity = gradient ∨ quantity = hessian) ∧
        nodeShare problem number quantity position) [] world after ∧
      (known = none →
        problem.part after.store.memory gradient (number * (cols * problem.dims.ny)) cols
            problem.dims.ny = gradientValue ∧
          problem.part after.store.memory hessian (number * (cols * cols)) cols cols =
            (gradientValue.mul jacobianValue).shifted problem.flags.levenbergMarquardt) := by
  intro memory jacobianValue gradientValue after
  cases known with
  | some _ =>
      have after_eq : after = world := by simp [after, effects]
      rw [after_eq]
      exact ⟨.refl world, nofun⟩
  | none =>
      have forms := forms_blockCall depth world host (mem rfl)
        shapeJacobian wellFormed.shape_weight (bound rfl) apart
        (nodePlace_room (shapeGradient rfl) number_lt) (nodePlace_room shapeHessian number_lt)
      have after_eq : after = (Statement.run names.routine arguments).effect
          (problem.program.scene host.recorded (depth + 1)) frame world := by
        simp [after, effects_singleton]
      rw [after_eq]
      refine ⟨forms.moves.mono ?_, fun _ => ⟨forms.gradient_eq, forms.hessian_eq⟩⟩
      rintro quantity position (covers | covers)
      · exact ⟨.inl covers.1, covers.nodeShare (written rfl).2⟩
      · exact ⟨.inr covers.1, covers.nodeShare (written rfl).1⟩

/-- The state blocks of a node. -/
theorem moves_stateBlocks (wellFormed : problem.WellFormed)
    (value : frame.valueOf node = number) (number_lt : number < problem.dims.n) :
    let dims := problem.dims
    let memory := world.store.memory
    let gradient := (stageFx problem memory).transpose.mul (stageWeight problem memory number)
    let after := effects (problem.program.scene host.recorded (depth + 1)) frame
      (if (KnownBlocks.ofProblem problem).states.isNone then
        [.run stateNames.routine (stateArguments problem node)] else []) world
    problem.Moves (fun quantity position => (quantity = .q2 ∨ quantity = .hessianQ) ∧
        nodeShare problem number quantity position) [] world after ∧
      ((KnownBlocks.ofProblem problem).states = none →
        problem.part after.store.memory .q2 (number * (dims.nx * dims.ny)) dims.nx dims.ny =
            gradient ∧
          problem.part after.store.memory .hessianQ (number * (dims.nx * dims.nx)) dims.nx
              dims.nx =
            (gradient.mul (stageFx problem memory)).shifted problem.flags.levenbergMarquardt) := by
  have shapeHessian : problem.shapeOf? .hessianQ =
      some (problem.dims.n * problem.dims.nx, problem.dims.nx) := by simp
  have shapeGradient (states : (KnownBlocks.ofProblem problem).states = none) :
      problem.shapeOf? .q2 = some (problem.dims.n * problem.dims.nx, problem.dims.ny) := by
    simp [states]
  refine moves_nodeBlocks host depth world wellFormed number_lt
    (fun states => Problem.mem_routines.1 _ ?_)
    wellFormed.shape_jacX shapeHessian shapeGradient (fun states => ?_) ⟨nofun, nofun⟩
    (fun states => ?_)
  · simp [blockRoutines, Problem.blocks_plan, states]
  · simp only [stateArguments, List.map_append, List.map_cons, List.map_nil,
      derivativeArguments, weightArguments, (bindings_derivatives _).1, bindings_weight value,
      bindingOf_passRows shapeHessian value, bindingOf_passRows (shapeGradient states) value]
  · simp [stageSize?, states]

/-- The control blocks of a node. -/
theorem moves_controlBlocks (wellFormed : problem.WellFormed)
    (value : frame.valueOf node = number) (number_lt : number < problem.dims.n) :
    let dims := problem.dims
    let memory := world.store.memory
    let gradient := (stageFu problem memory).transpose.mul (stageWeight problem memory number)
    let after := effects (problem.program.scene host.recorded (depth + 1)) frame
      (if (KnownBlocks.ofProblem problem).controls.isNone then
        [.run controlNames.routine (controlArguments problem node)] else []) world
    problem.Moves (fun quantity position => (quantity = .r2 ∨ quantity = .hessianR) ∧
        nodeShare problem number quantity position) [] world after ∧
      ((KnownBlocks.ofProblem problem).controls = none →
        problem.part after.store.memory .r2 (number * (dims.nu * dims.ny)) dims.nu dims.ny =
            gradient ∧
          problem.part after.store.memory .hessianR (number * (dims.nu * dims.nu)) dims.nu
              dims.nu =
            (gradient.mul (stageFu problem memory)).shifted problem.flags.levenbergMarquardt) := by
  have shapeHessian : problem.shapeOf? .hessianR =
      some (problem.dims.n * problem.dims.nu, problem.dims.nu) := by simp
  have shapeGradient (controls : (KnownBlocks.ofProblem problem).controls = none) :
      problem.shapeOf? .r2 = some (problem.dims.n * problem.dims.nu, problem.dims.ny) := by
    simp [controls]
  refine moves_nodeBlocks host depth world wellFormed number_lt
    (fun controls => Problem.mem_routines.1 _ ?_)
    wellFormed.shape_jacU shapeHessian shapeGradient (fun controls => ?_) ⟨nofun, nofun⟩
    (fun controls => ?_)
  · simp [blockRoutines, Problem.blocks_plan, controls]
  · simp only [controlArguments, List.map_append, List.map_cons, List.map_nil,
      derivativeArguments, weightArguments, (bindings_derivatives _).2.1, bindings_weight value,
      bindingOf_passRows shapeHessian value, bindingOf_passRows (shapeGradient controls) value]
  · simp [stageSize?, controls]

/-- The cross block of a node. -/
theorem moves_crossBlock (wellFormed : problem.WellFormed)
    (value : frame.valueOf node = number) (number_lt : number < problem.dims.n) :
    let dims := problem.dims
    let memory := world.store.memory
    let after := effects (problem.program.scene host.recorded (depth + 1)) frame
      (if (KnownBlocks.ofProblem problem).cross.isNone then
        [.run crossName (crossArguments problem node)] else []) world
    problem.Moves (fun quantity position => quantity = .hessianS ∧
        nodeShare problem number quantity position) [] world after ∧
      ((KnownBlocks.ofProblem problem).cross = none →
        problem.part after.store.memory .hessianS (number * (dims.nx * dims.nu)) dims.nx
            dims.nu =
          ((stageFx problem memory).transpose.mul (stageWeight problem memory number)).mul
            (stageFu problem memory)) := by
  intro dims memory after
  cases cross : (KnownBlocks.ofProblem problem).cross with
  | some _ =>
      have after_eq : after = world := by simp [after, cross, effects]
      rw [after_eq]
      exact ⟨.refl world, nofun⟩
  | none =>
      have shape : problem.shapeOf? .hessianS = some (dims.n * dims.nx, dims.nu) := by
        simp [dims]
      have mem : crossRoutine problem ∈ problem.program.routines := by
        refine Problem.mem_routines.1 _ ?_
        simp [blockRoutines, Problem.blocks_plan, cross]
      have bound : (crossArguments problem node).map frame.bindingOf =
          (stageFxPlace problem).bindings problem problem.jacX ++
            (stageFuPlace problem).bindings problem problem.jacU ++
            (stageWeightPlace problem number).bindings problem problem.weight ++
            [(nodePlace .hessianS (dims.nx * dims.nu) number).binding problem] := by
        simp only [crossArguments, List.map_append, List.map_cons, List.map_nil,
          derivativeArguments, weightArguments, (bindings_derivatives _).1,
          (bindings_derivatives _).2.1, bindings_weight value, bindingOf_passRows shape value,
          dims]
      have forms := forms_crossCall depth world host wellFormed mem bound
        (nodePlace_room shape number_lt)
      have after_eq : after = (Statement.run crossName (crossArguments problem node)).effect
          (problem.program.scene host.recorded (depth + 1)) frame world := by
        simp [after, cross, effects_singleton]
      rw [after_eq]
      refine ⟨forms.moves.mono fun quantity position covers => ?_, fun _ => forms.cross_eq⟩
      exact ⟨covers.1, covers.nodeShare (by simp [stageSize?, cross, dims])⟩

/-- What the blocks of a stage are computed from depends on the outputs and the
weightings only. -/
theorem stage_eq_of_changes {region : Quantity → Nat → Prop} {before after : problem.Contents}
    (changes : problem.Changes region before after)
    (outside : ∀ position, ¬region .objValueOut position ∧ ¬region .w position) :
    stageFx problem after = stageFx problem before ∧
      stageFu problem after = stageFu problem before ∧
      stageWeight problem after number = stageWeight problem before number :=
  ⟨Place.getD_eq _ changes fun position => (outside position).1,
    Place.getD_eq _ changes fun position => (outside position).1,
    Place.getD_eq _ changes fun position => (outside position).2⟩

/-- The calls of a stage leave every computed block of its node. -/
theorem moves_stageCalls (wellFormed : problem.WellFormed)
    (value : frame.valueOf node = number) (number_lt : number < problem.dims.n) :
    let memory := world.store.memory
    let after := effects (problem.program.scene host.recorded (depth + 1)) frame
      (stageCalls problem problem.plan node) world
    problem.Moves (fun quantity position => quantity ≠ .dy ∧
        nodeShare problem number quantity position) [] world after ∧
      StageBlocks problem number (stageFx problem memory) (stageFu problem memory)
        (stageWeight problem memory number) after.store.memory := by
  intro memory after
  let scene := problem.program.scene host.recorded (depth + 1)
  let known := KnownBlocks.ofProblem problem
  let first := effects scene frame
    (if known.states.isNone then
      [.run stateNames.routine (stateArguments problem node)] else []) world
  let second := effects scene frame
    (if known.controls.isNone then
      [.run controlNames.routine (controlArguments problem node)] else []) first
  let third := effects scene frame
    (if known.cross.isNone then [.run crossName (crossArguments problem node)] else []) second
  have after_eq : after = third := by
    simp only [after, stageCalls_eq, effects_append]
    rfl
  obtain ⟨firstMoves, states⟩ := moves_stateBlocks host depth world wellFormed value number_lt
  obtain ⟨secondMoves, controls⟩ :=
    moves_controlBlocks host depth first wellFormed value number_lt
  obtain ⟨thirdMoves, cross⟩ := moves_crossBlock host depth second wellFormed value number_lt
  obtain ⟨fxFirst, fuFirst, weightFirst⟩ : stageFx problem first.store.memory =
      stageFx problem memory ∧ stageFu problem first.store.memory = stageFu problem memory ∧
        stageWeight problem first.store.memory number = stageWeight problem memory number :=
    stage_eq_of_changes firstMoves.memory (by simp)
  obtain ⟨fxSecond, fuSecond, weightSecond⟩ : stageFx problem second.store.memory =
      stageFx problem first.store.memory ∧
        stageFu problem second.store.memory = stageFu problem first.store.memory ∧
          stageWeight problem second.store.memory number =
            stageWeight problem first.store.memory number :=
    stage_eq_of_changes secondMoves.memory (by simp)
  simp only [fuFirst, weightFirst] at controls
  simp only [fxSecond, fuSecond, weightSecond, fxFirst, fuFirst, weightFirst] at cross
  rw [after_eq]
  refine ⟨?_, ⟨fun computed => ?_, fun computed => ?_, cross⟩⟩
  · refine (firstMoves.mono ?_).trans ((secondMoves.mono ?_).trans (thirdMoves.mono ?_))
    · rintro _ _ ⟨rfl | rfl, inside⟩ <;> exact ⟨by decide, inside⟩
    · rintro _ _ ⟨rfl | rfl, inside⟩ <;> exact ⟨by decide, inside⟩
    · rintro _ _ ⟨rfl, inside⟩
      exact ⟨by decide, inside⟩
  · obtain ⟨gradient, hessian⟩ := states computed
    constructor
    · rw [thirdMoves.memory.part_eq (by simp), secondMoves.memory.part_eq (by simp)]
      exact gradient
    · rw [thirdMoves.memory.part_eq (by simp), secondMoves.memory.part_eq (by simp)]
      exact hessian
  · obtain ⟨gradient, hessian⟩ := controls computed
    constructor
    · rw [thirdMoves.memory.part_eq (by simp)]
      exact gradient
    · rw [thirdMoves.memory.part_eq (by simp)]
      exact hessian

end StageCalls

/-! ## Evaluation of a node -/

section Evaluation

variable (problem)

/-- The elements that the evaluation of a node may change. -/
def stageShare (node : Nat) (quantity : Quantity) (position : Nat) : Prop :=
  quantity = .objValueIn ∨ quantity = .objValueOut ∨ nodeShare problem node quantity position

/-- The state derivative that a stage uses: known, or in the outputs of its
function. -/
def usedFx (call : HostCall α problem.program.table.sizes) : Matrix α :=
  problem.jacX.getD
    (call.part 1 (problem.plan.layout.stageFx.getD 0) problem.dims.ny problem.dims.nx)

/-- The control derivative that a stage uses. -/
def usedFu (call : HostCall α problem.program.table.sizes) : Matrix α :=
  problem.jacU.getD
    (call.part 1 (problem.plan.layout.stageFu.getD 0) problem.dims.ny problem.dims.nu)

/-- The terminal derivative that is used. -/
def usedTerminalFx (call : HostCall α problem.program.table.sizes) : Matrix α :=
  problem.jacXEnd.getD
    (call.part 1 (problem.plan.layout.terminalFx.getD 0) problem.dims.nyn problem.dims.nx)

/-- What the evaluation of a node leaves behind, given the memory before it. -/
structure StageHolds (start : problem.Contents) (node : Nat)
    (call : HostCall α problem.program.table.sizes) (memory : problem.Contents) : Prop where
  asks : problem.Asks .stageCost start node call
  residuals : ∀ row < problem.dims.ny,
    problem.valueAt memory .dy (node * problem.dims.ny + row) = call.leaves 1 row
  blocks : StageBlocks problem node (usedFx problem call) (usedFu problem call)
    (stageWeight problem start node) memory

variable {problem}

/-- What a stage leaves behind depends on the elements of its node only. -/
theorem StageHolds.of_changes {start before after : problem.Contents} {node : Nat}
    {call : HostCall α problem.program.table.sizes} {region : Quantity → Nat → Prop}
    (held : StageHolds problem start node call before)
    (changes : problem.Changes region before after)
    (outside : ∀ quantity position, nodeShare problem node quantity position →
      ¬region quantity position) :
    StageHolds problem start node call after := by
  obtain ⟨asks, residuals, states, controls, cross⟩ := held
  have kept {quantity : Quantity} {rows cols : Nat}
      (written : stageSize? problem quantity = some (rows * cols)) :
      problem.part after quantity (node * (rows * cols)) rows cols =
        problem.part before quantity (node * (rows * cols)) rows cols :=
    changes.part_eq fun position start_le position_lt =>
      outside quantity position ⟨_, written, start_le, position_lt⟩
  refine ⟨asks, fun row row_lt => ?_, fun computed => ?_, fun computed => ?_,
    fun computed => ?_⟩
  · have inside : nodeShare problem node .dy (node * problem.dims.ny + row) :=
      ⟨_, rfl, Nat.le_add_right _ _, Nat.add_lt_add_left row_lt _⟩
    rw [changes .dy _ (outside _ _ inside)]
    exact residuals row row_lt
  · intro dims
    rw [kept (by simp [stageSize?, computed, dims]), kept (by simp [stageSize?, computed, dims])]
    exact states computed
  · intro dims
    rw [kept (by simp [stageSize?, computed, dims]), kept (by simp [stageSize?, computed, dims])]
    exact controls computed
  · intro dims
    rw [kept (by simp [stageSize?, computed, dims])]
    exact cross computed

/-- The elements of a node lie before those of a later one. -/
theorem not_stageShare {node later : Nat} (earlier : node < later) {quantity : Quantity}
    {position : Nat} (inside : nodeShare problem node quantity position) :
    ¬stageShare problem later quantity position := by
  obtain ⟨size, written, _, position_lt⟩ := inside
  have before := block_le size earlier
  rintro (rfl | rfl | ⟨other, same, start_le, _⟩)
  · simp [stageSize?] at written
  · simp [stageSize?] at written
  · rw [Option.mem_def] at written same
    rw [written, Option.some.injEq] at same
    subst same
    omega

end Evaluation

section Steps

variable {node : AffineIndex} {number : Nat}

/-- The sizes of the buffers of the evaluation. -/
theorem sizeOf_buffers :
    problem.sizeOf .objValueIn = problem.dims.nx + problem.dims.nu + problem.dims.nod ∧
      problem.sizeOf .objValueOut = max (EvaluationLayout.ofProblem problem).stageWidth
        (EvaluationLayout.ofProblem problem).terminalWidth := by
  constructor
  · rw [problem.sizeOf_eq Problem.shapeOf?_evaluation.2.2.1, Nat.one_mul]
  · rw [problem.sizeOf_eq Problem.shapeOf?_evaluation.2.2.2.1, Nat.one_mul]

/-- A derivative in the buffer is the one that the function left there. -/
theorem used_eq {memory : problem.Contents} {call : HostCall α problem.program.table.sizes}
    (holds : ∀ position < problem.sizeOf .objValueOut,
      problem.valueAt memory .objValueOut position = call.leaves 1 position) :
    stageFx problem memory = usedFx problem call ∧
      stageFu problem memory = usedFu problem call ∧
      (terminalFxPlace problem).getD problem problem.jacXEnd memory problem.dims.nyn
        problem.dims.nx = usedTerminalFx problem call := by
  obtain ⟨_, _, fx_le, fu_le, terminal_le⟩ := EvaluationLayout.derivatives_le problem
  have outputs := (@sizeOf_buffers α _ problem).2
  have used {known : Option (Matrix α)} {start? : Option Nat} {rows cols : Nat}
      (runtime : known = none → ∃ start, start? = some start)
      (inside : ∀ start ∈ start?, start + rows * cols ≤ problem.sizeOf .objValueOut) :
      (Place.mk .objValueOut (start?.getD 0)).getD problem known memory rows cols =
        known.getD (call.part 1 (start?.getD 0) rows cols) := by
    cases known with
    | some _ => rfl
    | none =>
        obtain ⟨start, rfl⟩ := runtime rfl
        exact Problem.part_eq_callPart holds (inside start rfl)
  refine ⟨used ?_ ?_, used ?_ ?_, used ?_ ?_⟩
  · intro runtime
    simp [EvaluationLayout.ofProblem, runtime]
  · intro start known
    have := fx_le start known
    omega
  · intro runtime
    simp [EvaluationLayout.ofProblem, runtime]
  · intro start known
    have := fu_le start known
    omega
  · intro runtime
    simp [EvaluationLayout.ofProblem, runtime]
  · intro start known
    have := terminal_le start known
    omega

variable (host : Host α σ problem.program.table.sizes) (depth : Nat) (world : problem.Recorded σ)

/-- The evaluation of a node. -/
theorem stage_step (wellFormed : problem.WellFormed) (tame : problem.CostsTame host)
    (value : frame.valueOf node = number) (number_lt : number < problem.dims.n) :
    let dims := problem.dims
    let after := effects (problem.program.scene host.recorded (depth + 1)) frame
      (problem.plan.loadNodeInput dims .objValueIn node true ++
        [problem.plan.evaluate .stageCost .objValueIn .objValueOut,
          problem.plan.copy .dy (node.scaled dims.ny) .objValueOut (.const 0) dims.ny] ++
        stageCalls problem problem.plan node) world
    ∃ call, problem.Moves (stageShare problem number) [call] world after ∧
      StageHolds problem world.store.memory number call after.store.memory := by
  intro dims after
  let scene := problem.program.scene host.recorded (depth + 1)
  obtain ⟨inputs, outputs⟩ := @sizeOf_buffers α _ problem
  obtain ⟨values_le, _⟩ := EvaluationLayout.derivatives_le problem
  let asked := effects scene frame
    (problem.plan.loadNodeInput dims .objValueIn node true ++
      [problem.plan.evaluate .stageCost .objValueIn .objValueOut,
        problem.plan.copy .dy (node.scaled dims.ny) .objValueOut (.const 0) dims.ny]) world
  have residualRoom : number * dims.ny + dims.ny ≤ problem.sizeOf .dy := by
    rw [problem.sizeOf_eq Problem.shapeOf?_evaluation.2.2.2.2.1, Nat.mul_one]
    exact block_le dims.ny number_lt
  have outputsRoom : dims.ny ≤ problem.sizeOf .objValueOut := by
    rw [outputs]
    exact Nat.le_trans values_le (Nat.le_max_left _ _)
  obtain ⟨call, asks, moves, holds, residuals⟩ : ∃ call,
      problem.Asks .stageCost world.store.memory number call ∧
        problem.Moves (fun quantity position => quantity = .objValueIn ∨
          quantity = .objValueOut ∨ quantity = .dy ∧ number * dims.ny ≤ position ∧
            position < number * dims.ny + dims.ny) [call] world asked ∧
        (∀ position < problem.sizeOf .objValueOut,
          problem.valueAt asked.store.memory .objValueOut position = call.leaves 1 position) ∧
        ∀ row < dims.ny, problem.valueAt asked.store.memory .dy (number * dims.ny + row) =
          call.leaves 1 row := by
    have asks := @Problem.asks_values α σ _ problem host scene frame world rfl .stageCost
      tame.stageCost .objValueIn .objValueOut .dy node (node.scaled dims.ny) number
      (number * dims.ny) dims.ny value inputs (by decide) (by decide)
      (by rw [Frame.valueOf_scaled, value]) residualRoom outputsRoom (by decide)
    rwa [decide_eq_true number_lt] at asks
  obtain ⟨callsMoves, blocks⟩ := moves_stageCalls host depth asked wellFormed value number_lt
  have after_eq : after = effects scene frame (stageCalls problem problem.plan node) asked := by
    simp only [after, asked, effects_append]
    rfl
  obtain ⟨fxAsked, fuAsked, _⟩ := used_eq holds
  have weightAsked : stageWeight problem asked.store.memory number =
      stageWeight problem world.store.memory number :=
    Place.getD_eq _ moves.memory fun _ => by simp [stageWeightPlace]
  rw [fxAsked, fuAsked, weightAsked] at blocks
  rw [after_eq]
  refine ⟨call, ?_, asks, fun row row_lt => ?_, blocks⟩
  · refine (moves.mono ?_).trans (callsMoves.mono fun _ _ here => .inr (.inr here.2))
    rintro _ _ (rfl | rfl | ⟨rfl, rows⟩)
    · exact .inl rfl
    · exact .inr (.inl rfl)
    · exact .inr (.inr ⟨dims.ny, rfl, rows⟩)
  · rw [callsMoves.memory .dy _ fun here => here.1 rfl]
    exact residuals row row_lt

end Steps

end Objective

end RtiAssembly
