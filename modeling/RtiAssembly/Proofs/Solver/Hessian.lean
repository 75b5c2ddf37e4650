import RtiAssembly.Proofs.Problem.Given
import RtiAssembly.Proofs.Solver.Preparation

/-!
# The Gauss-Newton Hessian

After an initialization and a preparation, every block of the Hessian is the
same product of derivatives and weightings, whether its inputs are given in the
description or supplied and evaluated when the solver runs.
-/

namespace RtiAssembly

/-! ## Inputs of the Hessian -/

section Inputs

variable {α : Type} [Scalar α] {sizes : List Nat} (description : Description α)

/-- The state derivative of a stage: the given one, or the outputs of its
function behind the values. -/
def Description.stageFx (call : HostCall α sizes) : Matrix α :=
  let dims := description.dims
  (description.objective.jacobianX.map (.ofRows dims.ny dims.nx)).getD
    (call.part 1 dims.ny dims.ny dims.nx)

/-- The control derivative of a stage: the given one, or the outputs of its
function behind the values and the state derivative, if that is among them. -/
def Description.stageFu (call : HostCall α sizes) : Matrix α :=
  let dims := description.dims
  let start := dims.ny + if description.objective.jacobianX.isNone then dims.ny * dims.nx else 0
  (description.objective.jacobianU.map (.ofRows dims.ny dims.nu)).getD
    (call.part 1 start dims.ny dims.nu)

/-- The state derivative of the terminal node: the given one, or the outputs of
its function behind the values. -/
def Description.terminalFx (call : HostCall α sizes) : Matrix α :=
  let dims := description.dims
  (description.objective.terminalJacobianX.map (.ofRows dims.nyn dims.nx)).getD
    (call.part 1 dims.nyn dims.nyn dims.nx)

variable {problem : Problem α}

/-- The weighting of a node: the given one, the rows of the node if weightings
vary, or the shared one. -/
def Description.stageWeight (memory : problem.Contents) (node : Nat) : Matrix α :=
  let dims := description.dims
  (description.objective.weight.given?.map (.ofRows dims.ny dims.ny)).getD
    (problem.part memory .w
      (if description.flags.variableWeighting then node * (dims.ny * dims.ny) else 0) dims.ny
      dims.ny)

/-- The terminal weighting: the given one, or the supplied one. -/
def Description.terminalWeight (memory : problem.Contents) : Matrix α :=
  let dims := description.dims
  (description.objective.terminalWeight.given?.map (.ofRows dims.nyn dims.nyn)).getD
    (problem.part memory .wN 0 dims.nyn dims.nyn)

end Inputs

namespace Problem

variable {α σ : Type} [Scalar α] {description : Description α} {problem : Problem α}

/-- Weightings are where the description says. -/
theorem weights_eq_of_keeps (keeps : description.Keeps problem) (memory : problem.Contents)
    (node : Nat) :
    Objective.stageWeight problem memory node = description.stageWeight memory node ∧
      Objective.terminalWeight problem memory = description.terminalWeight memory := by
  obtain ⟨dims, flags, _, weight, terminalWeight, _⟩ := keeps
  constructor
  · simp only [Objective.stageWeight, Objective.stageWeightPlace, Objective.Place.getD,
      Objective.Place.matrix, Description.stageWeight, weight, flags, dims]
  · simp only [Objective.terminalWeight, Objective.terminalWeightPlace, Objective.Place.getD,
      Objective.Place.matrix, Description.terminalWeight, terminalWeight, dims]

/-- What the evaluation uses is what the description says. -/
theorem used_eq_of_keeps (keeps : description.Keeps problem)
    (call : HostCall α problem.program.table.sizes) (memory : problem.Contents) (node : Nat) :
    Objective.usedFx problem call = description.stageFx call ∧
      Objective.usedFu problem call = description.stageFu call ∧
      Objective.usedTerminalFx problem call = description.terminalFx call ∧
      Objective.stageWeight problem memory node = description.stageWeight memory node ∧
      Objective.terminalWeight problem memory = description.terminalWeight memory := by
  refine ⟨?_, ?_, ?_, weights_eq_of_keeps keeps memory node⟩ <;>
    obtain ⟨dims, flags, _, weight, terminalWeight, jacX, jacU, jacXEnd, _⟩ := keeps
  · simp only [Objective.usedFx, Description.stageFx, layout_plan, EvaluationLayout.ofProblem, jacX,
      dims]
    cases description.objective.jacobianX <;> rfl
  · simp only [Objective.usedFu, Description.stageFu, layout_plan, EvaluationLayout.ofProblem, jacX,
      jacU, dims]
    cases description.objective.jacobianX <;> cases description.objective.jacobianU <;> rfl
  · simp only [Objective.usedTerminalFx, Description.terminalFx, layout_plan,
      EvaluationLayout.ofProblem, jacXEnd, dims]
    cases description.objective.terminalJacobianX <;> rfl

/-! ## Blocks -/

/-- The Hessian of a node: the quadratic forms of its derivatives, damped, and
the cross block, which is zero unless the cross term is used. -/
structure NodeHessian (problem : Problem α) (description : Description α) (node : Nat)
    (fx fu weight : Matrix α) (memory : problem.Contents) : Prop where
  states :
    let nx := description.dims.nx
    (((fx.transpose.mul weight).mul fx).plusIdentity description.flags.levenbergMarquardt).Agrees
      (problem.part memory .hessianQ (node * (nx * nx)) nx nx)
  controls :
    let nu := description.dims.nu
    (((fu.transpose.mul weight).mul fu).plusIdentity description.flags.levenbergMarquardt).Agrees
      (problem.part memory .hessianR (node * (nu * nu)) nu nu)
  cross :
    let nx := description.dims.nx
    let nu := description.dims.nu
    (if description.objective.crossTerm then (fx.transpose.mul weight).mul fu
      else .zeros nx nu).Agrees
      (problem.part memory .hessianS (node * (nx * nu)) nx nu)

/-- The terminal block of the Hessian. -/
def TerminalHessian (problem : Problem α) (description : Description α) (fx weight : Matrix α)
    (memory : problem.Contents) : Prop :=
  let nx := description.dims.nx
  (((fx.transpose.mul weight).mul fx).plusIdentity description.flags.levenbergMarquardt).Agrees
    (problem.part memory .hessianQf 0 nx nx)

/-- The Hessian quantities whose blocks are known. -/
def IsKnown (problem : Problem α) (quantity : Quantity) : Prop :=
  let known := KnownBlocks.ofProblem problem
  quantity = .hessianQ ∧ known.states.isSome ∨ quantity = .hessianR ∧ known.controls.isSome ∨
    quantity = .hessianS ∧ known.cross.isSome ∨ quantity = .hessianQf ∧ known.terminal.isSome

/-- A known block was formed from known inputs. -/
theorem known_eq_some :
    let known := KnownBlocks.ofProblem problem
    let damping := problem.flags.levenbergMarquardt
    (∀ blocks ∈ known.states, ∃ weight jacX, problem.weight = some weight ∧
        problem.jacX = some jacX ∧ blocks = KnownBlocks.pair damping jacX weight) ∧
      (∀ blocks ∈ known.controls, ∃ weight jacU, problem.weight = some weight ∧
        problem.jacU = some jacU ∧ blocks = KnownBlocks.pair damping jacU weight) ∧
      (∀ blocks ∈ known.terminal, ∃ weight jacXEnd, problem.terminalWeight = some weight ∧
        problem.jacXEnd = some jacXEnd ∧ blocks = KnownBlocks.pair damping jacXEnd weight) ∧
      (∀ block ∈ known.cross, problem.crossTerm = true → ∃ weight jacX jacU,
        problem.weight = some weight ∧ problem.jacX = some jacX ∧ problem.jacU = some jacU ∧
          block = (jacX.transpose.mul weight).mul jacU) := by
  simp only [KnownBlocks.ofProblem]
  refine ⟨?_, ?_, ?_, ?_⟩
  · cases problem.weight <;> cases problem.jacX <;> simp
  · cases problem.weight <;> cases problem.jacU <;> simp
  · cases problem.terminalWeight <;> cases problem.jacXEnd <;> simp
  · intro block mem crossTerm
    rw [crossTerm] at mem
    cases weight : problem.weight <;> cases jacX : problem.jacX <;>
      cases jacU : problem.jacU <;> simp_all

variable [LawfulScalar α]

/-- A damped block is the same whether it is known or computed. -/
theorem agrees_block {known : Option (Matrix α × Matrix α)} {product block : Matrix α}
    {amount : α} (square : product.cols = product.rows)
    (finite : Scalar.isFinite amount = true)
    (given : ∀ blocks ∈ known, block = product.damped amount)
    (computed : known = none → block = product.shifted amount) :
    (product.plusIdentity amount).Agrees block := by
  cases known with
  | none =>
      rw [computed rfl]
      exact Matrix.agrees_shifted square finite
  | some blocks =>
      rw [given blocks rfl]
      exact Matrix.agrees_damped square finite

omit [LawfulScalar α] in
/-- The cross block of a node behind both phases. -/
theorem agrees_cross (wellFormed : problem.WellFormed)
    {initial supplied memory : problem.Contents} (initialized : Initialized problem initial)
    (kept : (KnownBlocks.ofProblem problem).cross ≠ none → ∀ position,
      problem.valueAt memory .hessianS position = problem.valueAt initial .hessianS position)
    {node : Nat} (node_lt : node < problem.dims.n)
    {call : HostCall α problem.program.table.sizes}
    (held : Objective.StageHolds problem supplied node call memory) :
    let dims := problem.dims
    (if problem.crossTerm then
        ((Objective.usedFx problem call).transpose.mul
          (Objective.stageWeight problem supplied node)).mul (Objective.usedFu problem call)
      else .zeros dims.nx dims.nu).Agrees
      (problem.part memory .hessianS (node * (dims.nx * dims.nu)) dims.nx dims.nu) := by
  intro dims
  cases known : (KnownBlocks.ofProblem problem).cross with
  | none =>
      have crossTerm : problem.crossTerm = true := by
        unfold KnownBlocks.ofProblem at known
        by_contra unused
        simp [unused] at known
      rw [if_pos crossTerm, held.blocks.cross known]
      exact ⟨rfl, fun _ _ _ _ => .refl _⟩
  | some block =>
      have block_eq : (if problem.crossTerm then
          ((Objective.usedFx problem call).transpose.mul
            (Objective.stageWeight problem supplied node)).mul (Objective.usedFu problem call)
          else .zeros dims.nx dims.nu) = block := by
        by_cases crossTerm : problem.crossTerm = true
        · obtain ⟨weight, jacX, jacU, weight_eq, jacX_eq, jacU_eq, block_eq⟩ :=
            known_eq_some.2.2.2 block known crossTerm
          rw [if_pos crossTerm, block_eq]
          simp only [Objective.usedFx, Objective.usedFu, Objective.stageWeight,
            Objective.Place.getD, weight_eq, jacX_eq, jacU_eq, Option.getD_some]
        · rw [if_neg crossTerm]
          unfold KnownBlocks.ofProblem at known
          simpa [crossTerm] using known
      have keptBlock := kept (by rw [known]; exact Option.some_ne_none block)
      have shape_eq : block.shape = (dims.nx, dims.nu) :=
        (KnownBlocks.shapes_ofProblem wellFormed).2.2.1 block known
      rw [block_eq]
      cases zero : block.isZero with
      | true =>
          rw [part_eq_zeros fun position =>
            (keptBlock position).trans (initialized.cross block known zero position)]
          have agrees := Matrix.agrees_zeros zero
          rwa [show block.rows = dims.nx from congrArg Prod.fst shape_eq,
            show block.cols = dims.nu from congrArg Prod.snd shape_eq] at agrees
      | false =>
          rw [part_congr fun position _ _ => keptBlock position,
            (initialized.blocks.stage node node_lt).cross block known zero]
          exact ⟨rfl, fun _ _ _ _ => .refl _⟩

/-- The Hessian of a node behind both phases. -/
theorem nodeHessian_of_initialized (accepted : description.validate.value = some problem)
    {initial supplied memory : problem.Contents} (initialized : Initialized problem initial)
    (kept : ∀ quantity, IsKnown problem quantity → ∀ position,
      problem.valueAt memory quantity position = problem.valueAt initial quantity position)
    {node : Nat} (node_lt : node < problem.dims.n)
    {call : HostCall α problem.program.table.sizes}
    (held : Objective.StageHolds problem supplied node call memory) :
    NodeHessian problem description node (description.stageFx call) (description.stageFu call)
      (description.stageWeight supplied node) memory := by
  have wellFormed := Description.wellFormed_of_validate accepted
  have finite := Description.finite_of_validate accepted
  have keeps := Description.keeps_of_validate accepted
  obtain ⟨fx_eq, fu_eq, _, weight_eq, _⟩ := used_eq_of_keeps keeps call supplied node
  rw [← fx_eq, ← fu_eq, ← weight_eq]
  obtain ⟨knownStates, knownControls, _, _⟩ := @known_eq_some α _ problem
  have stage := initialized.blocks.stage node node_lt
  refine ⟨?_, ?_, ?_⟩
  · rw [← keeps.dims, ← keeps.flags]
    refine agrees_block rfl finite (fun blocks known => ?_) fun computed =>
      (held.blocks.states computed).2
    obtain ⟨weight, jacX, weightKnown, jacXKnown, blocks_eq⟩ := knownStates blocks known
    rw [part_congr fun position _ _ => kept .hessianQ (.inl ⟨rfl, by rw [known]; rfl⟩) position,
      stage.states blocks known, blocks_eq]
    simp only [KnownBlocks.pair, Objective.usedFx, Objective.stageWeight, Objective.Place.getD,
      weightKnown, jacXKnown, Option.getD_some]
  · rw [← keeps.dims, ← keeps.flags]
    refine agrees_block rfl finite (fun blocks known => ?_) fun computed =>
      (held.blocks.controls computed).2
    obtain ⟨weight, jacU, weightKnown, jacUKnown, blocks_eq⟩ := knownControls blocks known
    rw [part_congr fun position _ _ =>
        kept .hessianR (.inr (.inl ⟨rfl, by rw [known]; rfl⟩)) position,
      stage.controls blocks known, blocks_eq]
    simp only [KnownBlocks.pair, Objective.usedFu, Objective.stageWeight, Objective.Place.getD,
      weightKnown, jacUKnown, Option.getD_some]
  · rw [← keeps.dims, ← keeps.crossTerm]
    refine agrees_cross wellFormed initialized (fun known => kept .hessianS ?_) node_lt held
    exact .inr (.inr (.inl ⟨rfl, Option.isSome_iff_ne_none.2 known⟩))

/-- The terminal block behind both phases. -/
theorem terminalHessian_of_initialized (accepted : description.validate.value = some problem)
    {initial supplied memory : problem.Contents} (initialized : Initialized problem initial)
    (kept : ∀ quantity, IsKnown problem quantity → ∀ position,
      problem.valueAt memory quantity position = problem.valueAt initial quantity position)
    {call : HostCall α problem.program.table.sizes}
    (held : Objective.TerminalHolds problem supplied call memory) :
    TerminalHessian problem description (description.terminalFx call)
      (description.terminalWeight supplied) memory := by
  have finite := Description.finite_of_validate accepted
  have keeps := Description.keeps_of_validate accepted
  obtain ⟨_, _, fx_eq, _, weight_eq⟩ := used_eq_of_keeps keeps call supplied 0
  rw [← fx_eq, ← weight_eq, TerminalHessian, ← keeps.dims, ← keeps.flags]
  refine agrees_block rfl finite (fun blocks known => ?_) fun computed => (held.blocks computed).2
  obtain ⟨weight, jacXEnd, weightKnown, jacKnown, blocks_eq⟩ :=
    known_eq_some.2.2.1 blocks known
  rw [part_congr fun position _ _ =>
      kept .hessianQf (.inr (.inr (.inr ⟨rfl, by rw [known]; rfl⟩))) position,
    initialized.blocks.terminal blocks known, blocks_eq]
  simp only [KnownBlocks.pair, Objective.usedTerminalFx, Objective.terminalWeight,
    Objective.Place.getD, weightKnown, jacKnown, Option.getD_some]

omit [LawfulScalar α] in
/-- The preparation leaves known blocks alone. -/
theorem not_preparationShare {quantity : Quantity} (known : IsKnown problem quantity) :
    ¬preparationShare problem quantity := by
  rcases known with ⟨rfl, known⟩ | ⟨rfl, known⟩ | ⟨rfl, known⟩ | ⟨rfl, known⟩ <;>
    simp [preparationShare, Objective.share, Objective.terminalShare, Objective.stageSize?,
      Constraints.share, Option.isSome_iff_ne_none.1 known]

end Problem

/-- The Gauss-Newton Hessian of a generated solver.  After an initialization,
writes to arrays of the control loop and a preparation, the blocks of every node
and the terminal block are those of its derivatives and weightings, as they are
given in the description or found in the outputs of the node's function and in
the supplied arrays.  Nothing is assumed about the host but that its cost and
constraint functions write only through their arguments and that its simulation
writes no array but the defects. -/
theorem hessian_of_preparation {α σ : Type} [Scalar α] [LawfulScalar α]
    {description : Description α} {problem : Problem α}
    (accepted : description.validate.value = some problem)
    {host : Host α σ problem.program.table.sizes} (tame : problem.Tame host) (state : σ)
    (start supplied : problem.Contents)
    (supplies : problem.program.Supplies
      (problem.program.run host state start Horizon.initializeName []).memory supplied) :
    let program := problem.program
    let n := description.dims.n
    let initialized := program.run host state start Horizon.initializeName []
    let prepared := program.run host initialized.state supplied Phases.preparationName []
    Plan.ofProblem problem = .ok problem.plan ∧ (∃ value, initialized.result = .ok value) ∧
      (∃ value, prepared.result = .ok value) ∧
      ∃ simulation stages terminal constraints,
        program.trace host initialized.state supplied Phases.preparationName [] =
          simulation :: (stages ++ terminal :: constraints) ∧
        stages.length = n ∧
        (∀ node < n, ∃ call, stages[node]? = some call ∧
          problem.Asks .stageCost supplied node call ∧
          problem.NodeHessian description node (description.stageFx call)
            (description.stageFu call) (description.stageWeight supplied node) prepared.memory) ∧
        problem.Asks .terminalCost supplied n terminal ∧
        problem.TerminalHessian description (description.terminalFx terminal)
          (description.terminalWeight supplied) prepared.memory := by
  intro program n initialized prepared
  have wellFormed := Description.wellFormed_of_validate accepted
  have dims_eq : problem.dims.n = n := congrArg Dimensions.n
    (Description.keeps_of_validate accepted).dims
  obtain ⟨initializeReturns, initial, _⟩ := Problem.run_initialize wellFormed host state start
  obtain ⟨prepareReturns, simulation, stages, terminal, constraints, trace_eq, _, held⟩ :=
    Problem.run_preparation wellFormed tame initialized.state supplied
  have kept : ∀ quantity, problem.IsKnown quantity → ∀ position,
      problem.valueAt prepared.memory quantity position =
        problem.valueAt initialized.memory quantity position := by
    intro quantity known position
    have hessian : quantity = .hessianQ ∨ quantity = .hessianR ∨ quantity = .hessianS ∨
        quantity = .hessianQf := known.imp And.left (.imp And.left (.imp And.left And.left))
    rw [held.kept quantity position (Problem.not_preparationShare known)]
    exact Problem.valueAt_of_supplies supplies (Problem.isKeptIn_workspace hessian) (by decide)
      position
  refine ⟨wellFormed.ofProblem_eq_ok, initializeReturns, prepareReturns, simulation, stages,
    terminal, constraints, trace_eq, held.objective.count.trans dims_eq,
    fun node node_lt => ?_, ?_, ?_⟩
  · rw [← dims_eq] at node_lt
    obtain ⟨call, place, holds⟩ := held.objective.stage node node_lt
    exact ⟨call, place, holds.asks,
      Problem.nodeHessian_of_initialized accepted initial kept node_lt holds⟩
  · rw [← dims_eq]
    exact held.objective.terminal.asks
  · exact Problem.terminalHessian_of_initialized accepted initial kept held.objective.terminal

/-- A small problem whose stage weighting is supplied as two, with a host that
changes nothing. -/
theorem hessian_twoIntervals :
    let problem := Problem.twoIntervals
    let program := problem.program
    let initialized := program.run Host.idle () program.initialMemory Horizon.initializeName []
    let supplied := initialized.memory.overwrite (problem.plan.id .w) #[2]
    let prepared := program.run Host.idle initialized.state supplied Phases.preparationName []
    problem.Tame Host.idle ∧ program.Supplies initialized.memory supplied ∧
      ∃ stages : List (HostCall ℚ program.table.sizes), stages.length = 2 ∧
        ∀ node < 2, ∃ call, stages[node]? = some call ∧
          problem.NodeHessian Description.twoIntervals node
            (Description.twoIntervals.stageFx call) (Description.twoIntervals.stageFu call)
            (Description.twoIntervals.stageWeight supplied node) prepared.memory := by
  intro problem program initialized supplied prepared
  have tame : problem.Tame Host.idle :=
    ⟨fun _ _ _ => rfl, fun _ _ _ => rfl, fun _ _ _ _ => rfl, fun _ _ _ => .refl _⟩
  have supplies : program.Supplies initialized.memory supplied := by
    refine Program.Supplies.of_overwrite (fun decl known => ?_) initialized.memory #[2]
    cases (problem.get?_id_plan .w).symm.trans known
    rfl
  obtain ⟨_, _, _, _, stages, _, _, _, count, held, _⟩ := hessian_of_preparation
    Description.validate_twoIntervals tame () program.initialMemory supplied supplies
  refine ⟨tame, supplies, stages, count, fun node node_lt => ?_⟩
  obtain ⟨call, place, _, holds⟩ := held node node_lt
  exact ⟨call, place, holds⟩

end RtiAssembly
