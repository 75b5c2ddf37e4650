import RtiAssembly.Proofs.Matrix
import RtiAssembly.Proofs.Program.Fitting

/-!
# Windows of the objective

The block routines are written out: which parameters they take and where, for
every choice of known matrices.  All routines of the objective only look into
their arrays.
-/

namespace RtiAssembly

namespace KnownBlocks

variable {α : Type} [Scalar α]

@[simp]
theorem shape_pair (damping : α) {jacobian weight : Matrix α} {rows cols : Nat}
    (shapeJacobian : jacobian.shape = (rows, cols)) (shapeWeight : weight.shape = (rows, rows)) :
    (pair damping jacobian weight).1.shape = (cols, cols) ∧
      (pair damping jacobian weight).2.shape = (cols, rows) := by
  cases shapeJacobian
  rw [pair, Matrix.shape_damped]
  exact ⟨rfl, congrArg (fun shape => (jacobian.cols, Prod.snd shape)) shapeWeight⟩

/-- The blocks that are known have the shapes of their rows at a node. -/
theorem shapes_ofProblem {problem : Problem α} (wellFormed : problem.WellFormed) :
    let dims := problem.dims
    let known := KnownBlocks.ofProblem problem
    (∀ blocks ∈ known.states,
        blocks.1.shape = (dims.nx, dims.nx) ∧ blocks.2.shape = (dims.nx, dims.ny)) ∧
      (∀ blocks ∈ known.controls,
        blocks.1.shape = (dims.nu, dims.nu) ∧ blocks.2.shape = (dims.nu, dims.ny)) ∧
      (∀ block ∈ known.cross, block.shape = (dims.nx, dims.nu)) ∧
      (∀ blocks ∈ known.terminal,
        blocks.1.shape = (dims.nx, dims.nx) ∧ blocks.2.shape = (dims.nx, dims.nyn)) := by
  have shapeX := wellFormed.shape_jacX
  have shapeU := wellFormed.shape_jacU
  have shapeXEnd := wellFormed.shape_jacXEnd
  have shapeWeight := wellFormed.shape_weight
  have shapeTerminal := wellFormed.shape_terminalWeight
  refine ⟨fun blocks known => ?_, fun blocks known => ?_, fun block known => ?_,
    fun blocks known => ?_⟩
  · obtain ⟨weight, weightKnown, rest⟩ := Option.bind_eq_some_iff.1 known
    obtain ⟨jacobian, jacobianKnown, ⟨⟩⟩ := Option.bind_eq_some_iff.1 rest
    exact shape_pair _ (shapeX _ jacobianKnown) (shapeWeight _ weightKnown)
  · obtain ⟨weight, weightKnown, rest⟩ := Option.bind_eq_some_iff.1 known
    obtain ⟨jacobian, jacobianKnown, ⟨⟩⟩ := Option.bind_eq_some_iff.1 rest
    exact shape_pair _ (shapeU _ jacobianKnown) (shapeWeight _ weightKnown)
  · simp only [ofProblem] at known
    split at known
    · obtain ⟨weight, weightKnown, rest⟩ := Option.bind_eq_some_iff.1 known
      obtain ⟨jacX, jacXKnown, rest⟩ := Option.bind_eq_some_iff.1 rest
      obtain ⟨jacU, jacUKnown, ⟨⟩⟩ := Option.bind_eq_some_iff.1 rest
      have rows_eq : jacX.cols = problem.dims.nx := congrArg Prod.snd (shapeX _ jacXKnown)
      have cols_eq : jacU.cols = problem.dims.nu := congrArg Prod.snd (shapeU _ jacUKnown)
      exact Prod.ext rows_eq cols_eq
    · cases known
      rfl
  · obtain ⟨weight, weightKnown, rest⟩ := Option.bind_eq_some_iff.1 known
    obtain ⟨jacobian, jacobianKnown, ⟨⟩⟩ := Option.bind_eq_some_iff.1 rest
    exact shape_pair _ (shapeXEnd _ jacobianKnown) (shapeTerminal _ weightKnown)

end KnownBlocks

namespace Objective

variable {α : Type} [Scalar α] {problem : Problem α}

/-! ## Block routines written out -/

/-- The parameters of a block routine are the matrices that are not known,
then the blocks. -/
theorem blockRoutine_eq (names : BlockNames) (damping : α) (rows cols : Nat)
    (jacobian weight : Option (Matrix α)) :
    let jacobianCount := if jacobian.isNone then 1 else 0
    let weightCount := if weight.isNone then 1 else 0
    let gradient :=
      Window.dense (.parameter (jacobianCount + weightCount + 1)) (.const 0) cols rows
    let jacobianExpr : Expr α :=
      jacobian.elim (.read (.dense (.parameter 0) (.const 0) rows cols)) .known
    let weightExpr : Expr α :=
      weight.elim (.read (.dense (.parameter jacobianCount) (.const 0) rows rows)) .known
    blockRoutine names damping rows cols jacobian weight =
      { name := names.routine
        doc := some names.doc
        parameters :=
          (if jacobian.isNone then [⟨names.jacobian, .array rows cols⟩] else []) ++
            (if weight.isNone then [⟨names.weight, .array rows rows⟩] else []) ++
            [⟨names.hessian, .array cols cols⟩, ⟨names.gradient, .array cols rows⟩]
        locals := []
        result := none
        body :=
          [.set gradient (.mul jacobianExpr.transpose weightExpr),
            .set (.dense (.parameter (jacobianCount + weightCount)) (.const 0) cols cols)
              (damped (.mul (.read gradient) jacobianExpr) cols damping)] } := by
  cases jacobian <;> cases weight <;> rfl

/-- The parameters of the cross routine are the matrices that are not known,
then the block. -/
theorem crossRoutine_eq (problem : Problem α) :
    let dims := problem.dims
    let jacXCount := if problem.jacX.isNone then 1 else 0
    let jacUCount := if problem.jacU.isNone then 1 else 0
    let weightCount := if problem.weight.isNone then 1 else 0
    let product := Window.dense (.own 0) (.const 0) dims.nx dims.ny
    let jacX : Expr α :=
      problem.jacX.elim (.read (.dense (.parameter 0) (.const 0) dims.ny dims.nx)) .known
    let jacU : Expr α :=
      problem.jacU.elim (.read (.dense (.parameter jacXCount) (.const 0) dims.ny dims.nu)) .known
    let weight : Expr α :=
      problem.weight.elim
        (.read (.dense (.parameter (jacXCount + jacUCount)) (.const 0) dims.ny dims.ny)) .known
    crossRoutine problem =
      { name := crossName
        doc := some "S1 = Fx'*S*Fu"
        parameters :=
          (if problem.jacX.isNone then [⟨"Fx", .array dims.ny dims.nx⟩] else []) ++
            (if problem.jacU.isNone then [⟨"Fu", .array dims.ny dims.nu⟩] else []) ++
            (if problem.weight.isNone then [⟨"S", .array dims.ny dims.ny⟩] else []) ++
            [⟨"S11", .array dims.nx dims.nu⟩]
        locals := [.own "tmpS2" dims.nx dims.ny .real]
        result := none
        body :=
          [.set product (.mul jacX.transpose weight),
            .set (.dense (.parameter (jacXCount + jacUCount + weightCount)) (.const 0) dims.nx
                dims.nu)
              (.mul (.read product) jacU)] } := by
  unfold crossRoutine
  generalize problem.jacX = jacX
  generalize problem.jacU = jacU
  generalize problem.weight = weight
  cases jacX <;> cases jacU <;> cases weight <;> rfl

/-! ## Windows of the block routines -/

@[simp]
theorem shape?_damped {value : Expr α} {size : Nat} (amount : α)
    (square : value.shape? = some (size, size)) :
    (damped value size amount).shape? = some (size, size) := by
  unfold damped
  split
  · exact square
  · simp [Expr.shape?, Expr.shape?.sameShape?, square]

@[simp]
theorem windows_damped (value : Expr α) (size : Nat) (amount : α) :
    (damped value size amount).windows = value.windows := by
  unfold damped
  split
  · rfl
  · simp [Expr.windows]

theorem fits_blockRoutine {program : Program α} {names : BlockNames} {damping : α}
    {rows cols : Nat} {jacobian weight : Option (Matrix α)}
    (shapeJacobian : ∀ matrix ∈ jacobian, matrix.shape = (rows, cols))
    (shapeWeight : ∀ matrix ∈ weight, matrix.shape = (rows, rows)) :
    program.fitsRoutine (blockRoutine names damping rows cols jacobian weight) = true := by
  rw [blockRoutine_eq]
  cases jacobian <;> cases weight <;>
    simp_all [Program.fitsRoutine, Program.fitsStatements, Program.fitsStatement, Statement.set,
      Program.fits_parameter, shape?_damped, Expr.shape?, Expr.shape?.productShape?,
      Expr.windows, Expr.transpose]

theorem fits_crossRoutine {program : Program α} (wellFormed : problem.WellFormed) :
    program.fitsRoutine (crossRoutine problem) = true := by
  have shapeX := wellFormed.shape_jacX
  have shapeU := wellFormed.shape_jacU
  have shapeWeight := wellFormed.shape_weight
  rw [crossRoutine_eq]
  cases jacX : problem.jacX <;> cases jacU : problem.jacU <;> cases weight : problem.weight <;>
    simp_all [Program.fitsRoutine, Program.fitsStatements, Program.fitsStatement, Statement.set,
      Program.fits_parameter, Program.fits_own, ArrayDecl.own, ArrayDecl.size, Expr.shape?,
      Expr.shape?.productShape?, Expr.windows, Expr.transpose]

/-! ## Windows of the evaluation over the horizon -/

section Evaluation

variable {routine : Routine α} {extremes : Program.Extremes} {node : AffineIndex} {value : Nat}

/-- The weighting of a node fits wherever it is passed. -/
theorem fits_weightWindow? {window : Window}
    (passed : problem.plan.weightWindow? problem.dims problem.flags node = some window)
    (index : node.evalIn? extremes.lookup = some value) (value_lt : value < problem.dims.n) :
    problem.program.fits routine extremes window = true := by
  unfold Plan.weightWindow? at passed
  split at passed
  · rename_i present
    have runtime : problem.weight = none := by
      cases weight : problem.weight with
      | none => rfl
      | some _ => simp [weight] at present
    split at passed <;> cases passed
    · rename_i varying
      have known : problem.shapeOf? .w =
          some (problem.dims.n * problem.dims.ny, problem.dims.ny) := by
        simp [runtime, varying]
      exact Program.fits_rows known (by simp [index]) (block_le problem.dims.ny value_lt)
    · simp [runtime]
  · contradiction

theorem fits_stageCalls (index : node.evalIn? extremes.lookup = some value)
    (value_lt : value < problem.dims.n) :
    problem.program.fitsStatements routine extremes (stageCalls problem problem.plan node) =
      true := by
  have rowsFit {quantity : Quantity} {size cols : Nat}
      (known : problem.shapeOf? quantity = some (problem.dims.n * size, cols)) :
      problem.program.fits routine extremes
        (problem.plan.rows quantity (node.scaled size) size) = true :=
    Program.fits_rows known (by simp [index]) (block_le size value_lt)
  obtain ⟨_, _, stageFx, stageFu, _⟩ := EvaluationLayout.derivatives_le problem
  have weightFits (window : Window)
      (passed : problem.plan.weightWindow? problem.dims problem.flags node = some window) :
      problem.program.fitsArgument routine extremes (.reference window) = true :=
    fits_weightWindow? passed index value_lt
  unfold stageCalls
  simp only [Program.fitsStatements_append, Bool.and_eq_true]
  refine ⟨⟨?_, ?_⟩, ?_⟩
  · cases states : (KnownBlocks.ofProblem problem).states
    · simp [Problem.blocks_plan, Program.fitsStatements, states, rowsFit]
      exact ⟨fun start known => .inl (stageFx start known), weightFits⟩
    · simp [Problem.blocks_plan, Program.fitsStatements, states]
  · cases controls : (KnownBlocks.ofProblem problem).controls
    · simp [Problem.blocks_plan, Program.fitsStatements, controls, rowsFit]
      exact ⟨fun start known => .inl (stageFu start known), weightFits⟩
    · simp [Problem.blocks_plan, Program.fitsStatements, controls]
  · cases cross : (KnownBlocks.ofProblem problem).cross
    · simp [Problem.blocks_plan, Program.fitsStatements, cross, rowsFit]
      exact ⟨fun start known => .inl (stageFx start known),
        fun start known => .inl (stageFu start known), weightFits⟩
    · simp [Problem.blocks_plan, Program.fitsStatements, cross]

theorem fits_terminalCall :
    problem.program.fitsStatements routine extremes (terminalCall problem problem.plan) =
      true := by
  obtain ⟨_, _, _, _, terminalFx⟩ := EvaluationLayout.derivatives_le problem
  unfold terminalCall
  cases terminal : (KnownBlocks.ofProblem problem).terminal
  · cases weight : problem.terminalWeight <;>
      simp [Problem.blocks_plan, Program.fitsStatements, terminal, weight] <;>
      exact fun start known => .inr (terminalFx start known)
  · simp [Problem.blocks_plan, Program.fitsStatements, terminal]

theorem fits_evaluateRoutine (wellFormed : problem.WellFormed) :
    problem.program.fitsStatements routine [] (evaluateRoutine problem problem.plan).body =
      true := by
  have n_pos := wellFormed.n_pos
  have last_lt : problem.dims.n - 1 < problem.dims.n := by omega
  have residuals := block_le problem.dims.ny last_lt
  obtain ⟨stageValues, terminalValues, _⟩ := EvaluationLayout.derivatives_le problem
  have stageInput : problem.program.fitsStatements routine [(nodeName, problem.dims.n - 1)]
      (problem.plan.loadNodeInput problem.dims .objValueIn (.var nodeName) true) = true :=
    Program.fits_loadNodeInput (by simp) (by simp) (by omega) fun _ => last_lt
  have terminalInput : problem.program.fitsStatements routine []
      (problem.plan.loadNodeInput problem.dims .objValueIn (.const problem.dims.n) false) =
        true :=
    Program.fits_loadNodeInput (by simp) rfl (Nat.le_refl _) nofun
  have stageBlocks : problem.program.fitsStatements routine [(nodeName, problem.dims.n - 1)]
      (stageCalls problem problem.plan (.var nodeName)) = true :=
    fits_stageCalls (by simp) last_lt
  simp [evaluateRoutine, Program.fitsStatements, Program.fitsStatement, stageInput,
    terminalInput, stageBlocks, fits_terminalCall, Statement.set, Expr.shape?, Expr.windows]
  exact ⟨.inr ⟨residuals, .inl stageValues⟩, .inr terminalValues⟩

end Evaluation

/-! ## Windows of the gradient -/

/-- A known block has the shape of its rows at a node. -/
theorem shape?_blockAt {known : Option (Matrix α)} {quantity : Quantity} {node : AffineIndex}
    {rows cols : Nat} (shapeKnown : ∀ matrix ∈ known, matrix.shape = (rows, cols))
    (shapeComputed : known = none → ∃ count, problem.shapeOf? quantity = some (count, cols)) :
    (problem.plan.blockAt (.ofOption known quantity) node rows).shape? = some (rows, cols) := by
  cases known with
  | some matrix => exact congrArg some (shapeKnown matrix rfl)
  | none =>
      obtain ⟨count, shape⟩ := shapeComputed rfl
      simp [Block.ofOption, Plan.blockAt, Expr.shape?, shape]

section Gradient

variable {routine : Routine α} {extremes : Program.Extremes}

/-- The gradient block of a node, known or computed, fits the residuals. -/
theorem shape?_gradientBlocks (wellFormed : problem.WellFormed) (node : AffineIndex) :
    let dims := problem.dims
    (problem.plan.blockAt problem.plan.blocks.q2 node dims.nx).shape? =
        some (dims.nx, dims.ny) ∧
      (problem.plan.blockAt problem.plan.blocks.r2 node dims.nu).shape? =
        some (dims.nu, dims.ny) ∧
      (problem.plan.blockAt problem.plan.blocks.qN2 node dims.nx).shape? =
        some (dims.nx, dims.nyn) := by
  obtain ⟨states, controls, _, terminal⟩ := KnownBlocks.shapes_ofProblem wellFormed
  refine ⟨shape?_blockAt ?_ ?_, shape?_blockAt ?_ ?_, shape?_blockAt ?_ ?_⟩
  · rintro _ known
    obtain ⟨blocks, blocksKnown, rfl⟩ := Option.map_eq_some_iff.1 known
    exact (states blocks blocksKnown).2
  · intro computed
    simp_all
  · rintro _ known
    obtain ⟨blocks, blocksKnown, rfl⟩ := Option.map_eq_some_iff.1 known
    exact (controls blocks blocksKnown).2
  · intro computed
    simp_all
  · rintro _ known
    obtain ⟨blocks, blocksKnown, rfl⟩ := Option.map_eq_some_iff.1 known
    exact (terminal blocks blocksKnown).2
  · intro computed
    simp_all

theorem fits_blockAt {known : Option (Matrix α)} {quantity : Quantity} {node : AffineIndex}
    {value rows : Nat} (index : node.evalIn? extremes.lookup = some value)
    (inside : known = none → ∃ shape, problem.shapeOf? quantity = some shape ∧
      value * rows + rows ≤ shape.1) :
    ∀ window ∈ (problem.plan.blockAt (.ofOption known quantity) node rows).windows,
      problem.program.fits routine extremes window = true := by
  cases known with
  | some matrix => exact fun _ mem => by cases mem
  | none =>
      obtain ⟨shape, shape_eq, room⟩ := inside rfl
      intro window mem
      cases List.mem_singleton.1 mem
      exact Program.fits_rows shape_eq (by simp [index]) room

omit [Scalar α] in
theorem shape?_withLinear {gradient : Expr α} {linear : Option (Expr α)} {shape : Nat × Nat}
    (first : gradient.shape? = some shape) (second : ∀ expr ∈ linear, expr.shape? = some shape) :
    (withLinear gradient linear).shape? = some shape := by
  cases linear with
  | none => exact first
  | some expr => simp [withLinear, Expr.shape?, Expr.shape?.sameShape?, first, second expr rfl]

omit [Scalar α] in
theorem windows_withLinear (gradient : Expr α) (linear : Option (Expr α)) :
    (withLinear gradient linear).windows =
      gradient.windows ++ linear.elim [] Expr.windows := by
  cases linear <;> simp [withLinear, Expr.windows]

theorem fits_gradientRoutine (wellFormed : problem.WellFormed) :
    problem.program.fitsRoutine (gradientRoutine problem problem.plan) = true := by
  have n_pos := wellFormed.n_pos
  have last_lt : problem.dims.n - 1 < problem.dims.n := by omega
  have residuals := block_le problem.dims.ny last_lt
  have index : (AffineIndex.var "index").evalIn?
      (Program.Extremes.lookup [("index", problem.dims.n - 1)]) = some (problem.dims.n - 1) := by
    simp
  obtain ⟨shapeQ2, shapeR2, _⟩ := shape?_gradientBlocks wellFormed (.var "index")
  have stateBlock (routine : Routine α) :
      ∀ window ∈ (problem.plan.blockAt problem.plan.blocks.q2 (.var "index")
          problem.dims.nx).windows,
        problem.program.fits routine [("index", problem.dims.n - 1)] window = true := by
    refine fits_blockAt index fun computed => ?_
    have states : (KnownBlocks.ofProblem problem).states = none := by simpa using computed
    exact ⟨(problem.dims.n * problem.dims.nx, problem.dims.ny), by simp [states],
      block_le problem.dims.nx last_lt⟩
  have controlBlock (routine : Routine α) :
      ∀ window ∈ (problem.plan.blockAt problem.plan.blocks.r2 (.var "index")
          problem.dims.nu).windows,
        problem.program.fits routine [("index", problem.dims.n - 1)] window = true := by
    refine fits_blockAt index fun computed => ?_
    have controls : (KnownBlocks.ofProblem problem).controls = none := by simpa using computed
    exact ⟨(problem.dims.n * problem.dims.nu, problem.dims.ny), by simp [controls],
      block_le problem.dims.nu last_lt⟩
  have statesFit (routine : Routine α) := List.all_eq_true.2 (stateBlock routine)
  have controlsFit (routine : Routine α) := List.all_eq_true.2 (controlBlock routine)
  unfold Program.fitsRoutine
  cases linear : LinearStorage.ofProblem problem with
  | given x u =>
      obtain ⟨shapeX, shapeU⟩ := wellFormed.shape_linear linear
      simp [gradientRoutine, linear, passesLinear, Program.parameterExtremes, n_pos,
        Program.fitsStatements, Program.fitsStatement, Statement.set, Program.fits_parameter,
        withLinear, Expr.shape?, Expr.shape?.productShape?, Expr.shape?.sameShape?,
        Expr.windows, shapeQ2, shapeR2, shapeX, shapeU, residuals, statesFit, controlsFit]
  | none | shared | perNode =>
      simp [gradientRoutine, linear, passesLinear, Program.parameterExtremes, n_pos,
        Program.fitsStatements, Program.fitsStatement, Statement.set, Program.fits_parameter,
        withLinear, Expr.shape?, Expr.shape?.productShape?, Expr.shape?.sameShape?,
        Expr.windows, shapeQ2, shapeR2, residuals, statesFit, controlsFit]

end Gradient

/-! ## Windows of the initialization -/

theorem fits_initialization {routine : Routine α} (wellFormed : problem.WellFormed) :
    problem.program.fitsStatements routine [] (initialization problem problem.plan) = true := by
  have n_pos := wellFormed.n_pos
  have last_lt : problem.dims.n - 1 < problem.dims.n := by omega
  obtain ⟨states, controls, cross, terminal⟩ := KnownBlocks.shapes_ofProblem wellFormed
  have fillFits {quantity : Quantity} {rows cols : Nat} {value : Matrix α}
      (known : problem.shapeOf? quantity = some (problem.dims.n * rows, cols))
      (shape_eq : value.shape = (rows, cols)) :
      problem.program.fitsStatement routine [(nodeName, problem.dims.n - 1)]
        (.set (problem.plan.rows quantity ((AffineIndex.var nodeName).scaled rows) rows)
          (.known value)) = true := by
    have inside : problem.program.fits routine [(nodeName, problem.dims.n - 1)]
        (problem.plan.rows quantity ((AffineIndex.var nodeName).scaled rows) rows) = true :=
      Program.fits_rows known (by simp) (block_le rows last_lt)
    simp [Statement.set, Program.fitsStatement, Expr.shape?, Expr.windows, inside, known,
      shape_eq]
  unfold initialization
  rw [Program.fitsStatements_append, Bool.and_eq_true]
  constructor
  · split
    · rfl
    · simp only [Program.fitsStatements, Program.fitsStatement, Program.fitsStatements_append,
        Problem.blocks_plan, Block.given?_ofOption, Bool.and_true, Bool.or_eq_true,
        Bool.and_eq_true]
      refine .inr ⟨⟨?_, ?_⟩, ?_⟩
      · cases known : (KnownBlocks.ofProblem problem).states with
        | none => rfl
        | some blocks =>
            simp only [Option.map_some, Program.fitsStatements, Bool.and_true]
            exact fillFits Problem.shapeOf?_blocks.1 (states blocks known).1
      · cases known : (KnownBlocks.ofProblem problem).controls with
        | none => rfl
        | some blocks =>
            simp only [Option.map_some, Program.fitsStatements, Bool.and_true]
            exact fillFits Problem.shapeOf?_blocks.2.1 (controls blocks known).1
      · split
        · rename_i block nonzero
          have known := (Option.filter_eq_some_iff.1 nonzero).1
          simp only [Program.fitsStatements, Bool.and_true]
          exact fillFits Problem.shapeOf?_blocks.2.2.1 (cross block known)
        · rfl
  · cases known : (KnownBlocks.ofProblem problem).terminal
    · simp [Problem.blocks_plan, known, Program.fitsStatements]
    · have shape_eq := (terminal _ known).1
      simp [Problem.blocks_plan, known, Program.fitsStatements, Program.fitsStatement,
        Statement.set,
        Expr.shape?, Expr.windows, shape_eq]

end Objective

end RtiAssembly
