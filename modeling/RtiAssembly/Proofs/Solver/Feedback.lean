import RtiAssembly.Proofs.Solver.Gradient

/-!
# The feedback phase

The feedback phase subtracts the references from the residuals, forms the
gradient, adds the arrival cost of a free first state, and asks once for the
solution of the quadratic program.  The step that it then takes is the one that
the solver left behind.
-/

namespace RtiAssembly

open Statement

namespace Phases

variable {α σ : Type} [Scalar α] {problem : Problem α} {frame : Frame}

/-! ## Residuals and the first state -/

section Residuals

variable {scene : Scene α (σ × List (HostCall α problem.program.table.sizes))
    problem.program.table.sizes} {world : problem.Recorded σ}

variable (problem) in
/-- The measured deviation of a fixed first state. -/
def DeviationHolds (start memory : problem.Contents) : Prop :=
  problem.estimatesInitialState = false → ∀ row < problem.dims.nx,
    problem.valueAt memory .qpx row =
      problem.valueAt start .x0 row - problem.valueAt start .x row

variable (frame scene world) in
/-- The deviation of the first state is written if that state is fixed. -/
theorem moves_deviation :
    let after := effects scene frame (initialDeviation problem problem.plan) world
    problem.Moves (fun quantity position => quantity = .qpx ∧ position < problem.dims.nx) []
        world after ∧
      DeviationHolds problem world.store.memory after.store.memory := by
  intro after
  cases free : problem.estimatesInitialState with
  | true =>
      have absent : problem.plan.has .x0 = false := by simp [free]
      have after_eq : after = world := by simp [after, initialDeviation, absent, effects]
      rw [after_eq]
      exact ⟨.refl world, fun fixed => by simp [free] at fixed⟩
  | false =>
      have present : problem.plan.has .x0 = true := by simp [free]
      have shape : problem.shapeOf? .x0 = some (problem.dims.nx, 1) := by simp [free]
      have room : 0 + problem.dims.nx ≤ problem.sizeOf .qpx := by
        rw [problem.sizeOf_eq Problem.shapeOf?_quadraticProgram.2.2.2.1, Nat.mul_one, Nat.zero_add]
        exact Nat.le_mul_of_pos_left _ (Nat.succ_pos _)
      have puts := @Problem.puts_sub α σ _ problem scene frame world .qpx .x0 .x (.const 0)
        (.const 0) 0 0 0 problem.dims.nx (.read (problem.plan.whole .x0)) rfl room
        (Frame.valueIn_whole shape) rfl
      simp only [Nat.zero_add] at puts
      have after_eq : after = (Statement.set (problem.plan.flat .qpx (.const 0) problem.dims.nx)
          (.sub (.read (problem.plan.whole .x0))
            (.read (problem.plan.flat .x (.const 0) problem.dims.nx)))).effect scene frame
              world := by
        simp only [after, initialDeviation, present, if_true, effects_singleton]
      rw [after_eq]
      constructor
      · apply puts.moves
        intro position _ lt
        exact ⟨rfl, by rwa [Nat.zero_add] at lt⟩
      · intro _ row row_lt
        have written := puts.memory.inside row_lt
        rwa [Nat.zero_add] at written

variable (problem) in
/-- What the references leave of the residuals. -/
structure ResidualsHold (start memory : problem.Contents) : Prop where
  stage : ∀ row < problem.dims.n * problem.dims.ny,
    problem.valueAt memory .dy row = problem.valueAt start .dy row - problem.valueAt start .y row
  terminal : ∀ row < problem.dims.nyn,
    problem.valueAt memory .dyN row =
      problem.valueAt start .dyN row - problem.valueAt start .yN row

variable (frame scene world) in
/-- The references are subtracted from the residuals. -/
theorem moves_residuals :
    let after := effects scene frame
      [.decrease (problem.plan.whole .dy)
          (.read (problem.plan.flat .y (.const 0) (problem.dims.n * problem.dims.ny))),
        .decrease (problem.plan.whole .dyN) (.read (problem.plan.whole .yN))] world
    problem.Moves (fun quantity _ => quantity = .dy ∨ quantity = .dyN) [] world after ∧
      ResidualsHold problem world.store.memory after.store.memory := by
  obtain ⟨_, _, _, _, shapeDy, shapeDyN⟩ := @Problem.shapeOf?_evaluation α _ problem
  obtain ⟨_, _, _, _, shapeYN⟩ := @Problem.shapeOf?_trajectory α _ problem
  have stageRoom : 0 + problem.dims.n * problem.dims.ny ≤ problem.sizeOf .dy := by
    rw [problem.sizeOf_eq shapeDy, Nat.mul_one, Nat.zero_add]
  have terminalRoom : 0 + problem.dims.nyn ≤ problem.sizeOf .dyN := by
    rw [problem.sizeOf_eq shapeDyN, Nat.mul_one, Nat.zero_add]
  rw [Frame.whole_eq_flat shapeDy, Frame.whole_eq_flat shapeDyN, Frame.whole_eq_flat shapeYN]
  let first := (Statement.decrease
    (problem.plan.flat .dy (.const 0) (problem.dims.n * problem.dims.ny))
    (.read (problem.plan.flat .y (.const 0) (problem.dims.n * problem.dims.ny)))).effect scene
      frame world
  have stagePuts := @Problem.puts_vector α σ _ problem scene frame world .dy .y (.const 0)
    (.const 0) 0 0 _ rfl stageRoom .sub rfl
  have terminalPuts := @Problem.puts_vector α σ _ problem scene frame first .dyN .yN (.const 0)
    (.const 0) 0 0 _ rfl terminalRoom .sub rfl
  intro after
  have after_eq : after = (Statement.decrease
      (problem.plan.flat .dyN (.const 0) problem.dims.nyn)
      (.read (problem.plan.flat .yN (.const 0) problem.dims.nyn))).effect scene frame first := by
    simp only [after, effects]
    rfl
  rw [after_eq]
  refine ⟨(stagePuts.moves fun _ _ _ => .inl rfl).trans (terminalPuts.moves fun _ _ _ => .inr rfl),
    fun row row_lt => ?_, fun row row_lt => ?_⟩
  · have written := stagePuts.memory.inside row_lt
    simp only [Nat.zero_add] at written
    exact (terminalPuts.memory.other (by decide) row).trans written
  · have written := terminalPuts.memory.inside row_lt
    simp only [Nat.zero_add] at written
    refine written.trans ?_
    exact congrArg₂ (· - ·) (stagePuts.memory.other (by decide) row)
      (stagePuts.memory.other (by decide) row)

end Residuals

/-! ## The terminal gradient -/

section Terminal

variable {scene : Scene α (σ × List (HostCall α problem.program.table.sizes))
    problem.program.table.sizes} {world : problem.Recorded σ}

/-- The linear term of the terminal state is that of the last node. -/
theorem valueIn_terminalLinear (store : Store α problem.program.table.sizes) :
    (terminalLinear problem problem.plan).map (frame.valueIn store) =
      Objective.stateTerm problem store.memory problem.dims.n := by
  unfold terminalLinear Objective.stateTerm Objective.linearTerm Objective.linearPlace
  rw [Problem.linear_plan, LinearStorage.ofProblem]
  cases terms : problem.linearTerms with
  | none => rfl
  | given x u => rfl
  | runtime =>
      cases perNode : Quantity.hasLinearTermsPerNode problem with
      | false =>
          have shape : problem.shapeOf? .wlx = some (problem.dims.nx, 1) := by
            simp [Quantity.hasRuntimeLinearTerms, terms, perNode]
          exact congrArg some (Frame.valueIn_whole shape)
      | true => exact congrArg some Frame.valueIn_flat

variable (problem) in
/-- The gradient of the terminal state, in terms of a memory that holds its
residuals. -/
def TerminalGradient (start memory : problem.Contents) : Prop :=
  let dims := problem.dims
  problem.part memory .gradientQf 0 dims.nx 1 =
    Objective.plusLinear
      ((Objective.terminalBlock problem start).mul (problem.part start .dyN 0 dims.nyn 1))
      (Objective.stateTerm problem start dims.n)

variable (frame scene world) in
theorem moves_terminalGradient (wellFormed : problem.WellFormed) :
    let after := (Statement.set (problem.plan.whole .gradientQf)
      (terminalGradient problem)).effect scene frame world
    problem.Moves (fun quantity _ => quantity = .gradientQf) [] world after ∧
      TerminalGradient problem world.store.memory after.store.memory := by
  obtain ⟨_, _, _, shapeTerminal⟩ := KnownBlocks.shapes_ofProblem wellFormed
  let known := (KnownBlocks.ofProblem problem).terminal.map Prod.snd
  have shapeKnown : ∀ matrix ∈ known, matrix.shape = (problem.dims.nx, problem.dims.nyn) := by
    intro matrix mem
    obtain ⟨blocks, found, rfl⟩ := Option.map_eq_some_iff.1 mem
    exact (shapeTerminal blocks found).2
  have shapeComputed (computed : known = none) :
      problem.shapeOf? .qN2 = some (problem.dims.nx, problem.dims.nyn) := by
    have terminal : (KnownBlocks.ofProblem problem).terminal = none :=
      Option.map_eq_none_iff.1 computed
    simp [terminal]
  let memory := world.store.memory
  let value := Objective.plusLinear
    ((Objective.terminalBlock problem memory).mul
      (problem.part memory .dyN 0 problem.dims.nyn 1))
    (Objective.stateTerm problem memory problem.dims.n)
  have block_eq := @Objective.valueIn_blockAt α _ problem frame world.store known .qN2 (.const 0) 0
    problem.dims.nx problem.dims.nyn problem.dims.nx rfl shapeComputed
  have value_eq : frame.valueIn world.store (terminalGradient problem) = value := by
    rw [terminalGradient, Objective.valueIn_withLinear, valueIn_terminalLinear]
    refine congrArg (fun product => Objective.plusLinear product _) (congrArg₂ Matrix.mul ?_ ?_)
    · rw [Objective.nodePlace, Nat.zero_mul] at block_eq
      exact block_eq
    · exact Frame.valueIn_whole Problem.shapeOf?_evaluation.2.2.2.2.2
  have shape_eq : value.shape = (problem.dims.nx, 1) := by
    have blockRows := congrArg Prod.fst
      ((Objective.Place.mk .qN2 0).shape_getD shapeKnown memory)
    rw [Objective.shape_plusLinear, Matrix.shape_mul]
    exact Prod.ext blockRows rfl
  have puts : problem.Puts .gradientQf 0 (problem.dims.nx * 1) value.element world
      ((Statement.set (problem.plan.whole .gradientQf) (terminalGradient problem)).effect scene
        frame world) := by
    rw [← value_eq]
    refine Problem.puts_whole Problem.shapeOf?_quadraticProgram.2.1 .set ?_
    rw [value_eq]
    exact shape_eq
  exact ⟨puts.moves fun _ _ _ => rfl, puts.memory.part_self shape_eq⟩

end Terminal

/-! ## The arrival cost -/

section Arrival

variable {scene : Scene α (σ × List (HostCall α problem.program.table.sizes))
    problem.program.table.sizes} {world : problem.Recorded σ}

variable (problem) in
/-- The arrival cost of a free first state in the gradient and in the Hessian. -/
structure ArrivalHolds (start memory : problem.Contents) : Prop where
  gradient : problem.estimatesInitialState = true →
    let nx := problem.dims.nx
    problem.part memory .gradientQ 0 nx 1 =
      (problem.part start .gradientQ 0 nx 1).add
        ((problem.part start .sAC 0 nx nx).mul
          ((problem.part start .x 0 nx 1).sub (problem.part start .xAC 0 nx 1)))
  hessian : problem.estimatesInitialState = true →
    let nx := problem.dims.nx
    problem.part memory .hessianQ 0 nx nx =
      (((KnownBlocks.ofProblem problem).states.map Prod.fst).getD
        (problem.part start .hessianQ 0 nx nx)).add (problem.part start .sAC 0 nx nx)

variable (problem) in
/-- The elements that the arrival cost changes. -/
def arrivalShare (quantity : Quantity) (position : Nat) : Prop :=
  let nx := problem.dims.nx
  problem.estimatesInitialState = true ∧
    (quantity = .dxAC ∨ quantity = .hessianQ ∧ position < nx * nx ∨
      quantity = .gradientQ ∧ position < nx)

variable (problem) in
/-- The statement that adds the arrival weighting to the Hessian of the first
state. -/
def arrivalHessian : Statement α :=
  let first := problem.plan.rows .hessianQ (.const 0) problem.dims.nx
  let weighting := Expr.read (problem.plan.whole .sAC)
  ((KnownBlocks.ofProblem problem).states.map Prod.fst).elim (.increase first weighting)
    fun known => .set first (.add (.known known) weighting)

variable (frame scene world) in
/-- The Hessian of a free first state with its arrival weighting. -/
theorem moves_arrivalHessian (wellFormed : problem.WellFormed)
    (free : problem.estimatesInitialState = true) :
    let nx := problem.dims.nx
    let after := (arrivalHessian problem).effect scene frame world
    problem.Moves (fun quantity position => quantity = .hessianQ ∧ position < nx * nx) [] world
        after ∧
      problem.part after.store.memory .hessianQ 0 nx nx =
        (((KnownBlocks.ofProblem problem).states.map Prod.fst).getD
          (problem.part world.store.memory .hessianQ 0 nx nx)).add
            (problem.part world.store.memory .sAC 0 nx nx) := by
  intro nx
  let weighting : Expr α := .read (problem.plan.whole .sAC)
  obtain ⟨shapeStates, _, _, _⟩ := KnownBlocks.shapes_ofProblem wellFormed
  have shapeHessian : problem.shapeOf? .hessianQ = some (problem.dims.n * nx, nx) :=
    Problem.shapeOf?_blocks.1
  have shapeWeighting : problem.shapeOf? .sAC = some (nx, nx) := by simp [free, nx]
  have room : 0 + nx ≤ problem.dims.n * nx := by
    rw [Nat.zero_add]
    exact Nat.le_mul_of_pos_left _ wellFormed.n_pos
  have weighting_eq : frame.valueIn world.store weighting =
      problem.part world.store.memory .sAC 0 nx nx := Frame.valueIn_whole shapeWeighting
  have inside {value : Nat → α} {after : problem.Recorded σ}
      (puts : problem.Puts .hessianQ (0 * nx) (nx * nx) value world after) :
      problem.Moves (fun quantity position => quantity = .hessianQ ∧ position < nx * nx) [] world
        after := by
    apply puts.moves
    intro position _ lt
    exact ⟨rfl, by omega⟩
  unfold arrivalHessian
  cases known : (KnownBlocks.ofProblem problem).states with
  | some blocks =>
      have shape_eq : (blocks.1.add (problem.part world.store.memory .sAC 0 nx nx)).shape =
          (nx, nx) := (shapeStates blocks known).1
      have value_eq : frame.valueIn world.store (.add (.known blocks.1) weighting) =
          blocks.1.add (problem.part world.store.memory .sAC 0 nx nx) :=
        congrArg (Matrix.add blocks.1) weighting_eq
      have puts := @Problem.puts_rows α σ _ problem scene frame world .hessianQ
        (problem.dims.n * nx) nx nx 0 (.const 0) shapeHessian rfl room .set
        (.add (.known blocks.1) weighting) (by rw [value_eq]; exact shape_eq)
      refine ⟨inside puts, ?_⟩
      rw [value_eq, Nat.zero_mul] at puts
      exact puts.memory.part_self shape_eq
  | none =>
      have puts := @Problem.puts_rows α σ _ problem scene frame world .hessianQ
        (problem.dims.n * nx) nx nx 0 (.const 0) shapeHessian rfl room .add weighting
        (by rw [weighting_eq]; rfl)
      refine ⟨inside puts, ?_⟩
      rw [weighting_eq, Nat.zero_mul] at puts
      exact puts.memory.part_add rfl

variable (problem) in
/-- The statements of the arrival cost. -/
theorem arrivalCost_eq :
    let nx := problem.dims.nx
    let plan := problem.plan
    arrivalCost problem plan =
      if problem.estimatesInitialState then
        [.comment "Arrival cost",
          .set (plan.flat .dxAC (.const 0) nx)
            (.sub (.read (plan.flat .x (.const 0) nx)) (.read (plan.flat .xAC (.const 0) nx))),
          arrivalHessian problem,
          .increase (plan.flat .gradientQ (.const 0) nx)
            (.mul (.read (plan.whole .sAC)) (.read (plan.flat .dxAC (.const 0) nx)))]
      else [] := by
  unfold arrivalCost arrivalHessian
  obtain ⟨known_eq, _⟩ := Problem.blocks_plan problem
  cases free : problem.estimatesInitialState with
  | false => simp [free]
  | true =>
      have deviation : problem.plan.whole .dxAC =
          problem.plan.flat .dxAC (.const 0) problem.dims.nx :=
        Frame.whole_eq_flat (by simp [free])
      have prior : problem.plan.whole .xAC =
          problem.plan.flat .xAC (.const 0) problem.dims.nx :=
        Frame.whole_eq_flat (by simp [free])
      simp only [known_eq, Block.given?_ofOption, deviation, prior]
      cases (KnownBlocks.ofProblem problem).states <;> simp [free]

variable (frame scene world) in
/-- The deviation of a free first state from its prior estimate. -/
theorem moves_arrivalDeviation (free : problem.estimatesInitialState = true) :
    let nx := problem.dims.nx
    let after := (Statement.set (problem.plan.flat .dxAC (.const 0) nx)
      (.sub (.read (problem.plan.flat .x (.const 0) nx))
        (.read (problem.plan.flat .xAC (.const 0) nx)))).effect scene frame world
    problem.Moves (fun quantity _ => quantity = .dxAC) [] world after ∧
      problem.part after.store.memory .dxAC 0 nx 1 =
        (problem.part world.store.memory .x 0 nx 1).sub
          (problem.part world.store.memory .xAC 0 nx 1) := by
  have shape : problem.shapeOf? .dxAC = some (problem.dims.nx, 1) := by simp [free]
  have room : 0 + problem.dims.nx ≤ problem.sizeOf .dxAC := by
    rw [problem.sizeOf_eq shape, Nat.mul_one, Nat.zero_add]
  have puts := @Problem.puts_sub α σ _ problem scene frame world .dxAC .x .xAC (.const 0)
    (.const 0) 0 0 0 problem.dims.nx (.read (problem.plan.flat .x (.const 0) problem.dims.nx)) rfl
    room Frame.valueIn_flat rfl
  exact ⟨puts.moves fun _ _ _ => rfl, puts.memory.part_sub⟩

variable (frame scene world) in
/-- The gradient of a free first state with its arrival weighting. -/
theorem moves_arrivalGradient (wellFormed : problem.WellFormed)
    (free : problem.estimatesInitialState = true) :
    let nx := problem.dims.nx
    let after := (Statement.increase (problem.plan.flat .gradientQ (.const 0) nx)
      (.mul (.read (problem.plan.whole .sAC))
        (.read (problem.plan.flat .dxAC (.const 0) nx)))).effect scene frame world
    problem.Moves (fun quantity position => quantity = .gradientQ ∧ position < nx) [] world after ∧
      problem.part after.store.memory .gradientQ 0 nx 1 =
        (problem.part world.store.memory .gradientQ 0 nx 1).add
          ((problem.part world.store.memory .sAC 0 nx nx).mul
            (problem.part world.store.memory .dxAC 0 nx 1)) := by
  intro nx after
  have shape : problem.shapeOf? .sAC = some (nx, nx) := by simp [free, nx]
  have room : 0 + nx ≤ problem.sizeOf .gradientQ := by
    rw [problem.sizeOf_eq Problem.shapeOf?_quadraticProgram.1, Nat.mul_one, Nat.zero_add]
    exact Nat.le_mul_of_pos_left _ wellFormed.n_pos
  let product : Expr α := .mul (.read (problem.plan.whole .sAC))
    (.read (problem.plan.flat .dxAC (.const 0) nx))
  let value := (problem.part world.store.memory .sAC 0 nx nx).mul
    (problem.part world.store.memory .dxAC 0 nx 1)
  have value_eq : frame.valueIn world.store product = value :=
    congrArg₂ Matrix.mul (Frame.valueIn_whole shape) Frame.valueIn_flat
  have shape_eq : value.shape = (nx, 1) := rfl
  have puts := @Problem.puts_flat α σ _ problem scene frame world .gradientQ (.const 0) 0 nx rfl
    room .add product (by rw [value_eq]; exact shape_eq)
  rw [value_eq] at puts
  have writes : problem.Writes .gradientQ 0 (nx * 1)
      (fun position => problem.valueAt world.store.memory .gradientQ (0 + position) +
        value.element position) world.store.memory after.store.memory := by
    rw [Nat.mul_one]
    exact puts.memory
  refine ⟨puts.moves fun position _ lt => ⟨rfl, ?_⟩, writes.part_add shape_eq⟩
  rwa [Nat.zero_add] at lt

variable (frame scene world) in
/-- The arrival cost is added if the first state is free. -/
theorem moves_arrivalCost (wellFormed : problem.WellFormed) :
    let after := effects scene frame (arrivalCost problem problem.plan) world
    problem.Moves (arrivalShare problem) [] world after ∧
      ArrivalHolds problem world.store.memory after.store.memory := by
  rw [arrivalCost_eq]
  cases free : problem.estimatesInitialState with
  | false =>
      simp only [Bool.false_eq_true, if_false, effects]
      exact ⟨.refl world, ⟨fun used => by simp [free] at used, fun used => by simp [free] at used⟩⟩
  | true =>
      let nx := problem.dims.nx
      let first := (Statement.set (problem.plan.flat .dxAC (.const 0) nx)
        (.sub (.read (problem.plan.flat .x (.const 0) nx))
          (.read (problem.plan.flat .xAC (.const 0) nx)))).effect scene frame world
      let second := (arrivalHessian problem).effect scene frame first
      obtain ⟨deviationMoves, deviation⟩ := moves_arrivalDeviation frame scene world free
      obtain ⟨hessianMoves, hessian⟩ := moves_arrivalHessian frame scene first wellFormed free
      obtain ⟨gradientMoves, gradient⟩ := moves_arrivalGradient frame scene second wellFormed free
      have kept {quantity : Quantity} (apart : quantity ≠ .dxAC ∧ quantity ≠ .hessianQ)
          (start rows cols : Nat) :
          problem.part second.store.memory quantity start rows cols =
            problem.part world.store.memory quantity start rows cols :=
        (hessianMoves.memory.part_eq fun _ _ _ here => apart.2 here.1).trans
          (deviationMoves.memory.part_eq fun _ _ _ here => apart.1 here)
      have first_kept {quantity : Quantity} (apart : quantity ≠ .dxAC) (start rows cols : Nat) :
          problem.part first.store.memory quantity start rows cols =
            problem.part world.store.memory quantity start rows cols :=
        deviationMoves.memory.part_eq fun _ _ _ here => apart here
      have second_deviation : problem.part second.store.memory .dxAC 0 nx 1 =
          problem.part first.store.memory .dxAC 0 nx 1 :=
        hessianMoves.memory.part_eq (by simp)
      simp only [if_true, effects, effect_comment]
      refine ⟨?_, fun _ => ?_, fun _ => ?_⟩
      · refine (deviationMoves.mono ?_).trans
          ((hessianMoves.mono ?_).trans (gradientMoves.mono ?_))
        · exact fun quantity position here => ⟨free, .inl here⟩
        · exact fun quantity position here => ⟨free, .inr (.inl here)⟩
        · exact fun quantity position here => ⟨free, .inr (.inr here)⟩
      · exact gradient.trans (congrArg₂ Matrix.add (kept (by decide) _ _ _)
          (congrArg₂ Matrix.mul (kept (by decide) _ _ _) (second_deviation.trans deviation)))
      · rw [first_kept (by decide), first_kept (by decide)] at hessian
        exact (gradientMoves.memory.part_eq (by simp)).trans hessian

end Arrival

/-! ## The solution and the step -/

section Solution

/-- The solver of the quadratic program is called once, and its status goes to
the return value. -/
theorem effect_solve (host : Host α σ problem.program.table.sizes) (depth : Nat)
    (world : problem.Recorded σ)
    (own : (world.store.content (.stack frame.height)).size = 1) :
    let after := (Statement.invoke .qpSolve [] (some (ownScalar 0))).effect
      (problem.program.scene host.recorded depth) frame world
    let reply := host .qpSolve [] world.store.memory world.state.1
    after.state = (reply.state, world.state.2 ++
        [⟨.qpSolve, [], world.store.memory, reply.status, reply.arguments, reply.memory⟩]) ∧
      after.store.memory = reply.memory ∧
      after.store.read (frame.startOf (ownScalar 0)) = Scalar.ofInt reply.status := by
  intro after reply
  let answered : Store α problem.program.table.sizes :=
    { world.store with memory := reply.memory }
  have start_eq : frame.startOf (ownScalar 0) = ⟨.stack frame.height, 0⟩ := rfl
  have after_eq : after = ⟨answered.write ⟨.stack frame.height, 0⟩ (Scalar.ofInt reply.status),
      (reply.state, world.state.2 ++
        [⟨.qpSolve, [], world.store.memory, reply.status, reply.arguments, reply.memory⟩])⟩ :=
    Statement.effect_invoke_status rfl _ _ _
  have inside : (Cell.mk (.stack frame.height) 0).position <
      (answered.content (.stack frame.height)).size :=
    Nat.lt_of_lt_of_eq Nat.one_pos own.symm
  rw [after_eq, start_eq]
  refine ⟨rfl, rfl, ?_⟩
  rw [Store.read_write inside, if_pos rfl]

variable {scene : Scene α (σ × List (HostCall α problem.program.table.sizes))
    problem.program.table.sizes} {world : problem.Recorded σ}

variable (problem) in
/-- The full step over the horizon. -/
structure StepTaken (left memory : problem.Contents) : Prop where
  states : ∀ position < (problem.dims.n + 1) * problem.dims.nx,
    problem.valueAt memory .x position =
      problem.valueAt left .x position + problem.valueAt left .qpx position
  controls : ∀ position < problem.dims.n * problem.dims.nu,
    problem.valueAt memory .u position =
      problem.valueAt left .u position + problem.valueAt left .qpu position
  kept : problem.Changes (fun quantity _ => quantity = .x ∨ quantity = .u) left memory

/-- An assignment to a quantity leaves the stack as it is. -/
theorem stack_effect_assign (quantity : Quantity) (offset : AffineIndex) (length : Nat)
    (op : AssignOp) (value : Expr α) :
    ((Statement.assign (problem.plan.flat quantity offset length) op value).effect scene frame
      world).store.stack = world.store.stack := by
  rw [effect, Plan.flat]
  exact Store.stack_combine_global _ _ _ _ _ _

variable (frame scene world) in
/-- The step is added to both trajectories. -/
theorem moves_step :
    let dims := problem.dims
    let after := effects scene frame
      [.increase (problem.plan.flat .x (.const 0) ((dims.n + 1) * dims.nx))
          (.read (problem.plan.whole .qpx)),
        .increase (problem.plan.flat .u (.const 0) (dims.n * dims.nu))
          (.read (problem.plan.whole .qpu))] world
    after.state = world.state ∧ after.store.stack = world.store.stack ∧
      StepTaken problem world.store.memory after.store.memory := by
  intro dims
  obtain ⟨_, _, _, shapeStep, shapeControlStep, _⟩ :=
    @Problem.shapeOf?_quadraticProgram α _ problem
  obtain ⟨shapeStates, shapeControls, _⟩ := @Problem.shapeOf?_trajectory α _ problem
  have stateRoom : 0 + (dims.n + 1) * dims.nx ≤ problem.sizeOf .x := by
    rw [problem.sizeOf_eq shapeStates, Nat.zero_add]
  have controlRoom : 0 + dims.n * dims.nu ≤ problem.sizeOf .u := by
    rw [problem.sizeOf_eq shapeControls, Nat.zero_add]
  rw [Frame.whole_eq_flat shapeStep, Frame.whole_eq_flat shapeControlStep]
  let first := (Statement.increase
    (problem.plan.flat .x (.const 0) ((dims.n + 1) * dims.nx))
    (.read (problem.plan.flat .qpx (.const 0) ((dims.n + 1) * dims.nx)))).effect scene frame world
  have statePuts := @Problem.puts_vector α σ _ problem scene frame world .x .qpx (.const 0)
    (.const 0) 0 0 _ rfl stateRoom .add rfl
  have controlPuts := @Problem.puts_vector α σ _ problem scene frame first .u .qpu (.const 0)
    (.const 0) 0 0 _ rfl controlRoom .add rfl
  intro after
  have after_eq : after = (Statement.increase
      (problem.plan.flat .u (.const 0) (dims.n * dims.nu))
      (.read (problem.plan.flat .qpu (.const 0) (dims.n * dims.nu)))).effect scene frame
        first := by
    simp only [after, effects]
    rfl
  rw [after_eq]
  refine ⟨controlPuts.state.trans statePuts.state,
    (stack_effect_assign _ _ _ _ _).trans (stack_effect_assign _ _ _ _ _),
    fun position position_lt => ?_, fun position position_lt => ?_, ?_⟩
  · have written := statePuts.memory.inside position_lt
    simp only [Nat.zero_add] at written
    exact (controlPuts.memory.other (by decide) position).trans written
  · have written := controlPuts.memory.inside position_lt
    simp only [Nat.zero_add] at written
    refine written.trans ?_
    exact congrArg₂ (· + ·) (statePuts.memory.other (by decide) position)
      (statePuts.memory.other (by decide) position)
  · exact (statePuts.memory.changes fun _ _ _ => .inl rfl).trans
      (controlPuts.memory.changes fun _ _ _ => .inr rfl)

end Solution

/-! ## The phase -/

section Phase

variable (problem)

/-- The gradient of a node with the arrival cost of a free first state. -/
def plusArrival (start : problem.Contents) (node : Nat) (gradient : Matrix α) : Matrix α :=
  let nx := problem.dims.nx
  if node = 0 ∧ problem.estimatesInitialState then
    gradient.add
      ((problem.part start .sAC 0 nx nx).mul
        ((problem.part start .x 0 nx 1).sub (problem.part start .xAC 0 nx 1)))
  else gradient

/-- The elements that the phase may change before the quadratic program is
solved. -/
def feedbackShare (quantity : Quantity) (position : Nat) : Prop :=
  quantity = .qpx ∧ position < problem.dims.nx ∨ (quantity = .dy ∨ quantity = .dyN) ∨
    (quantity = .gradientQ ∨ quantity = .gradientR) ∨ quantity = .gradientQf ∨
      arrivalShare problem quantity position

/-- What stands in memory when the quadratic program is to be solved, given the
gradient blocks and the linear terms. -/
structure ReadyToSolve (stateBlock controlBlock : Nat → Matrix α) (terminalBlock : Matrix α)
    (stateTerm controlTerm : Nat → Option (Matrix α)) (start memory : problem.Contents) :
    Prop where
  deviation : DeviationHolds problem start memory
  residuals : ResidualsHold problem start memory
  states : ∀ node < problem.dims.n,
    let nx := problem.dims.nx
    problem.part memory .gradientQ (node * nx) nx 1 =
      plusArrival problem start node
        (Objective.plusLinear ((stateBlock node).mul (Objective.residual problem memory node))
          (stateTerm node))
  controls : ∀ node < problem.dims.n,
    let nu := problem.dims.nu
    problem.part memory .gradientR (node * nu) nu 1 =
      Objective.plusLinear ((controlBlock node).mul (Objective.residual problem memory node))
        (controlTerm node)
  terminal :
    let dims := problem.dims
    problem.part memory .gradientQf 0 dims.nx 1 =
      Objective.plusLinear (terminalBlock.mul (problem.part memory .dyN 0 dims.nyn 1))
        (stateTerm dims.n)
  hessian : problem.estimatesInitialState = true →
    let nx := problem.dims.nx
    problem.part memory .hessianQ 0 nx nx =
      (((KnownBlocks.ofProblem problem).states.map Prod.fst).getD
        (problem.part start .hessianQ 0 nx nx)).add (problem.part start .sAC 0 nx nx)
  kept : problem.Changes (feedbackShare problem) start memory

/-- The statements of the phase up to the solution. -/
def beforeSolution : List (Statement α) :=
  let dims := problem.dims
  initialDeviation problem problem.plan ++
    [.decrease (problem.plan.whole .dy)
        (.read (problem.plan.flat .y (.const 0) (dims.n * dims.ny))),
      .decrease (problem.plan.whole .dyN) (.read (problem.plan.whole .yN))] ++
    [.loop Objective.nodeName 0 dims.n
        [.run Objective.gradientName
          (Objective.gradientArguments problem (.var Objective.nodeName))]] ++
    [.set (problem.plan.whole .gradientQf) (terminalGradient problem)] ++
    arrivalCost problem problem.plan

variable {problem}

/-- The arrival cost touches the gradient of the first node only. -/
theorem part_plusArrival {start before memory : problem.Contents}
    (changes : problem.Changes (arrivalShare problem) before memory)
    (held : ArrivalHolds problem before memory)
    (kept : ∀ quantity ∈ [.sAC, .x, .xAC], ∀ rows cols,
      problem.part before quantity 0 rows cols = problem.part start quantity 0 rows cols)
    (node : Nat) :
    let nx := problem.dims.nx
    problem.part memory .gradientQ (node * nx) nx 1 =
      plusArrival problem start node (problem.part before .gradientQ (node * nx) nx 1) := by
  intro nx
  unfold plusArrival
  by_cases arrives : node = 0 ∧ problem.estimatesInitialState
  · obtain ⟨rfl, free⟩ := arrives
    rw [if_pos ⟨rfl, free⟩, Nat.zero_mul, held.gradient free, kept .sAC (by decide),
      kept .x (by decide), kept .xAC (by decide)]
  · rw [if_neg arrives]
    apply changes.part_eq
    rintro position le _ ⟨free, different | ⟨different, _⟩ | ⟨_, lt⟩⟩
    · contradiction
    · contradiction
    · have node_pos : 0 < node := Nat.pos_of_ne_zero fun zero => arrives ⟨zero, free⟩
      have behind : nx ≤ node * nx := Nat.le_mul_of_pos_left nx node_pos
      exact absurd lt (Nat.not_lt.2 (Nat.le_trans behind le))

variable (frame) (host : Host α σ problem.program.table.sizes) (depth : Nat)
  (world : problem.Recorded σ)

/-- The phase prepares the quadratic program without calls. -/
theorem ready_beforeSolution (wellFormed : problem.WellFormed) :
    let start := world.store.memory
    let after := effects (problem.program.scene host.recorded (depth + 1)) frame
      (beforeSolution problem) world
    problem.Moves (feedbackShare problem) [] world after ∧
      ReadyToSolve problem (Objective.stateBlock problem start)
        (Objective.controlBlock problem start) (Objective.terminalBlock problem start)
        (Objective.stateTerm problem start) (Objective.controlTerm problem start) start
        after.store.memory := by
  intro start after
  let scene := problem.program.scene host.recorded (depth + 1)
  let deviated := effects scene frame (initialDeviation problem problem.plan) world
  let reduced := effects scene frame
    [.decrease (problem.plan.whole .dy)
        (.read (problem.plan.flat .y (.const 0) (problem.dims.n * problem.dims.ny))),
      .decrease (problem.plan.whole .dyN) (.read (problem.plan.whole .yN))] deviated
  let formed := (Statement.loop Objective.nodeName 0 problem.dims.n
    [.run Objective.gradientName
      (Objective.gradientArguments problem (.var Objective.nodeName))]).effect scene frame reduced
  let closed := (Statement.set (problem.plan.whole .gradientQf)
    (terminalGradient problem)).effect scene frame formed
  have after_eq : after = effects scene frame (arrivalCost problem problem.plan) closed := by
    simp only [after, beforeSolution, effects_append, effects_singleton]
    rfl
  obtain ⟨deviationMoves, deviation⟩ := moves_deviation frame scene world
  obtain ⟨residualMoves, residuals⟩ := moves_residuals frame scene deviated
  obtain ⟨gradientMoves, gradients⟩ :=
    @Objective.holds_gradients α σ _ problem frame host depth reduced wellFormed
  obtain ⟨terminalMoves, terminal⟩ := moves_terminalGradient frame scene formed wellFormed
  obtain ⟨arrivalMoves, arrival⟩ := moves_arrivalCost frame scene closed wellFormed
  rw [after_eq]
  have toReduced := deviationMoves.memory.both residualMoves.memory
  have toFormed := toReduced.both gradientMoves.memory
  have toClosed := toFormed.both terminalMoves.memory
  have fromFormed := terminalMoves.memory.both arrivalMoves.memory
  have fromReduced := gradientMoves.memory.both fromFormed
  have fromDeviated := residualMoves.memory.both fromReduced
  have moves : problem.Moves (feedbackShare problem) [] world
      (effects scene frame (arrivalCost problem problem.plan) closed) := by
    refine (deviationMoves.mono ?_).trans ((residualMoves.mono ?_).trans
      ((gradientMoves.mono ?_).trans ((terminalMoves.mono ?_).trans (arrivalMoves.mono ?_))))
    · exact fun _ _ here => .inl here
    · exact fun _ _ here => .inr (.inl here)
    · exact fun _ _ here => .inr (.inr (.inl here))
    · exact fun _ _ here => .inr (.inr (.inr (.inl here)))
    · exact fun _ _ here => .inr (.inr (.inr (.inr here)))
  refine ⟨moves, ?_⟩
  constructor
  · intro fixed row row_lt
    rw [fromDeviated .qpx row (by simp [arrivalShare])]
    exact deviation fixed row row_lt
  · constructor
    · intro row row_lt
      rw [fromReduced .dy row (by simp [arrivalShare]), residuals.stage row row_lt,
        deviationMoves.memory .dy row (by simp), deviationMoves.memory .y row (by simp)]
    · intro row row_lt
      rw [fromReduced .dyN row (by simp [arrivalShare]), residuals.terminal row row_lt,
        deviationMoves.memory .dyN row (by simp), deviationMoves.memory .yN row (by simp)]
  · intro node node_lt nx
    obtain ⟨blocks, _, terms, _⟩ := Objective.terms_eq_of_changes toReduced (by simp) node
    have residual_eq : Objective.residual problem
        (effects scene frame (arrivalCost problem problem.plan) closed).store.memory node =
          Objective.residual problem reduced.store.memory node :=
      fromReduced.part_eq (by simp [arrivalShare])
    have formed_eq := (gradients node node_lt).states
    rw [blocks, terms] at formed_eq
    have closed_eq : problem.part closed.store.memory .gradientQ (node * nx) nx 1 =
        problem.part formed.store.memory .gradientQ (node * nx) nx 1 :=
      terminalMoves.memory.part_eq (by simp)
    rw [residual_eq, ← formed_eq, ← closed_eq]
    apply part_plusArrival arrivalMoves.memory arrival
    intro quantity mem rows cols
    apply toClosed.part_eq
    simp only [List.mem_cons, List.not_mem_nil, or_false] at mem
    rcases mem with rfl | rfl | rfl <;> simp
  · intro node node_lt nu
    obtain ⟨_, blocks, _, terms⟩ := Objective.terms_eq_of_changes toReduced (by simp) node
    have residual_eq : Objective.residual problem
        (effects scene frame (arrivalCost problem problem.plan) closed).store.memory node =
          Objective.residual problem reduced.store.memory node :=
      fromReduced.part_eq (by simp [arrivalShare])
    rw [residual_eq, ← blocks, ← terms, ← (gradients node node_lt).controls]
    exact fromFormed.part_eq (by simp [arrivalShare])
  · intro dims
    obtain ⟨_, _, terms, _⟩ := Objective.terms_eq_of_changes toFormed (by simp) dims.n
    have block : Objective.terminalBlock problem formed.store.memory =
        Objective.terminalBlock problem start :=
      Objective.Place.getD_eq _ toFormed (by simp)
    have residual_eq : problem.part
        (effects scene frame (arrivalCost problem problem.plan) closed).store.memory .dyN 0 dims.nyn
          1 = problem.part formed.store.memory .dyN 0 dims.nyn 1 :=
      fromFormed.part_eq (by simp [arrivalShare])
    rw [residual_eq, ← block, ← terms, ← terminal]
    exact arrivalMoves.memory.part_eq (by simp [arrivalShare])
  · intro free nx
    rw [arrival.hessian free, toClosed.part_eq (by simp), toClosed.part_eq (by simp)]
  · exact moves.memory

end Phase

/-! ## Runs -/

section Runs

/-- The statements of the phase: up to the solution, the solution, the step. -/
theorem body_feedbackRoutine (problem : Problem α) :
    let dims := problem.dims
    (feedbackRoutine problem problem.plan).body =
      beforeSolution problem ++ [.invoke .qpSolve [] (some (ownScalar 0))] ++
        [.increase (problem.plan.flat .x (.const 0) ((dims.n + 1) * dims.nx))
            (.read (problem.plan.whole .qpx)),
          .increase (problem.plan.flat .u (.const 0) (dims.n * dims.nu))
            (.read (problem.plan.whole .qpu))] := by
  simp only [feedbackRoutine, beforeSolution, List.append_assoc, List.cons_append,
    List.nil_append]
  rfl

/-- A run of the phase on any memory: the quadratic program is prepared, its
solver is called once, and the step that the solver left is taken. -/
theorem run_feedback (wellFormed : problem.WellFormed)
    (host : Host α σ problem.program.table.sizes) (state : σ) (start : problem.Contents) :
    let outcome := problem.program.run host state start feedbackName []
    ∃ call asked,
      problem.program.trace host state start feedbackName [] = [call] ∧
        call.function = .qpSolve ∧
        host .qpSolve [] call.memory asked =
          ⟨call.status, call.left, call.after, outcome.state⟩ ∧
        ReadyToSolve problem (Objective.stateBlock problem start)
          (Objective.controlBlock problem start) (Objective.terminalBlock problem start)
          (Objective.stateTerm problem start) (Objective.controlTerm problem start) start
          call.memory ∧
        StepTaken problem call.after outcome.memory ∧
        outcome.result = .ok (Scalar.ofInt call.status) := by
  let routine := feedbackRoutine problem problem.plan
  let frame := Frame.ofCall routine [] 0
  let world := problem.startOf routine state start
  obtain ⟨depth, run_eq, trace_eq⟩ := Problem.run_eq_effects Problem.mem_routines.2.2.2.2.2.2.2 rfl
    (Problem.safe_feedback wellFormed).succ host state start
  have name_eq : routine.name = feedbackName := rfl
  rw [name_eq] at run_eq trace_eq
  let scene := problem.program.scene host.recorded (depth + 2)
  let ready := effects scene frame (beforeSolution problem) world
  let solved := (Statement.invoke .qpSolve [] (some (ownScalar 0))).effect scene frame ready
  obtain ⟨moves, holds⟩ := ready_beforeSolution frame host (depth + 1) world wellFormed
  have own : (ready.store.content (.stack frame.height)).size = 1 := by
    have keeps : scene.KeepsSizes := Program.keepsSizes_scene (depth + 2)
    have alike := @Statement.alike_effects α _ _ _ scene keeps frame (beforeSolution problem) world
    exact (alike.size_content _).trans rfl
  obtain ⟨state_eq, memory_eq, status_eq⟩ := effect_solve host (depth + 2) ready own
  obtain ⟨stateKept, stackKept, step⟩ := moves_step frame scene solved
  let reply := host .qpSolve [] ready.store.memory ready.state.1
  let call : HostCall α problem.program.table.sizes :=
    ⟨.qpSolve, [], ready.store.memory, reply.status, reply.arguments, reply.memory⟩
  let ended := effects scene frame routine.body world
  have ended_eq : ended = effects scene frame
      [.increase (problem.plan.flat .x (.const 0) ((problem.dims.n + 1) * problem.dims.nx))
          (.read (problem.plan.whole .qpx)),
        .increase (problem.plan.flat .u (.const 0) (problem.dims.n * problem.dims.nu))
          (.read (problem.plan.whole .qpu))] solved := by
    simp only [ended, routine, body_feedbackRoutine, effects_append, effects_singleton]
    rfl
  have record : ready.state.2 = [] := moves.record.trans (List.nil_append _)
  have final : ended.state = (reply.state, [call]) := by
    rw [ended_eq, stateKept, state_eq, record]
    rfl
  have traced : ended.state.2 = [call] := by rw [final]
  have replied : reply = ⟨reply.status, reply.arguments, reply.memory, ended.state.1⟩ := by
    rw [final]
  have returned : routine.result.elim 0 (fun position =>
      ended.store.read (frame.startOf (.vector (.own position) (.const 0) 1))) =
        Scalar.ofInt reply.status := by
    have result_eq : routine.result = some 0 := rfl
    have status_start : frame.startOf (.vector (.own 0) (.const 0) 1) =
        frame.startOf (ownScalar 0) := rfl
    rw [result_eq, Option.elim_some, status_start, ended_eq]
    exact (Store.read_stack_congr stackKept _ _).trans status_eq
  rw [← ended_eq, memory_eq] at step
  simp only [run_eq, trace_eq]
  refine ⟨call, ready.state.1, traced, rfl, replied, holds, step, ?_⟩
  rw [Except.ok.injEq]
  exact returned

end Runs

end Phases

end RtiAssembly
