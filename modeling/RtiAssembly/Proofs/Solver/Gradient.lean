import RtiAssembly.Proofs.Solver.Nodes
import RtiAssembly.Proofs.Solver.Stage

/-!
# The gradient of the objective

The gradient of a node is its gradient block times its residuals, with a linear
term if there is one.  The block is known or computed by the preparation; the
linear term is a given vector, one that all nodes share, or the slice of the
node.  The routine that forms the gradient is called once for every node.
-/

namespace RtiAssembly

open Statement

namespace Objective

variable {α σ : Type} [Scalar α] {problem : Problem α} {frame : Frame}

/-! ## Terms of the gradient -/

section Terms

variable (problem)

/-- The gradient block of the states of a node. -/
def stateBlock (memory : problem.Contents) (node : Nat) : Matrix α :=
  let dims := problem.dims
  (nodePlace .q2 (dims.nx * dims.ny) node).getD problem
    ((KnownBlocks.ofProblem problem).states.map Prod.snd) memory dims.nx dims.ny

/-- The gradient block of the controls of a node. -/
def controlBlock (memory : problem.Contents) (node : Nat) : Matrix α :=
  let dims := problem.dims
  (nodePlace .r2 (dims.nu * dims.ny) node).getD problem
    ((KnownBlocks.ofProblem problem).controls.map Prod.snd) memory dims.nu dims.ny

/-- The gradient block of the terminal state. -/
def terminalBlock (memory : problem.Contents) : Matrix α :=
  let dims := problem.dims
  (Place.mk .qN2 0).getD problem ((KnownBlocks.ofProblem problem).terminal.map Prod.snd) memory
    dims.nx dims.nyn

/-- The residuals of a node. -/
def residual (memory : problem.Contents) (node : Nat) : Matrix α :=
  let dims := problem.dims
  problem.part memory .dy (node * dims.ny) dims.ny 1

/-- Where a quantity keeps the linear term of a node: in the slice of the node
if every node has its own. -/
def linearPlace (quantity : Quantity) (size node : Nat) : Place :=
  ⟨quantity, if Quantity.hasLinearTermsPerNode problem then node * size else 0⟩

/-- The linear term of a node: none, a given one, or what a quantity keeps. -/
def linearTerm (select : List α → List α → List α) (quantity : Quantity) (size : Nat)
    (memory : problem.Contents) (node : Nat) : Option (Matrix α) :=
  match problem.linearTerms with
  | .none => none
  | .given x u => some (.column (select x u))
  | .runtime => some ((linearPlace problem quantity size node).matrix problem memory size 1)

/-- The linear term of the state of a node. -/
def stateTerm (memory : problem.Contents) (node : Nat) : Option (Matrix α) :=
  linearTerm problem (fun x _ => x) .wlx problem.dims.nx memory node

/-- The linear term of the control of a node. -/
def controlTerm (memory : problem.Contents) (node : Nat) : Option (Matrix α) :=
  linearTerm problem (fun _ u => u) .wlu problem.dims.nu memory node

end Terms

/-- A gradient with its linear term, if it has one. -/
def plusLinear (gradient : Matrix α) : Option (Matrix α) → Matrix α
  | some linear => gradient.add linear
  | none => gradient

theorem shape_plusLinear (gradient : Matrix α) (linear : Option (Matrix α)) :
    (plusLinear gradient linear).shape = gradient.shape := by
  cases linear <;> rfl

/-- The blocks and linear terms of a node depend on these quantities only. -/
theorem terms_eq_of_changes {before after : problem.Contents} {region : Quantity → Nat → Prop}
    (changes : problem.Changes region before after)
    (outside : ∀ quantity ∈ [.q2, .r2, .wlx, .wlu], ∀ position, ¬region quantity position)
    (node : Nat) :
    stateBlock problem after node = stateBlock problem before node ∧
      controlBlock problem after node = controlBlock problem before node ∧
      stateTerm problem after node = stateTerm problem before node ∧
      controlTerm problem after node = controlTerm problem before node := by
  have term (select : List α → List α → List α) {quantity : Quantity} (size : Nat)
      (apart : ∀ position, ¬region quantity position) :
      linearTerm problem select quantity size after node =
        linearTerm problem select quantity size before node := by
    unfold linearTerm
    cases problem.linearTerms with
    | none => rfl
    | given x u => rfl
    | runtime => exact congrArg some (changes.part_eq fun position _ _ => apart position)
  refine ⟨Place.getD_eq _ changes ?_, Place.getD_eq _ changes ?_, term _ _ ?_, term _ _ ?_⟩
  · exact outside .q2 (by decide)
  · exact outside .r2 (by decide)
  · exact outside .wlx (by decide)
  · exact outside .wlu (by decide)

variable (problem) in
/-- What the gradient of a node is, in terms of a memory that holds its residuals. -/
structure NodeGradient (start : problem.Contents) (node : Nat) (memory : problem.Contents) :
    Prop where
  states : let nx := problem.dims.nx
    problem.part memory .gradientQ (node * nx) nx 1 =
      plusLinear ((stateBlock problem start node).mul (residual problem start node))
        (stateTerm problem start node)
  controls : let nu := problem.dims.nu
    problem.part memory .gradientR (node * nu) nu 1 =
      plusLinear ((controlBlock problem start node).mul (residual problem start node))
        (controlTerm problem start node)

/-! ## Values of the routine -/

section Values

variable {store : Store α problem.program.table.sizes}

/-- A block at a node, known or computed. -/
theorem valueIn_blockAt {known : Option (Matrix α)} {quantity : Quantity} {node : AffineIndex}
    {number rows cols count : Nat} (value : frame.valueOf node = number)
    (shape : known = none → problem.shapeOf? quantity = some (count, cols)) :
    frame.valueIn store (problem.plan.blockAt (.ofOption known quantity) node rows) =
      (nodePlace quantity (rows * cols) number).getD problem known store.memory rows cols := by
  cases known with
  | some matrix => rfl
  | none =>
      have starts := @startOf_rows α _ problem frame quantity count cols rows number node
        (shape rfl) value
      change frame.shown store (problem.plan.rows quantity (node.scaled rows) rows) = _
      rw [Frame.rows_eq _ _ (shape rfl)] at starts ⊢
      exact Frame.shown_eq_part starts

theorem valueIn_withLinear (gradient : Expr α) (linear : Option (Expr α)) :
    frame.valueIn store (withLinear gradient linear) =
      plusLinear (frame.valueIn store gradient) (linear.map (frame.valueIn store)) := by
  cases linear <;> rfl

/-- A linear term as the routine reads it. -/
def linearExpr (problem : Problem α) (select : List α → List α → List α) (position size : Nat) :
    Option (Expr α) :=
  match problem.linearTerms with
  | .none => none
  | .given x u => some (.known (.column (select x u)))
  | .runtime => some (.read (.dense (.parameter position) (.const 0) size 1))

theorem valueIn_linearExpr {quantity : Quantity} {position size node : Nat}
    (bound : problem.linearTerms = .runtime → frame.bindings[position]? =
      some ((linearPlace problem quantity size node).binding problem))
    (select : List α → List α → List α) :
    (linearExpr problem select position size).map (frame.valueIn store) =
      linearTerm problem select quantity size store.memory node := by
  unfold linearExpr linearTerm
  cases terms : problem.linearTerms with
  | none => rfl
  | given x u => rfl
  | runtime => exact congrArg some (Frame.shown_eq_part (Frame.startOf_parameter (bound terms) _ _))

/-- Consecutive elements of the residuals. -/
theorem valueIn_residual {node : AffineIndex} {number : Nat}
    (value : frame.valueOf node = number) :
    frame.valueIn store
        (.read (problem.plan.flat .dy (node.scaled problem.dims.ny) problem.dims.ny) : Expr α) =
      residual problem store.memory number := by
  rw [Frame.valueIn_flat, Frame.valueOf_scaled, value]
  rfl

end Values

/-! ## The routine -/

/-- The gradient of a node as the routine forms it. -/
def gradientExpr (problem : Problem α) (block : Block α) (linear : Option (Expr α))
    (size : Nat) : Expr α :=
  let index := AffineIndex.var "index"
  withLinear
    (.mul (problem.plan.blockAt block index size)
      (.read (problem.plan.flat .dy (index.scaled problem.dims.ny) problem.dims.ny))) linear

/-- The routine takes both parts of the gradient, the linear terms that are
supplied at run time, and the node. -/
theorem gradientRoutine_eq (problem : Problem α) :
    let dims := problem.dims
    let window (position length : Nat) := Window.dense (.parameter position) (.const 0) length 1
    gradientRoutine problem problem.plan =
      { name := gradientName
        doc := some "Gradient of node `index`: q = Q2*Dy, r = R2*Dy"
        parameters :=
          [⟨"stageq", .array dims.nx 1⟩, ⟨"stager", .array dims.nu 1⟩] ++
            (if Quantity.hasRuntimeLinearTerms problem then
              [⟨"Slx", .array dims.nx 1⟩, ⟨"Slu", .array dims.nu 1⟩] else []) ++
            [⟨"index", .index dims.n⟩]
        locals := []
        result := none
        body :=
          [.set (window 0 dims.nx) (gradientExpr problem problem.plan.blocks.q2
              (linearExpr problem (fun x _ => x) 2 dims.nx) dims.nx),
            .set (window 1 dims.nu) (gradientExpr problem problem.plan.blocks.r2
              (linearExpr problem (fun _ u => u) 3 dims.nu) dims.nu)] } := by
  unfold gradientRoutine linearExpr Quantity.hasRuntimeLinearTerms
  rw [Problem.linear_plan, LinearStorage.ofProblem]
  cases problem.linearTerms with
  | none => rfl
  | given x u => rfl
  | runtime => cases Quantity.hasLinearTermsPerNode problem <;> rfl

section Routine

variable {scene : Scene α (σ × List (HostCall α problem.program.table.sizes))
    problem.program.table.sizes} {world : problem.Recorded σ} {number : Nat}

/-- One part of the gradient of a node. -/
theorem puts_gradient {known : Option (Matrix α)} {block linear target : Quantity}
    {size count position linearPosition : Nat} (select : List α → List α → List α)
    (index : frame.valueOf (.var "index") = number)
    (bound : frame.bindings[position]? = some ((nodePlace target size number).binding problem))
    (linearBound : problem.linearTerms = .runtime → frame.bindings[linearPosition]? =
      some ((linearPlace problem linear size number).binding problem))
    (room : number * size + size ≤ problem.sizeOf target)
    (shapeKnown : ∀ matrix ∈ known, matrix.shape = (size, problem.dims.ny))
    (shape : known = none → problem.shapeOf? block = some (count, problem.dims.ny)) :
    let memory := world.store.memory
    let value := plusLinear
      (((nodePlace block (size * problem.dims.ny) number).getD problem known memory size
        problem.dims.ny).mul (residual problem memory number))
      (linearTerm problem select linear size memory number)
    value.shape = (size, 1) ∧
      problem.Puts target (number * size) (size * 1) value.element world
        ((Statement.set (.dense (.parameter position) (.const 0) size 1)
          (gradientExpr problem (.ofOption known block)
            (linearExpr problem select linearPosition size) size)).effect scene frame world) := by
  intro memory value
  have value_eq : frame.valueIn world.store (gradientExpr problem (.ofOption known block)
      (linearExpr problem select linearPosition size) size) = value := by
    rw [gradientExpr, valueIn_withLinear, valueIn_linearExpr linearBound]
    exact congrArg (fun product => plusLinear product _)
      (congrArg₂ Matrix.mul (valueIn_blockAt index shape) (valueIn_residual index))
  have shape_eq : value.shape = (size, 1) := by
    have blockRows := congrArg Prod.fst
      ((nodePlace block (size * problem.dims.ny) number).shape_getD shapeKnown memory)
    rw [shape_plusLinear, Matrix.shape_mul]
    exact Prod.ext blockRows rfl
  exact ⟨shape_eq, (Place.puts_set scene bound (by rwa [Nat.mul_one]) value_eq shape_eq).1⟩

end Routine

/-! ## Calls of the routine -/

section Calls

variable (problem)

/-- What the routine is called with for a node. -/
def gradientBindings (node : Nat) : List Binding :=
  let dims := problem.dims
  [(nodePlace .gradientQ dims.nx node).binding problem,
      (nodePlace .gradientR dims.nu node).binding problem] ++
    (if Quantity.hasRuntimeLinearTerms problem then
      [(linearPlace problem .wlx dims.nx node).binding problem,
        (linearPlace problem .wlu dims.nu node).binding problem] else []) ++
    [.index node]

/-- The elements of the gradient of a node. -/
def gradientShare (node : Nat) (quantity : Quantity) (position : Nat) : Prop :=
  let dims := problem.dims
  (nodePlace .gradientQ dims.nx node).Covers dims.nx quantity position ∨
    (nodePlace .gradientR dims.nu node).Covers dims.nu quantity position

variable {problem} {depth : Nat} {world : problem.Recorded σ} {number : Nat}

/-- The statements of the routine write the gradient of their node. -/
theorem effects_gradient {scene : Scene α (σ × List (HostCall α problem.program.table.sizes))
      problem.program.table.sizes} (wellFormed : problem.WellFormed)
    (number_lt : number < problem.dims.n) (index : frame.valueOf (.var "index") = number)
    (bound : frame.bindings = gradientBindings problem number) :
    let after := effects scene frame (gradientRoutine problem problem.plan).body world
    problem.Moves (gradientShare problem number) [] world after ∧
      NodeGradient problem world.store.memory number after.store.memory := by
  obtain ⟨shapeStates, shapeControls, _, _⟩ := KnownBlocks.shapes_ofProblem wellFormed
  have linearBound (runtime : problem.linearTerms = .runtime) :
      frame.bindings[2]? = some
          ((linearPlace problem .wlx problem.dims.nx number).binding problem) ∧
        frame.bindings[3]? = some
          ((linearPlace problem .wlu problem.dims.nu number).binding problem) := by
    rw [bound, gradientBindings, Quantity.hasRuntimeLinearTerms, runtime]
    exact ⟨rfl, rfl⟩
  have stateRoom : number * problem.dims.nx + problem.dims.nx ≤ problem.sizeOf .gradientQ := by
    rw [problem.sizeOf_eq Problem.shapeOf?_quadraticProgram.1, Nat.mul_one]
    exact block_le problem.dims.nx number_lt
  have controlRoom : number * problem.dims.nu + problem.dims.nu ≤ problem.sizeOf .gradientR := by
    rw [problem.sizeOf_eq Problem.shapeOf?_quadraticProgram.2.2.1, Nat.mul_one]
    exact block_le problem.dims.nu number_lt
  have stateKnown : ∀ matrix ∈ (KnownBlocks.ofProblem problem).states.map Prod.snd,
      matrix.shape = (problem.dims.nx, problem.dims.ny) := by
    intro matrix mem
    obtain ⟨blocks, known, rfl⟩ := Option.map_eq_some_iff.1 mem
    exact (shapeStates blocks known).2
  have controlKnown : ∀ matrix ∈ (KnownBlocks.ofProblem problem).controls.map Prod.snd,
      matrix.shape = (problem.dims.nu, problem.dims.ny) := by
    intro matrix mem
    obtain ⟨blocks, known, rfl⟩ := Option.map_eq_some_iff.1 mem
    exact (shapeControls blocks known).2
  let first := (Statement.set (.dense (.parameter 0) (.const 0) problem.dims.nx 1)
    (gradientExpr problem problem.plan.blocks.q2
      (linearExpr problem (fun x _ => x) 2 problem.dims.nx) problem.dims.nx)).effect scene frame
        world
  obtain ⟨stateShape, statePuts⟩ := @puts_gradient α σ _ problem frame scene world number
    ((KnownBlocks.ofProblem problem).states.map Prod.snd) .q2 .wlx .gradientQ problem.dims.nx
    (problem.dims.n * problem.dims.nx) 0 2 (fun x _ => x) index (by rw [bound]; rfl)
    (fun runtime => (linearBound runtime).1) stateRoom stateKnown
    (fun computed => by simp_all)
  obtain ⟨controlShape, controlPuts⟩ := @puts_gradient α σ _ problem frame scene first number
    ((KnownBlocks.ofProblem problem).controls.map Prod.snd) .r2 .wlu .gradientR problem.dims.nu
    (problem.dims.n * problem.dims.nu) 1 3 (fun _ u => u) index (by rw [bound]; rfl)
    (fun runtime => (linearBound runtime).2) controlRoom controlKnown
    (fun computed => by simp_all)
  have firstChanges : problem.Changes (fun quantity _ => quantity = .gradientQ)
      world.store.memory first.store.memory :=
    statePuts.memory.changes fun _ _ _ => rfl
  obtain ⟨_, blockSame, _, termSame⟩ := terms_eq_of_changes firstChanges (by simp) number
  have residualSame : residual problem first.store.memory number =
      residual problem world.store.memory number := firstChanges.part_eq (by simp)
  have after_eq : effects scene frame (gradientRoutine problem problem.plan).body world =
      (Statement.set (.dense (.parameter 1) (.const 0) problem.dims.nu 1)
        (gradientExpr problem problem.plan.blocks.r2
          (linearExpr problem (fun _ u => u) 3 problem.dims.nu) problem.dims.nu)).effect scene
            frame first := by
    rw [gradientRoutine_eq, effects, effects_singleton]
  intro after
  rw [show after = _ from after_eq]
  constructor
  · rw [Nat.mul_one] at statePuts controlPuts
    exact (statePuts.moves fun _ le lt => .inl ⟨rfl, le, lt⟩).trans
      (controlPuts.moves fun _ le lt => .inr ⟨rfl, le, lt⟩)
  constructor
  · exact (controlPuts.memory.part_other (by decide) _ _ _).trans
      (statePuts.memory.part_self stateShape)
  · refine (controlPuts.memory.part_self controlShape).trans ?_
    change plusLinear ((controlBlock problem first.store.memory number).mul
      (residual problem first.store.memory number))
        (controlTerm problem first.store.memory number) = _
    rw [blockSame, residualSame, termSame]

variable (host : Host α σ problem.program.table.sizes) (depth) (world)

/-- A call of the routine writes the gradient of its node. -/
theorem forms_gradientCall (wellFormed : problem.WellFormed) (number_lt : number < problem.dims.n)
    {arguments : List Argument}
    (bound : arguments.map frame.bindingOf = gradientBindings problem number) :
    let after := (Statement.run gradientName arguments).effect
      (problem.program.scene host.recorded (depth + 1)) frame world
    problem.Moves (gradientShare problem number) [] world after ∧
      NodeGradient problem world.store.memory number after.store.memory := by
  let routine := gradientRoutine problem problem.plan
  let inner := Frame.ofCall routine (arguments.map frame.bindingOf) world.store.stack.size
  let started := world.update fun store =>
    store.push (routine.locals.map fun decl => Array.replicate decl.size 0)
  have scope_eq : inner.scope = [("index", number)] := by
    simp only [inner, Frame.ofCall, bound, routine, gradientRoutine_eq, gradientBindings]
    cases Quantity.hasRuntimeLinearTerms problem <;> rfl
  have index : inner.valueOf (.var "index") = number := by
    simp [Frame.valueOf, scope_eq]
  obtain ⟨moves, held⟩ := @effects_gradient α σ _ problem inner started number
    (problem.program.scene host.recorded depth) wellFormed number_lt index bound
  have name_eq : gradientName = routine.name := rfl
  rw [name_eq, Problem.effect_run Problem.mem_routines.2.2.1]
  exact ⟨Problem.moves_perform moves, held⟩

end Calls

/-! ## The gradient over the horizon -/

section Horizon

variable {number : Nat}

/-- What the routine is called with for a node. -/
def gradientArguments (problem : Problem α) (node : AffineIndex) : List Argument :=
  let dims := problem.dims
  [problem.plan.passFlat .gradientQ (node.scaled dims.nx) dims.nx,
      problem.plan.passFlat .gradientR (node.scaled dims.nu) dims.nu] ++
    Phases.linearArguments problem problem.plan node ++ [.index node]

theorem bindingOf_passFlat {quantity : Quantity} {size : Nat} {node : AffineIndex}
    (value : frame.valueOf node = number) :
    frame.bindingOf (problem.plan.passFlat quantity (node.scaled size) size) =
      (nodePlace quantity size number).binding problem := by
  have start := @Frame.startOf_global frame (problem.plan.id quantity) (node.scaled size) size 1
  rw [Frame.valueOf_scaled, value] at start
  exact congrArg Binding.array start

/-- The arguments of the calls bind the places of their node. -/
theorem bindings_gradient {node : AffineIndex} (value : frame.valueOf node = number) :
    (gradientArguments problem node).map frame.bindingOf = gradientBindings problem number := by
  have linear : (Phases.linearArguments problem problem.plan node).map frame.bindingOf =
      if Quantity.hasRuntimeLinearTerms problem then
        [(linearPlace problem .wlx problem.dims.nx number).binding problem,
          (linearPlace problem .wlu problem.dims.nu number).binding problem]
      else [] := by
    unfold Phases.linearArguments Quantity.hasRuntimeLinearTerms linearPlace
    rw [Problem.linear_plan, LinearStorage.ofProblem]
    cases problem.linearTerms with
    | none => rfl
    | given x u => rfl
    | runtime =>
        cases Quantity.hasLinearTermsPerNode problem with
        | false =>
            have whole (quantity : Quantity) : frame.bindingOf (problem.plan.passWhole quantity) =
                (Place.mk quantity 0).binding problem :=
              congrArg Binding.array (Frame.startOf_whole quantity)
            simp [whole]
        | true =>
            simp only [if_true, List.map_cons, List.map_nil, bindingOf_passFlat value]
            rfl
  have last : frame.bindingOf (.index node) = .index number := congrArg Binding.index value
  simp only [gradientArguments, gradientBindings, List.map_append, List.map_cons, List.map_nil,
    linear, bindingOf_passFlat value, last]

variable (host : Host α σ problem.program.table.sizes) (depth : Nat) (world : problem.Recorded σ)

theorem NodeGradient.of_changes {start before after : problem.Contents} {node : Nat}
    {region : Quantity → Nat → Prop} (held : NodeGradient problem start node before)
    (changes : problem.Changes region before after)
    (outside : ∀ quantity position, gradientShare problem node quantity position →
      ¬region quantity position) :
    NodeGradient problem start node after where
  states := by
    refine (changes.part_eq fun position le lt => outside _ _ (.inl ⟨rfl, le, ?_⟩)).trans
      held.states
    rwa [Nat.mul_one] at lt
  controls := by
    refine (changes.part_eq fun position le lt => outside _ _ (.inr ⟨rfl, le, ?_⟩)).trans
      held.controls
    rwa [Nat.mul_one] at lt

/-- The loop over the nodes writes the gradient of every node. -/
theorem holds_gradients (wellFormed : problem.WellFormed) :
    let after := (Statement.loop nodeName 0 problem.dims.n
        [.run gradientName (gradientArguments problem (.var nodeName))]).effect
      (problem.program.scene host.recorded (depth + 1)) frame world
    problem.Moves (fun quantity _ => quantity = .gradientQ ∨ quantity = .gradientR) [] world
        after ∧
      ∀ node < problem.dims.n,
        NodeGradient problem world.store.memory node after.store.memory := by
  intro after
  simp only [after, effect_loop]
  apply @Problem.moves_rounds_quiet α σ _ problem world _ _ _ (gradientShare problem)
  · rintro node _ quantity position (covers | covers)
    · exact .inl covers.1
    · exact .inr covers.1
  · intro node later earlier _ before after changes held
    refine held.of_changes changes ?_
    have statesBefore := block_le problem.dims.nx earlier
    have controlsBefore := block_le problem.dims.nu earlier
    rintro quantity position (⟨rfl, _, lt⟩ | ⟨rfl, _, lt⟩) (⟨same, le, _⟩ | ⟨same, le, _⟩)
    · exact absurd (Nat.lt_of_lt_of_le lt (Nat.le_trans statesBefore le)) (Nat.lt_irrefl _)
    · contradiction
    · contradiction
    · exact absurd (Nat.lt_of_lt_of_le lt (Nat.le_trans controlsBefore le)) (Nat.lt_irrefl _)
  · intro node node_lt before changes
    have value : (frame.bind nodeName node).valueOf (.var nodeName) = node :=
      Frame.valueOf_bind _ _
    obtain ⟨moves, held⟩ := forms_gradientCall depth before host wellFormed node_lt
      (bindings_gradient value)
    obtain ⟨states, controls, stateTerms, controlTerms⟩ :=
      terms_eq_of_changes changes (by simp) node
    have residuals : residual problem before.store.memory node =
        residual problem world.store.memory node := changes.part_eq (by simp)
    rw [effects_singleton]
    refine ⟨moves, held.states.trans ?_, held.controls.trans ?_⟩
    · rw [states, residuals, stateTerms]
    · rw [controls, residuals, controlTerms]

end Horizon

end Objective

end RtiAssembly
