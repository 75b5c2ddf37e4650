import RtiAssembly.Proofs.Program.Targets
import RtiAssembly.Proofs.Solver.Accumulation
import RtiAssembly.Proofs.Solver.AnyHost
import RtiAssembly.Proofs.Solver.Hessian

/-!
# The value of the objective

For functions of the objective that compute their outputs from the node that they are
passed, the value of the objective is half the sum of the weighted squares of the
residuals, and it depends on neither of the two buffers that it is computed through.
-/

namespace RtiAssembly

open Statement

namespace Matrix

variable {α : Type} [Scalar α]

/-- The square of a vector under a weighting. -/
def weightedSquare (vector weight : Matrix α) : α :=
  ((vector.transpose.mul weight).mul vector).entry 0 0

end Matrix

namespace Problem

variable {α σ : Type} [Scalar α] {problem : Problem α}

/-! ## Functions of the objective -/

/-- A function that computes values of the first entries of its input: they stand at the
first positions of its output, whatever else it is passed. -/
def Outputs (problem : Problem α) (host : Host α σ problem.program.table.sizes)
    (function : External) (entries width : Nat) (values : List α → Nat → α) : Prop :=
  ∀ (input output : Array α) memory state, input.size = problem.sizeOf .objValueIn →
    output.size = problem.sizeOf .objValueOut →
      let left := (host function [.array input, .array output] memory state).arguments
      ∀ position < width, (((left[1]?).map Passed.elements).getD #[])[position]? =
        some (values (input.toList.take entries) position)

/-- A host whose functions of the objective compute given values of the node that they
are passed and write through their arguments only. -/
structure Costs (problem : Problem α) (host : Host α σ problem.program.table.sizes)
    (stage terminal : List α → Nat → α) : Prop extends problem.CostsTame host where
  stageOutputs :
    let dims := problem.dims
    problem.Outputs host .stageCost (dims.nx + dims.nu + dims.nod)
      (EvaluationLayout.ofProblem problem).stageWidth stage
  terminalOutputs :
    let dims := problem.dims
    problem.Outputs host .terminalCost (dims.nx + dims.nod)
      (EvaluationLayout.ofProblem problem).terminalWidth terminal

theorem length_nodeInput (memory : problem.Contents) (node : Nat) :
    (problem.nodeInput memory node).length =
      problem.dims.nx + (if node < problem.dims.n then problem.dims.nu else 0) +
        problem.dims.nod := by
  simp only [nodeInput, List.length_append, length_slice, apply_ite List.length, List.length_nil]

/-- What a function of the objective leaves is computed from the start of its input. -/
theorem leaves_of_outputs {host : Host α σ problem.program.table.sizes} {function : External}
    {entries width node : Nat} {values : List α → Nat → α}
    (outputs : problem.Outputs host function entries width values)
    {call : HostCall α problem.program.table.sizes}
    (meets : problem.Meets ⟨function, .objValueIn, .objValueOut, node⟩ call)
    (isReply : call.IsReply host) {input : List α} (starts : input <+: call.input)
    (length_eq : input.length = entries) {position : Nat} (position_lt : position < width) :
    call.leaves 1 position = values input position := by
  obtain ⟨state, _, left_eq, _⟩ := isReply
  rw [meets.function_eq, meets.passed_eq] at left_eq
  have input_eq : call.input = (call.memory.content (problem.plan.id .objValueIn)).toList :=
    congrArg (fun passed => (((passed[0]?).map Passed.elements).getD #[]).toList) meets.passed_eq
  have output := outputs _ _ call.memory state (problem.size_content call.memory .objValueIn)
    (problem.size_content call.memory .objValueOut) position position_lt
  rw [← input_eq, ← length_eq, ← List.prefix_iff_eq_take.1 starts] at output
  rw [HostCall.leaves, left_eq, Array.getD_eq_getD_getElem?, output, Option.getD_some]

/-- The elements of the buffers of the objective. -/
def InBuffers (quantity : Quantity) (_position : Nat) : Prop :=
  quantity = .objValueIn ∨ quantity = .objValueOut

section Nodes

variable {host : Host α σ problem.program.table.sizes}
  {scene : Scene α (σ × List (HostCall α problem.program.table.sizes))
    problem.program.table.sizes} {frame : Frame} {world : problem.Recorded σ}
  {function : External} {entries width number : Nat} {values : List α → Nat → α}
  {node : AffineIndex} {withControl : Bool}

/-- Packing the input of a node and calling a function on it leaves the values of the
function in the output buffer. -/
theorem outputs_node (records : scene.Records host)
    (tame : ∀ passed memory state, (host function passed memory state).memory = memory)
    (outputs : problem.Outputs host function entries width values)
    (value : frame.valueOf node = number)
    (control : decide (number < problem.dims.n) = withControl)
    (entries_eq : (problem.nodeInput world.store.memory number).length = entries)
    (width_le : width ≤ problem.sizeOf .objValueOut) :
    let after := effects scene frame
      (problem.plan.loadNodeInput problem.dims .objValueIn node withControl ++
        [problem.plan.evaluate function .objValueIn .objValueOut]) world
    after.store.stack = world.store.stack ∧
      problem.Changes InBuffers world.store.memory after.store.memory ∧
      ∀ position < width, problem.valueAt after.store.memory .objValueOut position =
        values (problem.nodeInput world.store.memory number) position := by
  subst control
  intro after
  obtain ⟨room, _⟩ := @Objective.sizeOf_buffers α _ problem
  obtain ⟨call, asks, moves, holds⟩ := @asks_node α σ _ problem host scene frame world records.1
    function tame .objValueIn .objValueOut node number value room (by decide) (by decide)
  obtain ⟨other, meets, otherMoves, _⟩ := @meets_node α σ _ problem host frame scene world
    records.1 function .objValueIn .objValueOut node number value _ rfl room (by decide) (by decide)
  -- both describe the one call that was recorded
  obtain rfl : other = call :=
    List.singleton_inj.1 (List.append_cancel_left (otherMoves.record.symm.trans moves.record))
  have isReply : other.IsReply host :=
    (Statement.records_effects records _ world).isReply moves.record other
      (List.mem_singleton_self other)
  refine ⟨stack_effects _ ?_ ?_ world, moves.memory, fun position position_lt => ?_⟩
  · intro base mem
    simp [targetsOf] at mem
    obtain rfl | rfl := mem <;> exact ⟨_, rfl⟩
  · intro call mem
    simp [callsOf] at mem
    exact ⟨function, congrArg Prod.fst mem⟩
  · rw [holds position (Nat.lt_of_lt_of_le position_lt width_le)]
    exact leaves_of_outputs outputs meets isReply asks.input_eq entries_eq position_lt

end Nodes

/-! ## The term of a node -/

/-- Values less the reference for them. -/
def residual (problem : Problem α) (memory : problem.Contents) (values : Nat → α)
    (reference : Quantity) (start count : Nat) : Matrix α :=
  (Matrix.ofFn count 1 fun row _ => values row).sub (problem.part memory reference start count 1)

/-- The statements that add the term of a node to the total: its residual goes to an array of
the routine's own. -/
def addTerm (problem : Problem α) (function : External) (node : AffineIndex)
    (withControl : Bool) (array count : Nat) (reference : Window) (weight : Expr α) :
    List (Statement α) :=
  let plan := problem.plan
  let residual := Window.dense (.own array) (.const 0) count 1
  plan.loadNodeInput problem.dims .objValueIn node withControl ++
    [plan.evaluate function .objValueIn .objValueOut,
      .set residual (.sub (.read (plan.flat .objValueOut (.const 0) count)) (.read reference)),
      .increase (Phases.ownScalar 0) (Horizon.quadratic residual weight)]

section Terms

variable {host : Host α σ problem.program.table.sizes}
  {scene : Scene α (σ × List (HostCall α problem.program.table.sizes))
    problem.program.table.sizes} {frame : Frame} {world : problem.Recorded σ}
  {function : External} {entries width number : Nat} {values : List α → Nat → α}
  {node : AffineIndex} {withControl : Bool}

/-- Adding the term of a node.  Neither its reference nor its weighting stands in the
buffers. -/
theorem accumulates_term (records : scene.Records host)
    (tame : ∀ passed memory state, (host function passed memory state).memory = memory)
    (outputs : problem.Outputs host function entries width values)
    (value : frame.valueOf node = number)
    (control : decide (number < problem.dims.n) = withControl)
    {start : problem.Contents} (changes : problem.Changes InBuffers start world.store.memory)
    (entries_eq : (problem.nodeInput start number).length = entries)
    {array count : Nat} (count_le : count ≤ width) (width_le : width ≤ problem.sizeOf .objValueOut)
    (total : 1 ≤ (world.store.content (.stack (frame.height + 0))).size)
    (room : count ≤ (world.store.content (.stack (frame.height + array))).size)
    (other : array ≠ 0) {reference : Quantity} {first : Nat} {window : Window}
    (refers : ∀ store : Store α problem.program.table.sizes,
      problem.Changes InBuffers start store.memory →
        frame.shown store window = problem.part start reference first count 1)
    {weight : Expr α} {matrix : Matrix α}
    (weighs : ∀ store : Store α problem.program.table.sizes,
      problem.Changes InBuffers start store.memory → frame.valueIn store weight = matrix) :
    problem.Accumulates frame InBuffers
      [(problem.residual start (values (problem.nodeInput start number)) reference first
        count).weightedSquare matrix] world
      (effects scene frame
        (problem.addTerm function node withControl array count window weight) world) := by
  let vector := problem.residual start (values (problem.nodeInput start number)) reference first
    count
  let residual := Window.dense (.own array) (.const 0) count 1
  let difference : Expr α :=
    .sub (.read (problem.plan.flat .objValueOut (.const 0) count)) (.read window)
  let evaluated := effects scene frame
    (problem.plan.loadNodeInput problem.dims .objValueIn node withControl ++
      [problem.plan.evaluate function .objValueIn .objValueOut]) world
  let stored := (Statement.set residual difference).effect scene frame evaluated
  have input_eq : problem.nodeInput world.store.memory number = problem.nodeInput start number :=
    changes.nodeInput_eq (fun _ => by simp [InBuffers]) number
  obtain ⟨stack_eq, evaluatedChanges, holds⟩ := @outputs_node α σ _ problem host scene frame world
    function entries width number values node withControl records tame outputs value control
    (input_eq ▸ entries_eq) width_le
  have alike : evaluated.store.Alike world.store :=
    congrArg (fun stack : Array (Array α) => stack.toList.map Array.size) stack_eq
  -- the residual is the difference of the outputs and the reference
  have difference_eq : frame.valueIn evaluated.store difference = vector := by
    refine congrArg₂ Matrix.sub (Frame.valueIn_flat.trans (Matrix.ofFn_congr ?_))
      (refers evaluated.store (changes.trans evaluatedChanges))
    intro row row_lt col col_lt
    obtain rfl : col = 0 := Nat.lt_one_iff.1 col_lt
    rw [Frame.valueOf_const, Nat.zero_add, Nat.mul_one, Nat.add_zero,
      holds row (Nat.lt_of_lt_of_le row_lt count_le), input_eq]
  have shape_eq : vector.shape = (count, 1) := rfl
  have puts : frame.PutsOwn array (count * 1) vector.element evaluated stored := by
    rw [← difference_eq]
    exact Frame.putsOwn_assign scene
      (by rw [Nat.mul_one, alike.size_content]; exact room) .set (by rw [difference_eq]; rfl)
  have shown_eq : frame.shown stored.store residual = vector := puts.shown shape_eq
  have weight_eq : frame.valueIn stored.store weight = matrix :=
    weighs stored.store (puts.memory ▸ changes.trans evaluatedChanges)
  have product_eq : frame.valueIn stored.store (Horizon.quadratic residual weight) =
      (vector.transpose.mul matrix).mul vector :=
    congrArg₂ Matrix.mul
      (congrArg₂ Matrix.mul (Frame.shown_transpose.trans (congrArg _ shown_eq)) weight_eq) shown_eq
  have increase := @accumulates_increase α σ _ problem scene frame InBuffers stored
    (le_of_le_of_eq total ((puts.alike.trans alike).size_content _).symm)
    (Horizon.quadratic residual weight) _ (by rw [product_eq]; rfl) rfl
  rw [product_eq] at increase
  have after_eq : effects scene frame
      (problem.addTerm function node withControl array count window weight) world =
        (Statement.increase (Phases.ownScalar 0) (Horizon.quadratic residual weight)).effect scene
          frame stored := by
    simp only [addTerm, stored, evaluated, effects_append, effects]
    rfl
  rw [after_eq]
  refine ⟨increase.alike.trans (puts.alike.trans alike),
    evaluatedChanges.trans (puts.memory ▸ increase.memory), increase.total.trans ?_⟩
  refine congrArg (List.foldl (· + ·) · _) ((puts.other other.symm 0).trans ?_)
  exact Store.read_stack_congr stack_eq _ _

end Terms

/-! ## Weightings -/

/-- The weighting of a stage as the routine writes it. -/
def weightExpr (problem : Problem α) (node : AffineIndex) : Expr α :=
  match problem.weight, problem.plan.weightWindow? problem.dims problem.flags node with
  | some known, _ => .known known
  | none, some window => .read window
  | none, none => .known (.scaledIdentity problem.dims.ny 1)

/-- The terminal weighting as the routine writes it. -/
def terminalWeightExpr (problem : Problem α) : Expr α :=
  match problem.terminalWeight with
  | some known => .known known
  | none =>
      if problem.plan.has .wN then .read (problem.plan.whole .wN)
      else .known (.scaledIdentity problem.dims.nyn 1)

section Weightings

variable {frame : Frame} {store : Store α problem.program.table.sizes}

/-- A weighting is given or stands in its array. -/
theorem valueIn_weightExpr {node : AffineIndex} {number : Nat}
    (value : frame.valueOf node = number) :
    frame.valueIn store (problem.weightExpr node) =
      Objective.stageWeight problem store.memory number := by
  unfold weightExpr Objective.stageWeight Objective.Place.getD Objective.Place.matrix
    Objective.stageWeightPlace
  cases weight : problem.weight with
  | some known => rfl
  | none =>
      have shape : problem.shapeOf? .w = some (if problem.flags.variableWeighting then
          problem.dims.n * problem.dims.ny else problem.dims.ny, problem.dims.ny) := by
        simp [weight]
      have present : problem.plan.has .w = true := by simp [weight]
      rw [Plan.weightWindow?, if_pos present]
      cases varying : problem.flags.variableWeighting with
      | true =>
          rw [varying, if_pos rfl] at shape
          simp only [if_true, Option.getD_none]
          have starts : frame.startOf (problem.plan.rows .w (node.scaled problem.dims.ny)
              problem.dims.ny) =
              ⟨.global (problem.plan.id .w), number * (problem.dims.ny * problem.dims.ny)⟩ :=
            Objective.startOf_rows shape value
          rw [Frame.rows_eq _ _ shape] at starts ⊢
          exact Frame.shown_eq_part starts
      | false =>
          rw [varying, if_neg Bool.false_ne_true] at shape
          simp only [Bool.false_eq_true, if_false, Option.getD_none]
          exact Frame.valueIn_whole shape

theorem valueIn_terminalWeightExpr :
    frame.valueIn store problem.terminalWeightExpr =
      Objective.terminalWeight problem store.memory := by
  unfold terminalWeightExpr Objective.terminalWeight Objective.Place.getD Objective.Place.matrix
    Objective.terminalWeightPlace
  cases weight : problem.terminalWeight with
  | some known => rfl
  | none =>
      have shape : problem.shapeOf? .wN = some (problem.dims.nyn, problem.dims.nyn) := by
        simp [weight]
      have present : problem.plan.has .wN = true := by simp [weight]
      simp only [present, if_true, Option.getD_none]
      exact Frame.valueIn_whole shape

end Weightings

/-! ## The routine -/

/-- The terms of the objective: those of the stages, then that of the terminal node. -/
def objectiveTerms (problem : Problem α) (stage terminal : List α → Nat → α)
    (memory : problem.Contents) : List α :=
  let dims := problem.dims
  let stageTerm (node : Nat) : α :=
    (problem.residual memory (stage (problem.nodeInput memory node)) .y (node * dims.ny)
      dims.ny).weightedSquare (Objective.stageWeight problem memory node)
  (List.range dims.n).map stageTerm ++
    [(problem.residual memory (terminal (problem.nodeInput memory dims.n)) .yN 0
      dims.nyn).weightedSquare (Objective.terminalWeight problem memory)]

theorem body_objectiveRoutine :
    (Horizon.objectiveRoutine problem problem.plan).body =
      let dims := problem.dims
      let node := AffineIndex.var "lRun1"
      [.set (Phases.ownScalar 0) Horizon.zero,
        .loop "lRun1" 0 dims.n
          (problem.addTerm .stageCost node true 1 dims.ny
            (problem.plan.flat .y (node.scaled dims.ny) dims.ny) (problem.weightExpr node))] ++
      problem.addTerm .terminalCost (.const dims.n) false 2 dims.nyn (problem.plan.whole .yN)
        problem.terminalWeightExpr ++
      [.set (Phases.ownScalar 0) (.mul (.scalar Scalar.half) (.read (Phases.ownScalar 0)))] :=
  rfl

section Routine

variable {host : Host α σ problem.program.table.sizes} {stage terminal : List α → Nat → α}
  {scene : Scene α (σ × List (HostCall α problem.program.table.sizes))
    problem.program.table.sizes} {frame : Frame} {world : problem.Recorded σ}

/-- The arrays of the routine: the total, and one for each kind of residual. -/
structure HasRoom (problem : Problem α) (frame : Frame)
    (store : Store α problem.program.table.sizes) : Prop where
  total : 1 ≤ (store.content (.stack (frame.height + 0))).size
  stage : problem.dims.ny ≤ (store.content (.stack (frame.height + 1))).size
  terminal : problem.dims.nyn ≤ (store.content (.stack (frame.height + 2))).size

theorem HasRoom.of_alike {store other : Store α problem.program.table.sizes}
    (hasRoom : problem.HasRoom frame store) (alike : other.Alike store) :
    problem.HasRoom frame other := by
  refine ⟨?_, ?_, ?_⟩ <;> rw [alike.size_content]
  · exact hasRoom.total
  · exact hasRoom.stage
  · exact hasRoom.terminal

/-- Adding the terms of the stages. -/
theorem accumulates_stages (costs : problem.Costs host stage terminal)
    (records : scene.Records host) (hasRoom : problem.HasRoom frame world.store) :
    let dims := problem.dims
    let node := AffineIndex.var "lRun1"
    let start := world.store.memory
    problem.Accumulates frame InBuffers
      ((List.range dims.n).map fun node =>
        (problem.residual start (stage (problem.nodeInput start node)) .y (node * dims.ny)
          dims.ny).weightedSquare (Objective.stageWeight problem start node))
      world
      ((Statement.loop "lRun1" 0 dims.n
        (problem.addTerm .stageCost node true 1 dims.ny
          (problem.plan.flat .y (node.scaled dims.ny) dims.ny) (problem.weightExpr node))).effect
        scene frame world) := by
  intro dims node start
  obtain ⟨_, outputs⟩ := @Objective.sizeOf_buffers α _ problem
  rw [effect_loop]
  refine accumulates_rounds fun round round_lt before alike changes => ?_
  let inner := frame.bind "lRun1" round
  have value : inner.valueOf node = round := Frame.valueOf_bind "lRun1" round
  have starts : inner.valueOf (node.scaled dims.ny) = round * dims.ny := by
    rw [Frame.valueOf_scaled, value]
  have room := hasRoom.of_alike alike
  have adds := @accumulates_term α σ _ problem host scene inner before .stageCost _ _ round stage
    node true records costs.stageCost costs.stageOutputs value (decide_eq_true round_lt) start
    changes (by rw [length_nodeInput, if_pos round_lt]) 1 dims.ny
    (EvaluationLayout.derivatives_le problem).1 (outputs ▸ Nat.le_max_left _ _) room.total
    room.stage Nat.one_ne_zero .y (round * dims.ny) _
    (fun store moved => (starts ▸ Frame.valueIn_flat).trans
      (moved.part_eq fun _ _ _ => by simp [InBuffers]))
    (problem.weightExpr node) _
    (fun store moved => (valueIn_weightExpr value).trans
      (Objective.Place.getD_eq _ moved fun _ => by simp [InBuffers, Objective.stageWeightPlace]))
  exact ⟨adds.alike, adds.memory, adds.total⟩

/-- Adding the term of the terminal node. -/
theorem accumulates_terminal (costs : problem.Costs host stage terminal)
    (records : scene.Records host) (hasRoom : problem.HasRoom frame world.store)
    {start : problem.Contents} (changes : problem.Changes InBuffers start world.store.memory) :
    let dims := problem.dims
    problem.Accumulates frame InBuffers
      [(problem.residual start (terminal (problem.nodeInput start dims.n)) .yN 0
        dims.nyn).weightedSquare (Objective.terminalWeight problem start)] world
      (effects scene frame
        (problem.addTerm .terminalCost (.const dims.n) false 2 dims.nyn (problem.plan.whole .yN)
          problem.terminalWeightExpr) world) := by
  intro dims
  obtain ⟨_, outputs⟩ := @Objective.sizeOf_buffers α _ problem
  have shape : problem.shapeOf? .yN = some (dims.nyn, 1) := Problem.shapeOf?_trajectory.2.2.2.2
  exact @accumulates_term α σ _ problem host scene frame world .terminalCost _ _ dims.n terminal
    (.const dims.n) false records costs.terminalCost costs.terminalOutputs rfl
    (decide_eq_false (Nat.lt_irrefl dims.n)) start changes
    (by rw [length_nodeInput, if_neg (Nat.lt_irrefl _), Nat.add_zero]) 2 dims.nyn
    (EvaluationLayout.derivatives_le problem).2.1 (outputs ▸ Nat.le_max_right _ _) hasRoom.total
    hasRoom.terminal (by decide) .yN 0 _
    (fun store moved => (Frame.valueIn_whole shape).trans
      (moved.part_eq fun _ _ _ => by simp [InBuffers]))
    problem.terminalWeightExpr _
    (fun store moved => valueIn_terminalWeightExpr.trans
      (Objective.Place.getD_eq _ moved fun _ => by simp [InBuffers, Objective.terminalWeightPlace]))

/-- The body of the routine computes the value of the objective through the buffers. -/
theorem effects_objectiveRoutine (costs : problem.Costs host stage terminal)
    (records : scene.Records host) (hasRoom : problem.HasRoom frame world.store) :
    let after := effects scene frame (Horizon.objectiveRoutine problem problem.plan).body world
    problem.Changes InBuffers world.store.memory after.store.memory ∧
      frame.ownAt after.store 0 0 = Scalar.half *
        (problem.objectiveTerms stage terminal world.store.memory).foldl (· + ·) 0 := by
  let dims := problem.dims
  let node := AffineIndex.var "lRun1"
  let cleared := (Statement.set (Phases.ownScalar 0) Horizon.zero).effect scene frame world
  let stages := (Statement.loop "lRun1" 0 dims.n
    (problem.addTerm .stageCost node true 1 dims.ny
      (problem.plan.flat .y (node.scaled dims.ny) dims.ny) (problem.weightExpr node))).effect
    scene frame cleared
  let added := effects scene frame
    (problem.addTerm .terminalCost (.const dims.n) false 2 dims.nyn (problem.plan.whole .yN)
      problem.terminalWeightExpr) stages
  let halved : Expr α := .mul (.scalar Scalar.half) (.read (Phases.ownScalar 0))
  have puts := @Frame.putsOwn_scalar α _ _ _ scene frame world 0 hasRoom.total .set Horizon.zero 0
    rfl rfl
  have roomCleared : problem.HasRoom frame cleared.store := hasRoom.of_alike puts.alike
  have first := @accumulates_stages α σ _ problem host stage terminal scene frame cleared costs
    records roomCleared
  have second := @accumulates_terminal α σ _ problem host stage terminal scene frame stages costs
    records (roomCleared.of_alike first.alike) cleared.store.memory first.memory
  have memory_eq : cleared.store.memory = world.store.memory := puts.memory
  have both : problem.Accumulates frame InBuffers
      (problem.objectiveTerms stage terminal world.store.memory) cleared added :=
    memory_eq ▸ first.trans second
  have total_eq : frame.ownAt added.store 0 0 =
      (problem.objectiveTerms stage terminal world.store.memory).foldl (· + ·) 0 :=
    both.total.trans (congrArg (List.foldl _ · _) (puts.inside Nat.one_pos))
  have halved_eq : frame.valueIn added.store halved =
      (Matrix.scalar Scalar.half).mul (.ofFn 1 1 fun row col =>
        frame.ownAt added.store 0 (row * 1 + col)) :=
    congrArg (Matrix.mul _) (frame.shown_own added.store 0 1 1)
  let ended := (Statement.set (Phases.ownScalar 0) halved).effect scene frame added
  have last : frame.PutsOwn 0 1 (fun _ => Scalar.half * frame.ownAt added.store 0 0) added ended :=
    Frame.putsOwn_scalar scene (roomCleared.of_alike both.alike).total .set
      (by rw [halved_eq]; rfl)
      (by rw [halved_eq, Matrix.entry_mul_one rfl rfl,
            Matrix.entry_ofFn _ Nat.one_pos Nat.one_pos]; rfl)
  have after_eq : effects scene frame (Horizon.objectiveRoutine problem problem.plan).body world =
      ended := by
    simp only [body_objectiveRoutine, effects_append, effects]
    rfl
  rw [after_eq]
  refine ⟨?_, ?_⟩
  · rw [last.memory, ← memory_eq]
    exact both.memory
  · rw [← total_eq]
    exact last.inside Nat.one_pos

end Routine

/-- A run of the routine returns the value of the objective and changes the buffers only. -/
theorem run_objectiveRoutine (wellFormed : problem.WellFormed)
    {host : Host α σ problem.program.table.sizes} {stage terminal : List α → Nat → α}
    (costs : problem.Costs host stage terminal) (state : σ) (memory : problem.Contents) :
    let outcome := problem.program.run host state memory Horizon.objectiveName []
    outcome.result = .ok (Scalar.half *
        (problem.objectiveTerms stage terminal memory).foldl (· + ·) 0) ∧
      problem.Changes InBuffers memory outcome.memory := by
  let routine := Horizon.objectiveRoutine problem problem.plan
  have mem : routine ∈ problem.program.routines := by
    rw [Problem.routines_program]
    simp [routine]
  obtain ⟨depth, run_eq, _⟩ := problem.run_eq_effects mem rfl
    (safe_routines wellFormed routine mem) host state memory
  let frame := Frame.ofCall routine [] 0
  have own (array : Nat) {decl : ArrayDecl α} (declared : routine.locals[array]? = some decl) :=
    @Problem.size_own α σ _ problem routine array decl declared state memory _ (.refl _)
  have hasRoom : problem.HasRoom frame (problem.startOf routine state memory).store :=
    ⟨le_of_le_of_eq (Nat.le_refl 1) (own 0 rfl).symm,
      le_of_le_of_eq (Nat.le_of_eq (Nat.mul_one _).symm) (own 1 rfl).symm,
      le_of_le_of_eq (Nat.le_of_eq (Nat.mul_one _).symm) (own 2 rfl).symm⟩
  obtain ⟨changes, total_eq⟩ := effects_objectiveRoutine costs
    (problem.program.records_scene host (depth + 2)) hasRoom
  have result_eq : routine.result = some 0 := rfl
  intro outcome
  have outcome_eq : outcome = _ := run_eq
  rw [outcome_eq]
  simp only [result_eq, Option.elim_some]
  refine ⟨congrArg Except.ok total_eq, ?_⟩
  exact changes

end Problem

end RtiAssembly
