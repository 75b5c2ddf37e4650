import RtiAssembly.Proofs.Program.Readers
import RtiAssembly.Proofs.Solver.ControlLoop
import RtiAssembly.Proofs.Solver.ObjectiveValue
import RtiAssembly.Proofs.Solver.Optimality

/-!
# Inspections of the iterate

The value of the objective and the residual of the optimality conditions may be asked
for at any time.  The buffers of the objective carry nothing from one routine to the
next: whatever stands there when a routine is run, it returns the same and leaves the
same in all other arrays.  An inspection changes nothing else, so that it does not
matter to the runs that follow.
-/

namespace RtiAssembly

open Statement

/-! ## The stack below a routine -/

/-- A routine that is not passed anything leaves the stack as it is. -/
theorem Program.stack_perform {α σ : Type} [Scalar α] {program : Program α}
    {host : Host α σ program.table.sizes} {depth : Nat} {routine : Routine α}
    (safe : program.Safe depth routine) (parameters : routine.parameters = [])
    (world : World α σ program.table.sizes) :
    (program.perform host depth routine [] world).2.store.stack = world.store.stack := by
  have enters : program.Enters host depth routine := program.enters_of_safe safe
  obtain ⟨returns, alike⟩ := enters [] world (by rw [parameters]; exact .nil)
  unfold Execution.Returns at returns
  apply Array.ext alike.size_stack
  intro position inside below
  have respects : host.Respects (.stack position) fun _ _ => True :=
    ⟨fun _ => trivial, fun _ _ => trivial, fun _ _ _ _ => trivial, nofun⟩
  have alone : Execution.LeavesAlone (.stack position) _ (program.enter host depth routine []) :=
    program.leavesAlone_enter_stack respects nofun
  have kept := (alone world below).content
  rw [returns] at kept
  simpa [Store.content, Array.getD_eq_getD_getElem?, inside, below] using kept

/-! ## What the evaluation of the objective computes -/

namespace Objective

variable {α σ : Type} [Scalar α] {problem : Problem α}

/-- Calls that leave the same at the first positions of their output. -/
def SameOutputs (width : Nat) (first second : HostCall α problem.program.table.sizes) : Prop :=
  ∀ position < width, first.leaves 1 position = second.leaves 1 position

/-- The derivatives that are used depend on the outputs of a call only. -/
theorem used_congr {first second : HostCall α problem.program.table.sizes} :
    let layout := EvaluationLayout.ofProblem problem
    (SameOutputs layout.stageWidth first second →
      usedFx problem first = usedFx problem second ∧
        usedFu problem first = usedFu problem second) ∧
    (SameOutputs layout.terminalWidth first second →
      usedTerminalFx problem first = usedTerminalFx problem second) := by
  obtain ⟨_, _, fx_le, fu_le, terminal_le⟩ := EvaluationLayout.derivatives_le problem
  have used {known : Option (Matrix α)} {start? : Option Nat} {rows cols width : Nat}
      (same : SameOutputs width first second)
      (runtime : known = none → ∃ start, start? = some start)
      (inside : ∀ start ∈ start?, start + rows * cols ≤ width) :
      known.getD (first.part 1 (start?.getD 0) rows cols) =
        known.getD (second.part 1 (start?.getD 0) rows cols) := by
    cases known with
    | some _ => rfl
    | none =>
        obtain ⟨start, rfl⟩ := runtime rfl
        have start_le := inside start rfl
        simp only [Option.getD_none, Option.getD_some, HostCall.part]
        refine Matrix.ofFn_congr fun row row_lt col col_lt => same _ ?_
        have row_le := block_le cols row_lt
        omega
  refine ⟨fun same => ⟨used same ?_ fx_le, used same ?_ fu_le⟩, fun same => used same ?_ terminal_le⟩
  · intro runtime
    simp [EvaluationLayout.ofProblem, runtime]
  · intro runtime
    simp [EvaluationLayout.ofProblem, runtime]
  · intro runtime
    simp [EvaluationLayout.ofProblem, runtime]

/-- The quantities that the evaluation computes: residuals and blocks that are not known. -/
theorem eq_of_share {quantity : Quantity} (shared : share problem quantity)
    (result : ¬Problem.InBuffers quantity 0) :
    let known := KnownBlocks.ofProblem problem
    quantity = .dy ∨ quantity = .dyN ∨
      known.states = none ∧ (quantity = .q2 ∨ quantity = .hessianQ) ∨
      known.controls = none ∧ (quantity = .r2 ∨ quantity = .hessianR) ∨
      known.cross = none ∧ quantity = .hessianS ∨
      known.terminal = none ∧ (quantity = .qN2 ∨ quantity = .hessianQf) := by
  unfold share terminalShare stageSize? at shared
  unfold Problem.InBuffers at result
  cases quantity <;> simp at shared result ⊢ <;> assumption

/-- Evaluations with the same outputs and weightings compute the same. -/
theorem Holds.unique {firstStart secondStart first second : problem.Contents}
    {firstStages secondStages : List (HostCall α problem.program.table.sizes)}
    {firstTerminal secondTerminal : HostCall α problem.program.table.sizes}
    (firstHolds : Holds problem firstStart firstStages firstTerminal first)
    (secondHolds : Holds problem secondStart secondStages secondTerminal second)
    (weights : ∀ node, stageWeight problem firstStart node = stageWeight problem secondStart node)
    (terminalWeights : terminalWeight problem firstStart = terminalWeight problem secondStart)
    (stages : ∀ node < problem.dims.n, ∀ call ∈ firstStages[node]?,
      ∀ other ∈ secondStages[node]?,
        SameOutputs (EvaluationLayout.ofProblem problem).stageWidth call other)
    (terminals : SameOutputs (EvaluationLayout.ofProblem problem).terminalWidth firstTerminal
      secondTerminal)
    {quantity : Quantity} (shared : share problem quantity)
    (result : ¬Problem.InBuffers quantity 0) (position : Nat) :
    problem.valueAt first quantity position = problem.valueAt second quantity position := by
  obtain ⟨values_le, terminalValues_le, _⟩ := EvaluationLayout.derivatives_le problem
  obtain ⟨shapeQ, shapeR, shapeS, shapeQf, shapeQ2, shapeR2, shapeQN2⟩ :=
    @Problem.shapeOf?_blocks α _ problem
  obtain ⟨_, _, _, _, shapeDy, shapeDyN⟩ := @Problem.shapeOf?_evaluation α _ problem
  have stage (node : Nat) (node_lt : node < problem.dims.n) :
      ∃ call other, StageHolds problem firstStart node call first ∧
        StageHolds problem secondStart node other second ∧
        SameOutputs (EvaluationLayout.ofProblem problem).stageWidth call other := by
    obtain ⟨call, place, holds⟩ := firstHolds.stage node node_lt
    obtain ⟨other, otherPlace, otherHolds⟩ := secondHolds.stage node node_lt
    exact ⟨call, other, holds, otherHolds, stages node node_lt call place other otherPlace⟩
  -- the blocks of a node come from the same derivatives and the same weighting
  have blocks (node : Nat) (node_lt : node < problem.dims.n) : ∃ fx fu weight,
      StageBlocks problem node fx fu weight first ∧
        StageBlocks problem node fx fu weight second := by
    obtain ⟨call, other, holds, otherHolds, same⟩ := stage node node_lt
    obtain ⟨fx_eq, fu_eq⟩ := used_congr.1 same
    refine ⟨_, _, _, holds.blocks, ?_⟩
    rw [fx_eq, fu_eq, weights]
    exact otherHolds.blocks
  have ofBlocks {quantity : Quantity} {rows cols : Nat}
      (shape : problem.shapeOf? quantity = some (problem.dims.n * rows, cols))
      (agree : ∀ {node fx fu weight}, StageBlocks problem node fx fu weight first →
        StageBlocks problem node fx fu weight second →
        problem.part first quantity (node * (rows * cols)) rows cols =
          problem.part second quantity (node * (rows * cols)) rows cols) (position : Nat) :
      problem.valueAt first quantity position = problem.valueAt second quantity position := by
    refine Problem.valueAt_eq_of_blocks shape (fun node node_lt => ?_) position
    obtain ⟨fx, fu, weight, held, otherHeld⟩ := blocks node node_lt
    exact agree held otherHeld
  have fx_eq := used_congr.2 terminals
  obtain rfl | rfl | ⟨states, rfl | rfl⟩ | ⟨controls, rfl | rfl⟩ | ⟨cross, rfl⟩ |
    ⟨terminal, rfl | rfl⟩ := eq_of_share shared result
  · refine Problem.valueAt_eq_of_blocks shapeDy (fun node node_lt => ?_) position
    obtain ⟨call, other, holds, otherHolds, same⟩ := stage node node_lt
    refine Matrix.ofFn_congr fun row row_lt col col_lt => ?_
    obtain rfl := Nat.lt_one_iff.1 col_lt
    rw [Nat.mul_one, Nat.mul_one, Nat.add_zero, holds.residuals row row_lt,
      otherHolds.residuals row row_lt]
    exact same row (Nat.lt_of_lt_of_le row_lt values_le)
  · refine Problem.valueAt_eq_of_part shapeDyN (Matrix.ofFn_congr fun row row_lt col col_lt => ?_)
      position
    obtain rfl := Nat.lt_one_iff.1 col_lt
    rw [Nat.zero_add, Nat.mul_one, Nat.add_zero, firstHolds.terminal.residuals row row_lt,
      secondHolds.terminal.residuals row row_lt]
    exact terminals row (Nat.lt_of_lt_of_le row_lt terminalValues_le)
  · rw [states] at shapeQ2
    apply ofBlocks shapeQ2
    intro _ _ _ _ held otherHeld
    exact (held.states states).1.trans (otherHeld.states states).1.symm
  · apply ofBlocks shapeQ
    intro _ _ _ _ held otherHeld
    exact (held.states states).2.trans (otherHeld.states states).2.symm
  · rw [controls] at shapeR2
    apply ofBlocks shapeR2
    intro _ _ _ _ held otherHeld
    exact (held.controls controls).1.trans (otherHeld.controls controls).1.symm
  · apply ofBlocks shapeR
    intro _ _ _ _ held otherHeld
    exact (held.controls controls).2.trans (otherHeld.controls controls).2.symm
  · apply ofBlocks shapeS
    intro _ _ _ _ held otherHeld
    exact (held.cross cross).trans (otherHeld.cross cross).symm
  · rw [terminal] at shapeQN2
    have held := (firstHolds.terminal.blocks terminal).1
    rw [fx_eq, terminalWeights] at held
    exact Problem.valueAt_eq_of_part shapeQN2
      (held.trans (secondHolds.terminal.blocks terminal).1.symm) position
  · have held := (firstHolds.terminal.blocks terminal).2
    rw [fx_eq, terminalWeights] at held
    exact Problem.valueAt_eq_of_part shapeQf
      (held.trans (secondHolds.terminal.blocks terminal).2.symm) position

/-- The evaluation with functions that compute their outputs from the node that they are
passed: the calls leave the outputs for the nodes as they stand in memory. -/
theorem outputs_evaluate (wellFormed : problem.WellFormed)
    {host : Host α σ problem.program.table.sizes} {stage terminal : List α → Nat → α}
    (costs : problem.Costs host stage terminal) (depth : Nat) (world : problem.Recorded σ) :
    let layout := EvaluationLayout.ofProblem problem
    let memory := world.store.memory
    let after := (problem.program.perform host.recorded (depth + 2)
      (evaluateRoutine problem problem.plan) [] world).2
    problem.Changes (fun quantity _ => share problem quantity) memory after.store.memory ∧
      ∃ stages last, Holds problem memory stages last after.store.memory ∧
        (∀ node < problem.dims.n, ∀ call ∈ stages[node]?, ∀ position < layout.stageWidth,
          call.leaves 1 position = stage (problem.nodeInput memory node) position) ∧
        ∀ position < layout.terminalWidth,
          last.leaves 1 position = terminal (problem.nodeInput memory problem.dims.n) position := by
  intro layout memory
  let scene := problem.program.scene host.recorded (depth + 2)
  let frame := Frame.ofCall (evaluateRoutine problem problem.plan) [] 0
  have after_eq : (Statement.run evaluateName []).effect scene frame world =
      (problem.program.perform host.recorded (depth + 2) (evaluateRoutine problem problem.plan) []
        world).2 := Problem.effect_run Problem.mem_routines.2.1 [] world
  obtain ⟨stages, last, moves, held⟩ := @holds_evaluate α σ _ problem frame host depth world
    wellFormed costs.toCostsTame
  obtain ⟨others, other, otherMoves, returns⟩ := @returns_evaluate α σ _ problem frame host depth
    world wellFormed
  -- both describe the calls that were recorded
  obtain ⟨rfl, lasts_eq⟩ := List.append_inj'
    (List.append_cancel_left (moves.record.symm.trans otherMoves.record)) rfl
  obtain rfl : last = other := List.singleton_inj.1 lasts_eq
  have replies : ∀ call ∈ stages ++ [last], call.IsReply host :=
    (Statement.records_effect (problem.program.records_scene host (depth + 2)) _ world).isReply
      moves.record
  rw [← after_eq]
  refine ⟨moves.memory, stages, last, held, fun node node_lt call place position position_lt => ?_,
    fun position position_lt => ?_⟩
  · obtain ⟨_, holdsPlace, holds⟩ := held.stage node node_lt
    obtain ⟨_, returnsPlace, stageReturns⟩ := returns.stage node node_lt
    cases place.symm.trans holdsPlace
    cases place.symm.trans returnsPlace
    refine Problem.leaves_of_outputs costs.stageOutputs stageReturns.meets
      (replies call (List.mem_append_left _ (List.mem_of_getElem? place))) holds.asks.input_eq ?_
      position_lt
    rw [Problem.length_nodeInput, if_pos node_lt]
  · refine Problem.leaves_of_outputs costs.terminalOutputs returns.meets
      (replies last (List.mem_append_right _ (List.mem_singleton_self last)))
      held.terminal.asks.input_eq ?_ position_lt
    rw [Problem.length_nodeInput, if_neg (Nat.lt_irrefl _), Nat.add_zero]

end Objective

namespace Problem

variable {α σ : Type} [Scalar α] {problem : Problem α}

/-! ## Memories that differ in the buffers -/

/-- Memories match apart from the buffers if all elements outside of them are equal. -/
theorem matches_iff_changes {first second : problem.Contents} :
    first.Matches problem.IsBuffer second ↔ problem.Changes InBuffers second first := by
  constructor
  · intro same quantity position outside
    have content_eq := same (problem.plan.id quantity) fun hidden => outside (isBuffer_id.1 hidden)
    rw [valueAt, valueAt, content_eq]
  · intro changes id seen
    cases found : problem.plan.table.get? id with
    | none => rw [content_eq_empty found first, content_eq_empty found second]
    | some decl =>
        obtain ⟨quantity, _, rfl⟩ := problem.exists_quantity found
        exact content_eq fun position =>
          changes quantity position fun here => seen (isBuffer_id.2 here)

/-- What stands in the buffers does not matter to the terms of the objective. -/
theorem objectiveTerms_congr {first second : problem.Contents}
    (same : first.Matches problem.IsBuffer second) (stage terminal : List α → Nat → α) :
    problem.objectiveTerms stage terminal first =
      problem.objectiveTerms stage terminal second := by
  have changes := matches_iff_changes.1 same
  have inputs (node : Nat) : problem.nodeInput first node = problem.nodeInput second node :=
    changes.nodeInput_eq (fun _ => by simp [InBuffers]) node
  have references (quantity : Quantity) (other : quantity = .y ∨ quantity = .yN)
      (values : Nat → α) (start count : Nat) :
      problem.residual first values quantity start count =
        problem.residual second values quantity start count := by
    refine congrArg (Matrix.sub _) (changes.part_eq fun _ _ _ => ?_)
    rcases other with rfl | rfl <;> simp [InBuffers]
  have weights (node : Nat) :
      Objective.stageWeight problem first node = Objective.stageWeight problem second node :=
    Objective.Place.getD_eq _ changes fun _ => by simp [InBuffers, Objective.stageWeightPlace]
  have terminalWeights :
      Objective.terminalWeight problem first = Objective.terminalWeight problem second :=
    Objective.Place.getD_eq _ changes fun _ => by simp [InBuffers, Objective.terminalWeightPlace]
  simp only [objectiveTerms, inputs, references .y (.inl rfl), references .yN (.inr rfl), weights,
    terminalWeights]

/-- Evaluations of the objective that start from memories that match end with memories that
match. -/
theorem matches_evaluate (wellFormed : problem.WellFormed)
    {host : Host α σ problem.program.table.sizes} {stage terminal : List α → Nat → α}
    (costs : problem.Costs host stage terminal) (depth : Nat) {world other : problem.Recorded σ}
    (same : world.store.memory.Matches problem.IsBuffer other.store.memory) :
    let routine := Objective.evaluateRoutine problem problem.plan
    let after := (problem.program.perform host.recorded (depth + 2) routine [] world).2
    let otherAfter := (problem.program.perform host.recorded (depth + 2) routine [] other).2
    after.store.memory.Matches problem.IsBuffer otherAfter.store.memory := by
  intro routine after otherAfter
  obtain ⟨changes, stages, last, holds, outputs, lastOutputs⟩ :=
    Objective.outputs_evaluate wellFormed costs depth world
  obtain ⟨otherChanges, otherStages, otherLast, otherHolds, otherOutputs, otherLastOutputs⟩ :=
    Objective.outputs_evaluate wellFormed costs depth other
  have starts := matches_iff_changes.1 same
  have inputs (node : Nat) : problem.nodeInput world.store.memory node =
      problem.nodeInput other.store.memory node :=
    starts.nodeInput_eq (fun _ => by simp [InBuffers]) node
  refine matches_iff_changes.2 fun quantity position outside => ?_
  by_cases shared : Objective.share problem quantity
  · refine holds.unique otherHolds (fun node => ?_) ?_ ?_ ?_ shared outside position
    · exact Objective.Place.getD_eq _ starts fun _ => by
        simp [InBuffers, Objective.stageWeightPlace]
    · exact Objective.Place.getD_eq _ starts fun _ => by
        simp [InBuffers, Objective.terminalWeightPlace]
    · intro node node_lt call place otherCall otherPlace row row_lt
      rw [outputs node node_lt call place row row_lt,
        otherOutputs node node_lt otherCall otherPlace row row_lt, inputs]
    · intro row row_lt
      rw [lastOutputs row row_lt, otherLastOutputs row row_lt, inputs]
  · rw [changes quantity position shared, otherChanges quantity position shared]
    exact starts quantity position outside

/-! ## Runs that ignore the buffers -/

section Runs

variable {host : Host α Unit problem.program.table.sizes} {stage terminal : List α → Nat → α}

theorem ignores_evaluate (wellFormed : problem.WellFormed)
    (costs : problem.Costs host stage terminal) (depth : Nat) :
    Execution.Ignores problem.IsBuffer (problem.program.enter host (depth + 2)
      (Objective.evaluateRoutine problem problem.plan) []) := by
  intro world other same
  let routine := Objective.evaluateRoutine problem problem.plan
  have safe : problem.program.Safe (depth + 2) routine :=
    (safe_objective wellFormed).mono (Nat.le_add_left 2 depth)
  have enters (world : World α Unit problem.program.table.sizes) :
      (problem.program.enter host (depth + 2) routine []).run.run world =
        (.ok 0, (problem.program.perform host (depth + 2) routine [] world).2) :=
    (problem.program.enters_of_safe safe [] world .nil).1
  -- recording the calls does not change what becomes of the memory
  let recorded (world : World α Unit problem.program.table.sizes) : problem.Contents :=
    (problem.program.perform host.recorded (depth + 2) routine []
      ⟨world.store, (world.state, [])⟩).2.store.memory
  have recorded_eq (world : World α Unit problem.program.table.sizes) : recorded world =
      (problem.program.perform host (depth + 2) routine [] world).2.store.memory :=
    congrArg (fun world : World α Unit problem.program.table.sizes => world.store.memory)
      ((problem.program.erases_scene host (depth + 2)).2.2 routine []
        ⟨world.store, (world.state, [])⟩).2
  have below (world : World α Unit problem.program.table.sizes) :
      (problem.program.perform host (depth + 2) routine [] world).2.store.stack =
        world.store.stack :=
    problem.program.stack_perform safe rfl world
  have memories : (recorded world).Matches problem.IsBuffer (recorded other) :=
    matches_evaluate wellFormed costs depth same.store.memory
  rw [recorded_eq, recorded_eq] at memories
  rw [enters, enters]
  exact ⟨rfl, ⟨(below world).trans (same.store.stack.trans (below other).symm), memories⟩, rfl⟩

/-- The preparation relies on the evaluation of the objective to ignore the buffers. -/
theorem ignores_preparation (wellFormed : problem.WellFormed)
    (costs : problem.Costs host stage terminal) (overlooked : problem.BuffersOverlooked host)
    (depth : Nat) :
    Execution.Ignores problem.IsBuffer (problem.program.enter host (depth + 3)
      (Phases.preparationRoutine : Routine α) []) := by
  refine Program.ignores_enter_succ fun height => ⟨List.forall_mem_nil _, ?_, ?_⟩
  · intro call mem function isCall
    simp only [Phases.preparationRoutine, callsOf, calls_invoke, calls_run, List.append_nil,
      List.mem_append, List.mem_singleton] at mem
    obtain rfl | rfl | rfl := mem <;> cases isCall
    exact overlooked .modelSimulation (by decide) (by decide)
  · intro call mem name isCall callee known scope store bindings bound
    simp only [Phases.preparationRoutine, callsOf, calls_invoke, calls_run, List.append_nil,
      List.mem_append, List.mem_singleton] at mem
    obtain rfl | rfl | rfl := mem <;> cases isCall <;> cases bound
    · cases (problem.routine?_eq mem_routines.2.1).symm.trans known
      exact ignores_evaluate wellFormed costs depth
    · cases (problem.routine?_eq mem_routines.2.2.2.2.1).symm.trans known
      exact (overlooks_constraints overlooked).ignores_enter (List.forall_mem_nil _)

/-- Every routine but the evaluation of the objective value ignores the buffers, whatever it is
passed from outside. -/
theorem ignores_routines (wellFormed : problem.WellFormed)
    (costs : problem.Costs host stage terminal) (overlooked : problem.BuffersOverlooked host)
    {routine : Routine α} (mem : routine ∈ problem.program.routines)
    (other : routine.name ≠ Horizon.objectiveName) {arguments : List (Passed α)}
    {bound : List Binding × List (Array α)}
    (binds : Program.bindOutside routine.parameters arguments 0 = some bound) (depth : Nat) :
    Execution.Ignores problem.IsBuffer
      (problem.program.enter host (depth + 3) routine bound.1) := by
  by_cases evaluates : routine.name = Objective.evaluateName
  · obtain rfl := routine_eq_of_name mem mem_routines.2.1 evaluates
    rw [Program.bindings_of_bindOutside rfl binds]
    exact ignores_evaluate wellFormed costs (depth + 1)
  · by_cases prepares : routine.name = Phases.preparationName
    · obtain rfl := routine_eq_of_name mem mem_routines.2.2.2.2.2.2.1 prepares
      rw [Program.bindings_of_bindOutside rfl binds]
      exact ignores_preparation wellFormed costs overlooked depth
    · refine (overlooks_routines overlooked routine mem ?_).ignores_outside binds (depth + 3)
      simp [evaluates, prepares, other]

/-- Asking for the value of the objective ignores the buffers as well, and changes nothing
else. -/
theorem run_objective_ignores (wellFormed : problem.WellFormed)
    (costs : problem.Costs host stage terminal) {memory other : problem.Contents}
    (same : memory.Matches problem.IsBuffer other) (arguments : List (Passed α)) :
    let outcome := problem.program.run host () memory Horizon.objectiveName arguments
    let otherOutcome := problem.program.run host () other Horizon.objectiveName arguments
    outcome.result = otherOutcome.result ∧
      outcome.memory.Matches problem.IsBuffer memory := by
  cases arguments with
  | nil =>
      obtain ⟨result_eq, changes⟩ := run_objectiveRoutine wellFormed costs () memory
      obtain ⟨otherResult_eq, _⟩ := run_objectiveRoutine wellFormed costs () other
      rw [objectiveTerms_congr same] at result_eq
      exact ⟨result_eq.trans otherResult_eq.symm, matches_iff_changes.2 changes⟩
  | cons argument rest =>
      have mem : Horizon.objectiveRoutine problem problem.plan ∈ problem.program.routines := by
        rw [routines_program]
        simp
      have refused (memory : problem.Contents) :
          problem.program.run host () memory Horizon.objectiveName (argument :: rest) =
            ⟨.error (.arity Horizon.objectiveName), memory, ()⟩ :=
        Program.run_of_surplus (problem.routine?_eq mem) rfl host () memory argument rest
      simp only [refused]
      exact ⟨trivial, .refl memory⟩

/-- Whatever is run on memories that differ in the buffers only, it returns the same and
leaves memories that differ in the buffers only. -/
theorem run_ignores_buffers (wellFormed : problem.WellFormed)
    (costs : problem.Costs host stage terminal) (overlooked : problem.BuffersOverlooked host)
    {memory other : problem.Contents} (same : memory.Matches problem.IsBuffer other)
    (name : String) (arguments : List (Passed α)) :
    let outcome := problem.program.run host () memory name arguments
    let otherOutcome := problem.program.run host () other name arguments
    outcome.result = otherOutcome.result ∧
      outcome.memory.Matches problem.IsBuffer otherOutcome.memory := by
  by_cases asks : name = Horizon.objectiveName
  · subst asks
    obtain ⟨result_eq, kept⟩ := run_objective_ignores wellFormed costs same arguments
    obtain ⟨_, otherKept⟩ := run_objective_ignores wellFormed costs same.symm arguments
    exact ⟨result_eq, kept.trans (same.trans otherKept.symm)⟩
  · obtain ⟨depth, depth_eq⟩ := Nat.exists_eq_add_of_le' problem.three_le_callDepth
    have ignores : ∀ routine ∈ problem.program.routine? name, ∀ passed : List (Passed α),
        ∀ bound ∈ Program.bindOutside routine.parameters passed 0,
          Execution.Ignores problem.IsBuffer
            (problem.program.enter host problem.program.callDepth routine bound.1) := by
      intro routine known _ bound binds
      have named : routine.name = name := by simpa using List.find?_some known
      rw [depth_eq]
      exact ignores_routines wellFormed costs overlooked (List.mem_of_find?_eq_some known)
        (named ▸ asks) binds depth
    obtain ⟨result_eq, _, memories⟩ := Program.run_of_ignores ignores () same arguments
    exact ⟨result_eq, memories⟩

end Runs

end Problem

/-! ## Inspections among other runs -/

namespace Program

variable {α σ : Type} [Scalar α]

/-- What runs one after the other return, under the names of their routines. -/
def resultsOf (program : Program α) (host : Host α σ program.table.sizes) :
    List (String × List (Passed α)) → program.Contents × σ → List (String × Except Fault α)
  | [], _ => []
  | (name, arguments) :: rest, (memory, state) =>
      let outcome := program.run host state memory name arguments
      (name, outcome.result) :: resultsOf program host rest (outcome.memory, outcome.state)

end Program

namespace Problem

variable {α : Type} [Scalar α] {problem : Problem α}
  {host : Host α Unit problem.program.table.sizes} {stage terminal : List α → Nat → α}

/-- The routines that inspect the iterate. -/
def inspections : List String :=
  [Horizon.objectiveName, Phases.optimalityName]

/-- An inspection leaves everything but the buffers as it is. -/
theorem run_inspection (wellFormed : problem.WellFormed)
    (costs : problem.Costs host stage terminal) {name : String} (inspects : name ∈ inspections)
    (arguments : List (Passed α)) (memory : problem.Contents) :
    (problem.program.run host () memory name arguments).memory.Matches problem.IsBuffer memory := by
  simp only [inspections, List.mem_cons, List.not_mem_nil, or_false] at inspects
  obtain rfl | rfl := inspects
  · exact (run_objective_ignores wellFormed costs (.refl memory) arguments).2
  · have mem : Phases.optimalityRoutine problem problem.plan ∈ problem.program.routines := by
      rw [routines_program]
      simp
    have memory_eq :
        (problem.program.run host () memory Phases.optimalityName arguments).memory = memory := by
      cases arguments with
      | nil => exact (run_optimalityRoutine wellFormed host () memory).2.1
      | cons argument rest =>
          have known := problem.routine?_eq mem
          exact congrArg Program.Outcome.memory
            (Program.run_of_surplus known rfl host () memory argument rest)
    rw [memory_eq]
    exact .refl memory

/-- Runs go on alike on memories that differ in the buffers only, whether or not they are
interrupted by inspections. -/
theorem runAll_inspected (wellFormed : problem.WellFormed)
    (costs : problem.Costs host stage terminal) (overlooked : problem.BuffersOverlooked host)
    (orders : List (String × List (Passed α))) {memory other : problem.Contents}
    (same : memory.Matches problem.IsBuffer other) :
    let program := problem.program
    let others := orders.filter fun order => order.1 ∉ inspections
    (program.runAll host orders (memory, ())).1.Matches problem.IsBuffer
        (program.runAll host others (other, ())).1 ∧
      (program.resultsOf host orders (memory, ())).filter (fun result => result.1 ∉ inspections) =
        program.resultsOf host others (other, ()) := by
  intro program others
  induction orders generalizing memory other with
  | nil => exact ⟨same, rfl⟩
  | cons order rest ih =>
      obtain ⟨name, arguments⟩ := order
      by_cases inspects : name ∈ inspections
      · have kept := run_inspection wellFormed costs inspects arguments memory
        have goes := ih (kept.trans same)
        simp only [others, Program.runAll, Program.resultsOf, List.filter_cons, inspects,
          not_true_eq_false, decide_false, Bool.false_eq_true, if_false]
        exact goes
      · obtain ⟨result_eq, memories⟩ :=
          run_ignores_buffers wellFormed costs overlooked same name arguments
        have goes := ih memories
        simp only [others, Program.runAll, Program.resultsOf, List.filter_cons, inspects,
          not_false_eq_true, decide_true, if_true]
        exact ⟨goes.1, congrArg₂ List.cons (Prod.ext rfl result_eq) goes.2⟩

end Problem

/-- The value of the objective of a description at a memory: half the sum of the weighted
squares of the residuals, stage after stage and then the terminal node. -/
def Description.objectiveValue {α : Type} [Scalar α] {problem : Problem α}
    (description : Description α) (stage terminal : List α → Nat → α)
    (memory : problem.Contents) : α :=
  let dims := description.dims
  let stageTerm (node : Nat) : α :=
    (problem.residual memory (stage (problem.nodeInput memory node)) .y (node * dims.ny)
      dims.ny).weightedSquare (description.stageWeight memory node)
  let terminalTerm : α :=
    (problem.residual memory (terminal (problem.nodeInput memory dims.n)) .yN 0
      dims.nyn).weightedSquare (description.terminalWeight memory)
  Scalar.half * ((List.range dims.n).map stageTerm ++ [terminalTerm]).foldl (· + ·) 0

/-- The value of the objective, and its non-interference.  The host has no state, its
functions of the objective compute values of the node that they are passed, and its other
functions do not look into the two buffers that pass them.  Then the value of the objective
is that of the description, and asking for it changes the two buffers only.  Wherever runs
are interrupted by inspections, the other runs return the same and leave the same outside
of the two buffers. -/
theorem objectiveValue_of_accepted {α : Type} [Scalar α] {description : Description α}
    {problem : Problem α} (accepted : description.validate.value = some problem)
    {host : Host α Unit problem.program.table.sizes} {stage terminal : List α → Nat → α}
    (costs : problem.Costs host stage terminal) (overlooked : problem.BuffersOverlooked host)
    (memory : problem.Contents) (orders : List (String × List (Passed α))) :
    let program := problem.program
    let outcome := program.run host () memory Horizon.objectiveName []
    let inspections := [Horizon.objectiveName, Phases.optimalityName]
    let others := orders.filter fun order => order.1 ∉ inspections
    Plan.ofProblem problem = .ok problem.plan ∧
      outcome.result = .ok (description.objectiveValue stage terminal memory) ∧
      (∀ id, ¬problem.IsBuffer id → outcome.memory.content id = memory.content id) ∧
      (program.resultsOf host orders (memory, ())).filter (fun result => result.1 ∉ inspections) =
        program.resultsOf host others (memory, ()) ∧
      ∀ id, ¬problem.IsBuffer id →
        (program.runAll host orders (memory, ())).1.content id =
          (program.runAll host others (memory, ())).1.content id := by
  intro program outcome inspections others
  have wellFormed := Description.wellFormed_of_validate accepted
  have keeps := Description.keeps_of_validate accepted
  obtain ⟨result_eq, changes⟩ := Problem.run_objectiveRoutine wellFormed costs () memory
  obtain ⟨memories, results⟩ :=
    Problem.runAll_inspected wellFormed costs overlooked orders (.refl memory)
  refine ⟨wellFormed.ofProblem_eq_ok, result_eq.trans (congrArg Except.ok ?_),
    Problem.matches_iff_changes.2 changes, results, memories⟩
  have weights (node : Nat) := (Problem.weights_eq_of_keeps keeps memory node).1
  have terminalWeights := (Problem.weights_eq_of_keeps keeps memory 0).2
  simp only [Problem.objectiveTerms, Description.objectiveValue, weights, terminalWeights,
    keeps.dims]

/-! ## A small problem -/

/-- A host whose functions of the objective add neighbours in what they are passed, or copy
it. -/
def Host.measuring : Host ℚ Unit Problem.twoIntervals.program.table.sizes :=
  fun function passed memory state =>
    let left :=
      match function, passed with
      | .stageCost, [.array input, .array output] =>
          [.array input, .array (output.mapIdx fun position _ =>
            (input.toList.take 3).getD position 0 + (input.toList.take 3).getD (position + 1) 0)]
      | .terminalCost, [.array input, .array output] =>
          [.array input, .array (output.mapIdx fun position _ =>
            (input.toList.take 2).getD position 0)]
      | _, passed => passed
    ⟨0, left, memory, state⟩

theorem Host.costs_measuring : Problem.twoIntervals.Costs Host.measuring
    (fun input position => input.getD position 0 + input.getD (position + 1) 0)
    (fun input position => input.getD position 0) := by
  have room : (EvaluationLayout.ofProblem Problem.twoIntervals).stageWidth ≤
        Problem.twoIntervals.sizeOf .objValueOut ∧
      (EvaluationLayout.ofProblem Problem.twoIntervals).terminalWidth ≤
        Problem.twoIntervals.sizeOf .objValueOut := by decide
  have filled {output : Array ℚ} {position : Nat} (inside : position < output.size)
      (values : Nat → ℚ) :
      (output.mapIdx fun position _ => values position)[position]? = some (values position) := by
    simp [inside]
  refine ⟨⟨fun _ _ _ => rfl, fun _ _ _ => rfl⟩, ?_, ?_⟩
  · intro dims input output memory state _ output_size left position position_lt
    exact filled (output_size ▸ Nat.lt_of_lt_of_le position_lt room.1) _
  · intro dims input output memory state _ output_size left position position_lt
    exact filled (output_size ▸ Nat.lt_of_lt_of_le position_lt room.2) _

theorem Host.overlooked_measuring : Problem.twoIntervals.BuffersOverlooked Host.measuring := by
  intro function notStage notTerminal passed first second state same
  cases function with
  | stageCost => exact absurd rfl notStage
  | terminalCost => exact absurd rfl notTerminal
  | _ => exact ⟨rfl, rfl, rfl, same⟩

/-- The residuals one, two and three of a small problem, of which the second kind weighs double,
and a cycle that is interrupted by two inspections. -/
theorem objectiveValue_twoIntervals :
    let problem := Problem.twoIntervals
    let program := problem.program
    let plan := problem.plan
    let trajectory := (program.initialMemory.overwrite (plan.id .x) #[1, 2, 3]).overwrite
      (plan.id .u) #[1, 1]
    let memory := ((trajectory.overwrite (plan.id .y) #[1, 1]).overwrite
      (plan.id .w) #[2]).overwrite (plan.id .wN) #[1]
    let orders : List (String × List (Passed ℚ)) :=
      [(Phases.preparationName, []), (Horizon.objectiveName, []), (Phases.optimalityName, []),
        (Phases.feedbackName, [])]
    let others : List (String × List (Passed ℚ)) :=
      [(Phases.preparationName, []), (Phases.feedbackName, [])]
    Description.twoIntervals.validate.value = some problem ∧
      problem.BuffersOverlooked Host.measuring ∧
      (program.run Host.measuring () memory Horizon.objectiveName []).result = .ok (19 / 2) ∧
      (program.resultsOf Host.measuring orders (memory, ())).filter
          (fun result => result.1 ∉ [Horizon.objectiveName, Phases.optimalityName]) =
        program.resultsOf Host.measuring others (memory, ()) := by
  intro problem program plan trajectory memory orders others
  obtain ⟨_, result_eq, _, results, _⟩ := objectiveValue_of_accepted
    Description.validate_twoIntervals Host.costs_measuring Host.overlooked_measuring memory orders
  refine ⟨Description.validate_twoIntervals, Host.overlooked_measuring,
    result_eq.trans (congrArg Except.ok ?_), results⟩
  decide +kernel

end RtiAssembly
