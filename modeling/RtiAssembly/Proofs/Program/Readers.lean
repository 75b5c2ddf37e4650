import RtiAssembly.Proofs.Emission.Objective
import RtiAssembly.Proofs.Machine.Unread

/-!
# Routines that do not read the buffers of the objective

The functions of the objective work on two buffers.  Only the two routines that call
these functions read them; every other routine does the same whatever stands there.
-/

namespace RtiAssembly

open Statement

/-! ## Bases that are read -/

namespace Statement

variable {α : Type}

@[simp]
theorem readsOf_append (first second : List (Statement α)) :
    readsOf (first ++ second) = readsOf first ++ readsOf second := by
  induction first with
  | nil => rfl
  | cons statement rest ih => simp only [List.cons_append, readsOf, ih, List.append_assoc]

@[simp]
theorem reads_set (target : Window) (value : Expr α) :
    (set target value).reads = value.windows.map Window.base := rfl

@[simp]
theorem reads_increase (target : Window) (value : Expr α) :
    (increase target value).reads = value.windows.map Window.base := rfl

@[simp]
theorem reads_decrease (target : Window) (value : Expr α) :
    (decrease target value).reads = value.windows.map Window.base := rfl

@[simp]
theorem reads_run (name : String) (arguments : List Argument) :
    (run name arguments : Statement α).reads =
      (arguments.filterMap Argument.window?).map Window.base := rfl

@[simp]
theorem reads_invoke (function : External) (arguments : List Argument) (status : Option Window) :
    (invoke function arguments status : Statement α).reads =
      (arguments.filterMap Argument.window?).map Window.base := rfl

end Statement

namespace Window

@[simp]
theorem base_transpose (window : Window) : window.transpose.base = window.base := rfl

end Window

namespace Plan

variable {α : Type} (plan : Plan α)

@[simp]
theorem base_planDense (quantity : Quantity) (offset : AffineIndex) (rows cols : Nat) :
    (plan.dense quantity offset rows cols).base = .global (plan.id quantity) := rfl

@[simp]
theorem reads_copy (target source : Quantity) (targetOffset sourceOffset : AffineIndex)
    (length : Nat) :
    (plan.copy target targetOffset source sourceOffset length).reads =
      [.global (plan.id source)] := rfl

@[simp]
theorem reads_evaluate (function : External) (input output : Quantity) :
    (plan.evaluate function input output).reads =
      [.global (plan.id input), .global (plan.id output)] := rfl

end Plan

/-! ## Buffers of the objective -/

namespace Problem

variable {α σ : Type} [Scalar α] {problem : Problem α}

/-- Whether an array of the module is one of the buffers of the objective. -/
def IsBuffer (problem : Problem α) (id : Nat) : Prop :=
  id = problem.plan.id .objValueIn ∨ id = problem.plan.id .objValueOut

/-- Whether a base is none of the buffers. -/
def IsElsewhere (problem : Problem α) (base : Base) : Prop :=
  ∀ id, problem.IsBuffer id → base ≠ .global id

theorem isBuffer_id {quantity : Quantity} :
    problem.IsBuffer (problem.plan.id quantity) ↔
      quantity = .objValueIn ∨ quantity = .objValueOut := by
  have inputs : problem.plan.has .objValueIn = true := by simp
  have outputs : problem.plan.has .objValueOut = true := by simp
  rw [IsBuffer, eq_comm, problem.id_plan_inj inputs, eq_comm (a := problem.plan.id quantity),
    problem.id_plan_inj outputs, eq_comm, eq_comm (a := Quantity.objValueOut)]

@[simp]
theorem isElsewhere_global (quantity : Quantity) :
    problem.IsElsewhere (.global (problem.plan.id quantity)) ↔
      quantity ≠ .objValueIn ∧ quantity ≠ .objValueOut := by
  rw [← not_or, ← @isBuffer_id α _ problem]
  refine ⟨fun elsewhere here => elsewhere _ here rfl, fun other id here same => other ?_⟩
  cases same
  exact here

@[simp]
theorem isElsewhere_own (position : Nat) : problem.IsElsewhere (.own position) :=
  fun _ _ => Base.noConfusion

@[simp]
theorem isElsewhere_parameter (position : Nat) : problem.IsElsewhere (.parameter position) :=
  fun _ _ => Base.noConfusion

/-- Statements that read none of the buffers. -/
def ReadsElsewhere (problem : Problem α) (statements : List (Statement α)) : Prop :=
  ∀ base ∈ readsOf statements, problem.IsElsewhere base

section Lists

variable {first second : List (Statement α)}

@[simp]
theorem readsElsewhere_nil : problem.ReadsElsewhere [] :=
  fun _ mem => absurd mem List.not_mem_nil

@[simp]
theorem readsElsewhere_cons (statement : Statement α) :
    problem.ReadsElsewhere (statement :: first) ↔
      (∀ base ∈ statement.reads, problem.IsElsewhere base) ∧ problem.ReadsElsewhere first := by
  simp only [ReadsElsewhere, readsOf, List.forall_mem_append]

@[simp]
theorem readsElsewhere_append : problem.ReadsElsewhere (first ++ second) ↔
    problem.ReadsElsewhere first ∧ problem.ReadsElsewhere second := by
  simp only [ReadsElsewhere, readsOf_append, List.forall_mem_append]

@[simp]
theorem readsElsewhere_loop (name : String) (start stop : Nat) :
    (∀ base ∈ (Statement.loop name start stop first).reads, problem.IsElsewhere base) ↔
      problem.ReadsElsewhere first := by
  rw [reads, ReadsElsewhere]

/-- Statements made alike from the members of a list. -/
theorem readsElsewhere_map {β : Type} {items : List β} {statement : β → Statement α}
    (each : ∀ item, ∀ base ∈ (statement item).reads, problem.IsElsewhere base) :
    problem.ReadsElsewhere (items.map statement) := by
  induction items with
  | nil => exact readsElsewhere_nil
  | cons item rest ih => exact (readsElsewhere_cons _).2 ⟨each item, ih⟩

@[simp]
theorem readsElsewhere_loadNodeInput (buffer : Quantity) (node : AffineIndex)
    (withControl : Bool) :
    problem.ReadsElsewhere (problem.plan.loadNodeInput problem.dims buffer node withControl) := by
  unfold Plan.loadNodeInput
  cases withControl <;> cases problem.plan.has .od <;> simp

end Lists

/-! ## Routines of the objective -/

theorem reads_blockRoutine (names : Objective.BlockNames) (damping : α) (rows cols : Nat)
    (jacobian weight : Option (Matrix α)) :
    problem.ReadsElsewhere
      (Objective.blockRoutine names damping rows cols jacobian weight).body := by
  rw [Objective.blockRoutine_eq]
  cases jacobian <;> cases weight <;> cases zero : Scalar.isZero damping <;>
    simp [Objective.damped, zero, Expr.windows, Expr.transpose]

theorem reads_crossRoutine : problem.ReadsElsewhere (Objective.crossRoutine problem).body := by
  rw [Objective.crossRoutine_eq]
  cases problem.jacX <;> cases problem.jacU <;> cases problem.weight <;>
    simp [Expr.windows, Expr.transpose]

theorem reads_gradientRoutine :
    problem.ReadsElsewhere (Objective.gradientRoutine problem problem.plan).body := by
  obtain ⟨state, control, body_eq, stateReads, controlReads⟩ :=
    @Objective.exists_gradientRoutine α _ problem
  rw [body_eq]
  simp only [readsElsewhere_cons, reads_set, List.forall_mem_map, readsElsewhere_nil, and_true]
  constructor
  · intro window mem
    obtain ⟨source, listed, base_eq⟩ | ⟨_, base_eq⟩ := stateReads window mem
    · rw [base_eq, isElsewhere_global]
      exact (by decide : ∀ source ∈ [Quantity.q2, .dy],
        source ≠ .objValueIn ∧ source ≠ .objValueOut) source listed
    · rw [base_eq]
      exact isElsewhere_parameter 2
  · intro window mem
    obtain ⟨source, listed, base_eq⟩ | ⟨_, base_eq⟩ := controlReads window mem
    · rw [base_eq, isElsewhere_global]
      exact (by decide : ∀ source ∈ [Quantity.r2, .dy],
        source ≠ .objValueIn ∧ source ≠ .objValueOut) source listed
    · rw [base_eq]
      exact isElsewhere_parameter 3

/-! ## Routines of the constraints -/

theorem reads_boxSide {target configured : Quantity}
    (other : configured ≠ .objValueIn ∧ configured ≠ .objValueOut) :
    problem.ReadsElsewhere (Constraints.boxSide problem problem.plan target configured) := by
  simp [Constraints.boxSide, Expr.windows, other]

theorem reads_pathBoundsRoutine (path : PathConstraint α) :
    problem.ReadsElsewhere (Constraints.pathBoundsRoutine problem problem.plan path).body := by
  simp [Constraints.pathBoundsRoutine, Expr.windows]

theorem reads_pathPart (path : PathConstraint α) :
    problem.ReadsElsewhere (Constraints.pathPart problem problem.plan path) := by
  have calls : problem.ReadsElsewhere ((List.range problem.dims.n).map
      (Constraints.pathBoundsCall problem problem.plan path)) :=
    readsElsewhere_map fun node => by
      simp [Constraints.pathBoundsCall, Plan.passFlat, Argument.window?, or_imp, forall_and]
  simp [Constraints.pathPart, Constraints.pathStage, Expr.windows, calls,
    apply_ite problem.ReadsElsewhere]

theorem reads_pointParts (entries : List (Nat × PointConstraint α)) (row : Nat) :
    problem.ReadsElsewhere (Constraints.pointParts problem problem.plan row entries) := by
  induction entries generalizing row with
  | nil => exact readsElsewhere_nil
  | cons entry rest ih =>
      obtain ⟨node, point⟩ := entry
      rw [Constraints.pointParts, readsElsewhere_append]
      refine ⟨?_, ih _⟩
      simp [Constraints.pointPart, Expr.windows, reads, apply_ite problem.ReadsElsewhere]

theorem reads_constraints :
    problem.ReadsElsewhere (Constraints.evaluateRoutine problem problem.plan).body := by
  have path : problem.ReadsElsewhere
      (problem.path.elim [] (Constraints.pathPart problem problem.plan)) := by
    cases problem.path with
    | none => exact readsElsewhere_nil
    | some path => exact reads_pathPart path
  simp [Constraints.evaluateRoutine, reads_boxSide, reads_pointParts, path]

/-! ## Routines around the iteration -/

theorem reads_initializeRoutine : problem.ReadsElsewhere
    (Horizon.initializeRoutine problem.plan problem.initialization).body := by
  have clears : problem.ReadsElsewhere ((problem.plan.table.ofClass .workspace).map
      fun entry => (.clear entry.1 : Statement α)) :=
    readsElsewhere_map fun _ => List.forall_mem_nil _
  have constraints : problem.ReadsElsewhere (Constraints.initialization problem problem.plan) := by
    unfold Constraints.initialization
    split
    · exact readsElsewhere_nil
    · exact readsElsewhere_map fun _ => List.forall_mem_nil _
  -- known blocks are filled in, which reads nothing
  have fill (target : Window) (value : Matrix α) :
      problem.ReadsElsewhere [Statement.set target (.known value)] :=
    (readsElsewhere_cons _).2 ⟨List.forall_mem_nil _, readsElsewhere_nil⟩
  have objective : problem.ReadsElsewhere (Objective.initialization problem problem.plan) := by
    rw [Objective.initialization, readsElsewhere_append]
    constructor
    · split
      · exact readsElsewhere_nil
      · rw [readsElsewhere_cons, readsElsewhere_loop, readsElsewhere_append, readsElsewhere_append]
        refine ⟨⟨⟨?_, ?_⟩, ?_⟩, readsElsewhere_nil⟩
        all_goals
          dsimp only
          split
          · exact fill _ _
          · exact readsElsewhere_nil
    · split
      · exact fill _ _
      · exact readsElsewhere_nil
  simp [Horizon.initializeRoutine, initialization, Horizon.zero, Expr.windows, clears, constraints,
    objective]

theorem reads_simulateRoutine :
    problem.ReadsElsewhere (Horizon.simulateRoutine problem problem.plan).body := by
  simp [Horizon.simulateRoutine, Plan.passWhole, Argument.window?]

theorem reads_shiftStatesRoutine :
    problem.ReadsElsewhere (Horizon.shiftStatesRoutine problem problem.plan).body := by
  simp [Horizon.shiftStatesRoutine, Horizon.moveBack, Horizon.appendBlock, Expr.windows]

theorem reads_shiftControlsRoutine :
    problem.ReadsElsewhere (Horizon.shiftControlsRoutine problem problem.plan).body := by
  simp [Horizon.shiftControlsRoutine, Horizon.moveBack, Horizon.appendBlock, Expr.windows,
    apply_ite problem.ReadsElsewhere]

theorem reads_optimalityRoutine :
    problem.ReadsElsewhere (Phases.optimalityRoutine problem problem.plan).body := by
  simp [Phases.optimalityRoutine, Phases.ownScalar, Horizon.zero, Expr.windows,
    apply_ite problem.ReadsElsewhere]

theorem reads_arrivalCostRoutine :
    problem.ReadsElsewhere (Phases.arrivalCostRoutine problem.plan).body := by
  simp [Phases.arrivalCostRoutine, Plan.passWhole, Argument.window?, or_imp, forall_and]

/-- The gradient of the terminal state comes from its block, the residual and the linear
term. -/
theorem reads_terminalGradient : ∀ window ∈
    (Objective.withLinear
      (.mul (problem.plan.blockAt problem.plan.blocks.qN2 (.const 0) problem.dims.nx)
        (.read (problem.plan.whole .dyN)))
      (Phases.terminalLinear problem problem.plan)).windows,
    problem.IsElsewhere window.base := by
  intro window mem
  rw [Objective.windows_withLinear, Expr.windows, Expr.windows, List.mem_append, List.mem_append,
    List.mem_singleton] at mem
  obtain (block | rfl) | term := mem
  · rw [Objective.base_blockAt block, isElsewhere_global]
    decide
  · simp
  · unfold Phases.terminalLinear at term
    cases terms : problem.plan.linear <;> rw [terms] at term <;> simp [Expr.windows] at term <;>
      simp [term]

theorem reads_gradientCall (node : AffineIndex) : ∀ base ∈
    (Statement.run Objective.gradientName
      ([problem.plan.passFlat .gradientQ (node.scaled problem.dims.nx) problem.dims.nx,
          problem.plan.passFlat .gradientR (node.scaled problem.dims.nu) problem.dims.nu] ++
        Phases.linearArguments problem problem.plan node ++ [.index node]) :
      Statement α).reads, problem.IsElsewhere base := by
  unfold Phases.linearArguments
  cases problem.plan.linear <;>
    simp [Plan.passFlat, Plan.passWhole, Argument.window?, or_imp, forall_and]

theorem reads_arrivalCost :
    problem.ReadsElsewhere (Phases.arrivalCost problem problem.plan) := by
  unfold Phases.arrivalCost
  cases problem.plan.blocks.q1.given? <;> cases problem.plan.has .dxAC <;>
    simp [Expr.windows, reads]

theorem reads_feedbackRoutine :
    problem.ReadsElsewhere (Phases.feedbackRoutine problem problem.plan).body := by
  have deviation : problem.ReadsElsewhere (Phases.initialDeviation problem problem.plan) := by
    unfold Phases.initialDeviation
    cases problem.plan.has .x0 <;> simp [Expr.windows]
  have terminal := @reads_terminalGradient α _ problem
  have gradient := @reads_gradientCall α _ problem (.var Objective.nodeName)
  simp only [Phases.feedbackRoutine, readsElsewhere_append, readsElsewhere_cons,
    readsElsewhere_loop, readsElsewhere_nil, and_true]
  refine ⟨⟨⟨deviation, ?_, ?_, gradient, ?_⟩, reads_arrivalCost⟩, List.forall_mem_nil _, ?_, ?_⟩
  · simp [Expr.windows]
  · simp [Expr.windows]
  · simpa using terminal
  · simp [Expr.windows]
  · simp [Expr.windows]

/-! ## Routines that overlook the buffers -/

section Overlooking

variable {host : Host α σ problem.program.table.sizes}

/-- A host none of whose functions looks into the buffers, apart from the functions of
the objective. -/
def BuffersOverlooked (problem : Problem α) (host : Host α σ problem.program.table.sizes) :
    Prop :=
  ∀ function, function ≠ .stageCost → function ≠ .terminalCost →
    host.Overlooks problem.IsBuffer function

variable {routine : Routine α}

/-- A routine overlooks the buffers if it reads none of them and calls other functions
than those of the objective, and routines that overlook the buffers as well. -/
theorem overlooks_of_calls (overlooked : problem.BuffersOverlooked host)
    (elsewhere : problem.ReadsElsewhere routine.body)
    (calls : ∀ call ∈ callsOf routine.body,
      (∃ function, call.1 = .external function ∧ function ≠ .stageCost ∧
        function ≠ .terminalCost) ∨
      ∃ callee ∈ problem.program.routines, call.1 = .routine callee.name ∧
        problem.program.Overlooks host problem.IsBuffer callee) :
    problem.program.Overlooks host problem.IsBuffer routine := by
  refine .intro (fun id hidden mem => elsewhere _ mem id hidden rfl) ?_ ?_
  · intro call mem function isCall
    obtain ⟨other, isOther, notStage, notTerminal⟩ | ⟨callee, _, isCallee, _⟩ := calls call mem
    · cases isOther.symm.trans isCall
      exact overlooked function notStage notTerminal
    · cases isCallee.symm.trans isCall
  · intro call mem name isCall callee known
    obtain ⟨other, isOther, _⟩ | ⟨listed, inProgram, isListed, overlooks⟩ := calls call mem
    · cases isOther.symm.trans isCall
    · cases isListed.symm.trans isCall
      cases (problem.routine?_eq inProgram).symm.trans known
      exact overlooks

theorem overlooks_of_quiet (overlooked : problem.BuffersOverlooked host)
    (elsewhere : problem.ReadsElsewhere routine.body) (quiet : callsOf routine.body = []) :
    problem.program.Overlooks host problem.IsBuffer routine :=
  overlooks_of_calls overlooked elsewhere (quiet ▸ nofun)

theorem overlooks_gradientRoutine (overlooked : problem.BuffersOverlooked host) :
    problem.program.Overlooks host problem.IsBuffer
      (Objective.gradientRoutine problem problem.plan) :=
  overlooks_of_quiet overlooked reads_gradientRoutine rfl

theorem overlooks_pathBoundsRoutine (overlooked : problem.BuffersOverlooked host)
    (path : PathConstraint α) :
    problem.program.Overlooks host problem.IsBuffer
      (Constraints.pathBoundsRoutine problem problem.plan path) :=
  overlooks_of_quiet overlooked (reads_pathBoundsRoutine path) rfl

theorem overlooks_constraints (overlooked : problem.BuffersOverlooked host) :
    problem.program.Overlooks host problem.IsBuffer
      (Constraints.evaluateRoutine problem problem.plan) := by
  refine overlooks_of_calls overlooked reads_constraints fun call mem => ?_
  obtain ⟨name, rfl⟩ | ⟨path, known, node, rfl⟩ := Constraints.calls_evaluateRoutine call mem
  · exact .inl ⟨_, rfl, nofun, nofun⟩
  · exact .inr ⟨_, mem_routines.2.2.2.1 path known, rfl,
      overlooks_pathBoundsRoutine overlooked path⟩

theorem overlooks_feedbackRoutine (overlooked : problem.BuffersOverlooked host) :
    problem.program.Overlooks host problem.IsBuffer
      (Phases.feedbackRoutine problem problem.plan) := by
  refine overlooks_of_calls overlooked reads_feedbackRoutine fun call mem => ?_
  obtain ⟨node, rfl⟩ | rfl := Phases.calls_feedbackRoutine call mem
  · exact .inr ⟨_, mem_routines.2.2.1, rfl, overlooks_gradientRoutine overlooked⟩
  · exact .inl ⟨_, rfl, nofun, nofun⟩

/-- Every routine overlooks the buffers, apart from the two that call the functions of
the objective and the preparation, which calls one of the two. -/
theorem overlooks_routines (overlooked : problem.BuffersOverlooked host) :
    ∀ routine ∈ problem.program.routines,
      routine.name ∉
        [Objective.evaluateName, Horizon.objectiveName, Phases.preparationName] →
        problem.program.Overlooks host problem.IsBuffer routine := by
  have external {routine : Routine α} (function : External)
      (other : function ≠ .stageCost ∧ function ≠ .terminalCost)
      (elsewhere : problem.ReadsElsewhere routine.body)
      (only : routine.callees = [.external function]) :
      problem.program.Overlooks host problem.IsBuffer routine := by
    refine overlooks_of_calls overlooked elsewhere fun call mem => .inl ⟨function, ?_, other⟩
    exact List.mem_singleton.1 (only ▸ List.mem_map_of_mem mem)
  have block (names : Objective.BlockNames) (damping : α) (rows cols : Nat)
      (jacobian weight : Option (Matrix α)) : problem.program.Overlooks host problem.IsBuffer
        (Objective.blockRoutine names damping rows cols jacobian weight) :=
    overlooks_of_quiet overlooked (reads_blockRoutine names damping rows cols jacobian weight)
      (by rw [Objective.blockRoutine_eq]; rfl)
  apply forall_routines
  · exact fun _ => block _ _ _ _ _ _
  · exact fun _ => block _ _ _ _ _ _
  · exact fun _ => overlooks_of_quiet overlooked reads_crossRoutine
      (by rw [Objective.crossRoutine_eq]; rfl)
  · exact fun _ => block _ _ _ _ _ _
  · exact fun other => absurd List.mem_cons_self other
  · exact fun _ => overlooks_gradientRoutine overlooked
  · exact fun path _ _ => overlooks_pathBoundsRoutine overlooked path
  · exact fun _ => overlooks_constraints overlooked
  · exact fun _ => overlooks_of_quiet overlooked reads_initializeRoutine callsOf_initializeRoutine
  · exact fun _ => external .integrate (by decide) reads_simulateRoutine
      (by simp [Routine.callees, Horizon.simulateRoutine, callsOf, Statement.calls])
  · exact fun _ => overlooks_of_quiet overlooked reads_shiftStatesRoutine rfl
  · exact fun _ => overlooks_of_quiet overlooked reads_shiftControlsRoutine
      callsOf_shiftControlsRoutine
  · exact fun other => absurd (List.mem_cons_of_mem _ List.mem_cons_self) other
  · exact fun other => absurd (List.mem_cons_of_mem _ (List.mem_cons_of_mem _
      List.mem_cons_self)) other
  · exact fun _ => overlooks_feedbackRoutine overlooked
  · exact fun _ => overlooks_of_quiet overlooked reads_optimalityRoutine callsOf_optimalityRoutine
  · exact fun _ _ => external .arrivalCostBackend (by decide) reads_arrivalCostRoutine rfl

end Overlooking

end Problem

end RtiAssembly
