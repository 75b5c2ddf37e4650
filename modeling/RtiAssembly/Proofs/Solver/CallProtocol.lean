import RtiAssembly.Proofs.Problem.Bounds
import RtiAssembly.Proofs.Problem.Given
import RtiAssembly.Proofs.Program.Targets
import RtiAssembly.Proofs.Solver.AnyHost
import RtiAssembly.Proofs.Solver.Constraints

/-!
# What the preparation asks of its host

A run of the preparation integrates, evaluates the objective on every node and
then the constraints, each call on the input of its node.  The order of the calls
depends on the problem alone, and the status of the integration is returned
whatever the later calls reply.
-/

namespace RtiAssembly

open Statement

/-! ## Quantities that a host spares -/

namespace Problem

variable {α σ : Type} [Scalar α] {problem : Problem α}
  {host : Host α σ problem.program.table.sizes} {quantity : Quantity}

theorem Spares.respects (spares : problem.Spares host quantity) :
    host.Respects (.global (problem.plan.id quantity)) fun _ _ => True :=
  Host.respects_of_content spares

/-- A host that spares a quantity also does so while its calls are recorded. -/
theorem Spares.respects_recorded (spares : problem.Spares host quantity) :
    host.recorded.Respects (.global (problem.plan.id quantity)) fun _ _ => True :=
  Host.respects_of_content fun function passed memory state =>
    spares function passed memory state.1

end Problem

/-! ## Constraints -/

namespace Constraints

variable {α σ : Type} [Scalar α] {problem : Problem α} {frame : Frame}

/-- The request for a constraint on a node. -/
def request (name : String) (node : Nat) : Request :=
  ⟨.constraint name, .conValueIn, .conValueOut, node⟩

/-- The requests of the constraints: the path constraint on every interval, then the
point constraints in the order of their nodes. -/
def requests (problem : Problem α) : List Request :=
  (problem.path.elim [] fun path => (List.range problem.dims.n).map (request path.name)) ++
    problem.points.entries.map fun (node, point) => request point.name node

section Steps

variable {host : Host α σ problem.program.table.sizes}
  {scene : Scene α (σ × List (HostCall α problem.program.table.sizes))
    problem.program.table.sizes} (records : scene.host = host.recorded)
  (world : problem.Recorded σ)

include records

/-- The evaluation of the path constraint on a node. -/
theorem answers_pathStage {path : PathConstraint α} (known : problem.path = some path)
    {node : AffineIndex} {number : Nat} (value : frame.valueOf node = number)
    (number_lt : number < problem.dims.n) :
    problem.Answers [request path.name number] world
      (effects scene frame (pathStage problem problem.plan path node) world) := by
  let dims := problem.dims
  let controlStart := if problem.plan.has .pacEvHx then path.dim + path.dim * dims.nx else path.dim
  let derivative (target : Quantity) (start cols : Nat) : List (Statement α) :=
    if problem.plan.has target then
      [.set (problem.plan.rows target (node.scaled path.dim) path.dim)
        (.read (problem.plan.dense .conValueOut (.const start) path.dim cols))]
    else []
  let rest : List (Statement α) :=
    problem.plan.copy .pacEvH (node.scaled path.dim) .conValueOut (.const 0) path.dim ::
      (derivative .pacEvHx path.dim dims.nx ++ derivative .pacEvHu controlStart dims.nu)
  have written : pathStage problem problem.plan path node =
      problem.plan.loadNodeInput dims .conValueIn node true ++
        [problem.plan.evaluate (.constraint path.name) .conValueIn .conValueOut] ++ rest := by
    simp only [pathStage, rest, derivative, controlStart, dims, List.append_assoc,
      List.cons_append, List.nil_append]
  have quiet : callsOf rest = [] := by
    simp [rest, derivative, callsOf, apply_ite callsOf]
  have present : problem.hasConstraints = true := by simp [Problem.hasConstraints, known]
  rw [written]
  exact Problem.answers_node records _ value (decide_eq_true number_lt) (sizeOf_buffers present).1
    (by decide) (by decide) (quiet ▸ List.forall_mem_nil _)

/-- The evaluation of a point constraint. -/
theorem answers_pointPart {node : Nat} {point : PointConstraint α} (row : Nat)
    (mem : (node, point) ∈ problem.points.entries) :
    problem.Answers [request point.name node] world
      (effects scene frame (pointPart problem problem.plan row node point) world) := by
  let dims := problem.dims
  let dim := point.dim
  let offset := problem.affineOffset node + if node < dims.n then problem.pathDim else 0
  let derivative (target : Quantity) (start cols : Nat) : Statement α :=
    .set (problem.plan.rows target (.const row) dim)
      (.read (problem.plan.dense .conValueOut (.const start) dim cols))
  let side (target configured : Quantity) : Statement α :=
    .set (problem.plan.flat target (.const offset) dim)
      (.sub (.read (problem.plan.flat configured (.const offset) dim))
        (.read (problem.plan.flat .pocEvH (.const row) dim)))
  let rest : List (Statement α) :=
    problem.plan.copy .pocEvH (.const row) .conValueOut (.const 0) dim ::
      derivative .pocEvHx dim dims.nx ::
        ((if node < dims.n then [derivative .pocEvHu (dim + dim * dims.nx) dims.nu] else []) ++
          [side .qpLbA .lbAValues, side .qpUbA .ubAValues])
  have written : pointPart problem problem.plan row node point =
      .comment ("Evaluating constraint on node: #" ++ toString node) ::
        (problem.plan.loadNodeInput dims .conValueIn (.const node) (decide (node < dims.n)) ++
          [problem.plan.evaluate (.constraint point.name) .conValueIn .conValueOut] ++ rest) := by
    simp only [pointPart, rest, derivative, side, offset, dims, dim, List.append_assoc,
      List.cons_append, List.nil_append]
  have quiet : callsOf rest = [] := by
    simp [rest, derivative, side, callsOf, apply_ite callsOf]
  rw [written, effects, effect_comment]
  exact Problem.answers_node records _ rfl rfl
    (sizeOf_buffers (Problem.hasConstraints_of_mem mem)).1 (by decide) (by decide)
    (quiet ▸ List.forall_mem_nil _)

/-- The evaluation of point constraints, one after the other. -/
theorem answers_pointParts (entries : List (Nat × PointConstraint α)) (row : Nat)
    (belong : ∀ entry ∈ entries, entry ∈ problem.points.entries) :
    problem.Answers (entries.map fun (node, point) => request point.name node) world
      (effects scene frame (pointParts problem problem.plan row entries) world) := by
  induction entries generalizing row world with
  | nil =>
      rw [pointParts, effects]
      exact .of_quiet rfl
  | cons entry rest ih =>
      obtain ⟨node, point⟩ := entry
      rw [pointParts, effects_append]
      exact (answers_pointPart records world row (belong _ List.mem_cons_self)).trans
        (ih _ (row + point.dim) fun other mem => belong other (List.mem_cons_of_mem _ mem))

end Steps

variable (host : Host α σ problem.program.table.sizes) (depth : Nat) (world : problem.Recorded σ)

/-- The path constraint over the horizon. -/
theorem answers_pathPart {path : PathConstraint α} (known : problem.path = some path) :
    problem.Answers ((List.range problem.dims.n).map (request path.name)) world
      (effects (problem.program.scene host.recorded (depth + 1)) frame
        (pathPart problem problem.plan path) world) := by
  have quiet : ∀ call ∈ callsOf (if problem.plan.has .lbAValues then
      (List.range problem.dims.n).map (pathBoundsCall problem problem.plan path) else []),
        (problem.program.scene host.recorded (depth + 1)).IsQuiet call.1 := by
    intro call mem
    obtain ⟨node, rfl⟩ := calls_pathBounds path call mem
    exact Problem.isQuiet_routine (Problem.mem_routines.2.2.2.1 path known) rfl
  rw [pathPart, effects_append, effects_singleton, effect_loop]
  rw [← List.append_nil ((List.range problem.dims.n).map (request path.name))]
  refine Problem.Answers.trans (Problem.Answers.rounds fun round round_lt before => ?_)
    (.of_quiet (state_effects _ quiet _))
  exact answers_pathStage rfl before known (Frame.valueOf_bind nodeName round) round_lt

/-- The evaluation of the constraints. -/
theorem answers_evaluate :
    problem.Answers (requests problem) world ((Statement.run evaluateName []).effect
      (problem.program.scene host.recorded (depth + 2)) frame world) := by
  let routine := evaluateRoutine problem problem.plan
  let scene := problem.program.scene host.recorded (depth + 1)
  let started := world.update fun store =>
    store.push (routine.locals.map fun decl => Array.replicate decl.size 0)
  let inner := Frame.ofCall routine [] world.store.stack.size
  have name_eq : evaluateName = routine.name := rfl
  rw [name_eq, Problem.effect_run Problem.mem_routines.2.2.2.2.1]
  -- a call of the routine records what its body records
  have body : problem.Answers (requests problem) started
      (effects scene inner routine.body started) := by
    have quiet (statements : List (Statement α)) (noCalls : callsOf statements = [])
        (before : problem.Recorded σ) :
        problem.Answers [] before (effects scene inner statements before) :=
      .of_quiet (state_effects _ (noCalls ▸ List.forall_mem_nil _) before)
    let lowered := effects scene inner (boxSide problem problem.plan .qpLb .lbValues) started
    let boxed := effects scene inner (boxSide problem problem.plan .qpUb .ubValues) lowered
    let constrained := effects scene inner
      (problem.path.elim [] (pathPart problem problem.plan)) boxed
    have box : problem.Answers [] started boxed :=
      (quiet (boxSide problem problem.plan .qpLb .lbValues) rfl started).trans
        (quiet (boxSide problem problem.plan .qpUb .ubValues) rfl lowered)
    have path : problem.Answers (problem.path.elim [] fun path =>
        (List.range problem.dims.n).map (request path.name)) boxed constrained := by
      simp only [constrained]
      cases known : problem.path with
      | none => exact quiet [] rfl boxed
      | some path => exact answers_pathPart host depth boxed known
    have points := @answers_pointParts α σ _ problem inner host scene rfl constrained
      problem.points.entries 0 fun _ => id
    simp only [routine, evaluateRoutine, effects_append]
    exact box.trans (path.trans points)
  exact body

/-- A quantity that the host spares and the constraints do not touch stays as it is. -/
theorem valueAt_evaluate (wellFormed : problem.WellFormed) {kept : Quantity}
    (spares : problem.Spares host kept) (present : problem.plan.has kept = true)
    (other : kept ∉ Problem.constraintQuantities) (position : Nat) :
    problem.valueAt ((Statement.run evaluateName []).effect
        (problem.program.scene host.recorded (depth + 2)) frame world).store.memory kept position =
      problem.valueAt world.store.memory kept position := by
  let routine := evaluateRoutine problem problem.plan
  have after_eq : (Statement.run evaluateName []).effect
      (problem.program.scene host.recorded (depth + 2)) frame world =
        (problem.program.perform host.recorded (depth + 2) routine [] world).2 :=
    Problem.effect_run Problem.mem_routines.2.2.2.2.1 [] world
  have enters : problem.program.Enters host.recorded (depth + 2) routine :=
    Program.enters_of_safe ((Problem.safe_constraints wellFormed).mono (by omega))
  have alone : Execution.LeavesAlone (.global (problem.plan.id kept)) _
      (problem.program.enter host.recorded (depth + 2) routine []) :=
    (Problem.avoids_constraints present other).leavesAlone_enter
      (Problem.Spares.respects_recorded spares) (List.forall_mem_nil _)
  have unchanged := alone world trivial
  rw [(enters [] world .nil).1] at unchanged
  rw [after_eq]
  exact congrArg (fun content : Array α => content.getD position 0) unchanged.content

end Constraints

/-! ## The preparation -/

namespace Problem

variable {α σ : Type} [Scalar α] {problem : Problem α}

section Steps

variable {host : Host α σ problem.program.table.sizes} {frame : Frame}
  {world : problem.Recorded σ}

/-- The integration with any host.  Its status goes to the result of the caller. -/
theorem moves_simulation_of_any
    {scene : Scene α (σ × List (HostCall α problem.program.table.sizes))
      problem.program.table.sizes} (records : scene.host = host.recorded)
    (room : 0 < (world.store.content (.stack (frame.height + 0))).size) :
    let after := (Statement.invoke .modelSimulation [] (some (Phases.ownScalar 0))).effect scene
      frame world
    ∃ call : HostCall α problem.program.table.sizes, call.function = .modelSimulation ∧
      call.passed = [] ∧ call.memory = world.store.memory ∧
      call.status = (host .modelSimulation [] world.store.memory world.state.1).status ∧
      problem.Moves (fun quantity _ => ¬problem.Spares host quantity) [call] world after ∧
      after.store.Alike world.store ∧
      frame.ownAt after.store 0 0 = Scalar.ofInt call.status := by
  let memory := world.store.memory
  let reply := host .modelSimulation [] memory world.state.1
  let call : HostCall α problem.program.table.sizes :=
    ⟨.modelSimulation, [], memory, reply.status, reply.arguments, reply.memory⟩
  let replied : Store α problem.program.table.sizes := { world.store with memory := reply.memory }
  let result : Cell := ⟨.stack (frame.height + 0), 0⟩
  have effect_eq : (Statement.invoke .modelSimulation [] (some (Phases.ownScalar 0))).effect scene
      frame world =
        ⟨replied.write result (Scalar.ofInt reply.status), (reply.state, world.state.2 ++ [call])⟩ :=
    Statement.effect_invoke_status records _ _ _
  intro after
  simp only [after, effect_eq]
  refine ⟨call, rfl, rfl, rfl, rfl, ⟨rfl, fun quantity position outside => ?_⟩,
    Store.alike_write replied result _, ?_⟩
  · exact congrArg (fun content : Array α => content.getD position 0)
      (not_not.1 outside .modelSimulation [] memory world.state.1)
  · have written : (replied.write result (Scalar.ofInt reply.status)).read result = _ :=
      Store.read_write room (Scalar.ofInt reply.status) result
    rwa [if_pos rfl] at written

/-- A routine that is called without arguments leaves the arrays of its caller alone. -/
theorem ownAt_run {routine : Routine α} (mem : routine ∈ problem.program.routines)
    (parameters : routine.parameters = []) {depth : Nat}
    (safe : problem.program.Safe depth routine) {array : Nat}
    (below : frame.height + array < world.store.stack.size) :
    let after := (Statement.run routine.name []).effect
      (problem.program.scene host.recorded depth) frame world
    frame.height + array < after.store.stack.size ∧
      ∀ position, frame.ownAt after.store array position =
        frame.ownAt world.store array position := by
  have after_eq : (Statement.run routine.name []).effect
      (problem.program.scene host.recorded depth) frame world =
        (problem.program.perform host.recorded depth routine [] world).2 :=
    effect_run mem [] world
  have respects : host.recorded.Respects (.stack (frame.height + array)) fun _ _ => True :=
    ⟨fun _ => trivial, fun _ _ => trivial, fun _ _ _ _ => trivial, fun _ => nofun⟩
  have alone : Execution.LeavesAlone (.stack (frame.height + array)) _
      (problem.program.enter host.recorded depth routine []) :=
    Program.leavesAlone_enter_stack respects (List.forall_mem_nil _)
  have accepted : List.Forall₂ (Frame.Accepts world.store) routine.parameters [] := by
    rw [parameters]
    exact .nil
  have kept := alone world below
  rw [(Program.enters_of_safe safe [] world accepted).1] at kept
  intro after
  simp only [after, after_eq]
  exact ⟨kept.below, fun position =>
    congrArg (fun content : Array α => content.getD position 0) kept.content⟩

end Steps

/-- A run of the preparation with any host, given its calls. -/
structure Prepares (problem : Problem α) (host : Host α σ problem.program.table.sizes)
    (state : σ) (start : problem.Contents)
    (simulation : HostCall α problem.program.table.sizes)
    (stages : List (HostCall α problem.program.table.sizes))
    (terminal : HostCall α problem.program.table.sizes)
    (constraints : List (HostCall α problem.program.table.sizes))
    (outcome : problem.program.Outcome σ) : Prop where
  integrates : simulation.function = .modelSimulation ∧ simulation.passed = [] ∧
    simulation.memory = start ∧
    simulation.status = (host .modelSimulation [] start state).status
  objective : Objective.Returns problem host stages terminal outcome.memory
  constraints : List.Forall₂ problem.Meets (Constraints.requests problem) constraints
  result : outcome.result = .ok (Scalar.ofInt simulation.status)
  kept : ∀ quantity, problem.Spares host quantity → problem.plan.has quantity = true →
    quantity ∉ constraintQuantities → ¬Objective.share problem quantity → ∀ position,
      problem.valueAt outcome.memory quantity position = problem.valueAt start quantity position

/-- The quantities that the objective writes for the nodes are no bounds. -/
theorem not_constraintQuantities {quantity : Quantity}
    (written : quantity = .dyN ∨ (Objective.stageSize? problem quantity).isSome) :
    problem.plan.has quantity = true ∧ quantity ∉ constraintQuantities := by
  rcases written with rfl | written
  · exact ⟨by simp, by decide⟩
  · unfold Objective.stageSize? at written
    cases quantity <;> simp at written <;> simp [written, constraintQuantities]

/-- A run of the preparation calls, returns and keeps what it should with any host. -/
theorem run_preparation_of_any (wellFormed : problem.WellFormed)
    (host : Host α σ problem.program.table.sizes) (state : σ) (memory : problem.Contents) :
    ∃ simulation stages terminal constraints,
      problem.program.trace host state memory Phases.preparationName [] =
          simulation :: (stages ++ terminal :: constraints) ∧
        Prepares problem host state memory simulation stages terminal constraints
          (problem.program.run host state memory Phases.preparationName []) := by
  obtain ⟨_, evaluatesObjective, _, _, evaluatesConstraints, _⟩ := @mem_routines α _ problem
  obtain ⟨depth, run_eq, trace_eq⟩ := problem.run_preparation_eq wellFormed host state memory
  let routine : Routine α := Phases.preparationRoutine
  let scene := problem.program.scene host.recorded (depth + 2)
  let frame := Frame.ofCall routine [] 0
  let started := problem.startOf routine state memory
  let simulated := (Statement.invoke .modelSimulation [] (some (Phases.ownScalar 0))).effect scene
    frame started
  let evaluated := (Statement.run Objective.evaluateName []).effect scene frame simulated
  let ended := (Statement.run Constraints.evaluateName []).effect scene frame evaluated
  have room : 0 < (started.store.content (.stack (frame.height + 0))).size :=
    le_of_le_of_eq (Nat.le_refl 1)
      (@size_own α σ _ problem routine 0 _ rfl state memory started (.refl _)).symm
  obtain ⟨simulation, function_eq, passed_eq, memory_eq, status_eq, simulationMoves, alike,
      status⟩ :=
    @moves_simulation_of_any α σ _ problem host frame started scene rfl room
  obtain ⟨stages, terminal, objectiveMoves, returns⟩ :=
    @Objective.returns_evaluate α σ _ problem frame host depth simulated wellFormed
  obtain ⟨constraints, record, meets⟩ :=
    @Constraints.answers_evaluate α σ _ problem frame host depth evaluated
  have kept {quantity : Quantity} (spares : problem.Spares host quantity)
      (present : problem.plan.has quantity = true) (other : quantity ∉ constraintQuantities)
      (position : Nat) : problem.valueAt ended.store.memory quantity position =
        problem.valueAt evaluated.store.memory quantity position :=
    Constraints.valueAt_evaluate host depth evaluated wellFormed spares present other position
  -- the status of the integration outlasts both evaluations
  have simulatedBelow : frame.height + 0 < simulated.store.stack.size := by
    rw [alike.size_stack]
    exact Nat.one_pos
  obtain ⟨evaluatedBelow, statusEvaluated⟩ := @ownAt_run α σ _ problem host frame simulated
    _ evaluatesObjective rfl (depth + 2) ((safe_objective wellFormed).mono (by omega)) 0
    simulatedBelow
  obtain ⟨_, statusEnded⟩ := @ownAt_run α σ _ problem host frame evaluated _
    evaluatesConstraints rfl (depth + 2) ((safe_constraints wellFormed).mono (by omega)) 0
    evaluatedBelow
  have result_eq : frame.ownAt ended.store 0 0 = Scalar.ofInt simulation.status :=
    (statusEnded 0).trans ((statusEvaluated 0).trans status)
  have record_eq : ended.state.2 = simulation :: (stages ++ terminal :: constraints) := by
    rw [record, objectiveMoves.record, simulationMoves.record]
    simp [started, startOf]
  rw [run_eq]
  refine ⟨simulation, stages, terminal, constraints, trace_eq.trans record_eq, ⟨function_eq,
    passed_eq, memory_eq, status_eq⟩, ?_, meets, congrArg Except.ok result_eq,
    fun quantity spares present other unshared position => ?_⟩
  · have changes : problem.Changes (fun quantity _ => ¬problem.Spares host quantity ∨
        (problem.plan.has quantity = true → quantity ∈ constraintQuantities))
        evaluated.store.memory ended.store.memory := by
      intro quantity position outside
      obtain ⟨spared, elsewhere⟩ := not_or.1 outside
      obtain ⟨present, other⟩ := Classical.not_imp.1 elsewhere
      exact kept (not_not.1 spared) present other position
    refine returns.of_changes changes fun quantity _ written touched => ?_
    obtain ⟨present, other⟩ := not_constraintQuantities written
    exact other (touched present)
  · refine (kept spares present other position).trans ?_
    exact (objectiveMoves.memory quantity position (not_or.2 ⟨not_not.2 spares, unshared⟩)).trans
      (simulationMoves.memory quantity position (not_not.2 spares))

end Problem

/-! ## Accepted descriptions -/

namespace Description

variable {α σ : Type} [Scalar α] {description : Description α} {problem : Problem α}

/-- What the path constraint asks for: its function on every interval in turn.  A constraint
without rows is none. -/
def pathRequests (description : Description α) : List Request :=
  (description.pathConstraint.filter fun spec => 0 < spec.dim).elim [] fun spec =>
    (List.range description.dims.n).map (Constraints.request spec.name)

/-- What the point constraints ask for: the function of each on its node. -/
def pointRequests (description : Description α) : List Request :=
  (description.pointConstraints.entries.filter fun (node, spec) =>
    0 < spec.dim description.dims node).map fun (node, spec) => Constraints.request spec.name node

omit [Scalar α] in
/-- The functions of the points are asked for in the order of their nodes, and each of them
once. -/
theorem pointRequests_ascending (description : Description α) :
    description.pointRequests.Pairwise fun left right => left.node < right.node :=
  List.pairwise_map.2 (description.pointConstraints.ascending.filter _)

/-- The constraints of an accepted problem ask for what its description says. -/
theorem requests_of_validate (accepted : description.validate.value = some problem) :
    Constraints.requests problem = description.pathRequests ++ description.pointRequests := by
  have dims := (keeps_of_validate accepted).dims
  have path := pathName_of_validate accepted
  have points := pointNames_of_validate accepted
  have pathPart : (problem.path.elim [] fun path =>
      (List.range problem.dims.n).map (Constraints.request path.name)) =
        description.pathRequests := by
    rw [dims]
    have elim_eq {β : Type} (option : Option β) (name : β → String) :
        (option.elim [] fun one => (List.range description.dims.n).map
          (Constraints.request (name one))) =
          (option.map name).elim [] fun name =>
            (List.range description.dims.n).map (Constraints.request name) := by
      cases option <;> rfl
    rw [elim_eq problem.path fun path => path.name, path, ← elim_eq]
    rfl
  have pointPart : (problem.points.entries.map fun (node, point) =>
      Constraints.request point.name node) = description.pointRequests := by
    have named := congrArg (List.map fun (node, name) => Constraints.request name node) points
    rw [List.map_map, List.map_map] at named
    exact named
  exact congrArg₂ (· ++ ·) pathPart pointPart

end Description

/-- A run of the preparation of an accepted problem makes these calls and no others: the
integration, the stage function on every interval in turn, the terminal function, and the
constraint functions that the description names, each on the input of its node as it stands in
memory at the call.  The status of the integration is returned, and residuals that the host
does not itself write are the outputs of the functions. -/
theorem calls_of_preparation {α σ : Type} [Scalar α] {description : Description α}
    {problem : Problem α} (accepted : description.validate.value = some problem)
    (host : Host α σ problem.program.table.sizes) (state : σ) (memory : problem.Contents) :
    let program := problem.program
    let dims := description.dims
    let outcome := program.run host state memory Phases.preparationName []
    Plan.ofProblem problem = .ok problem.plan ∧ problem.dims = dims ∧
      ∃ simulation stages terminal paths points,
        program.trace host state memory Phases.preparationName [] =
            simulation :: (stages ++ terminal :: (paths ++ points)) ∧
          (simulation.function = .modelSimulation ∧ simulation.passed = [] ∧
            simulation.memory = memory ∧
            simulation.status = (host .modelSimulation [] memory state).status) ∧
          List.Forall₂ problem.Meets ((List.range dims.n).map Objective.stageRequest) stages ∧
          problem.Meets (Objective.terminalRequest problem) terminal ∧
          List.Forall₂ problem.Meets description.pathRequests paths ∧
          List.Forall₂ problem.Meets description.pointRequests points ∧
          (description.pointRequests.Pairwise fun left right => left.node < right.node) ∧
          outcome.result = .ok (Scalar.ofInt simulation.status) ∧
          (problem.Spares host .dy → ∀ node < dims.n, ∃ call, stages[node]? = some call ∧
            ∀ row < dims.ny, problem.valueAt outcome.memory .dy (node * dims.ny + row) =
              problem.returned call .objValueOut row) ∧
          (problem.Spares host .dyN → ∀ row < dims.nyn,
            problem.valueAt outcome.memory .dyN row =
              problem.returned terminal .objValueOut row) := by
  intro program dims outcome
  have wellFormed := Description.wellFormed_of_validate accepted
  have dims_eq : problem.dims = dims := (Description.keeps_of_validate accepted).dims
  obtain ⟨simulation, stages, terminal, constraints, trace_eq, prepares⟩ :=
    Problem.run_preparation_of_any wellFormed host state memory
  have requested := prepares.constraints
  rw [Description.requests_of_validate accepted] at requested
  let paths := constraints.take description.pathRequests.length
  let points := constraints.drop description.pathRequests.length
  have split : paths ++ points = constraints := List.take_append_drop _ _
  have pathsMeet : List.Forall₂ problem.Meets description.pathRequests paths :=
    (List.forall₂_take_append _ _ _ requested.flip).flip
  have pointsMeet : List.Forall₂ problem.Meets description.pointRequests points :=
    (List.forall₂_drop_append _ _ _ requested.flip).flip
  rw [← split] at trace_eq
  refine ⟨wellFormed.ofProblem_eq_ok, dims_eq, simulation, stages, terminal, paths, points,
    trace_eq, prepares.integrates, ?_, prepares.objective.meets, pathsMeet, pointsMeet,
    description.pointRequests_ascending, prepares.result, fun spares node node_lt => ?_,
    fun spares row row_lt => ?_⟩
  · rw [← dims_eq]
    exact prepares.objective.meets_stages
  · rw [← dims_eq] at node_lt
    obtain ⟨call, place, returns⟩ := prepares.objective.stage node node_lt
    refine ⟨call, place, fun row row_lt => ?_⟩
    rw [← dims_eq] at row_lt ⊢
    exact returns.residuals spares row row_lt
  · rw [← dims_eq] at row_lt
    exact prepares.objective.residuals spares row row_lt

/-- The calls for a small problem with a host that moves the states whenever it is called, and
that raises what it is passed by one. -/
theorem calls_twoIntervals :
    let problem := Problem.twoIntervals
    let program := problem.program
    let host : Host ℚ Unit program.table.sizes := fun function passed memory state =>
      { status := if function = .modelSimulation then 7 else 3
        arguments := passed.map fun argument => .array (argument.elements.map (· + 1))
        memory := memory.overwrite (problem.plan.id .x) #[1, 2, 3]
        state := state }
    let outcome := program.run host () program.initialMemory Phases.preparationName []
    Description.twoIntervals.validate.value = some problem ∧
      problem.Spares host .dy ∧ problem.Spares host .dyN ∧
      (program.trace host () program.initialMemory Phases.preparationName []).map
          HostCall.function =
        [.modelSimulation, .stageCost, .stageCost, .terminalCost, .constraint "path",
          .constraint "path", .constraint "inner", .constraint "terminal"] ∧
      outcome.result = .ok 7 ∧
      ∃ terminal, problem.Meets (Objective.terminalRequest problem) terminal ∧
        problem.valueAt outcome.memory .dyN 0 = problem.returned terminal .objValueOut 0 := by
  intro problem program host outcome
  have apart (quantity : Quantity) (other : problem.plan.id .x ≠ problem.plan.id quantity) :
      problem.Spares host quantity :=
    fun _ _ memory _ => memory.content_overwrite_of_ne other _
  have accepted : Description.twoIntervals.validate.value = some problem :=
    Description.validate_twoIntervals
  have spares : problem.Spares host .dy := apart .dy (by decide)
  have sparesTerminal : problem.Spares host .dyN := apart .dyN (by decide)
  obtain ⟨_, _, simulation, stages, terminal, paths, points, trace_eq, ⟨function_eq, _, _, status⟩,
    stagesMeet, terminalMeets, pathsMeet, pointsMeet, _, result, _, residuals⟩ :=
    calls_of_preparation accepted host () program.initialMemory
  refine ⟨accepted, spares, sparesTerminal, ?_, ?_, terminal,
    terminalMeets, residuals sparesTerminal 0 (by decide)⟩
  · rw [trace_eq, List.map_cons, List.map_append, List.map_cons, List.map_append, function_eq,
      terminalMeets.function_eq]
    rw [Problem.functions_of_meets stagesMeet, Problem.functions_of_meets pathsMeet,
      Problem.functions_of_meets pointsMeet]
    decide
  · rw [result, status]
    decide +kernel

end RtiAssembly
