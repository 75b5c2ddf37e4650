import RtiAssembly.Proofs.Solver.Feedback
import RtiAssembly.Proofs.Solver.Hessian
import RtiAssembly.Proofs.Solver.StateBlocks

/-!
# The arrival cost over many cycles

A free first state adds its arrival weighting to the first block of the Hessian
at every feedback.  The weightings do not pile up: a known block is written anew
with the current weighting, and a computed one comes fresh from the latest
preparation.  The control loop may write to its arrays and run the routines of
the solver in any order in between.
-/

namespace RtiAssembly

/-! ## The control loop -/

namespace Program

variable {α σ : Type} [Scalar α] {program : Program α}

/-- A step of the control loop: it writes to its arrays, or it runs one of the
named routines. -/
inductive Acts (program : Program α) (host : Host α σ program.table.sizes) (names : List String) :
    program.Contents × σ → program.Contents × σ → Prop
  | supply {before after : program.Contents} (state : σ)
      (supplies : program.Supplies before after) :
      program.Acts host names (before, state) (after, state)
  | run (memory : program.Contents) (state : σ) {name : String} (listed : name ∈ names)
      (arguments : List (Passed α)) :
      program.Acts host names (memory, state)
        ((program.run host state memory name arguments).memory,
          (program.run host state memory name arguments).state)

/-- Any number of steps of the control loop. -/
abbrev Reaches (program : Program α) (host : Host α σ program.table.sizes)
    (names : List String) : program.Contents × σ → program.Contents × σ → Prop :=
  Relation.ReflTransGen (program.Acts host names)

end Program

namespace Problem

variable {α σ : Type} [Scalar α] {problem : Problem α}
  {host : Host α σ problem.program.table.sizes}

/-- The routines of the control loop. -/
def controlRoutines : List String :=
  Horizon.initializeName :: Phases.preparationName :: Phases.feedbackName :: besides

/-! ## Steps that leave the Hessian alone -/

theorem valueAt_of_content {first second : problem.Contents} {quantity : Quantity}
    (same : first.content (problem.plan.id quantity) = second.content (problem.plan.id quantity))
    (position : Nat) :
    problem.valueAt first quantity position = problem.valueAt second quantity position :=
  congrArg (fun content : Array α => content.getD position 0) same

/-- The control loop leaves the Hessian of the states alone while it runs neither
of the phases nor the initialization. -/
theorem valueAt_of_besides (spares : problem.Spares host .hessianQ)
    {before after : problem.Contents × σ} (acts : problem.program.Acts host besides before after)
    (position : Nat) :
    problem.valueAt after.1 .hessianQ position = problem.valueAt before.1 .hessianQ position := by
  cases acts with
  | supply _ supplies =>
      exact valueAt_of_supplies supplies (isKeptIn_workspace (.inl rfl)) (by decide) position
  | run memory state listed arguments =>
      have avoids := @avoids_besides α _ problem .hessianQ (by simp) (by decide) _ listed
      exact valueAt_of_content
        (Program.run_leavesAlone spares.respects avoids state memory arguments).1 position

/-- State blocks that stand in the Hessian, node by node. -/
def StatesAre (problem : Problem α) (first : Nat) (block : Nat → Matrix α)
    (memory : problem.Contents) : Prop :=
  let nx := problem.dims.nx
  ∀ node < problem.dims.n, first ≤ node →
    problem.part memory .hessianQ (node * (nx * nx)) nx nx = block node

theorem StatesAre.of_valueAt {first : Nat} {block : Nat → Matrix α}
    {before after : problem.Contents} (standing : problem.StatesAre first block before)
    (same : ∀ position, first * (problem.dims.nx * problem.dims.nx) ≤ position →
      problem.valueAt after .hessianQ position = problem.valueAt before .hessianQ position) :
    problem.StatesAre first block after := by
  intro node node_lt first_le
  rw [part_congr fun position start_le _ =>
    same position (Nat.le_trans (Nat.mul_le_mul_right _ first_le) start_le)]
  exact standing node node_lt first_le

/-- Blocks stay while neither of the phases nor the initialization is run. -/
theorem StatesAre.of_besides (spares : problem.Spares host .hessianQ) {first : Nat}
    {block : Nat → Matrix α} {before after : problem.Contents × σ}
    (reaches : problem.program.Reaches host besides before after)
    (standing : problem.StatesAre first block before.1) :
    problem.StatesAre first block after.1 := by
  induction reaches with
  | refl => exact standing
  | tail _ acts ih => exact ih.of_valueAt fun position _ => valueAt_of_besides spares acts position

/-! ## Known blocks -/

section Known

variable {blocks : Matrix α × Matrix α}

/-- A feedback changes the block of the first node at most. -/
theorem valueAt_of_feedback (wellFormed : problem.WellFormed)
    (spares : problem.Spares host .hessianQ) (state : σ) (memory : problem.Contents)
    {position : Nat} (behind : problem.dims.nx * problem.dims.nx ≤ position) :
    problem.valueAt (problem.program.run host state memory Phases.feedbackName []).memory
        .hessianQ position = problem.valueAt memory .hessianQ position := by
  obtain ⟨call, asked, _, _, replied, ready, step, _⟩ :=
    Phases.run_feedback wellFormed host state memory
  have solved : problem.valueAt call.after .hessianQ position =
      problem.valueAt call.memory .hessianQ position := by
    refine valueAt_of_content ?_ position
    rw [← spares .qpSolve [] call.memory asked, replied]
  rw [step.kept .hessianQ position (by simp), solved]
  refine ready.kept .hessianQ position ?_
  simp [Phases.feedbackShare, Phases.arrivalShare, Nat.not_lt.2 behind]

/-- Known blocks of all nodes but the first stay in the Hessian, whatever the
control loop does. -/
theorem StatesAre.of_acts (wellFormed : problem.WellFormed)
    (spares : problem.Spares host .hessianQ)
    (known : (KnownBlocks.ofProblem problem).states = some blocks)
    {before after : problem.Contents × σ}
    (acts : problem.program.Acts host controlRoutines before after)
    (standing : problem.StatesAre 1 (fun _ => blocks.1) before.1) :
    problem.StatesAre 1 (fun _ => blocks.1) after.1 := by
  have quiet (rest : problem.program.Acts host besides before after) :
      problem.StatesAre 1 (fun _ => blocks.1) after.1 :=
    standing.of_valueAt fun position _ => valueAt_of_besides spares rest position
  cases acts with
  | supply state supplies => exact quiet (.supply state supplies)
  | run memory state listed arguments =>
      have surplus {routine : Routine α} (mem : routine ∈ problem.program.routines)
          (parameters : routine.parameters = []) (argument : Passed α)
          (others : List (Passed α)) : problem.StatesAre 1 (fun _ => blocks.1)
            (problem.program.run host state memory routine.name (argument :: others)).memory := by
        rw [Program.run_of_surplus (problem.routine?_eq mem) parameters]
        exact standing
      simp only [controlRoutines, List.mem_cons] at listed
      rcases listed with rfl | rfl | rfl | listed
      · cases arguments with
        | cons argument others => exact surplus mem_routines.2.2.2.2.2.1 rfl argument others
        | nil =>
            obtain ⟨_, initialized, _⟩ := run_initialize wellFormed host state memory
            exact fun node node_lt _ => (initialized.blocks.stage node node_lt).states blocks known
      · cases arguments with
        | cons argument others => exact surplus mem_routines.2.2.2.2.2.2.1 rfl argument others
        | nil =>
            obtain ⟨_, kept⟩ := run_preparation_of_spares wellFormed spares state memory
            exact standing.of_valueAt fun position _ => kept (by simp [known]) position
      · cases arguments with
        | cons argument others => exact surplus mem_routines.2.2.2.2.2.2.2 rfl argument others
        | nil =>
            refine standing.of_valueAt fun position behind => ?_
            rw [Nat.one_mul] at behind
            exact valueAt_of_feedback wellFormed spares state memory behind
      · exact quiet (.run memory state listed arguments)

end Known

/-! ## The quadratic program of a feedback -/

/-- A feedback asks once for a solution, and then the Hessian holds the given state
blocks, the first of them with the current arrival weighting added. -/
def SolvesWith (problem : Problem α) (host : Host α σ problem.program.table.sizes) (state : σ)
    (memory : problem.Contents) (block : Nat → Matrix α) : Prop :=
  let nx := problem.dims.nx
  ∃ call, problem.program.trace host state memory Phases.feedbackName [] = [call] ∧
    call.function = .qpSolve ∧ ∀ node < problem.dims.n,
      problem.part call.memory .hessianQ (node * (nx * nx)) nx nx =
        if node = 0 then (block node).add (problem.part call.memory .sAC 0 nx nx) else block node

/-- A feedback adds the arrival weighting to the first block, known or standing. -/
theorem solvesWith_of_statesAre (wellFormed : problem.WellFormed)
    (free : problem.estimatesInitialState = true) (state : σ) {memory : problem.Contents}
    {block : Nat → Matrix α} (standing : problem.StatesAre 1 block memory)
    (first : let nx := problem.dims.nx
      ((KnownBlocks.ofProblem problem).states.map Prod.fst).getD
        (problem.part memory .hessianQ 0 nx nx) = block 0) :
    problem.SolvesWith host state memory block := by
  obtain ⟨call, _, traced, function_eq, _, ready, _⟩ :=
    Phases.run_feedback wellFormed host state memory
  refine ⟨call, traced, function_eq, fun node node_lt => ?_⟩
  let nx := problem.dims.nx
  split
  · rename_i isFirst
    subst isFirst
    have weighting : problem.part call.memory .sAC 0 nx nx = problem.part memory .sAC 0 nx nx :=
      ready.kept.part_eq fun _ _ _ => by simp [Phases.feedbackShare, Phases.arrivalShare]
    rw [Nat.zero_mul, weighting, ← first]
    exact ready.hessian free
  · rename_i later
    rw [ready.kept.part_eq]
    · exact standing node node_lt (Nat.pos_of_ne_zero later)
    · intro position start_le _
      have behind : nx * nx ≤ position :=
        Nat.le_trans (Nat.le_mul_of_pos_left _ (Nat.pos_of_ne_zero later)) start_le
      simp [Phases.feedbackShare, Phases.arrivalShare, Nat.not_lt.2 behind, nx]

/-! ## Any order of cycles -/

/-- Known blocks come with the current arrival weighting in every order. -/
theorem solvesWith_of_known (wellFormed : problem.WellFormed)
    (free : problem.estimatesInitialState = true) (spares : problem.Spares host .hessianQ)
    {blocks : Matrix α × Matrix α} (known : (KnownBlocks.ofProblem problem).states = some blocks)
    (state : σ) (start : problem.Contents) {after : problem.Contents × σ}
    (reached : let initialized :=
        problem.program.run host state start Horizon.initializeName []
      problem.program.Reaches host controlRoutines (initialized.memory, initialized.state)
        after) :
    problem.SolvesWith host after.2 after.1 fun _ => blocks.1 := by
  have standing : problem.StatesAre 1 (fun _ => blocks.1) after.1 := by
    induction reached with
    | refl =>
        obtain ⟨_, initialized, _⟩ := run_initialize wellFormed host state start
        exact fun node node_lt _ => (initialized.blocks.stage node node_lt).states blocks known
    | tail _ acts ih => exact ih.of_acts wellFormed spares known acts
  exact solvesWith_of_statesAre wellFormed free after.2 standing (by rw [known]; rfl)

/-- Computed blocks come from the latest preparation, whatever stood there before
it. -/
theorem solvesWith_of_computed (wellFormed : problem.WellFormed)
    (free : problem.estimatesInitialState = true) (spares : problem.Spares host .hessianQ)
    (computed : (KnownBlocks.ofProblem problem).states = none) (state : σ)
    (memory : problem.Contents) :
    let prepared := problem.program.run host state memory Phases.preparationName []
    ∃ simulation stages rest,
      problem.program.trace host state memory Phases.preparationName [] =
        simulation :: ((List.range problem.dims.n).map stages ++ rest) ∧
      (∀ node < problem.dims.n, (stages node).function = .stageCost) ∧
      ∀ after, problem.program.Reaches host besides (prepared.memory, prepared.state) after →
        problem.SolvesWith host after.2 after.1 fun node =>
          Objective.stateHessian problem node (stages node) := by
  intro prepared
  obtain ⟨⟨simulation, listed, rest, traced, count, held⟩, _⟩ :=
    run_preparation_of_spares wellFormed spares state memory
  let stages (node : Nat) : HostCall α problem.program.table.sizes := listed.getD node simulation
  have place {node : Nat} {call : HostCall α problem.program.table.sizes}
      (found : listed[node]? = some call) : stages node = call := by
    simp [stages, List.getD_eq_getElem?_getD, found]
  have stages_eq : (List.range problem.dims.n).map stages = listed := by
    refine List.ext_getElem (by simp [count]) fun node _ inside => ?_
    rw [List.getElem_map, List.getElem_range]
    exact place (List.getElem?_eq_getElem inside)
  have standing : problem.StatesAre 0
      (fun node => Objective.stateHessian problem node (stages node)) prepared.memory := by
    intro node node_lt _
    obtain ⟨call, found, _, block⟩ := held node node_lt
    exact (block computed).trans
      (congrArg (Objective.stateHessian problem node) (place found).symm)
  refine ⟨simulation, stages, rest, by rw [traced, stages_eq], fun node node_lt => ?_,
    fun after reaches => ?_⟩
  · obtain ⟨call, found, function_eq, _⟩ := held node node_lt
    rw [place found]
    exact function_eq
  · have kept := standing.of_besides spares reaches
    refine solvesWith_of_statesAre wellFormed free after.2
      (fun node node_lt _ => kept node node_lt (Nat.zero_le node)) ?_
    have first := kept 0 wellFormed.n_pos (Nat.le_refl 0)
    rw [Nat.zero_mul] at first
    rw [computed]
    exact first

end Problem

/-! ## Accepted descriptions -/

/-- The Hessian of the state of a node, given the call of its function: the
derivative is the given one or stands behind the values in the outputs, and the
weighting is the given one or stands in memory when the function returns. -/
def Description.stateHessian {α : Type} [Scalar α] {problem : Problem α}
    (description : Description α) (node : Nat)
    (call : HostCall α problem.program.table.sizes) : Matrix α :=
  let dims := description.dims
  let fx : Matrix α := (description.objective.jacobianX.map (.ofRows dims.ny dims.nx)).getD
    (.ofFn dims.ny dims.nx fun row col =>
      problem.returned call .objValueOut (dims.ny + (row * dims.nx + col)))
  ((fx.transpose.mul (description.stageWeight call.after node)).mul fx).shifted
    description.flags.levenbergMarquardt

theorem Problem.stateHessian_eq_of_keeps {α : Type} [Scalar α] {description : Description α}
    {problem : Problem α} (keeps : description.Keeps problem) (node : Nat)
    (call : HostCall α problem.program.table.sizes) :
    Objective.stateHessian problem node call = description.stateHessian node call := by
  obtain ⟨_, _, _, weight_eq, _⟩ := used_eq_of_keeps keeps call call.after node
  obtain ⟨dims, flags, _, _, _, jacX, _⟩ := keeps
  simp only [Objective.stateHessian, Description.stateHessian, weight_eq, layout_plan,
    EvaluationLayout.ofProblem, jacX, flags, dims]
  cases description.objective.jacobianX <;> rfl

/-- The arrival weighting is never accumulated.  After an initialization the
control loop of a solver with a free first state writes to its arrays and runs
the routines in any order, with any host that does not itself write the Hessian
of the states.  If the state block is known, every feedback hands it to the
solver of the quadratic program at every node, at the first one with the current
arrival weighting added once.  If it is computed, a feedback behind a preparation,
with neither phase and no initialization in between, hands over the blocks of
that preparation in the same way. -/
theorem arrivalWeighting_not_accumulated {α σ : Type} [Scalar α] {description : Description α}
    {problem : Problem α} (accepted : description.validate.value = some problem)
    (free : description.flags.initialStateFixed = false)
    {host : Host α σ problem.program.table.sizes} (spares : problem.Spares host .hessianQ)
    (state : σ) (start : problem.Contents) {memory : problem.Contents} {reachedState : σ}
    (reached : let initialized :=
        problem.program.run host state start Horizon.initializeName []
      problem.program.Reaches host Problem.controlRoutines
        (initialized.memory, initialized.state) (memory, reachedState)) :
    let program := problem.program
    let n := description.dims.n
    Plan.ofProblem problem = .ok problem.plan ∧
      (∀ block, problem.plan.blocks.q1 = .given block →
        problem.SolvesWith host reachedState memory fun _ => block) ∧
      (∀ quantity, problem.plan.blocks.q1 = .computed quantity →
        let prepared := program.run host reachedState memory Phases.preparationName []
        ∃ simulation stages rest,
          program.trace host reachedState memory Phases.preparationName [] =
            simulation :: ((List.range n).map stages ++ rest) ∧
          (∀ node < n, (stages node).function = .stageCost) ∧
          ∀ next last, program.Reaches host Problem.besides (prepared.memory, prepared.state)
              (next, last) →
            problem.SolvesWith host last next fun node =>
              description.stateHessian node (stages node)) := by
  intro program n
  have wellFormed := Description.wellFormed_of_validate accepted
  have keeps := Description.keeps_of_validate accepted
  have estimates : problem.estimatesInitialState = true := by
    rw [Problem.estimatesInitialState, keeps.flags, free]
    rfl
  have q1_eq := (@Problem.blocks_plan α _ problem).1
  refine ⟨wellFormed.ofProblem_eq_ok, fun block given => ?_, fun quantity computed => ?_⟩
  · rw [q1_eq] at given
    cases known : (KnownBlocks.ofProblem problem).states with
    | none =>
        rw [known] at given
        cases given
    | some blocks =>
        rw [known] at given
        cases given
        exact Problem.solvesWith_of_known wellFormed estimates spares known state start reached
  · have unknown : (KnownBlocks.ofProblem problem).states = none := by
      rw [q1_eq] at computed
      cases known : (KnownBlocks.ofProblem problem).states with
      | none => rfl
      | some blocks =>
          rw [known] at computed
          cases computed
    have dims_eq : problem.dims.n = n := congrArg Dimensions.n keeps.dims
    obtain ⟨simulation, stages, rest, traced, functions, solves⟩ :=
      Problem.solvesWith_of_computed wellFormed estimates spares unknown reachedState memory
    rw [dims_eq] at traced functions
    refine ⟨simulation, stages, rest, traced, functions, fun next last reaches => ?_⟩
    simp only [← Problem.stateHessian_eq_of_keeps keeps]
    exact solves (next, last) reaches

/-! ## A second cycle -/

/-- The small description with a free first state and an arrival cost. -/
def Description.estimating : Description ℚ :=
  { Description.twoIntervals with
    flags := { Flags.default with useArrivalCost := true, initialStateFixed := false } }

/-- The problem of that description. -/
def Problem.estimating : Problem ℚ :=
  (Validation.checkContent Description.estimating).value

theorem Description.validate_estimating :
    Description.estimating.validate.value = some Problem.estimating := rfl

/-- In the second cycle of a small problem, an arrival weighting that was supplied
behind the preparation is added once. -/
theorem arrivalWeighting_estimating :
    let problem := Problem.estimating
    let program := problem.program
    let initialized := program.run Host.idle () program.initialMemory Horizon.initializeName []
    let prepared := program.run Host.idle initialized.state initialized.memory
      Phases.preparationName []
    let solved := program.run Host.idle prepared.state prepared.memory Phases.feedbackName []
    let again := program.run Host.idle solved.state solved.memory Phases.preparationName []
    let supplied := again.memory.overwrite (problem.plan.id .sAC) #[2]
    Description.estimating.flags.initialStateFixed = false ∧
      problem.Spares Host.idle .hessianQ ∧
      problem.plan.blocks.q1 = .computed .hessianQ ∧
      ∃ stages : Nat → HostCall ℚ program.table.sizes,
        problem.SolvesWith Host.idle again.state supplied fun node =>
          Description.estimating.stateHessian node (stages node) := by
  intro problem program initialized prepared solved again supplied
  have spares : problem.Spares Host.idle .hessianQ := fun _ _ _ _ => rfl
  have supplies : program.Supplies again.memory supplied := by
    refine Program.Supplies.of_overwrite (fun decl known => ?_) again.memory #[2]
    cases (problem.get?_id_plan .sAC).symm.trans known
    rfl
  have cycled : program.Reaches Host.idle Problem.controlRoutines
      (initialized.memory, initialized.state) (solved.memory, solved.state) :=
    (Relation.ReflTransGen.single (.run _ _ (by decide) [])).tail (.run _ _ (by decide) [])
  have computed : problem.plan.blocks.q1 = .computed .hessianQ := rfl
  obtain ⟨_, _, solves⟩ := arrivalWeighting_not_accumulated Description.validate_estimating rfl
    spares () program.initialMemory cycled
  obtain ⟨_, stages, _, _, _, behind⟩ := solves .hessianQ computed
  exact ⟨rfl, spares, computed, stages,
    behind supplied again.state (.single (.supply again.state supplies))⟩

end RtiAssembly
