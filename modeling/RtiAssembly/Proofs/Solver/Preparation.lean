import RtiAssembly.Proofs.Problem.Bounds
import RtiAssembly.Proofs.Solver.Constraints
import RtiAssembly.Proofs.Solver.Initialization
import RtiAssembly.Proofs.Solver.Objective

/-!
# The preparation phase

The preparation integrates the trajectory, evaluates the objective and then the
constraints.  Behind the initialization it leaves the Gauss-Newton Hessian of
the current trajectory, whichever of its inputs were known when the program was
generated, and the affine bounds relative to the trajectory.
-/

namespace RtiAssembly

open Statement

/-! ## Evaluations in a larger run -/

namespace Objective

variable {α σ : Type} [Scalar α] {problem : Problem α}

/-- What the evaluation leaves stays if others work elsewhere. -/
theorem Holds.of_changes {start before after : problem.Contents}
    {stages : List (HostCall α problem.program.table.sizes)}
    {terminal : HostCall α problem.program.table.sizes} {region : Quantity → Nat → Prop}
    (held : Holds problem start stages terminal before)
    (changes : problem.Changes region before after)
    (outside : ∀ quantity position, share problem quantity →
      quantity ≠ .objValueIn → quantity ≠ .objValueOut → ¬region quantity position) :
    Holds problem start stages terminal after := by
  obtain ⟨count, stage, asks, residuals, blocks⟩ := held
  refine ⟨count, fun node node_lt => ?_, asks, fun row row_lt => ?_, fun computed => ?_⟩
  · obtain ⟨call, place, holdsCall⟩ := stage node node_lt
    refine ⟨call, place, holdsCall.of_changes changes fun quantity position inside => ?_⟩
    have shared := share_of_stageShare (.inr (.inr inside))
    obtain ⟨size, sized, _⟩ := inside
    refine outside quantity position shared ?_ ?_ <;> rintro rfl <;> simp [stageSize?] at sized
  · rw [changes .dyN row (outside _ _ (.inr (.inr (.inr (.inl rfl)))) (by decide) (by decide))]
    exact residuals row row_lt
  · have shared {quantity : Quantity} (block : quantity = .qN2 ∨ quantity = .hessianQf) :
        share problem quantity := .inr (.inr (.inr (.inr ⟨computed, block⟩)))
    have kept := blocks computed
    intro dims
    rw [changes.part_eq fun _ _ _ => outside _ _ (shared (.inl rfl)) (by decide) (by decide),
      changes.part_eq fun _ _ _ => outside _ _ (shared (.inr rfl)) (by decide) (by decide)]
    exact kept

/-- The constraints share no result with the objective. -/
theorem not_constraintsShare {quantity : Quantity} (shared : share problem quantity)
    (notInput : quantity ≠ .objValueIn) (notOutput : quantity ≠ .objValueOut) :
    ¬Constraints.share quantity := by
  unfold share terminalShare stageSize? at shared
  cases quantity <;> simp [Constraints.share] at shared notInput notOutput ⊢

/-- The evaluation depends on the inputs of nodes and on the weightings only. -/
theorem Holds.of_before {start before memory : problem.Contents}
    {stages : List (HostCall α problem.program.table.sizes)}
    {terminal : HostCall α problem.program.table.sizes} {region : Quantity → Nat → Prop}
    (held : Holds problem before stages terminal memory)
    (changes : problem.Changes region start before)
    (outside : ∀ quantity position, (quantity = .x ∨ quantity = .u ∨ quantity = .od ∨
      quantity = .w ∨ quantity = .wN) → ¬region quantity position) :
    Holds problem start stages terminal memory := by
  obtain ⟨count, stage, asks, residuals, blocks⟩ := held
  have inputs (position : Nat) :
      ¬region .x position ∧ ¬region .u position ∧ ¬region .od position :=
    ⟨outside _ _ (.inl rfl), outside _ _ (.inr (.inl rfl)), outside _ _ (.inr (.inr (.inl rfl)))⟩
  refine ⟨count, fun node node_lt => ?_, asks.of_changes changes inputs, residuals, ?_⟩
  · obtain ⟨call, place, stageAsks, stageResiduals, stageBlocks⟩ := stage node node_lt
    have weight_eq : stageWeight problem before node = stageWeight problem start node :=
      Place.getD_eq _ changes fun position => outside .w position (.inr (.inr (.inr (.inl rfl))))
    rw [weight_eq] at stageBlocks
    exact ⟨call, place, stageAsks.of_changes changes inputs, stageResiduals, stageBlocks⟩
  · have weight_eq : terminalWeight problem before = terminalWeight problem start :=
      Place.getD_eq _ changes fun position => outside .wN position (.inr (.inr (.inr (.inr rfl))))
    rw [weight_eq] at blocks
    exact blocks

end Objective

namespace Constraints

variable {α σ : Type} [Scalar α] {problem : Problem α}

/-- The evaluation depends on the inputs of nodes and on the configured bounds
only. -/
theorem Holds.of_before {start before memory : problem.Contents}
    {calls : List (HostCall α problem.program.table.sizes)} {region : Quantity → Nat → Prop}
    (held : Holds problem before calls memory) (changes : problem.Changes region start before)
    (outside : ∀ quantity position, (quantity = .x ∨ quantity = .u ∨ quantity = .od ∨
      quantity ∈ (Problem.configured problem).map Prod.fst) → ¬region quantity position) :
    Holds problem start calls memory := by
  have side {target configured : Quantity}
      (bound : configured ∈ (Problem.configured problem).map Prod.fst)
      (holds : SideHolds problem target configured before memory) :
      SideHolds problem target configured start memory :=
    holds.of_before changes fun position => ⟨outside _ _ (.inr (.inr (.inr bound))),
      outside _ _ (.inr (.inl rfl)), outside _ _ (.inl rfl)⟩
  have segment {name : String} {node offset dim : Nat}
      {call : HostCall α problem.program.table.sizes}
      (holds : SegmentHolds problem name node offset dim before call memory) :
      SegmentHolds problem name node offset dim start call memory :=
    ⟨holds.asks.of_changes changes fun position => ⟨outside _ _ (.inl rfl),
        outside _ _ (.inr (.inl rfl)), outside _ _ (.inr (.inr (.inl rfl)))⟩,
      holds.rows.of_before changes (fun position =>
        ⟨outside _ _ (.inr (.inr (.inr (by simp [Problem.configured])))),
          outside _ _ (.inr (.inr (.inr (by simp [Problem.configured]))))⟩) fun _ _ => rfl⟩
  refine ⟨side (by simp [Problem.configured]) held.lower,
    side (by simp [Problem.configured]) held.upper,
    fun path known node node_lt => ?_, fun node point found => ?_⟩
  · obtain ⟨call, made, holds⟩ := held.path path known node node_lt
    exact ⟨call, made, segment holds⟩
  · obtain ⟨call, made, holds⟩ := held.point node point found
    exact ⟨call, made, segment holds⟩

end Constraints

namespace Problem

variable {α σ : Type} [Scalar α] {problem : Problem α}

/-! ## The phase -/

/-- The quantities that the preparation may change. -/
def preparationShare (problem : Problem α) (quantity : Quantity) : Prop :=
  quantity = .d ∨ Objective.share problem quantity ∨ Constraints.share quantity

/-- What the preparation leaves behind, given the memory before it and its
calls. -/
structure Prepared (problem : Problem α) (start : problem.Contents)
    (stages : List (HostCall α problem.program.table.sizes))
    (terminal : HostCall α problem.program.table.sizes)
    (constraints : List (HostCall α problem.program.table.sizes)) (memory : problem.Contents) :
    Prop where
  objective : Objective.Holds problem start stages terminal memory
  constraints : Constraints.Holds problem start constraints memory
  kept : problem.Changes (fun quantity _ => preparationShare problem quantity) start memory

/-- The integration writes the defects only. -/
theorem moves_simulation {scene : Scene α (σ × List (HostCall α problem.program.table.sizes))
      problem.program.table.sizes} {frame : Frame} {host : Host α σ problem.program.table.sizes}
    (records : scene.host = host.recorded) (tame : problem.Tame host)
    (world : problem.Recorded σ) :
    ∃ call : HostCall α problem.program.table.sizes, call.function = .modelSimulation ∧
      problem.Moves (fun quantity _ => quantity = .d) [call] world
        ((Statement.invoke .modelSimulation [] (some (Phases.ownScalar 0))).effect scene frame
          world) := by
  let reply := host .modelSimulation [] world.store.memory world.state.1
  rw [Statement.effect_invoke_status records]
  refine ⟨⟨.modelSimulation, [], world.store.memory, reply.status, reply.arguments,
    reply.memory⟩, rfl, rfl, ?_⟩
  intro quantity position outside
  exact tame.simulation [] world.store.memory world.state.1 quantity position outside

/-- A run of the preparation returns; it makes one call for the integration,
one for each node, and those of the constraints. -/
theorem run_preparation (wellFormed : problem.WellFormed)
    {host : Host α σ problem.program.table.sizes} (tame : problem.Tame host) (state : σ)
    (memory : problem.Contents) :
    let outcome := problem.program.run host state memory Phases.preparationName []
    (∃ value, outcome.result = .ok value) ∧
      ∃ simulation stages terminal constraints,
        problem.program.trace host state memory Phases.preparationName [] =
          simulation :: (stages ++ terminal :: constraints) ∧
        simulation.function = .modelSimulation ∧
        Prepared problem memory stages terminal constraints outcome.memory := by
  obtain ⟨depth, run_eq, trace_eq⟩ := problem.run_preparation_eq wellFormed host state memory
  let scene := problem.program.scene host.recorded (depth + 2)
  let frame := Frame.ofCall (Phases.preparationRoutine : Routine α) [] 0
  let started := problem.startOf Phases.preparationRoutine state memory
  let simulated := (Statement.invoke .modelSimulation [] (some (Phases.ownScalar 0))).effect scene
    frame started
  let evaluated := (Statement.run Objective.evaluateName []).effect scene frame simulated
  let ended := (Statement.run Constraints.evaluateName []).effect scene frame evaluated
  obtain ⟨simulation, function_eq, simulationMoves⟩ :=
    @moves_simulation α σ _ problem scene frame host rfl tame started
  obtain ⟨stages, terminal, objectiveMoves, objective⟩ :=
    @Objective.holds_evaluate α σ _ problem frame host depth simulated wellFormed tame.costs
  obtain ⟨constraints, constraintMoves, held⟩ :=
    @Constraints.holds_evaluate α σ _ problem frame host depth evaluated wellFormed tame
  have moves : problem.Moves (fun quantity _ => preparationShare problem quantity)
      ([simulation] ++ (stages ++ [terminal] ++ constraints)) started ended :=
    (simulationMoves.mono fun _ _ => .inl).trans
      ((objectiveMoves.mono fun _ _ inside => .inr (.inl inside)).trans
        (constraintMoves.mono fun _ _ inside => .inr (.inr inside)))
  intro outcome
  have memory_eq : outcome.memory = ended.store.memory := congrArg Program.Outcome.memory run_eq
  refine ⟨⟨_, congrArg Program.Outcome.result run_eq⟩, simulation, stages, terminal, constraints,
    ?_, function_eq, ?_⟩
  · refine trace_eq.trans (moves.record.trans ?_)
    simp [started, startOf]
  · rw [memory_eq]
    have simulatedChanges : problem.Changes (fun quantity _ => quantity = .d) memory
        simulated.store.memory := simulationMoves.memory
    have evaluatedChanges : problem.Changes
        (fun quantity _ => quantity = .d ∨ Objective.share problem quantity) memory
        evaluated.store.memory :=
      (simulatedChanges.mono fun _ _ => .inl).trans (objectiveMoves.memory.mono fun _ _ => .inr)
    refine ⟨(objective.of_before simulatedChanges ?_).of_changes constraintMoves.memory ?_,
      held.of_before evaluatedChanges ?_, moves.memory⟩
    · rintro _ _ (rfl | rfl | rfl | rfl | rfl) <;> decide
    · intro quantity _ shared notInput notOutput
      exact Objective.not_constraintsShare shared notInput notOutput
    · simp only [configured, List.map_cons, List.map_nil, List.mem_cons, List.not_mem_nil, or_false]
      rintro _ _ (rfl | rfl | rfl | rfl | rfl | rfl | rfl) <;>
        simp [Objective.share, Objective.terminalShare, Objective.stageSize?]

end Problem

end RtiAssembly
