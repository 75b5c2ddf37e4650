import RtiAssembly.Proofs.Solver.CallProtocol

/-!
# State blocks of the Hessian

The preparation writes the state blocks of the Hessian anew if they are computed
and leaves them alone if they are known.  This holds for every host that does
not itself write them: what a block is computed from are the outputs and the
weighting that stand in memory when the function of its node has returned.
-/

namespace RtiAssembly

namespace Objective

variable {α : Type} [Scalar α] {problem : Problem α}

/-- What the evaluation of a node leaves in its state block, if that is computed. -/
def NodeHolds (problem : Problem α) (node : Nat)
    (call : HostCall α problem.program.table.sizes) (memory : problem.Contents) : Prop :=
  call.function = .stageCost ∧
    ((KnownBlocks.ofProblem problem).states = none →
      let nx := problem.dims.nx
      problem.part memory .hessianQ (node * (nx * nx)) nx nx = stateHessian problem node call)

/-- What the evaluation leaves in the state blocks, given the calls of its
stages. -/
def StatesHold (problem : Problem α) (stages : List (HostCall α problem.program.table.sizes))
    (memory : problem.Contents) : Prop :=
  stages.length = problem.dims.n ∧ ∀ node < problem.dims.n, ∃ call, stages[node]? = some call ∧
    NodeHolds problem node call memory

end Objective

namespace Problem

variable {α σ : Type} [Scalar α] {problem : Problem α}

/-- A run of the preparation with any host that spares the Hessian of the states.
Computed state blocks are written anew, known ones are left alone. -/
theorem run_preparation_of_spares (wellFormed : problem.WellFormed)
    {host : Host α σ problem.program.table.sizes} (spares : problem.Spares host .hessianQ)
    (state : σ) (memory : problem.Contents) :
    let outcome := problem.program.run host state memory Phases.preparationName []
    (∃ simulation stages rest,
      problem.program.trace host state memory Phases.preparationName [] =
        simulation :: (stages ++ rest) ∧
      Objective.StatesHold problem stages outcome.memory) ∧
    ((KnownBlocks.ofProblem problem).states ≠ none → ∀ position,
      problem.valueAt outcome.memory .hessianQ position =
        problem.valueAt memory .hessianQ position) := by
  obtain ⟨simulation, stages, terminal, constraints, trace_eq, prepares⟩ :=
    run_preparation_of_any wellFormed host state memory
  refine ⟨⟨simulation, stages, terminal :: constraints, trace_eq, prepares.objective.count,
    fun node node_lt => ?_⟩, fun known => ?_⟩
  · obtain ⟨call, place, returns⟩ := prepares.objective.stage node node_lt
    exact ⟨call, place, returns.meets.function_eq, returns.states spares⟩
  · refine prepares.kept .hessianQ spares (by simp) (by decide) ?_
    simp [Objective.share, Objective.terminalShare, Objective.stageSize?, known]

end Problem

end RtiAssembly
