import RtiAssembly.Proofs.Problem.Given
import RtiAssembly.Proofs.Solver.Feedback

/-!
# The feedback step

In terms of the description, the feedback phase hands over the Gauss-Newton
gradient of the current iterate with the linear terms in whichever of the four
forms they come, and takes the step that the solver of the quadratic program
leaves behind, whatever its status.
-/

namespace RtiAssembly

/-! ## Terms of the gradient -/

section Terms

variable {α : Type} [Scalar α] (description : Description α)

/-- The product of a transposed derivative with a weighting, if both are given. -/
def Description.weighted? (jacobian : Option (List (List α)))
    (weight : Description.Weighting α) (rows cols : Nat) : Option (Matrix α) :=
  weight.given?.bind fun weight => jacobian.map fun jacobian =>
    (Matrix.ofRows rows cols jacobian).transpose.mul (.ofRows rows rows weight)

variable {problem : Problem α}

/-- The gradient block of the states of a node: the given product, or the rows
of the node. -/
def Description.stateBlock (memory : problem.Contents) (node : Nat) : Matrix α :=
  let dims := description.dims
  let objective := description.objective
  (Description.weighted? objective.jacobianX objective.weight dims.ny dims.nx).getD
    (problem.part memory .q2 (node * (dims.nx * dims.ny)) dims.nx dims.ny)

/-- The gradient block of the controls of a node: the given product, or the rows
of the node. -/
def Description.controlBlock (memory : problem.Contents) (node : Nat) : Matrix α :=
  let dims := description.dims
  let objective := description.objective
  (Description.weighted? objective.jacobianU objective.weight dims.ny dims.nu).getD
    (problem.part memory .r2 (node * (dims.nu * dims.ny)) dims.nu dims.ny)

/-- The gradient block of the terminal state: the given product, or the computed
one. -/
def Description.terminalBlock (memory : problem.Contents) : Matrix α :=
  let dims := description.dims
  let objective := description.objective
  (Description.weighted? objective.terminalJacobianX objective.terminalWeight dims.nyn
    dims.nx).getD (problem.part memory .qN2 0 dims.nx dims.nyn)

/-- The linear term of a node: none, the given vector, the vector that all nodes
share, or the slice of the node. -/
def Description.linearTerm (select : List α → List α → List α) (quantity : Quantity)
    (size : Nat) (memory : problem.Contents) (node : Nat) : Option (Matrix α) :=
  match description.objective.linearTerms with
  | .none => none
  | .given x u => some (.column (select x u))
  | .runtime =>
      some (problem.part memory quantity
        (if Quantity.hasLinearTermsPerNode problem then node * size else 0) size 1)

/-- The linear term of the state of a node, the terminal one included. -/
def Description.stateTerm (memory : problem.Contents) (node : Nat) : Option (Matrix α) :=
  description.linearTerm (fun x _ => x) .wlx description.dims.nx memory node

/-- The linear term of the control of a node. -/
def Description.controlTerm (memory : problem.Contents) (node : Nat) : Option (Matrix α) :=
  description.linearTerm (fun _ u => u) .wlu description.dims.nu memory node

variable {description}

/-- The terms that the phase uses are those of the description. -/
theorem Description.terms_eq_of_keeps (keeps : description.Keeps problem)
    (memory : problem.Contents) :
    Objective.stateBlock problem memory = description.stateBlock memory ∧
      Objective.controlBlock problem memory = description.controlBlock memory ∧
      Objective.terminalBlock problem memory = description.terminalBlock memory ∧
      Objective.stateTerm problem memory = description.stateTerm memory ∧
      Objective.controlTerm problem memory = description.controlTerm memory := by
  have linear (select : List α → List α → List α) (quantity : Quantity) (size : Nat) :
      Objective.linearTerm problem select quantity size memory =
        description.linearTerm select quantity size memory := by
    funext node
    unfold Objective.linearTerm Description.linearTerm
    rw [keeps.linearTerms]
    cases description.objective.linearTerms <;> rfl
  refine ⟨?_, ?_, ?_, ?_, ?_⟩
  · funext node
    simp only [Objective.stateBlock, Description.stateBlock, KnownBlocks.ofProblem, keeps.weight,
      keeps.jacX, keeps.dims, Description.weighted?]
    cases description.objective.weight.given? <;> cases description.objective.jacobianX <;> rfl
  · funext node
    simp only [Objective.controlBlock, Description.controlBlock, KnownBlocks.ofProblem,
      keeps.weight, keeps.jacU, keeps.dims, Description.weighted?]
    cases description.objective.weight.given? <;> cases description.objective.jacobianU <;> rfl
  · simp only [Objective.terminalBlock, Description.terminalBlock, KnownBlocks.ofProblem,
      keeps.terminalWeight, keeps.jacXEnd, keeps.dims, Description.weighted?]
    cases description.objective.terminalWeight.given? <;>
      cases description.objective.terminalJacobianX <;> rfl
  · funext node
    rw [Objective.stateTerm, Description.stateTerm, linear, keeps.dims]
  · funext node
    rw [Objective.controlTerm, Description.controlTerm, linear, keeps.dims]

end Terms

/-- The feedback step of a generated solver, on any memory and with any host.
The solver of the quadratic program is called exactly once; when it is called,
memory holds the residuals, the gradient and the deviation of a fixed first
state; whatever it replies, the step that it left is taken over the whole
horizon and its status is returned. -/
theorem feedback_of_accepted {α σ : Type} [Scalar α] {description : Description α}
    {problem : Problem α} (accepted : description.validate.value = some problem)
    (host : Host α σ problem.program.table.sizes) (state : σ) (start : problem.Contents) :
    let outcome := problem.program.run host state start Phases.feedbackName []
    Plan.ofProblem problem = .ok problem.plan ∧ problem.dims = description.dims ∧
      problem.flags = description.flags ∧
      ∃ call asked,
        problem.program.trace host state start Phases.feedbackName [] = [call] ∧
          call.function = .qpSolve ∧
          host .qpSolve [] call.memory asked =
            ⟨call.status, call.left, call.after, outcome.state⟩ ∧
          Phases.ReadyToSolve problem (description.stateBlock start)
            (description.controlBlock start) (description.terminalBlock start)
            (description.stateTerm start) (description.controlTerm start) start call.memory ∧
          Phases.StepTaken problem call.after outcome.memory ∧
          outcome.result = .ok (Scalar.ofInt call.status) := by
  intro outcome
  have wellFormed := Description.wellFormed_of_validate accepted
  have keeps := Description.keeps_of_validate accepted
  obtain ⟨call, asked, record, function, replied, ready, step, result⟩ :=
    Phases.run_feedback wellFormed host state start
  obtain ⟨stateBlock, controlBlock, terminalBlock, stateTerm, controlTerm⟩ :=
    Description.terms_eq_of_keeps keeps start
  rw [stateBlock, controlBlock, terminalBlock, stateTerm, controlTerm] at ready
  exact ⟨wellFormed.ofProblem_eq_ok, keeps.dims, keeps.flags, call, asked, record, function,
    replied, ready, step, result⟩

/-- The feedback step of a small problem: the linear terms are supplied and
shared, and a solver that fails with status two leaves the step zero. -/
theorem feedback_twoIntervals :
    let problem := Problem.twoIntervals
    let description := Description.twoIntervals
    let host : Host ℚ Unit problem.program.table.sizes :=
      fun _ passed memory state => ⟨2, passed, memory, state⟩
    let start := problem.program.initialMemory
    let outcome := problem.program.run host () start Phases.feedbackName []
    description.validate.value = some problem ∧
      ∃ call, problem.program.trace host () start Phases.feedbackName [] = [call] ∧
        Phases.ReadyToSolve problem (description.stateBlock start)
          (description.controlBlock start) (description.terminalBlock start)
          (description.stateTerm start) (description.controlTerm start) start call.memory ∧
        Phases.StepTaken problem call.after outcome.memory ∧ outcome.result = .ok 2 := by
  intro problem description host start outcome
  obtain ⟨_, _, _, call, asked, record, _, replied, ready, step, result⟩ :=
    feedback_of_accepted Description.validate_twoIntervals host () start
  have status : call.status = 2 := by
    have replied_status := congrArg Reply.status replied
    exact replied_status.symm
  rw [status] at result
  exact ⟨Description.validate_twoIntervals, call, record, ready, step, result⟩

end RtiAssembly
