import RtiAssembly.Proofs.Problem.BoxBounds
import RtiAssembly.Proofs.Solver.Preparation

/-!
# The box bounds

After an initialization and an evaluation of the constraints, alone or within
the preparation, every box row holds the bound that the description configures
for its node, minus the trajectory there.  The rows of the states are shifted by
one node against the trajectory, since the initial state has none.
-/

namespace RtiAssembly

open Description

namespace Problem

variable {α σ : Type} [Scalar α] {description : Description α} {problem : Problem α}

/-! ## Rows -/

/-- The box rows hold the configured bounds relative to a trajectory. -/
structure HoldsBox (problem : Problem α) (bounds : Bounds α)
    (supplied memory : problem.Contents) : Prop where
  control : ∀ node < problem.dims.n, ∀ component < problem.dims.nu,
    let row := node * problem.dims.nu + component
    problem.valueAt memory .qpLb row = lowerBound bounds.u node component -
        problem.valueAt supplied .u (node * problem.dims.nu + component) ∧
      problem.valueAt memory .qpUb row = upperBound bounds.u node component -
        problem.valueAt supplied .u (node * problem.dims.nu + component)
  state : ∀ node, 1 ≤ node → node ≤ problem.dims.n → ∀ component < problem.dims.nx,
    let row := problem.dims.n * problem.dims.nu + (node - 1) * problem.dims.nx + component
    problem.valueAt memory .qpLb row = lowerBound bounds.x node component -
        problem.valueAt supplied .x (node * problem.dims.nx + component) ∧
      problem.valueAt memory .qpUb row = upperBound bounds.x node component -
        problem.valueAt supplied .x (node * problem.dims.nx + component)

omit [Scalar α] in
/-- Every box row belongs to a component of the controls of an interval or of the
states behind the initial one. -/
theorem boxRow_cases {row : Nat} (row_lt : row < problem.boxDim) :
    (∃ node < problem.dims.n, ∃ component < problem.dims.nu,
        row = node * problem.dims.nu + component) ∨
      ∃ node, 1 ≤ node ∧ node ≤ problem.dims.n ∧ ∃ component < problem.dims.nx,
        row = problem.dims.n * problem.dims.nu + (node - 1) * problem.dims.nx + component := by
  unfold boxDim at row_lt
  rw [Nat.mul_add] at row_lt
  rcases Nat.lt_or_ge row (problem.dims.n * problem.dims.nu) with control | state
  · have width_pos : 0 < problem.dims.nu := Nat.pos_of_mul_pos_left (Nat.zero_lt_of_lt control)
    exact .inl ⟨row / problem.dims.nu, Nat.div_lt_of_lt_mul (Nat.mul_comm _ _ ▸ control),
      row % problem.dims.nu, Nat.mod_lt _ width_pos, (Nat.div_add_mod' _ _).symm⟩
  · obtain ⟨place, rfl⟩ := Nat.exists_eq_add_of_le state
    have place_lt : place < problem.dims.n * problem.dims.nx := by omega
    have width_pos : 0 < problem.dims.nx := Nat.pos_of_mul_pos_left (Nat.zero_lt_of_lt place_lt)
    refine .inr ⟨place / problem.dims.nx + 1, Nat.succ_pos _,
      Nat.div_lt_of_lt_mul (Nat.mul_comm _ _ ▸ place_lt), place % problem.dims.nx,
      Nat.mod_lt _ width_pos, ?_⟩
    rw [Nat.add_sub_cancel, Nat.add_assoc, Nat.div_add_mod']

/-- Rows that hold the same bounds relative to the same trajectory are the same,
whatever else tells the problems apart. -/
theorem HoldsBox.rows_eq {bounds : Bounds α} {supplied memory : problem.Contents}
    (held : problem.HoldsBox bounds supplied memory) {variant : Problem α}
    (dims_eq : variant.dims = problem.dims) {other after : variant.Contents}
    (heldOther : variant.HoldsBox bounds other after)
    (same : ∀ position, variant.valueAt other .u position = problem.valueAt supplied .u position ∧
      variant.valueAt other .x position = problem.valueAt supplied .x position)
    {row : Nat} (row_lt : row < problem.boxDim) :
    variant.valueAt after .qpLb row = problem.valueAt memory .qpLb row ∧
      variant.valueAt after .qpUb row = problem.valueAt memory .qpUb row := by
  rcases boxRow_cases row_lt with ⟨node, node_lt, component, component_lt, rfl⟩ |
    ⟨node, node_pos, node_le, component, component_lt, rfl⟩
  · obtain ⟨lower, upper⟩ := held.control node node_lt component component_lt
    obtain ⟨lowerOther, upperOther⟩ :=
      heldOther.control node (dims_eq ▸ node_lt) component (dims_eq ▸ component_lt)
    rw [dims_eq, (same _).1] at lowerOther upperOther
    exact ⟨lowerOther.trans lower.symm, upperOther.trans upper.symm⟩
  · obtain ⟨lower, upper⟩ := held.state node node_pos node_le component component_lt
    obtain ⟨lowerOther, upperOther⟩ :=
      heldOther.state node node_pos (dims_eq ▸ node_le) component (dims_eq ▸ component_lt)
    rw [dims_eq, (same _).2] at lowerOther upperOther
    exact ⟨lowerOther.trans lower.symm, upperOther.trans upper.symm⟩

/-- A box row finds its bounds in memory. -/
theorem valueAt_boxBounds {memory : problem.Contents} (bounds : BoundsHold problem memory)
    {row : Nat} {lower upper : α} (lowerRow : problem.boxBounds.lower[row]? = some lower)
    (upperRow : problem.boxBounds.upper[row]? = some upper) :
    problem.valueAt memory .lbValues row = lower ∧
      problem.valueAt memory .ubValues row = upper := by
  constructor
  · refine (bounds (.lbValues, problem.boxBounds.lower) (by simp [configured]) (by simp) row
      (List.getElem?_eq_some_iff.1 lowerRow).1).trans ?_
    rw [List.getD_eq_getElem?_getD, lowerRow, Option.getD_some]
  · refine (bounds (.ubValues, problem.boxBounds.upper) (by simp [configured]) (by simp) row
      (List.getElem?_eq_some_iff.1 upperRow).1).trans ?_
    rw [List.getD_eq_getElem?_getD, upperRow, Option.getD_some]

/-- The box rows that an evaluation of the constraints leaves. -/
theorem holdsBox_of_holds (accepted : description.validate.value = some problem)
    {supplied memory : problem.Contents} (bounds : BoundsHold problem supplied)
    {calls : List (HostCall α problem.program.table.sizes)}
    (held : Constraints.Holds problem supplied calls memory) :
    problem.HoldsBox description.bounds supplied memory := by
  obtain ⟨controls, states⟩ := boxBounds_of_validate accepted
  refine ⟨fun node node_lt component component_lt => ?_,
    fun node node_pos node_le component component_lt => ?_⟩
  · obtain ⟨lowerRow, upperRow⟩ := controls node node_lt component component_lt
    obtain ⟨lower, upper⟩ := valueAt_boxBounds bounds lowerRow upperRow
    have row_lt : node * problem.dims.nu + component < problem.dims.n * problem.dims.nu :=
      Nat.lt_of_lt_of_le (Nat.add_lt_add_left component_lt _) (block_le problem.dims.nu node_lt)
    intro row
    rw [held.lower.controls row row_lt, held.upper.controls row row_lt, lower, upper]
    exact ⟨rfl, rfl⟩
  · obtain ⟨lowerRow, upperRow⟩ := states node node_pos node_le component component_lt
    obtain ⟨lower, upper⟩ := valueAt_boxBounds bounds lowerRow upperRow
    obtain ⟨before, rfl⟩ := Nat.exists_eq_add_of_le' node_pos
    rw [Nat.add_sub_cancel] at lower upper
    have row_lt : before * problem.dims.nx + component < problem.dims.n * problem.dims.nx :=
      Nat.lt_of_lt_of_le (Nat.add_lt_add_left component_lt _) (block_le problem.dims.nx node_le)
    have behind_eq : problem.dims.nx + (before * problem.dims.nx + component) =
        (before + 1) * problem.dims.nx + component := by
      rw [Nat.add_mul, Nat.one_mul]
      omega
    intro row
    have row_eq : row = problem.dims.n * problem.dims.nu +
        (before * problem.dims.nx + component) := by
      simp only [row, Nat.add_sub_cancel, Nat.add_assoc]
    rw [row_eq, held.lower.states _ row_lt, held.upper.states _ row_lt, lower, upper, behind_eq]
    exact ⟨rfl, rfl⟩

/-! ## Runs -/

/-- A run of the evaluation of the constraints alone returns. -/
theorem run_constraints (wellFormed : problem.WellFormed)
    {host : Host α σ problem.program.table.sizes} (tame : problem.Tame host) (state : σ)
    (memory : problem.Contents) :
    let outcome := problem.program.run host state memory Constraints.evaluateName []
    (∃ value, outcome.result = .ok value) ∧
      ∃ calls, Constraints.Holds problem memory calls outcome.memory := by
  let routine := Constraints.evaluateRoutine problem problem.plan
  obtain ⟨depth, run_eq, _⟩ := problem.run_eq_effects mem_routines.2.2.2.2.1 rfl
    ((safe_constraints wellFormed).mono (by omega)) host state memory
  obtain ⟨calls, _, held⟩ := @Constraints.holds_body α σ _ problem (Frame.ofCall routine [] 0)
    host (depth + 1) (problem.startOf routine state memory) wellFormed tame
  intro outcome
  refine ⟨⟨_, congrArg Program.Outcome.result run_eq⟩, calls, ?_⟩
  rw [show outcome.memory = _ from congrArg Program.Outcome.memory run_eq]
  exact held

/-- The phases that evaluate the constraints. -/
def constraintPhases : List String :=
  [Constraints.evaluateName, Phases.preparationName]

/-- A run that evaluates the constraints: the solver is initialized where
constants are in place, a trajectory and the online data are supplied, and one of
the phases is run. -/
structure ConstraintRun (problem : Problem α) (σ : Type) where
  host : Host α σ problem.program.table.sizes
  tame : problem.Tame host
  state : σ
  start : problem.Contents
  constants : problem.program.HoldsConstants start
  supplied : problem.Contents
  supplies : problem.Changes (fun quantity _ => quantity = .x ∨ quantity = .u ∨ quantity = .od)
    (problem.program.run host state start Horizon.initializeName []).memory supplied
  phase : String
  listed : phase ∈ constraintPhases

namespace ConstraintRun

variable (run : problem.ConstraintRun σ)

/-- What the initialization leaves behind. -/
def initialized : problem.program.Outcome σ :=
  problem.program.run run.host run.state run.start Horizon.initializeName []

/-- What the evaluation leaves behind. -/
def outcome : problem.program.Outcome σ :=
  problem.program.run run.host run.initialized.state run.supplied run.phase []

/-- The configured bounds are in memory when the constraints are evaluated. -/
theorem boundsHold (wellFormed : problem.WellFormed) : BoundsHold problem run.supplied := by
  obtain ⟨_, _, configuredBounds⟩ := run_initialize wellFormed run.host run.state run.start
  intro entry listed present position inside
  rw [run.supplies entry.1 position fun written => ?_]
  · exact configuredBounds run.constants entry listed present position inside
  · simp only [configured, List.mem_cons, List.not_mem_nil, or_false] at listed
    rcases listed with rfl | rfl | rfl | rfl <;> simp at written

/-- Both phases return, with all bounds evaluated. -/
theorem holds (wellFormed : problem.WellFormed) :
    (∃ value, run.outcome.result = .ok value) ∧
      ∃ calls, Constraints.Holds problem run.supplied calls run.outcome.memory := by
  have phases := run.listed
  simp only [constraintPhases, List.mem_cons, List.not_mem_nil, or_false] at phases
  unfold outcome
  rcases phases with evaluated | prepared
  · rw [evaluated]
    exact run_constraints wellFormed run.tame run.initialized.state run.supplied
  · rw [prepared]
    obtain ⟨returns, _, _, _, calls, _, _, held⟩ :=
      run_preparation wellFormed run.tame run.initialized.state run.supplied
    exact ⟨returns, calls, held.constraints⟩

theorem holdsBox (accepted : description.validate.value = some problem) :
    problem.HoldsBox description.bounds run.supplied run.outcome.memory := by
  have wellFormed := wellFormed_of_validate accepted
  obtain ⟨_, calls, held⟩ := run.holds wellFormed
  exact holdsBox_of_holds accepted (run.boundsHold wellFormed) held

end ConstraintRun

end Problem

/-- The box bounds of a generated solver.  An evaluation of the constraints leaves
in every box row, controls of all intervals and then states behind the initial
one, the bound that the description configures, or a huge one where it configures
none, minus the trajectory.  The program does not depend on state bounds of the
initial node, and the rows do not depend on whether bounds are constants or filled
in by the initialization. -/
theorem boxBounds_of_evaluation {α σ : Type} [Scalar α] {description : Description α}
    {problem : Problem α} (accepted : description.validate.value = some problem)
    (run : problem.ConstraintRun σ) :
    (∃ value, run.initialized.result = .ok value) ∧
      (∃ value, run.outcome.result = .ok value) ∧
      problem.sizeOf .qpLb = problem.boxDim ∧ problem.sizeOf .qpUb = problem.boxDim ∧
      (∀ row < problem.boxDim,
        (∃ node < problem.dims.n, ∃ component < problem.dims.nu,
            row = node * problem.dims.nu + component) ∨
          ∃ node, 1 ≤ node ∧ node ≤ problem.dims.n ∧ ∃ component < problem.dims.nx,
            row = problem.dims.n * problem.dims.nu + (node - 1) * problem.dims.nx + component) ∧
      problem.HoldsBox description.bounds run.supplied run.outcome.memory ∧
      (∀ bounds : NodeMap (Description.BoundPair α),
        (∀ node, node ≠ 0 → bounds.get? node = description.bounds.x.get? node) →
          (description.withStateBounds bounds).validate.value = some problem) ∧
      ∀ hardcoded, ∃ variant,
        (description.withHardcodedBounds hardcoded).validate.value = some variant ∧
          variant.flags.hardcodeConstraints = hardcoded ∧
          ∀ {τ : Type} (other : variant.ConstraintRun τ),
            (∀ position,
              variant.valueAt other.supplied .u position =
                  problem.valueAt run.supplied .u position ∧
                variant.valueAt other.supplied .x position =
                  problem.valueAt run.supplied .x position) →
              ∀ row < problem.boxDim,
                variant.valueAt other.outcome.memory .qpLb row =
                    problem.valueAt run.outcome.memory .qpLb row ∧
                  variant.valueAt other.outcome.memory .qpUb row =
                    problem.valueAt run.outcome.memory .qpUb row := by
  have wellFormed := wellFormed_of_validate accepted
  obtain ⟨initializeReturns, _⟩ :=
    Problem.run_initialize wellFormed run.host run.state run.start
  have lowerSize : problem.sizeOf .qpLb = problem.boxDim := by
    rw [problem.sizeOf_eq Problem.shapeOf?_quadraticProgram.2.2.2.2.2.1, Nat.mul_one]
    rfl
  have upperSize : problem.sizeOf .qpUb = problem.boxDim := by
    rw [problem.sizeOf_eq Problem.shapeOf?_quadraticProgram.2.2.2.2.2.2.1, Nat.mul_one]
    rfl
  refine ⟨initializeReturns, (run.holds wellFormed).1, lowerSize, upperSize,
    fun _ => Problem.boxRow_cases, run.holdsBox accepted,
    fun _ => validate_withStateBounds accepted, fun hardcoded => ?_⟩
  obtain ⟨variant, value, kept, dims_eq⟩ : ∃ variant,
      (description.withHardcodedBounds hardcoded).validate.value = some variant ∧
        variant.flags.hardcodeConstraints = hardcoded ∧ variant.dims = problem.dims :=
    ⟨_, validate_withHardcodedBounds accepted hardcoded, rfl, rfl⟩
  refine ⟨variant, value, kept, fun other same row row_lt => ?_⟩
  have heldOther := other.holdsBox value
  change variant.HoldsBox description.bounds _ _ at heldOther
  exact (run.holdsBox accepted).rows_eq dims_eq heldOther same row_lt

/-- The small description with a lower bound of the last state, an upper bound of
the last control, and bounds of the initial state. -/
def Description.bounding : Description ℚ :=
  { Description.twoIntervals with
    bounds :=
      { x :=
          { entries := [(0, ⟨some [1, 2], none⟩), (2, ⟨some [5], none⟩)], ascending := by decide }
        u := { entries := [(1, ⟨none, some [3]⟩)], ascending := by decide } } }

/-- The problem of that description. -/
def Problem.bounding : Problem ℚ :=
  (Validation.checkContent Description.bounding).value

/-- The preparation of that problem, with a host that changes nothing. -/
def Problem.ConstraintRun.bounding : Problem.bounding.ConstraintRun Unit where
  host := Host.idle
  tame := ⟨fun _ _ _ => rfl, fun _ _ _ => rfl, fun _ _ _ _ => rfl, fun _ _ _ => .refl _⟩
  state := ()
  start := Problem.bounding.program.initialMemory
  constants := Problem.bounding.program.holdsConstants_initialMemory
  supplied := _
  supplies := .refl _
  phase := Phases.preparationName
  listed := by decide

/-- The rows of the last node of a small problem. -/
theorem boxBounds_bounding :
    let problem := Problem.bounding
    let run := Problem.ConstraintRun.bounding
    Description.bounding.validate.value = some problem ∧
      problem.valueAt run.outcome.memory .qpLb 3 = 5 - problem.valueAt run.supplied .x 2 ∧
      problem.valueAt run.outcome.memory .qpUb 3 =
        1000000000000 - problem.valueAt run.supplied .x 2 ∧
      problem.valueAt run.outcome.memory .qpUb 1 = 3 - problem.valueAt run.supplied .u 1 := by
  intro problem run
  have accepted : Description.bounding.validate.value = some problem := rfl
  obtain ⟨_, _, _, _, _, held, _⟩ := boxBounds_of_evaluation accepted run
  obtain ⟨stateLower, stateUpper⟩ := held.state 2 (by decide) (by decide) 0 (by decide)
  exact ⟨accepted, stateLower, stateUpper, (held.control 1 (by decide) 0 (by decide)).2⟩

end RtiAssembly
