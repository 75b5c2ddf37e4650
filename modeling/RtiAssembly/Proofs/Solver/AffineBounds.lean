import RtiAssembly.Proofs.Solver.Preparation

/-!
# The affine bounds

After an initialization and a preparation, every affine row holds the bound
that the description configures for it, minus the value of its constraint
function on the node of the row.
-/

namespace RtiAssembly

namespace Problem

variable {α σ : Type} [Scalar α] {description : Description α} {problem : Problem α}

/-- An affine row finds its bounds in memory. -/
theorem valueAt_of_boundsHold (wellFormed : problem.WellFormed) {memory : problem.Contents}
    (bounds : BoundsHold problem memory) {row : Nat} (row_lt : row < problem.affineDim) :
    problem.valueAt memory .lbAValues row = problem.affineBounds.lower.getD row 0 ∧
      problem.valueAt memory .ubAValues row = problem.affineBounds.upper.getD row 0 := by
  obtain ⟨lower, upper⟩ := wellFormed.length_affineBounds
  have rows : 0 < problem.affineDim := Nat.zero_lt_of_lt row_lt
  constructor
  · exact bounds (.lbAValues, problem.affineBounds.lower) (by simp [configured])
      (by simp [rows]) row (lower.symm ▸ row_lt)
  · exact bounds (.ubAValues, problem.affineBounds.upper) (by simp [configured])
      (by simp [rows]) row (upper.symm ▸ row_lt)

/-- Consecutive affine rows hold configured bounds minus the first outputs of a
call. -/
def HoldsRows (problem : Problem α) (offset dim : Nat) (lower upper : Nat → α)
    (call : HostCall α problem.program.table.sizes) (memory : problem.Contents) : Prop :=
  ∀ row < dim,
    problem.valueAt memory .qpLbA (offset + row) = lower row - call.leaves 1 row ∧
      problem.valueAt memory .qpUbA (offset + row) = upper row - call.leaves 1 row

/-- The rows of the path constraint on an interval. -/
theorem holdsRows_path (accepted : description.validate.value = some problem)
    {supplied memory : problem.Contents} (bounds : BoundsHold problem supplied)
    {calls : List (HostCall α problem.program.table.sizes)}
    (held : Constraints.Holds problem supplied calls memory)
    {spec : Description.PathConstraint α} (given : description.pathConstraint = some spec)
    (dim_pos : 0 < spec.dim) {node : Nat} (node_lt : node < problem.dims.n) :
    ∃ call ∈ calls, problem.Asks (.constraint spec.name) supplied node call ∧
      problem.HoldsRows (problem.affineOffset node) spec.dim
        (fun row => spec.lower.getD (spec.place spec.lower node row) 0)
        (fun row => spec.upper.getD (spec.place spec.upper node row) 0) call memory := by
  have wellFormed := Description.wellFormed_of_validate accepted
  obtain ⟨path, known, name_eq, dim_eq, configuredBounds⟩ :=
    Description.path_of_validate accepted given dim_pos
  obtain ⟨call, made, asks, rows⟩ := held.path path known node node_lt
  rw [name_eq] at asks
  refine ⟨call, made, asks, fun row row_lt => ?_⟩
  have row_le := Constraints.pathRows_le wellFormed node_lt
  rw [Constraints.pathDim_of_path known, dim_eq] at row_le
  have inside : problem.affineOffset node + row < problem.affineDim := by omega
  obtain ⟨lower, upper⟩ := valueAt_of_boundsHold wellFormed bounds inside
  obtain ⟨lowerRow, upperRow⟩ :=
    wellFormed.getElem?_pathBounds known node_lt (dim_eq.symm ▸ row_lt)
  obtain ⟨lowerSpec, upperSpec⟩ := configuredBounds node node_lt row row_lt
  rw [dim_eq] at lowerRow upperRow rows
  rw [rows.lower row row_lt, rows.upper row row_lt, lower, upper]
  simp only [List.getD_eq_getElem?_getD, lowerRow, upperRow, lowerSpec, upperSpec]
  exact ⟨trivial, trivial⟩

/-- The rows of a point constraint. -/
theorem holdsRows_point (accepted : description.validate.value = some problem)
    {supplied memory : problem.Contents} (bounds : BoundsHold problem supplied)
    {calls : List (HostCall α problem.program.table.sizes)}
    (held : Constraints.Holds problem supplied calls memory) {node : Nat}
    {spec : Description.PointConstraint α}
    (given : description.pointConstraints.get? node = some spec)
    (dim_pos : 0 < spec.dim problem.dims node) :
    ∃ call ∈ calls, problem.Asks (.constraint spec.name) supplied node call ∧
      problem.HoldsRows (problem.pointOffset node) (spec.dim problem.dims node)
        (fun row => spec.lower.getD row 0) (fun row => spec.upper.getD row 0) call memory := by
  have wellFormed := Description.wellFormed_of_validate accepted
  have found := Description.point_of_validate accepted given dim_pos
  obtain ⟨call, made, asks, rows⟩ := held.point node _ found
  refine ⟨call, made, asks, fun row row_lt => ?_⟩
  have row_le := wellFormed.affineRows_le (wellFormed.fits_of_get? found).node_le
  rw [pointRowsOf_of_mem (NodeMap.mem_of_get? found)] at row_le
  have inside : problem.pointOffset node + row < problem.affineDim := by
    unfold pointOffset
    simp only at row_le
    omega
  obtain ⟨lower, upper⟩ := valueAt_of_boundsHold wellFormed bounds inside
  obtain ⟨lowerRow, upperRow⟩ := wellFormed.getElem?_pointBounds found row_lt
  rw [rows.lower row row_lt, rows.upper row row_lt, lower, upper]
  simp only [List.getD_eq_getElem?_getD, lowerRow, upperRow]
  exact ⟨trivial, trivial⟩

end Problem

/-- The affine bounds of a generated solver.  The segments of the path
constraint and of the point constraints are a partition of the affine rows.
After an initialization, writes to the trajectory and the online data, and a
preparation, the rows of a segment hold the bounds that the description
configures, minus the first outputs of the function that is called on the input
of the node.  Constants are in place at the start, as they are in the memory
before the first run. -/
theorem affineBounds_of_preparation {α σ : Type} [Scalar α] {description : Description α}
    {problem : Problem α} (accepted : description.validate.value = some problem)
    {host : Host α σ problem.program.table.sizes} (tame : problem.Tame host) (state : σ)
    {start : problem.Contents} (constants : problem.program.HoldsConstants start)
    {supplied : problem.Contents}
    (supplies : problem.Changes (fun quantity _ => quantity = .x ∨ quantity = .u ∨ quantity = .od)
      (problem.program.run host state start Horizon.initializeName []).memory supplied) :
    let program := problem.program
    let initialized := program.run host state start Horizon.initializeName []
    let prepared := program.run host initialized.state supplied Phases.preparationName []
    let calls := program.trace host initialized.state supplied Phases.preparationName []
    Plan.ofProblem problem = .ok problem.plan ∧ (∃ value, initialized.result = .ok value) ∧
      (∃ value, prepared.result = .ok value) ∧
      (∀ owner row, problem.Owns owner row → row < problem.affineDim) ∧
      (∀ row < problem.affineDim, ∃! owner, problem.Owns owner row) ∧
      problem.affineBounds.lower.length = problem.affineDim ∧
      problem.affineBounds.upper.length = problem.affineDim ∧
      (∀ spec ∈ description.pathConstraint, 0 < spec.dim → ∀ node < problem.dims.n,
        ∃ call ∈ calls, problem.Asks (.constraint spec.name) supplied node call ∧
          problem.HoldsRows (problem.affineOffset node) spec.dim
            (fun row => spec.lower.getD (spec.place spec.lower node row) 0)
            (fun row => spec.upper.getD (spec.place spec.upper node row) 0) call
            prepared.memory) ∧
      ∀ node, ∀ spec ∈ description.pointConstraints.get? node, 0 < spec.dim problem.dims node →
        ∃ call ∈ calls, problem.Asks (.constraint spec.name) supplied node call ∧
          problem.HoldsRows (problem.pointOffset node) (spec.dim problem.dims node)
            (fun row => spec.lower.getD row 0) (fun row => spec.upper.getD row 0) call
            prepared.memory := by
  intro program initialized prepared calls
  have wellFormed := Description.wellFormed_of_validate accepted
  obtain ⟨initializeReturns, _, configuredBounds⟩ :=
    Problem.run_initialize wellFormed host state start
  obtain ⟨prepareReturns, simulation, stages, terminal, constraints, trace_eq, _, held⟩ :=
    Problem.run_preparation wellFormed tame initialized.state supplied
  have bounds : Problem.BoundsHold problem supplied := by
    intro entry listed present position inside
    rw [supplies entry.1 position fun written => ?_]
    · exact configuredBounds constants entry listed present position inside
    · simp only [Problem.configured, List.mem_cons, List.not_mem_nil, or_false] at listed
      rcases listed with rfl | rfl | rfl | rfl <;> simp at written
  have made {call : HostCall α program.table.sizes} (mem : call ∈ constraints) : call ∈ calls := by
    have calls_eq : calls = simulation :: (stages ++ terminal :: constraints) := trace_eq
    rw [calls_eq]
    exact List.mem_cons_of_mem _ (List.mem_append_right _ (List.mem_cons_of_mem _ mem))
  obtain ⟨inside, unique⟩ := Problem.owns_partition wellFormed
  obtain ⟨lower, upper⟩ := wellFormed.length_affineBounds
  refine ⟨wellFormed.ofProblem_eq_ok, initializeReturns, prepareReturns, inside, unique, lower,
    upper, fun spec given dim_pos node node_lt => ?_, fun node spec given dim_pos => ?_⟩
  · obtain ⟨call, mem, asks, rows⟩ :=
      Problem.holdsRows_path accepted bounds held.constraints given dim_pos node_lt
    exact ⟨call, made mem, asks, rows⟩
  · obtain ⟨call, mem, asks, rows⟩ :=
      Problem.holdsRows_point accepted bounds held.constraints given dim_pos
    exact ⟨call, made mem, asks, rows⟩

/-- The terminal row of a small problem, with a host that changes nothing. -/
theorem affineBounds_twoIntervals :
    let problem := Problem.twoIntervals
    let program := problem.program
    let start := program.initialMemory
    let initialized := program.run Host.idle () start Horizon.initializeName []
    let prepared := program.run Host.idle initialized.state initialized.memory
      Phases.preparationName []
    problem.Tame Host.idle ∧ program.HoldsConstants start ∧
      problem.Changes (fun quantity _ => quantity = .x ∨ quantity = .u ∨ quantity = .od)
        initialized.memory initialized.memory ∧
      ∃ call, problem.Asks (.constraint "terminal") initialized.memory 2 call ∧
        problem.HoldsRows (problem.pointOffset 2) 1 (fun row => [0].getD row 0)
          (fun row => [1].getD row 0) call prepared.memory := by
  intro problem program start initialized prepared
  have tame : problem.Tame Host.idle :=
    ⟨fun _ _ _ => rfl, fun _ _ _ => rfl, fun _ _ _ _ => rfl, fun _ _ _ => .refl _⟩
  have constants := program.holdsConstants_initialMemory
  obtain ⟨_, _, _, _, _, _, _, _, points⟩ := affineBounds_of_preparation
    Description.validate_twoIntervals tame () constants (.refl initialized.memory)
  obtain ⟨call, _, asks, rows⟩ := points 2 ⟨"terminal", 2, [0], [1]⟩ rfl (by decide)
  exact ⟨tame, constants, .refl _, call, asks, rows⟩

end RtiAssembly
