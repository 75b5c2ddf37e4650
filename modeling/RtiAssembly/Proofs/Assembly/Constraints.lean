import RtiAssembly.Proofs.Matrix
import RtiAssembly.Proofs.Problem.Rows
import RtiAssembly.Proofs.Program.Fitting

/-!
# Windows of the constraints

The rows of path and point constraints have their places among all affine rows,
and their functions return what the output buffer has room for.  All routines
of the constraints only look into their arrays.
-/

namespace RtiAssembly

namespace Constraints

variable {α : Type} [Scalar α] {problem : Problem α}

/-! ## Presence of affine rows -/

omit [Scalar α] in
theorem pathDim_of_path {path : PathConstraint α} (known : problem.path = some path) :
    problem.pathDim = path.dim := by
  rw [Problem.pathDim, known]
  rfl

omit [Scalar α] in
/-- The rows of the path constraint on a node are followed by those of the
point constraint. -/
theorem pathRows_le (wellFormed : problem.WellFormed) {node : Nat}
    (inside : node < problem.dims.n) :
    problem.affineOffset node + problem.pathDim ≤ problem.affineDim := by
  have rows := wellFormed.affineRows_le (Nat.le_of_lt inside)
  rw [Problem.pathRowsOf, if_pos inside] at rows
  omega

omit [Scalar α] in
/-- A path constraint has rows on every interval. -/
theorem affineDim_pos_of_path (wellFormed : problem.WellFormed) {path : PathConstraint α}
    (known : problem.path = some path) : path.dim ≤ problem.affineDim ∧ 0 < path.dim := by
  have rows := pathRows_le wellFormed wellFormed.n_pos
  have dim_pos := (wellFormed.path_fits path known).dim_pos
  rw [pathDim_of_path known] at rows
  omega

/-! ## The path constraint -/

theorem fits_pathBoundsRoutine (wellFormed : problem.WellFormed) {path : PathConstraint α}
    (known : problem.path = some path) :
    problem.program.fitsRoutine (pathBoundsRoutine problem problem.plan path) = true := by
  obtain ⟨dim_le, dim_pos⟩ := affineDim_pos_of_path wellFormed known
  have n_pos := wellFormed.n_pos
  have last_lt : problem.dims.n - 1 < problem.dims.n := by omega
  have values := block_le path.dim last_lt
  simp [Program.fitsRoutine, pathBoundsRoutine, Program.parameterExtremes, n_pos,
    Program.fitsStatements, Program.fitsStatement, Statement.set, Program.fits_parameter,
    Expr.shape?, Expr.shape?.sameShape?, Expr.windows, known, pathDim_of_path known, values]
  omega

section Evaluation

variable {routine : Routine α} {extremes : Program.Extremes}

theorem fits_pathStage {path : PathConstraint α} (known : problem.path = some path)
    {node : AffineIndex} {value : Nat} (index : node.evalIn? extremes.lookup = some value)
    (value_lt : value < problem.dims.n) :
    problem.program.fitsStatements routine extremes
      (pathStage problem problem.plan path node) = true := by
  have present : problem.hasConstraints = true := by simp [Problem.hasConstraints, known]
  have width := Problem.outputWidth_le known
  have values := block_le path.dim value_lt
  have dim_eq := pathDim_of_path known
  have input : problem.program.fitsStatements routine extremes
      (problem.plan.loadNodeInput problem.dims .conValueIn node true) = true :=
    Program.fits_loadNodeInput (by simp [present]) index (Nat.le_of_lt value_lt)
      fun _ => value_lt
  have rowsFit {quantity : Quantity} {cols : Nat}
      (described : problem.shapeOf? quantity = some (problem.dims.n * path.dim, cols)) :
      problem.program.fits routine extremes
        (problem.plan.rows quantity (node.scaled path.dim) path.dim) = true :=
    Program.fits_rows described (by simp [index]) values
  unfold PathConstraint.outputWidth at width
  unfold pathStage
  cases jacX : path.jacX <;> cases jacU : path.jacU <;>
    simp_all [Program.fitsStatements, Program.fitsStatement, Statement.set, Expr.shape?,
      Expr.windows] <;>
    omega

theorem fits_pathPart (wellFormed : problem.WellFormed) {path : PathConstraint α}
    (known : problem.path = some path) :
    problem.program.fitsStatements routine [] (pathPart problem problem.plan path) = true := by
  have n_pos := wellFormed.n_pos
  have last_lt : problem.dims.n - 1 < problem.dims.n := by omega
  have stage : problem.program.fitsStatements routine [(nodeName, problem.dims.n - 1)]
      (pathStage problem problem.plan path (.var nodeName)) = true :=
    fits_pathStage known (by simp) last_lt
  have bounds : ∀ node < problem.dims.n, problem.program.fitsStatement routine []
      (pathBoundsCall problem problem.plan path node) = true := by
    intro node inside
    have rows := pathRows_le wellFormed inside
    obtain ⟨dim_le, dim_pos⟩ := affineDim_pos_of_path wellFormed known
    have affine_pos : 0 < problem.affineDim := by omega
    obtain ⟨lower, upper⟩ := wellFormed.length_affineBounds
    rw [pathDim_of_path known] at rows
    simp [pathBoundsCall, affine_pos, lower, upper, rows]
  unfold pathPart
  rw [Program.fitsStatements_append, Bool.and_eq_true]
  constructor
  · simp [Program.fitsStatements, Program.fitsStatement, stage]
  · split
    · rw [Program.fitsStatements_eq_true_iff]
      intro statement mem
      obtain ⟨node, inside, rfl⟩ := List.mem_map.1 mem
      exact bounds node (List.mem_range.1 inside)
    · rfl

/-! ## Point constraints -/

theorem fits_pointPart (wellFormed : problem.WellFormed) {row node : Nat}
    {point : PointConstraint α} (mem : (node, point) ∈ problem.points.entries)
    (room : row + point.dim ≤ problem.pointDim) :
    problem.program.fitsStatements routine []
      (pointPart problem problem.plan row node point) = true := by
  have present := Problem.hasConstraints_of_mem mem
  have fitting : point.Fits problem.dims node := wellFormed.point_fits _ mem
  have width := Problem.width_le mem
  have dim_pos := fitting.dim_pos
  have points_pos : 0 < problem.pointDim := by omega
  have rows := wellFormed.affineRows_le fitting.node_le
  rw [Problem.pointRowsOf_of_mem mem, Problem.pathRowsOf] at rows
  have affine_pos : 0 < problem.affineDim := by omega
  obtain ⟨lower, upper⟩ := wellFormed.length_affineBounds
  have input : problem.program.fitsStatements routine []
      (problem.plan.loadNodeInput problem.dims .conValueIn (.const node)
        (decide (node < problem.dims.n))) = true :=
    Program.fits_loadNodeInput (by simp [present]) rfl fitting.node_le of_decide_eq_true
  have rowsFit {quantity : Quantity} {cols : Nat}
      (described : problem.shapeOf? quantity = some (problem.pointDim, cols)) :
      problem.program.fits routine []
        (problem.plan.rows quantity (.const row) point.dim) = true :=
    Program.fits_rows described rfl room
  rw [fitting.width_eq, Validation.outputsPerRow] at width
  unfold pointPart
  by_cases inside : node < problem.dims.n
  · simp only [if_pos inside, Nat.mul_add, Nat.mul_one] at width rows
    rw [decide_eq_true inside] at input
    simp [Program.fitsStatements, Program.fitsStatement, Statement.set, Expr.shape?,
      Expr.shape?.sameShape?, Expr.windows, present, points_pos, affine_pos, lower, upper, input,
      rowsFit, room, inside]
    omega
  · simp only [if_neg inside, Nat.mul_add, Nat.mul_one] at width rows
    rw [decide_eq_false inside] at input
    simp [Program.fitsStatements, Program.fitsStatement, Statement.set, Expr.shape?,
      Expr.shape?.sameShape?, Expr.windows, present, points_pos, affine_pos, lower, upper, input,
      rowsFit, room, inside]
    omega

/-- Every point constraint finds its rows behind those of the ones before it. -/
theorem fits_pointParts (wellFormed : problem.WellFormed)
    (entries : List (Nat × PointConstraint α)) (row : Nat)
    (belong : ∀ entry ∈ entries, entry ∈ problem.points.entries)
    (room : row + (entries.map fun entry => entry.2.dim).sum ≤ problem.pointDim) :
    problem.program.fitsStatements routine [] (pointParts problem problem.plan row entries) =
      true := by
  induction entries generalizing row with
  | nil => rfl
  | cons entry rest ih =>
      obtain ⟨node, point⟩ := entry
      simp only [List.map_cons, List.sum_cons] at room
      rw [pointParts, Program.fitsStatements_append, Bool.and_eq_true]
      constructor
      · exact fits_pointPart wellFormed (belong _ List.mem_cons_self) (by omega)
      · exact ih (row + point.dim) (fun other mem => belong other (List.mem_cons_of_mem _ mem))
          (by omega)

/-! ## All bounds -/

theorem fits_boxSide (wellFormed : problem.WellFormed) {target configured : Quantity}
    (described : problem.shapeOf? target =
      some (problem.dims.n * (problem.dims.nu + problem.dims.nx), 1))
    (given : problem.shapeOf? configured = some (problem.boxDim, 1)) :
    problem.program.fitsStatements routine []
      (boxSide problem problem.plan target configured) = true := by
  have n_pos := wellFormed.n_pos
  simp [boxSide, Program.fitsStatements, Program.fitsStatement, Statement.set, Expr.shape?,
    Expr.shape?.sameShape?, Expr.windows, described, given, Problem.boxDim, Nat.mul_add,
    Nat.add_mul, Nat.add_comm]

theorem fits_evaluateRoutine (wellFormed : problem.WellFormed) :
    problem.program.fitsStatements routine [] (evaluateRoutine problem problem.plan).body =
      true := by
  simp only [evaluateRoutine, Program.fitsStatements_append, Bool.and_eq_true]
  refine ⟨⟨⟨?_, ?_⟩, ?_⟩, ?_⟩
  · exact fits_boxSide wellFormed (by simp) (by simp [wellFormed.length_boxLower])
  · exact fits_boxSide wellFormed (by simp) (by simp [wellFormed.length_boxUpper])
  · cases known : problem.path with
    | none => rfl
    | some path => exact fits_pathPart wellFormed known
  · refine fits_pointParts wellFormed _ 0 (fun _ mem => mem) ?_
    rw [Nat.zero_add, Problem.pointDim_eq_sum]

theorem fits_initialization :
    problem.program.fitsStatements routine [] (initialization problem problem.plan) = true := by
  unfold initialization
  split
  · rfl
  · rw [Program.fitsStatements_eq_true_iff]
    intro statement mem
    obtain ⟨⟨quantity, values⟩, kept, rfl⟩ := List.mem_map.1 mem
    obtain ⟨listed, present⟩ := List.mem_filter.1 kept
    simp only [List.mem_cons, Prod.mk.injEq, List.not_mem_nil, or_false] at listed
    rcases listed with ⟨rfl, rfl⟩ | ⟨rfl, rfl⟩ | ⟨rfl, rfl⟩ | ⟨rfl, rfl⟩ <;>
      simp_all [Program.fitsStatement, Statement.set, Expr.shape?, Expr.windows]

end Evaluation

end Constraints

end RtiAssembly
