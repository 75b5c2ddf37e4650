import RtiAssembly.Proofs.Emission.Objective

/-!
# The constraints and their code

Bounds are differences of quantities that are not bounds of the quadratic
program, so that no store overwrites what a later one reads.  The configured
bounds may be constants: they are read and passed on, and stored to only if the
initialization fills them.
-/

namespace RtiAssembly

namespace Constraints

variable {α : Type} [Scalar α] {problem : Problem α} {routine : Routine α}
  {extremes : Program.Extremes} {filled : List Nat}

theorem isOrderly_pathBoundsRoutine (path : PathConstraint α) :
    problem.program.IsOrderly (pathBoundsRoutine problem problem.plan path) := by
  have writes {routine : Routine α} {extremes : Program.Extremes} {filled : List Nat}
      {target : Quantity} (supplies : problem.Supplies target) (ne : .pacEvH ≠ target)
      (position : Nat) :
      (Statement.set (problem.plan.flat target (.var "offset") path.dim)
        (.sub (.read (.dense (.parameter position) (.const 0) path.dim 1))
          (.read (problem.plan.flat .pacEvH ((AffineIndex.var "ind").scaled path.dim)
            path.dim)))).IsOrderly problem.program routine extremes filled :=
    supplies.assigns rfl (by simp [Expr.windows, Base.IsFilled, supplies.base_ne ne])
  exact Program.isOrderly_of_body
    ⟨writes (Problem.supplies_of_notMem (by simp) (by decide)) (by decide) 2,
      writes (Problem.supplies_of_notMem (by simp) (by decide)) (by decide) 3, trivial⟩ rfl

theorem areOrderly_boxSide {target configured : Quantity} (supplies : problem.Supplies target)
    (notConfigured : configured ≠ target) (notControl : .u ≠ target) (notState : .x ≠ target) :
    Statement.AreOrderly problem.program routine extremes filled
      (boxSide problem problem.plan target configured) :=
  ⟨supplies.assigns rfl (by
      simp [Expr.windows, Base.IsFilled, supplies.base_ne notConfigured,
        supplies.base_ne notControl]),
    supplies.assigns rfl (by
      simp [Expr.windows, Base.IsFilled, supplies.base_ne notConfigured,
        supplies.base_ne notState]), trivial⟩

theorem areOrderly_pathStage {path : PathConstraint α} (known : problem.path = some path)
    (node : AffineIndex) :
    Statement.AreOrderly problem.program routine extremes filled
      (pathStage problem problem.plan path node) := by
  have constrained : problem.hasConstraints = true := by simp [Problem.hasConstraints, known]
  have input : problem.Supplies .conValueIn :=
    Problem.supplies_of_notMem (by simp [constrained]) (by decide)
  have output : problem.Supplies .conValueOut :=
    Problem.supplies_of_notMem (by simp [constrained]) (by decide)
  have values : problem.Supplies .pacEvH := Problem.supplies_of_notMem (by simp [known]) (by decide)
  have derivative {target : Quantity} {window source : Window}
      (notBound : target ∉ Quantity.bounds) (ne : .conValueOut ≠ target)
      (target_eq : window.base = .global (problem.plan.id target))
      (source_eq : source.base = .global (problem.plan.id .conValueOut)) :
      Statement.AreOrderly problem.program routine extremes filled
        (if problem.plan.has target then [.set window (.read source)] else []) := by
    split
    · rename_i present
      have supplies : problem.Supplies target := Problem.supplies_of_notMem present notBound
      exact ⟨supplies.moves target_eq source_eq ne, trivial⟩
    · trivial
  refine .append (.append (.append (input.loads (by decide) _ _) ⟨?_, ?_, trivial⟩) ?_) ?_
  · exact input.evaluates output _
  · exact values.copies (by decide) _ _ _
  · exact derivative (by decide) (by decide) rfl rfl
  · exact derivative (by decide) (by decide) rfl rfl

/-- The bounds that are passed for a path constraint are only read. -/
theorem isOrderly_pathBoundsCall {path : PathConstraint α} (known : problem.path = some path)
    (node : Nat) :
    (pathBoundsCall problem problem.plan path node).IsOrderly problem.program routine extremes
      filled := by
  have mem := Problem.mem_routines.2.2.2.1 path known
  refine ⟨rfl, fun callee called => ?_⟩
  obtain rfl := Option.some.inj ((problem.routine?_eq mem).symm.trans called)
  have lower : problem.Supplies .qpLbA := Problem.supplies_of_notMem (by simp) (by decide)
  have upper : problem.Supplies .qpUbA := Problem.supplies_of_notMem (by simp) (by decide)
  refine ⟨?_, ?_, ?_⟩
  · simp [Plan.passFlat, Argument.window?]
  · simp [pathBoundsRoutine, Statement.pairsOf, Statement.pairs, Statement.set, Expr.windows,
      Program.atCall, Plan.passFlat, Argument.window?,
      (lower.base_ne (by decide : .lbAValues ≠ _)).symm,
      (lower.base_ne (by decide : .pacEvH ≠ _)).symm,
      (upper.base_ne (by decide : .ubAValues ≠ _)).symm,
      (upper.base_ne (by decide : .pacEvH ≠ _)).symm]
  · simp [pathBoundsRoutine, Statement.writtenParametersOf, Statement.writtenParameters,
      Statement.set, Base.parameter?]

theorem areOrderly_pathPart {path : PathConstraint α} (known : problem.path = some path) :
    Statement.AreOrderly problem.program routine [] filled
      (pathPart problem problem.plan path) := by
  refine .append ⟨⟨List.not_mem_nil, areOrderly_pathStage known _⟩, trivial⟩ ?_
  split
  · refine Statement.areOrderly_of_forall fun statement mem => ?_
    obtain ⟨node, _, rfl⟩ := List.mem_map.1 mem
    exact isOrderly_pathBoundsCall known node
  · trivial

/-- The values of a point constraint are read only after they were copied out of the
buffer. -/
theorem areOrderly_pointPart (wellFormed : problem.WellFormed) {node : Nat}
    {point : PointConstraint α} (mem : (node, point) ∈ problem.points.entries) (row : Nat) :
    Statement.AreOrderly problem.program routine extremes filled
      (pointPart problem problem.plan row node point) := by
  have constrained := Problem.hasConstraints_of_mem mem
  have points_pos : 0 < problem.pointDim := by
    refine Nat.lt_of_lt_of_le (wellFormed.point_fits _ mem).dim_pos ?_
    rw [problem.pointDim_eq_sum]
    exact List.le_sum_of_mem (List.mem_map_of_mem mem)
  have input : problem.Supplies .conValueIn :=
    Problem.supplies_of_notMem (by simp [constrained]) (by decide)
  have output : problem.Supplies .conValueOut :=
    Problem.supplies_of_notMem (by simp [constrained]) (by decide)
  have values : problem.Supplies .pocEvH :=
    Problem.supplies_of_notMem (by simp [points_pos]) (by decide)
  have keeps {target : Quantity} {first : AffineIndex} {rows start cols : Nat}
      (supplies : problem.Supplies target) (ne : .conValueOut ≠ target) :
      (Statement.set (problem.plan.rows target first rows)
        (.read (problem.plan.dense .conValueOut (.const start) rows cols))).IsOrderly
          problem.program routine extremes filled :=
    supplies.moves rfl rfl ne
  have writes {target configured : Quantity} {offset length : Nat}
      (supplies : problem.Supplies target) (notConfigured : configured ≠ target)
      (notValue : .pocEvH ≠ target) :
      (Statement.set (problem.plan.flat target (.const offset) length)
        (.sub (.read (problem.plan.flat configured (.const offset) length))
          (.read (problem.plan.flat .pocEvH (.const row) length)))).IsOrderly problem.program
            routine extremes filled :=
    supplies.assigns rfl (by
      simp [Expr.windows, Base.IsFilled, supplies.base_ne notConfigured,
        supplies.base_ne notValue])
  refine .append (.append (.append (.append ⟨trivial, trivial⟩ (input.loads (by decide) _ _))
    ⟨?_, ?_, ?_, trivial⟩) ?_) ⟨?_, ?_, trivial⟩
  · exact input.evaluates output _
  · exact values.copies (by decide) _ _ _
  · exact keeps (Problem.supplies_of_notMem (by simp [points_pos]) (by decide)) (by decide)
  · split
    · exact ⟨keeps (Problem.supplies_of_notMem (by simp [points_pos]) (by decide)) (by decide),
        trivial⟩
    · trivial
  · exact writes (Problem.supplies_of_notMem (by simp) (by decide)) (by decide) (by decide)
  · exact writes (Problem.supplies_of_notMem (by simp) (by decide)) (by decide) (by decide)

theorem areOrderly_pointParts (wellFormed : problem.WellFormed)
    (entries : List (Nat × PointConstraint α)) (row : Nat)
    (belong : ∀ entry ∈ entries, entry ∈ problem.points.entries) :
    Statement.AreOrderly problem.program routine extremes filled
      (pointParts problem problem.plan row entries) := by
  induction entries generalizing row with
  | nil => trivial
  | cons entry rest ih =>
      obtain ⟨node, point⟩ := entry
      rw [pointParts]
      exact .append (areOrderly_pointPart wellFormed (belong _ List.mem_cons_self) row)
        (ih _ fun other mem => belong other (List.mem_cons_of_mem _ mem))

theorem isOrderly_evaluateRoutine (wellFormed : problem.WellFormed) :
    problem.program.IsOrderly (evaluateRoutine problem problem.plan) := by
  refine Program.isOrderly_of_body (.append (.append (.append ?_ ?_) ?_)
    (areOrderly_pointParts wellFormed _ _ fun _ mem => mem)) rfl
  · exact areOrderly_boxSide (Problem.supplies_of_notMem (by simp) (by decide)) (by decide)
      (by decide) (by decide)
  · exact areOrderly_boxSide (Problem.supplies_of_notMem (by simp) (by decide)) (by decide)
      (by decide) (by decide)
  · cases known : problem.path with
    | none => trivial
    | some path => exact areOrderly_pathPart known

/-- Bounds are filled only if they are not constants. -/
theorem areOrderly_initialization :
    Statement.AreOrderly problem.program routine extremes filled
      (initialization problem problem.plan) := by
  unfold initialization
  split
  · trivial
  · rename_i notHardcoded
    refine Statement.areOrderly_of_forall fun statement mem => ?_
    obtain ⟨⟨quantity, values⟩, kept, rfl⟩ := List.mem_map.1 mem
    have supplies : problem.Supplies quantity :=
      ⟨(List.mem_filter.1 kept).2, fun _ => Bool.eq_false_iff.2 notHardcoded⟩
    exact supplies.assigns rfl (List.forall_mem_nil _)

end Constraints

end RtiAssembly
