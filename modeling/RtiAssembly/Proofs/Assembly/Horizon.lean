import RtiAssembly.Proofs.Assembly.Objective
import RtiAssembly.Assembly.Horizon

/-!
# Windows around the iteration

The routines that initialize, simulate, shift and measure the trajectory only
look into their arrays.
-/

namespace RtiAssembly

namespace Program

variable {α : Type} {program : Program α} {routine : Routine α} {extremes : Extremes}

/-- Clearing reaches no window. -/
theorem fits_clears (ids : List (Nat × ArrayDecl α)) :
    program.fitsStatements routine extremes (ids.map fun (id, _) => .clear id) = true := by
  rw [fitsStatements_eq_true_iff]
  intro statement mem
  obtain ⟨_, _, rfl⟩ := List.mem_map.1 mem
  rfl

end Program

namespace Horizon

variable {α : Type} [Scalar α] {problem : Problem α}

theorem fits_initializeRoutine {initialization : List (Statement α)}
    (inner : ∀ routine, problem.program.fitsStatements routine [] initialization = true) :
    problem.program.fitsRoutine (initializeRoutine problem.plan initialization) = true := by
  simp [Program.fitsRoutine, initializeRoutine, Program.parameterExtremes, Program.fits_clears,
    inner, Program.fitsStatements, Program.fitsStatement, Statement.set, Program.fits_own,
    ArrayDecl.own, ArrayDecl.size, zero, Expr.shape?, Expr.windows]

theorem fits_simulateRoutine (wellFormed : problem.WellFormed) :
    problem.program.fitsRoutine (simulateRoutine problem problem.plan) = true := by
  have n_pos := wellFormed.n_pos
  have last_lt : problem.dims.n - 1 < problem.dims.n := by omega
  have states := block_le problem.dims.nx (Nat.succ_lt_succ last_lt)
  rw [Nat.succ_mul] at states
  have input (routine : Routine α) :
      problem.program.fitsStatements routine [("index", problem.dims.n - 1)]
        (problem.plan.loadNodeInput problem.dims .state (.var "index") true) = true :=
    Program.fits_loadNodeInput (by simp) (by simp) (by omega) fun _ => last_lt
  simp [Program.fitsRoutine, simulateRoutine, Program.parameterExtremes, Program.fitsStatements,
    Program.fitsStatement, Statement.invoke, input]
  exact .inr ⟨states, Nat.le_add_right_of_le (Nat.le_add_right _ _)⟩

/-! ## Shifts -/

section Shifts

variable {routine : Routine α} {quantity : Quantity} {size cols last : Nat}

theorem fits_moveBack
    (described : problem.shapeOf? quantity = some (last + 1, size)) :
    problem.program.fitsStatement routine [] (moveBack problem.plan quantity size last) =
      true := by
  simp only [moveBack, Program.fitsStatement, Program.fitsStatements, Program.fits_copy,
    Bool.and_true, Bool.or_eq_true, decide_eq_true_iff]
  by_cases moves : last = 0
  · exact .inl (Nat.le_of_eq moves)
  · have target : (last - 1) * size + size ≤ (last + 1) * size := block_le size (by omega)
    have source := block_le size (show last < last + 1 by omega)
    have next : (last - 1) * size + size = last * size := by
      rw [← Nat.succ_mul, Nat.succ_eq_add_one, Nat.sub_add_cancel (by omega)]
    right
    simp [described]
    omega

theorem fits_appendBlock {name : String}
    (described : problem.shapeOf? quantity = some (last + 1, size))
    (parameter : routine.parameters[0]? = some ⟨name, .array size 1⟩) :
    problem.program.fitsStatement routine [] (appendBlock problem.plan quantity size last) =
      true := by
  have inside := block_le size (show last < last + 1 by omega)
  simp [appendBlock, Statement.set, Program.fitsStatement, Expr.shape?, Expr.windows, described,
    Program.fits_parameter parameter, inside]

end Shifts

theorem fits_shiftStatesRoutine :
    problem.program.fitsRoutine (shiftStatesRoutine problem problem.plan) = true := by
  have described : problem.shapeOf? .x = some (problem.dims.n + 1, problem.dims.nx) := by simp
  simp [Program.fitsRoutine, shiftStatesRoutine, Program.parameterExtremes,
    Program.fitsStatements, fits_moveBack described, fits_appendBlock described]

theorem fits_shiftControlsRoutine (wellFormed : problem.WellFormed) :
    problem.program.fitsRoutine (shiftControlsRoutine problem problem.plan) = true := by
  have described : problem.shapeOf? .u =
      some (problem.dims.n - 1 + 1, problem.dims.nu) := by
    rw [Nat.sub_add_cancel wellFormed.n_pos]
    simp
  have moves (routine : Routine α) : problem.program.fitsStatements routine []
      (if 1 < problem.dims.n then
        [moveBack problem.plan .u problem.dims.nu (problem.dims.n - 1)] else []) = true := by
    split
    · simp [Program.fitsStatements, fits_moveBack described]
    · rfl
  simp [Program.fitsRoutine, shiftControlsRoutine, Program.parameterExtremes,
    Program.fitsStatements, moves, fits_appendBlock described]

/-! ## Objective value -/

/-- Residuals fit into their array and squares into the total, if the values, the reference
and the weighting that they are computed from fit. -/
theorem fits_squares {routine : Routine α} {extremes : Program.Extremes} {position size : Nat}
    {name : String} {function : External} {node : AffineIndex} {withControl : Bool}
    {reference : Window} {weight : Expr α}
    (value : routine.locals[0]? = some (.own "objVal" 1 1 .real))
    (residual : routine.locals[position]? = some (.own name size 1 .real))
    (input : problem.program.fitsStatements routine extremes
      (problem.plan.loadNodeInput problem.dims .objValueIn node withControl) = true)
    (output : problem.program.fits routine extremes
      (problem.plan.flat .objValueOut (.const 0) size) = true)
    (reference_shape : reference.shape = (size, 1))
    (reference_fits : problem.program.fits routine extremes reference = true)
    (weight_shape : weight.shape? = some (size, size))
    (weight_fits : ∀ window ∈ weight.windows,
      problem.program.fits routine extremes window = true) :
    problem.program.fitsStatements routine extremes
      (problem.plan.loadNodeInput problem.dims .objValueIn node withControl ++
        [problem.plan.evaluate function .objValueIn .objValueOut,
          .set (.dense (.own position) (.const 0) size 1)
            (.sub (.read (problem.plan.flat .objValueOut (.const 0) size)) (.read reference)),
          .increase (.dense (.own 0) (.const 0) 1 1)
            (quadratic (.dense (.own position) (.const 0) size 1) weight)]) = true := by
  have total_fits : problem.program.fits routine extremes
      (.dense (.own 0) (.const 0) 1 1) = true := by
    simp [Program.fits_own, value, ArrayDecl.own, ArrayDecl.size]
  have residual_fits : problem.program.fits routine extremes
      (.dense (.own position) (.const 0) size 1) = true := by
    simp [Program.fits_own, residual, ArrayDecl.own, ArrayDecl.size]
  rw [Program.fitsStatements_append, input, Bool.true_and]
  simp only [Program.fitsStatements, Program.fitsStatement, Program.fits_evaluate, Statement.set,
    Statement.increase, quadratic, Expr.windows, List.all_append, List.all_cons, List.all_nil,
    Program.fits_transpose, total_fits, residual_fits, output, reference_fits]
  simp [Expr.shape?, Expr.shape?.sameShape?, Expr.shape?.productShape?, reference_shape,
    weight_shape]
  exact weight_fits

/-- A stage is weighted by a matrix as square as its residual, and inside its array. -/
theorem fits_stageWeight (wellFormed : problem.WellFormed) (routine : Routine α)
    {extremes : Program.Extremes} {node : AffineIndex} {value : Nat}
    (index : node.evalIn? extremes.lookup = some value) (value_lt : value < problem.dims.n)
    {weight : Expr α}
    (chosen : weight =
      match problem.weight, problem.plan.weightWindow? problem.dims problem.flags node with
      | some known, _ => .known known
      | none, some window => .read window
      | none, none => .known (.scaledIdentity problem.dims.ny 1)) :
    weight.shape? = some (problem.dims.ny, problem.dims.ny) ∧
      ∀ window ∈ weight.windows, problem.program.fits routine extremes window = true := by
  subst chosen
  cases given : problem.weight with
  | some known => simp [Expr.shape?, Expr.windows, wellFormed.shape_weight known given]
  | none =>
    cases passed : problem.plan.weightWindow? problem.dims problem.flags node with
    | none => simp [Expr.shape?, Expr.windows]
    | some window =>
      have fits : problem.program.fits routine extremes window = true :=
        Objective.fits_weightWindow? passed index value_lt
      have square : window.shape = (problem.dims.ny, problem.dims.ny) := by
        rw [Plan.weightWindow?, if_pos (by simp [given])] at passed
        cases passed
        split <;> simp [*]
      simp [Expr.shape?, Expr.windows, square, fits]

/-- The terminal node is weighted by a matrix as square as its residual, and inside its array. -/
theorem fits_terminalWeight (wellFormed : problem.WellFormed) (routine : Routine α)
    {extremes : Program.Extremes} {weight : Expr α}
    (chosen : weight =
      match problem.terminalWeight with
      | some known => .known known
      | none =>
          if problem.plan.has .wN then .read (problem.plan.whole .wN)
          else .known (.scaledIdentity problem.dims.nyn 1)) :
    weight.shape? = some (problem.dims.nyn, problem.dims.nyn) ∧
      ∀ window ∈ weight.windows, problem.program.fits routine extremes window = true := by
  subst chosen
  cases given : problem.terminalWeight with
  | some known => simp [Expr.shape?, Expr.windows, wellFormed.shape_terminalWeight known given]
  | none => simp [Expr.shape?, Expr.windows, given]

theorem fits_objectiveRoutine (wellFormed : problem.WellFormed) :
    problem.program.fitsRoutine (objectiveRoutine problem problem.plan) = true := by
  have n_pos := wellFormed.n_pos
  have last_lt : problem.dims.n - 1 < problem.dims.n := by omega
  have residuals := block_le problem.dims.ny last_lt
  obtain ⟨stageValues, terminalValues, _⟩ := EvaluationLayout.derivatives_le problem
  have index : (AffineIndex.var "lRun1").evalIn?
      (Program.Extremes.lookup [("lRun1", problem.dims.n - 1)]) = some (problem.dims.n - 1) := by
    simp
  -- The routine looks at itself only for its local arrays.
  have body (routine : Routine α)
      (locals : routine.locals = (objectiveRoutine problem problem.plan).locals) :
      problem.program.fitsStatements routine [] (objectiveRoutine problem problem.plan).body =
        true := by
    have value : routine.locals[0]? = some (.own "objVal" 1 1 .real) := by rw [locals]; rfl
    have residual : routine.locals[1]? = some (.own "tmpDy" problem.dims.ny 1 .real) := by
      rw [locals]; rfl
    have terminalResidual :
        routine.locals[2]? = some (.own "tmpDyN" problem.dims.nyn 1 .real) := by
      rw [locals]; rfl
    have value_fits :
        problem.program.fits routine [] (.dense (.own 0) (.const 0) 1 1) = true := by
      simp [Program.fits_own, value, ArrayDecl.own, ArrayDecl.size]
    have input : problem.program.fitsStatements routine [("lRun1", problem.dims.n - 1)]
        (problem.plan.loadNodeInput problem.dims .objValueIn (.var "lRun1") true) = true :=
      Program.fits_loadNodeInput (by simp) index (by omega) fun _ => last_lt
    have terminalInput : problem.program.fitsStatements routine []
        (problem.plan.loadNodeInput problem.dims .objValueIn (.const problem.dims.n) false) =
          true :=
      Program.fits_loadNodeInput (by simp) rfl (Nat.le_refl _) (by simp)
    obtain ⟨weight_shape, weight_fits⟩ := fits_stageWeight wellFormed routine index last_lt rfl
    obtain ⟨terminal_shape, terminal_fits⟩ := fits_terminalWeight wellFormed routine rfl
    simp only [objectiveRoutine]
    rw [Program.fitsStatements_append, Program.fitsStatements_append, Bool.and_eq_true,
      Bool.and_eq_true]
    refine ⟨⟨?_, ?_⟩, ?_⟩
    · simp only [Program.fitsStatements, Program.fitsStatement, Bool.and_true,
        Bool.and_eq_true, Bool.or_eq_true]
      refine ⟨?_, .inr ?_⟩
      · simp [Program.fitsStatement, Statement.set, zero, Expr.shape?, Expr.windows, value_fits]
      · exact fits_squares value residual input (by simp [stageValues]) rfl
          (by simp [residuals]) weight_shape weight_fits
    · exact fits_squares value terminalResidual terminalInput (by simp [terminalValues])
        (by simp) (by simp) terminal_shape terminal_fits
    · simp [Program.fitsStatements, Program.fitsStatement, Statement.set, Expr.scalar,
        Expr.shape?, Expr.shape?.productShape?, Expr.windows, value_fits]
  exact body _ rfl

end Horizon

end RtiAssembly
