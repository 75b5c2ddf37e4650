import RtiAssembly.Assembly.Phases
import RtiAssembly.Proofs.Assembly.Horizon

/-!
# Windows of the two phases

Preparation, feedback and what belongs to them only look into their arrays.
-/

namespace RtiAssembly

namespace Phases

variable {α : Type} [Scalar α] {problem : Problem α}

theorem fits_preparationRoutine :
    problem.program.fitsRoutine (preparationRoutine : Routine α) = true := by
  simp [Program.fitsRoutine, preparationRoutine, Program.parameterExtremes,
    Program.fitsStatements, Program.fitsStatement, Statement.invoke, Statement.run, ownScalar,
    Program.fits_own, ArrayDecl.own, ArrayDecl.size]

section Feedback

variable {routine : Routine α} {extremes : Program.Extremes}

theorem fits_initialDeviation :
    problem.program.fitsStatements routine [] (initialDeviation problem problem.plan) = true := by
  have states := block_le problem.dims.nx (Nat.succ_pos problem.dims.n)
  rw [Nat.zero_mul, Nat.zero_add] at states
  unfold initialDeviation
  cases free : problem.estimatesInitialState with
  | true => simp [free, Program.fitsStatements]
  | false =>
      simp [free, Program.fitsStatements, Program.fitsStatement, Statement.set, Expr.shape?,
        Expr.shape?.sameShape?, Expr.windows, states]

theorem fits_arrivalCost (wellFormed : problem.WellFormed) :
    problem.program.fitsStatements routine [] (arrivalCost problem problem.plan) = true := by
  have states := block_le problem.dims.nx (Nat.succ_pos problem.dims.n)
  have stages := block_le problem.dims.nx wellFormed.n_pos
  rw [Nat.zero_mul, Nat.zero_add] at states stages
  have first : problem.program.fits routine []
      (problem.plan.rows .hessianQ (.const 0) problem.dims.nx) = true :=
    Program.fits_rows Problem.shapeOf?_blocks.1 (rfl : _ = some 0) (by omega)
  obtain ⟨shapes, _⟩ := KnownBlocks.shapes_ofProblem wellFormed
  unfold arrivalCost
  cases free : problem.estimatesInitialState with
  | false => simp [free, Program.fitsStatements]
  | true =>
      cases known : (KnownBlocks.ofProblem problem).states with
      | none =>
          simp [free, Problem.blocks_plan, known, Program.fitsStatements, Program.fitsStatement,
            Statement.set, Statement.increase, Expr.shape?, Expr.shape?.sameShape?,
            Expr.shape?.productShape?, Expr.windows, states, stages, first]
      | some blocks =>
          have shape_eq := (shapes blocks known).1
          simp [free, Problem.blocks_plan, known, Program.fitsStatements, Program.fitsStatement,
            Statement.set, Statement.increase, Expr.shape?, Expr.shape?.sameShape?,
            Expr.shape?.productShape?, Expr.windows, states, stages, first, shape_eq]

theorem fits_linearArguments {node : AffineIndex} {value : Nat}
    (index : node.evalIn? extremes.lookup = some value) (value_lt : value < problem.dims.n) :
    ∀ argument ∈ linearArguments problem problem.plan node,
      problem.program.fitsArgument routine extremes argument = true := by
  have states := block_le problem.dims.nx (Nat.lt_succ_of_lt value_lt)
  have controls := block_le problem.dims.nu value_lt
  unfold linearArguments
  rw [Problem.linear_plan, LinearStorage.ofProblem]
  cases terms : problem.linearTerms with
  | none => simp
  | given x u => simp
  | runtime =>
      cases perNode : Quantity.hasLinearTermsPerNode problem with
      | false => simp [Quantity.hasRuntimeLinearTerms, terms]
      | true => simp [Quantity.hasRuntimeLinearTerms, terms, perNode, index, states, controls]

/-- The linear term of the terminal state is a vector of states. -/
theorem shape?_terminalLinear (wellFormed : problem.WellFormed) :
    ∀ linear ∈ terminalLinear problem problem.plan,
      linear.shape? = some (problem.dims.nx, 1) := by
  intro linear mem
  unfold terminalLinear at mem
  rw [Problem.linear_plan] at mem
  cases terms : problem.linearTerms with
  | none => simp [LinearStorage.ofProblem, terms] at mem
  | given x u =>
      obtain ⟨lengthX, _⟩ := wellFormed.length_linear x u terms
      simp only [LinearStorage.ofProblem, terms, Option.mem_some_iff] at mem
      subst mem
      simp [Expr.shape?, lengthX]
  | runtime =>
      cases perNode : Quantity.hasLinearTermsPerNode problem <;>
        simp only [LinearStorage.ofProblem, terms, perNode, Bool.false_eq_true, if_false, if_true,
          Option.mem_some_iff] at mem <;>
        subst mem <;>
        simp [Quantity.hasRuntimeLinearTerms, terms, perNode, Expr.shape?]

theorem fits_terminalLinear :
    ∀ linear ∈ terminalLinear problem problem.plan, ∀ window ∈ linear.windows,
      problem.program.fits routine extremes window = true := by
  have states := block_le problem.dims.nx (Nat.lt_add_one problem.dims.n)
  intro linear mem
  unfold terminalLinear at mem
  rw [Problem.linear_plan] at mem
  cases terms : problem.linearTerms with
  | none => simp [LinearStorage.ofProblem, terms] at mem
  | given x u =>
      simp only [LinearStorage.ofProblem, terms, Option.mem_some_iff] at mem
      subst mem
      exact nofun
  | runtime =>
      cases perNode : Quantity.hasLinearTermsPerNode problem <;>
        simp only [LinearStorage.ofProblem, terms, perNode, Bool.false_eq_true, if_false, if_true,
          Option.mem_some_iff] at mem <;>
        subst mem <;>
        simp [Quantity.hasRuntimeLinearTerms, terms, perNode, Expr.windows, states]

/-- The gradient of the terminal state: its block times the terminal residual,
and its linear term. -/
def terminalGradient (problem : Problem α) : Expr α :=
  Objective.withLinear
    (.mul (problem.plan.blockAt problem.plan.blocks.qN2 (.const 0) problem.dims.nx)
      (.read (problem.plan.whole .dyN)))
    (terminalLinear problem problem.plan)

theorem shape?_terminalGradient (wellFormed : problem.WellFormed) :
    (terminalGradient problem).shape? = some (problem.dims.nx, 1) := by
  obtain ⟨_, _, shapeBlock⟩ := Objective.shape?_gradientBlocks wellFormed (.const 0)
  refine Objective.shape?_withLinear ?_ (shape?_terminalLinear wellFormed)
  simp [Expr.shape?, Expr.shape?.productShape?, shapeBlock]

theorem fits_terminalGradient :
    ∀ window ∈ (terminalGradient problem).windows,
      problem.program.fits routine extremes window = true := by
  have blockFits : ∀ window ∈
      (problem.plan.blockAt problem.plan.blocks.qN2 (.const 0) problem.dims.nx).windows,
      problem.program.fits routine extremes window = true := by
    refine Objective.fits_blockAt (rfl : _ = some 0) fun computed => ?_
    have terminal : (KnownBlocks.ofProblem problem).terminal = none := by simpa using computed
    exact ⟨(problem.dims.nx, problem.dims.nyn), by simp [terminal], by omega⟩
  intro window mem
  rw [terminalGradient, Objective.windows_withLinear, Expr.windows, Expr.windows] at mem
  rcases List.mem_append.1 mem with product | linear
  · rcases List.mem_append.1 product with block | residual
    · exact blockFits window block
    · rw [List.mem_singleton.1 residual]
      simp
  · cases known : terminalLinear problem problem.plan with
    | none => simp [known] at linear
    | some expr =>
        rw [known] at linear
        exact fits_terminalLinear expr known window linear

theorem fits_feedbackRoutine (wellFormed : problem.WellFormed) :
    problem.program.fitsRoutine (feedbackRoutine problem problem.plan) = true := by
  have n_pos := wellFormed.n_pos
  have last_lt : problem.dims.n - 1 < problem.dims.n := by omega
  have states := block_le problem.dims.nx last_lt
  have controls := block_le problem.dims.nu last_lt
  have index : (AffineIndex.var Objective.nodeName).evalIn?
      (Program.Extremes.lookup [(Objective.nodeName, problem.dims.n - 1)]) =
        some (problem.dims.n - 1) := by
    simp
  have arguments (routine : Routine α) :
      (linearArguments problem problem.plan (.var Objective.nodeName)).all
        (problem.program.fitsArgument routine [(Objective.nodeName, problem.dims.n - 1)]) =
          true :=
    List.all_eq_true.2 (fits_linearArguments index last_lt)
  have shapeTerminal := shape?_terminalGradient wellFormed
  have terminal (routine : Routine α) :
      (terminalGradient problem).windows.all (problem.program.fits routine []) = true :=
    List.all_eq_true.2 fits_terminalGradient
  have gradient (routine : Routine α) : problem.program.fitsStatement routine []
      (.set (problem.plan.whole .gradientQf) (terminalGradient problem)) = true := by
    simp [Statement.set, Program.fitsStatement, shapeTerminal, terminal]
  unfold terminalGradient at gradient
  simp [Program.fitsRoutine, feedbackRoutine, Program.parameterExtremes, fits_initialDeviation,
    fits_arrivalCost wellFormed, gradient, Program.fitsStatements, Program.fitsStatement,
    Statement.decrease, Statement.increase, Statement.invoke, ownScalar, Program.fits_own,
    ArrayDecl.own, ArrayDecl.size, Expr.shape?, Expr.windows, arguments, states, controls]

end Feedback

section Optimality

variable {routine : Routine α} {value product : ArrayDecl α}

/-- A product that is kept before its magnitude is added. -/
theorem fits_accumulate (size : Nat) {left right : Window}
    (first : routine.locals[0]? = some value) (value_pos : 0 < value.size)
    (second : routine.locals[1]? = some product) (product_pos : 0 < product.size)
    (shapeLeft : left.shape = (size, 1)) (shapeRight : right.shape = (size, 1))
    (leftFits : problem.program.fits routine [] left = true)
    (rightFits : problem.program.fits routine [] right = true) :
    problem.program.fitsStatements routine []
      [.set (ownScalar 1) (.mul (.read left.transpose) (.read right)),
        .increase (ownScalar 0) (.abs (.read (ownScalar 1)))] = true := by
  simp [Program.fitsStatements, Program.fitsStatement, Statement.set, Statement.increase,
    ownScalar, Program.fits_own, Expr.shape?, Expr.shape?.productShape?, Expr.windows, first,
    second, shapeLeft, shapeRight, leftFits, rightFits, Nat.one_le_iff_ne_zero,
    Nat.pos_iff_ne_zero.1 value_pos, Nat.pos_iff_ne_zero.1 product_pos]

/-- Products of bounds with their multipliers. -/
theorem fits_multiplied {left right : Quantity} {rightStart count leftSize rightSize : Nat}
    (first : routine.locals[0]? = some value) (value_pos : 0 < value.size)
    (shapeLeft : problem.shapeOf? left = some (leftSize, 1))
    (shapeRight : problem.shapeOf? right = some (rightSize, 1))
    (leftRoom : count ≤ leftSize) (rightRoom : rightStart + count ≤ rightSize) :
    problem.program.fitsStatement routine []
      (.loop "index" 0 count
        [.increase (ownScalar 0)
          (.abs (.mul (.read (problem.plan.flat left (.var "index") 1))
            (.read (problem.plan.flat right ((AffineIndex.var "index").plus rightStart) 1))))]) =
        true := by
  by_cases empty : count = 0
  · simp [Program.fitsStatement, empty]
  · simp [Program.fitsStatements, Program.fitsStatement, Statement.increase, ownScalar,
      Program.fits_own, Expr.shape?, Expr.shape?.productShape?, Expr.windows, first, shapeLeft,
      shapeRight]
    omega

theorem fits_optimalityRoutine :
    problem.program.fitsRoutine (optimalityRoutine problem problem.plan) = true := by
  have states := block_le problem.dims.nx (Nat.lt_add_one problem.dims.n)
  have multipliers : 2 * problem.dims.n * (problem.dims.nx + problem.dims.nu) =
      2 * (problem.dims.n * (problem.dims.nu + problem.dims.nx)) := by
    rw [Nat.mul_assoc, Nat.add_comm problem.dims.nx]
  obtain ⟨_, _, _, _, _, qpLb, qpUb, qpLbA, qpUbA, qpLambda, qpMu⟩ :=
    @Problem.shapeOf?_quadraticProgram α _ problem
  simp only [Program.fitsRoutine, optimalityRoutine, Program.fitsStatements_append,
    Bool.and_eq_true]
  refine ⟨⟨⟨⟨⟨?_, ?_⟩, ?_⟩, ?_⟩, ?_⟩, ?_⟩
  · simp [Program.fitsStatements, Program.fitsStatement, Statement.set, ownScalar,
      Program.fits_own, ArrayDecl.own, ArrayDecl.size, Horizon.zero, Expr.shape?, Expr.windows]
  · exact fits_accumulate (problem.dims.n * problem.dims.nx) rfl Nat.one_pos rfl Nat.one_pos
      (by simp) (by simp) (by simp) (by simp; omega)
  · exact fits_accumulate problem.dims.nx rfl Nat.one_pos rfl Nat.one_pos (by simp) (by simp)
      (by simp) (by simp; omega)
  · exact fits_accumulate (problem.dims.n * problem.dims.nu) rfl Nat.one_pos rfl Nat.one_pos
      (by simp) (by simp) (by simp) (by simp)
  · simp only [Program.fitsStatements, Bool.and_true]
    exact fits_multiplied rfl Nat.one_pos Problem.shapeOf?_evaluation.1 qpLambda
      (Nat.le_refl _) (by omega)
  · split
    · simp only [Program.fitsStatements_append, Program.fitsStatements, Bool.and_true,
        Bool.and_eq_true]
      refine ⟨⟨?_, ?_⟩, ?_⟩
      · exact fits_multiplied rfl Nat.one_pos qpLb qpMu (Nat.le_refl _) (by omega)
      · exact fits_multiplied rfl Nat.one_pos qpUb qpMu (Nat.le_refl _) (by omega)
      · split
        · simp only [Program.fitsStatements, Bool.and_true, Bool.and_eq_true]
          constructor
          · exact fits_multiplied rfl Nat.one_pos qpLbA qpMu (Nat.le_max_left _ _) (by omega)
          · exact fits_multiplied rfl Nat.one_pos qpUbA qpMu (Nat.le_max_left _ _) (by omega)
        · rfl
    · rfl

end Optimality

theorem fits_arrivalCostRoutine (wellFormed : problem.WellFormed)
    (used : problem.flags.useArrivalCost = true) :
    problem.program.fitsRoutine (arrivalCostRoutine problem.plan) = true := by
  have free : problem.estimatesInitialState = true := by
    simp [Problem.estimatesInitialState, wellFormed.arrival_free used]
  simp [Program.fitsRoutine, arrivalCostRoutine, Program.parameterExtremes,
    Program.fitsStatements, Program.fitsStatement, Statement.invoke, ownScalar, Program.fits_own,
    ArrayDecl.own, ArrayDecl.size, used, free]

end Phases

end RtiAssembly
