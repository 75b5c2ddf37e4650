import RtiAssembly.Proofs.Emission.Constraints

/-!
# Solvers and their code

Every routine of a solver meets what its code relies on: it stores to no
constant, fills its own arrays before it reads them, and reads no array that the
same assignment stores to, but for blocks that move to the front.  So the
generated code does what the evaluation of the program does, although it stores
element by element, passes addresses, and starts with arbitrary values in its
own variables.
-/

namespace RtiAssembly

/-! ## Results -/

namespace Program

variable {α : Type} [Scalar α] {program : Program α} {routine : Routine α}
  {extremes : Program.Extremes} {filled : List Nat}

/-- A routine that starts its result with a known value, and adds to it later. -/
theorem isOrderly_of_started {name : String} {value : Expr α} {rest : List (Statement α)}
    (body_eq : routine.body = .set (.dense (.own 0) (.const 0) 1 1) value :: rest)
    (result_eq : routine.result = some 0)
    (own : routine.locals[0]? = some (.own name 1 1 .real)) (known : value.windows = [])
    (orderly : Statement.AreOrderly program routine (parameterExtremes routine) [0] rest) :
    program.IsOrderly routine := by
  have fills : (Statement.set (.dense (.own 0) (.const 0) 1 1) value).fills routine.locals =
      [0] := by
    rw [Statement.fills_set, Window.covered?_own own (rfl : (1, 1) = _)]
    rfl
  have first : program.AssignsInOrder routine [] (.dense (.own 0) (.const 0) 1 1) .set value :=
    assigns_own own rfl (.inl rfl) (known ▸ List.forall_mem_nil _) (.inl (Nat.le_refl 1))
  refine ⟨?_, ?_⟩
  · rw [body_eq]
    exact ⟨first, fills ▸ orderly⟩
  · intro position result
    rw [result_eq] at result
    cases result
    rw [body_eq, Statement.filledAfter, fills]
    exact Statement.subset_filledAfter _ rest [0] (List.mem_singleton_self 0)

/-- A call whose status is stored in an array of the routine's own. -/
theorem isOrderly_status {function : External} {arguments : List Argument} {position : Nat}
    {decl : ArrayDecl α} (own : routine.locals[position]? = some decl)
    (single : (decl.rows, decl.cols) = (1, 1)) (passes : program.PassesWholeArrays arguments) :
    (Statement.invoke function arguments (some (Phases.ownScalar position))).IsOrderly program
      routine extremes filled := by
  refine ⟨passes, ?_⟩
  rintro _ ⟨⟩
  exact Option.isSome_iff_exists.2 ⟨position, Window.covered?_own own single⟩

end Program

/-! ## Around the iteration -/

namespace Horizon

variable {α : Type} [Scalar α] {problem : Problem α} {routine : Routine α}
  {extremes : Program.Extremes} {filled : List Nat}

/-- Workspace is no constant. -/
theorem mayStore_workspace {entry : Nat × ArrayDecl α}
    (mem : entry ∈ problem.plan.table.ofClass .workspace) :
    problem.program.MayStore (.global entry.1) := by
  obtain ⟨listed, isWorkspace⟩ := List.mem_filter.1 mem
  obtain ⟨⟨decl, id⟩, indexed, rfl⟩ := List.mem_map.1 listed
  rintro ⟨other, otherDecl, isGlobal, found, constant⟩
  cases isGlobal
  have found_eq : problem.plan.table.arrays[id]? = some decl :=
    List.mk_mem_zipIdx_iff_getElem?.1 indexed
  obtain rfl := Option.some.inj (found_eq.symm.trans found)
  exact absurd (constant.symm.trans (eq_of_beq isWorkspace)) StorageClass.noConfusion

theorem isWhole_zeros [ExactScalar α] (row col : Nat) :
    Scalar.IsWhole ((Matrix.zeros 1 1 : Matrix α).entry row col) := by
  have entry_eq : (Matrix.zeros 1 1 : Matrix α).entry row col = 0 := by
    by_cases inside : row < 1 ∧ col < 1
    · exact Matrix.entry_ofFn _ inside.1 inside.2
    · exact if_neg inside
  rw [entry_eq]
  exact Scalar.isWhole_zero

theorem isOrderly_initializeRoutine [ExactScalar α] :
    problem.program.IsOrderly (initializeRoutine problem.plan problem.initialization) := by
  refine ⟨.append (.append ?_ (.append ?_ ?_)) ⟨⟨trivial, ?_, .inl rfl, ?_, ?_⟩, trivial⟩, ?_⟩
  · refine Statement.areOrderly_of_forall fun statement mem => ?_
    obtain ⟨entry, listed, rfl⟩ := List.mem_map.1 mem
    exact mayStore_workspace listed
  · exact Objective.areOrderly_initialization
  · exact Constraints.areOrderly_initialization
  · exact .inr ⟨rfl, _, rfl, isWhole_zeros⟩
  · exact List.forall_mem_nil _
  · exact .inr (.inl (Nat.le_refl 1))
  · simp [initializeRoutine, Statement.filledAfter, ArrayDecl.own]

theorem isOrderly_simulateRoutine :
    problem.program.IsOrderly (simulateRoutine problem problem.plan) := by
  have buffer : problem.Supplies .state := Problem.supplies_of_notMem (by simp) (by decide)
  have states : problem.Supplies .x := Problem.supplies_of_notMem (by simp) (by decide)
  refine Program.isOrderly_of_body
    ⟨⟨List.not_mem_nil, .append (buffer.loads (by decide) _ _) ⟨?_, ?_, trivial⟩⟩, trivial⟩ rfl
  · refine ⟨Problem.passesWholeArrays_cons buffer.passes ?_,
      fun _ absent => absurd absent (Option.not_mem_none _)⟩
    simp [Program.PassesWholeArrays, Argument.window?]
  · exact states.copies (by decide) _ _ _

/-- A block is moved to the front. -/
theorem isOrderly_moveBack {quantity : Quantity} (supplies : problem.Supplies quantity)
    (size last : Nat) (fresh : "index" ∉ extremes.map Prod.fst) :
    (moveBack problem.plan quantity size last).IsOrderly problem.program routine extremes
      filled :=
  ⟨fresh, ⟨supplies.mayStore, .inl (Problem.kindOf_quantity _ quantity), .inl rfl,
    List.forall_mem_singleton.2 trivial,
    .inr (.inr (.inr ⟨_, _, _, _, rfl, rfl⟩))⟩, trivial⟩

theorem isOrderly_appendBlock {quantity : Quantity} (supplies : problem.Supplies quantity)
    (size last : Nat) :
    (appendBlock problem.plan quantity size last).IsOrderly problem.program routine extremes
      filled :=
  supplies.assigns rfl (List.forall_mem_singleton.2 ⟨trivial, Base.noConfusion⟩)

theorem isOrderly_shiftStatesRoutine :
    problem.program.IsOrderly (shiftStatesRoutine problem problem.plan) := by
  have states : problem.Supplies .x := Problem.supplies_of_notMem (by simp) (by decide)
  exact Program.isOrderly_of_body ⟨isOrderly_moveBack states _ _ List.not_mem_nil,
    isOrderly_appendBlock states _ _, trivial⟩ rfl

theorem isOrderly_shiftControlsRoutine :
    problem.program.IsOrderly (shiftControlsRoutine problem problem.plan) := by
  have controls : problem.Supplies .u := Problem.supplies_of_notMem (by simp) (by decide)
  refine Program.isOrderly_of_body (.append ?_ ⟨isOrderly_appendBlock controls _ _, trivial⟩) rfl
  split
  · exact ⟨isOrderly_moveBack controls _ _ List.not_mem_nil, trivial⟩
  · trivial

/-- Residuals are stored before they are squared, and squares are added to a value that
is there. -/
theorem areOrderly_squares {position size : Nat} {name : String} {function : External}
    {node : AffineIndex} {withControl : Bool} {reference : Window} {weight : Expr α}
    (value : routine.locals[0]? = some (.own "objVal" 1 1 .real))
    (residual : routine.locals[position]? = some (.own name size 1 .real))
    (isReference : ∃ id, reference.base = .global id)
    (weightReads : ∀ window ∈ weight.windows, ∃ id, window.base = .global id)
    (started : 0 ∈ filled) :
    Statement.AreOrderly problem.program routine extremes filled
      (problem.plan.loadNodeInput problem.dims .objValueIn node withControl ++
        [problem.plan.evaluate function .objValueIn .objValueOut,
          .set (.dense (.own position) (.const 0) size 1)
            (.sub (.read (problem.plan.flat .objValueOut (.const 0) size)) (.read reference)),
          .increase (.dense (.own 0) (.const 0) 1 1)
            (quadratic (.dense (.own position) (.const 0) size 1) weight)]) := by
  obtain ⟨id, reference_eq⟩ := isReference
  have input : problem.Supplies .objValueIn := Problem.supplies_of_notMem (by simp) (by decide)
  have output : problem.Supplies .objValueOut := Problem.supplies_of_notMem (by simp) (by decide)
  refine .append (input.loads (by decide) _ _) ⟨input.evaluates output _,
    Program.assigns_own residual rfl (.inl rfl) ?_ (.inr ?_),
    Program.assigns_own value rfl (.inr ?_) ?_ (.inl (Nat.le_refl 1)), trivial⟩
  · simp [Expr.windows, Base.IsFilled, reference_eq]
  · simp [Expr.windows, reference_eq]
  · exact List.mem_append_right _ (List.mem_append_right _ started)
  · have covered : position ∈ (Statement.set (.dense (.own position) (.const 0) size 1)
        (.sub (.read (problem.plan.flat .objValueOut (.const 0) size)) (.read reference) :
          Expr α)).fills routine.locals := by
      rw [Statement.fills_set, Window.covered?_own residual (rfl : (size, 1) = _)]
      exact List.mem_singleton_self _
    intro window mem
    simp only [quadratic, Expr.windows, List.mem_append, List.mem_singleton] at mem
    rcases mem with (rfl | mem) | rfl
    · exact List.mem_append_left _ covered
    · obtain ⟨_, base_eq⟩ := weightReads window mem
      rw [base_eq]
      trivial
    · exact List.mem_append_left _ covered

theorem isOrderly_objectiveRoutine :
    problem.program.IsOrderly (objectiveRoutine problem problem.plan) := by
  refine Program.isOrderly_of_started rfl rfl rfl rfl
    (.append (.append ⟨⟨List.not_mem_nil, ?_⟩, trivial⟩ ?_) ⟨?_, trivial⟩)
  · refine areOrderly_squares rfl rfl ⟨_, rfl⟩ ?_ (List.mem_singleton_self 0)
    split
    · exact List.forall_mem_nil _
    · rename_i passed
      exact List.forall_mem_singleton.2 ⟨_, Objective.base_weightWindow? passed⟩
    · exact List.forall_mem_nil _
  · refine areOrderly_squares rfl rfl ⟨_, rfl⟩ ?_ (List.mem_singleton_self 0)
    split
    · exact List.forall_mem_nil _
    · split
      · exact List.forall_mem_singleton.2 ⟨_, rfl⟩
      · exact List.forall_mem_nil _
  · refine Program.assigns_own rfl rfl (.inl rfl) ?_ (.inl (Nat.le_refl 1))
    exact List.forall_mem_singleton.2 (List.mem_singleton_self 0)

end Horizon

/-! ## The two phases -/

namespace Phases

variable {α : Type} [Scalar α] {problem : Problem α} {routine : Routine α}
  {extremes : Program.Extremes} {filled : List Nat}

omit [Scalar α] in
theorem atCall_nil (base : Base) : Program.atCall [] base = base := by
  cases base <;> rfl

omit [Scalar α] in
/-- Nothing is passed to a routine without parameters. -/
theorem passesApart_nil (program : Program α) (callee : Routine α) :
    program.PassesApart callee [] where
  of_module _ mem := absurd mem List.not_mem_nil
  apart pair _ ne := by rwa [atCall_nil, atCall_nil]
  stores position _ := by
    rw [atCall_nil]
    trivial

theorem isOrderly_preparationRoutine :
    problem.program.IsOrderly (preparationRoutine : Routine α) := by
  refine ⟨⟨Program.isOrderly_status rfl rfl Problem.passesWholeArrays_nil,
    ⟨rfl, fun callee _ => passesApart_nil _ callee⟩,
    ⟨rfl, fun callee _ => passesApart_nil _ callee⟩, trivial⟩, ?_⟩
  rintro _ ⟨⟩
  simp [preparationRoutine, Statement.filledAfter, ownScalar, ArrayDecl.own]

/-- Linear terms are passed exactly if the gradient routine takes them. -/
theorem linearArguments_cases (node : AffineIndex) :
    linearArguments problem problem.plan node = [] ∧
        Objective.passesLinear problem.plan.linear = false ∨
      ∃ x u, linearArguments problem problem.plan node = [.reference x, .reference u] ∧
        x.base = .global (problem.plan.id .wlx) ∧ u.base = .global (problem.plan.id .wlu) := by
  unfold linearArguments
  cases problem.plan.linear with
  | none | given _ _ => exact .inl ⟨rfl, rfl⟩
  | shared | perNode => exact .inr ⟨_, _, rfl, rfl, rfl⟩

/-- The gradient of a node is formed in arrays that its routine does not read. -/
theorem passesApart_gradientCall (node : AffineIndex) :
    problem.program.PassesApart (Objective.gradientRoutine problem problem.plan)
      ([problem.plan.passFlat .gradientQ (node.scaled problem.dims.nx) problem.dims.nx,
          problem.plan.passFlat .gradientR (node.scaled problem.dims.nu) problem.dims.nu] ++
        linearArguments problem problem.plan node ++ [.index node]) := by
  obtain ⟨state, control, body_eq, stateReads, controlReads⟩ :=
    @Objective.exists_gradientRoutine α _ problem
  have states : problem.Supplies .gradientQ := Problem.supplies_of_notMem (by simp) (by decide)
  have controls : problem.Supplies .gradientR := Problem.supplies_of_notMem (by simp) (by decide)
  let arguments : List Argument :=
    [problem.plan.passFlat .gradientQ (node.scaled problem.dims.nx) problem.dims.nx,
      problem.plan.passFlat .gradientR (node.scaled problem.dims.nu) problem.dims.nu] ++
        linearArguments problem problem.plan node ++ [.index node]
  have of_module : ∀ argument ∈ arguments, ∀ window ∈ argument.window?,
      ∃ id, window.base = .global id := by
    rcases @linearArguments_cases α _ problem node with ⟨linear, _⟩ | ⟨x, u, linear, x_eq, u_eq⟩
    · simp [arguments, linear, Plan.passFlat, Argument.window?]
    · simp [arguments, linear, Plan.passFlat, Argument.window?, x_eq, u_eq]
  have linear : Objective.passesLinear problem.plan.linear = true →
      Program.atCall arguments (.parameter 2) = .global (problem.plan.id .wlx) ∧
        Program.atCall arguments (.parameter 3) = .global (problem.plan.id .wlu) := by
    intro passed
    rcases @linearArguments_cases α _ problem node with ⟨_, absent⟩ | ⟨x, u, linear, x_eq, u_eq⟩
    · rw [passed] at absent
      cases absent
    · simp [arguments, linear, Program.atCall, Argument.window?, x_eq, u_eq]
  refine ⟨of_module, ?_, ?_⟩
  · intro pair mem _
    simp only [body_eq, Statement.pairsOf, Statement.pairs, Statement.set, List.append_nil,
      List.mem_append, List.mem_map] at mem
    rcases mem with ⟨window, read, rfl⟩ | ⟨window, read, rfl⟩
    · rcases stateReads window read with ⟨source, listed, base_eq⟩ | ⟨passed, base_eq⟩
      · have other : source ≠ .gradientQ :=
          (by decide : ∀ source ∈ [Quantity.q2, .dy], source ≠ .gradientQ) source listed
        rw [base_eq]
        exact (states.base_ne other).symm
      · rw [base_eq, (linear passed).1]
        exact (states.base_ne (by decide)).symm
    · rcases controlReads window read with ⟨source, listed, base_eq⟩ | ⟨passed, base_eq⟩
      · have other : source ≠ .gradientR :=
          (by decide : ∀ source ∈ [Quantity.r2, .dy], source ≠ .gradientR) source listed
        rw [base_eq]
        exact (controls.base_ne other).symm
      · rw [base_eq, (linear passed).2]
        exact (controls.base_ne (by decide)).symm
  · intro position mem
    rw [body_eq] at mem
    rcases List.mem_cons.1 mem with rfl | mem
    · exact states.mayStore
    · rw [List.mem_singleton.1 mem]
      exact controls.mayStore

theorem areOrderly_initialDeviation :
    Statement.AreOrderly problem.program routine extremes filled
      (initialDeviation problem problem.plan) := by
  have deviation : problem.Supplies .qpx := Problem.supplies_of_notMem (by simp) (by decide)
  unfold initialDeviation
  split
  · refine ⟨deviation.assigns rfl ?_, trivial⟩
    simp [Expr.windows, Base.IsFilled, deviation.base_ne (by decide : .x0 ≠ _),
      deviation.base_ne (by decide : .x ≠ _)]
  · trivial

theorem areOrderly_arrivalCost :
    Statement.AreOrderly problem.program routine extremes filled
      (arrivalCost problem problem.plan) := by
  have hessian : problem.Supplies .hessianQ := Problem.supplies_of_notMem (by simp) (by decide)
  have gradient : problem.Supplies .gradientQ := Problem.supplies_of_notMem (by simp) (by decide)
  by_cases present : problem.plan.has .dxAC = true
  · have deviation : problem.Supplies .dxAC := Problem.supplies_of_notMem present (by decide)
    rw [arrivalCost, if_pos present]
    refine ⟨trivial, deviation.assigns rfl ?_, ?_, gradient.assigns rfl ?_, trivial⟩
    · simp [Expr.windows, Base.IsFilled, deviation.base_ne (by decide : .x ≠ _),
        deviation.base_ne (by decide : .xAC ≠ _)]
    · split <;> refine hessian.assigns rfl ?_ <;>
        simp [Expr.windows, Base.IsFilled, hessian.base_ne (by decide : .sAC ≠ _)]
    · simp [Expr.windows, Base.IsFilled, gradient.base_ne (by decide : .sAC ≠ _),
        gradient.base_ne (by decide : .dxAC ≠ _)]
  · rw [arrivalCost, if_neg present]
    trivial

/-- The gradient of the terminal state is formed in an array that it does not read. -/
theorem reads_terminalGradient :
    ∀ window ∈ (terminalGradient problem).windows,
      window.base.IsFilled filled ∧ window.base ≠ .global (problem.plan.id .gradientQf) := by
  have gradient : problem.Supplies .gradientQf := Problem.supplies_of_notMem (by simp) (by decide)
  have linear : ∀ window ∈ (terminalLinear problem problem.plan).elim [] Expr.windows,
      window.base = .global (problem.plan.id .wlx) := by
    unfold terminalLinear
    cases problem.plan.linear with
    | none | given _ _ => exact List.forall_mem_nil _
    | shared | perNode => exact List.forall_mem_singleton.2 rfl
  intro window mem
  rw [terminalGradient, Objective.windows_withLinear, Expr.windows, Expr.windows, List.mem_append,
    List.mem_append, List.mem_singleton] at mem
  rcases mem with (block | rfl) | term
  · rw [Objective.base_blockAt block]
    exact ⟨trivial, gradient.base_ne (by decide)⟩
  · exact ⟨trivial, gradient.base_ne (by decide)⟩
  · rw [linear window term]
    exact ⟨trivial, gradient.base_ne (by decide)⟩

theorem isOrderly_feedbackRoutine :
    problem.program.IsOrderly (feedbackRoutine problem problem.plan) := by
  have residuals : problem.Supplies .dy := Problem.supplies_of_notMem (by simp) (by decide)
  have residual : problem.Supplies .dyN := Problem.supplies_of_notMem (by simp) (by decide)
  have gradient : problem.Supplies .gradientQf := Problem.supplies_of_notMem (by simp) (by decide)
  have states : problem.Supplies .x := Problem.supplies_of_notMem (by simp) (by decide)
  have controls : problem.Supplies .u := Problem.supplies_of_notMem (by simp) (by decide)
  refine ⟨.append (.append (.append areOrderly_initialDeviation
    ⟨?_, ?_, ⟨List.not_mem_nil, ?_, trivial⟩, ?_, trivial⟩) areOrderly_arrivalCost)
    ⟨Program.isOrderly_status rfl rfl Problem.passesWholeArrays_nil, ?_, ?_, trivial⟩, ?_⟩
  · exact residuals.moves rfl rfl (by decide)
  · exact residual.moves rfl rfl (by decide)
  · refine ⟨rfl, fun callee known => ?_⟩
    have mem := @Problem.mem_routines α _ problem
    obtain rfl := Option.some.inj ((problem.routine?_eq mem.2.2.1).symm.trans known)
    exact passesApart_gradientCall _
  · exact gradient.assigns rfl reads_terminalGradient
  · exact states.moves rfl rfl (by decide)
  · exact controls.moves rfl rfl (by decide)
  · rintro _ ⟨⟩
    simp [feedbackRoutine, Statement.filledAfter, ownScalar, ArrayDecl.own]

/-- A product is stored before its magnitude is added. -/
theorem areOrderly_accumulate {left right : Window}
    (value : routine.locals[0]? = some (.own "kkt" 1 1 .real))
    (product : routine.locals[1]? = some (.own "tmp" 1 1 .real))
    (leftGlobal : ∃ id, left.base = .global id) (rightGlobal : ∃ id, right.base = .global id)
    (started : 0 ∈ filled) :
    Statement.AreOrderly problem.program routine extremes filled
      [.set (ownScalar 1) (.mul (.read left.transpose) (.read right)),
        .increase (ownScalar 0) (.abs (.read (ownScalar 1)))] := by
  obtain ⟨_, left_eq⟩ := leftGlobal
  obtain ⟨_, right_eq⟩ := rightGlobal
  refine ⟨Program.assigns_own product rfl (.inl rfl) ?_ (.inl (Nat.le_refl 1)),
    Program.assigns_own value rfl (.inr ?_) ?_ (.inl (Nat.le_refl 1)), trivial⟩
  · simp [Expr.windows, Base.IsFilled, Window.transpose, left_eq, right_eq]
  · exact List.mem_append_right _ started
  · refine List.forall_mem_singleton.2 (List.mem_append_left _ ?_)
    rw [ownScalar, Statement.fills_set, Window.covered?_own product (rfl : (1, 1) = _)]
    exact List.mem_singleton_self _

/-- Products of bounds with their multipliers are added one by one. -/
theorem isOrderly_multiplied {left right : Quantity} {rightStart count : Nat}
    (value : routine.locals[0]? = some (.own "kkt" 1 1 .real)) (started : 0 ∈ filled) :
    (Statement.loop "index" 0 count
      [.increase (ownScalar 0)
        (.abs (.mul (.read (problem.plan.flat left (.var "index") 1))
          (.read (problem.plan.flat right ((AffineIndex.var "index").plus rightStart)
            1))))]).IsOrderly problem.program routine [] filled := by
  refine ⟨List.not_mem_nil, Program.assigns_own value rfl (.inr started) ?_ (.inl (Nat.le_refl 1)),
    trivial⟩
  simp [Expr.windows, Base.IsFilled]

theorem isOrderly_optimalityRoutine :
    problem.program.IsOrderly (optimalityRoutine problem problem.plan) := by
  have started : 0 ∈ [0] := List.mem_singleton_self 0
  refine Program.isOrderly_of_started rfl rfl rfl rfl
    (.append (.append (.append (.append ?_ ?_) ?_) ?_) ?_)
  · exact areOrderly_accumulate rfl rfl ⟨_, rfl⟩ ⟨_, rfl⟩ started
  · exact areOrderly_accumulate rfl rfl ⟨_, rfl⟩ ⟨_, rfl⟩ started
  · exact areOrderly_accumulate rfl rfl ⟨_, rfl⟩ ⟨_, rfl⟩ started
  · exact ⟨isOrderly_multiplied rfl started, trivial⟩
  · split
    · refine .append ?_ ?_
      · exact ⟨isOrderly_multiplied rfl started, isOrderly_multiplied rfl started, trivial⟩
      · split
        · exact ⟨isOrderly_multiplied rfl started, isOrderly_multiplied rfl started, trivial⟩
        · trivial
    · trivial

theorem isOrderly_arrivalCostRoutine (wellFormed : problem.WellFormed)
    (used : problem.flags.useArrivalCost = true) :
    problem.program.IsOrderly (arrivalCostRoutine problem.plan) := by
  have free : problem.estimatesInitialState = true := by
    simp [Problem.estimatesInitialState, wellFormed.arrival_free used]
  have factor : problem.Supplies .wL := Problem.supplies_of_notMem (by simp [used]) (by decide)
  have reference : problem.Supplies .xAC := Problem.supplies_of_notMem (by simp [free]) (by decide)
  have weighting : problem.Supplies .sAC := Problem.supplies_of_notMem (by simp [free]) (by decide)
  refine ⟨⟨Program.isOrderly_status rfl rfl (Problem.passesWholeArrays_cons ?_
    (Problem.passesWholeArrays_cons factor.passes
      (Problem.passesWholeArrays_cons reference.passes weighting.passes))), trivial⟩, ?_⟩
  · simp [Program.PassesWholeArrays, Argument.window?]
  · rintro _ ⟨⟩
    simp [arrivalCostRoutine, Statement.filledAfter, ownScalar, ArrayDecl.own]

end Phases

/-! ## All routines -/

/-- Every routine of a solver meets what its code relies on. -/
theorem Problem.isOrderly_routines {α : Type} [Scalar α] [ExactScalar α] {problem : Problem α}
    (wellFormed : problem.WellFormed) :
    ∀ routine ∈ problem.program.routines, problem.program.IsOrderly routine := by
  apply forall_routines
  · exact Objective.isOrderly_blockRoutine _ _ _ _ _ _
  · exact Objective.isOrderly_blockRoutine _ _ _ _ _ _
  · exact Objective.isOrderly_crossRoutine
  · exact Objective.isOrderly_blockRoutine _ _ _ _ _ _
  · exact Objective.isOrderly_evaluateRoutine
  · exact Objective.isOrderly_gradientRoutine
  · exact fun path _ => Constraints.isOrderly_pathBoundsRoutine path
  · exact Constraints.isOrderly_evaluateRoutine wellFormed
  · exact Horizon.isOrderly_initializeRoutine
  · exact Horizon.isOrderly_simulateRoutine
  · exact Horizon.isOrderly_shiftStatesRoutine
  · exact Horizon.isOrderly_shiftControlsRoutine
  · exact Horizon.isOrderly_objectiveRoutine
  · exact Phases.isOrderly_preparationRoutine
  · exact Phases.isOrderly_feedbackRoutine
  · exact Phases.isOrderly_optimalityRoutine
  · exact Phases.isOrderly_arrivalCostRoutine wellFormed

/-- The generated code does what the evaluation does.  For every routine of the program
of an accepted description, whatever its parameters are passed, whatever the memory
holds beside the constants of the module, whatever is left in storage that is not set,
and whatever a host replies that leaves the constants alone: the function of the routine
ends, with the result, the memory and the state of the host that a run of the routine
ends with. -/
theorem code_of_accepted_runs {α σ : Type} [Scalar α] [ExactScalar α]
    {description : Description α} {problem : Problem α} {plan : Plan α}
    (accepted : description.validate.value = some problem)
    (planned : Plan.ofProblem problem = .ok plan)
    {host : Host α σ (Program.ofPlan problem plan).table.sizes}
    (spares : (Program.ofPlan problem plan).SparesConstants host) (remains : Remains α) (state : σ)
    {memory : (Program.ofPlan problem plan).Contents}
    (keeps : (Program.ofPlan problem plan).KeepsConstants memory) {routine : Routine α}
    (mem : routine ∈ (Program.ofPlan problem plan).routines) {arguments : List (Passed α)}
    (takes : List.Forall₂ Parameter.Takes routine.parameters arguments) :
    Settles
      (fun fuel => (Program.ofPlan problem plan).runCode host remains fuel state memory routine.name
        arguments)
      ((Program.ofPlan problem plan).run host state memory routine.name arguments) := by
  have wellFormed := Description.wellFormed_of_validate accepted
  obtain rfl : problem.plan = plan :=
    Except.ok.inj (wellFormed.ofProblem_eq_ok.symm.trans planned)
  exact Program.runCode_of_orderly Problem.givesShapes_program spares
    (Problem.isOrderly_routines wellFormed) (problem.safe_routines wellFormed routine mem)
    problem.three_le_callDepth (problem.routine?_eq mem) takes remains state keeps

/-- The code for the objective of a small problem, with sevens in all storage that is not
set. -/
theorem objective_twoIntervals_code :
    Settles
      (fun fuel => Problem.twoIntervals.program.runCode Host.idle ⟨fun _ _ _ => 7, fun _ _ => 7⟩
        fuel () Problem.twoIntervals.program.initialMemory Horizon.objectiveName [])
      (Problem.twoIntervals.program.run Host.idle () Problem.twoIntervals.program.initialMemory
        Horizon.objectiveName []) := by
  have mem : Horizon.objectiveRoutine Problem.twoIntervals Problem.twoIntervals.plan ∈
      Problem.twoIntervals.program.routines := by
    simp [Problem.routines_program]
  exact code_of_accepted_runs Description.validate_twoIntervals
    Problem.wellFormed_twoIntervals.ofProblem_eq_ok (fun _ _ _ _ keeps => keeps) _ ()
    Program.keepsConstants_initial mem .nil

end RtiAssembly
