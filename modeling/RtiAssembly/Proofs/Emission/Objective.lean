import RtiAssembly.Proofs.Emission.Quantities

/-!
# The objective and its code

The block routines store only to the blocks that are passed to them, and these
are never passed as what is read at the same time.  The gradient routine and the
evaluation of the residuals keep to arrays that differ from what they read.
-/

namespace RtiAssembly

namespace Program

variable {α : Type} [Scalar α] {program : Program α} {routine : Routine α} {filled : List Nat}
  {position : Nat} {offset : AffineIndex} {rows cols : Nat} {op : AssignOp} {value : Expr α}

/-- An assignment to a parameter that reads other arrays. -/
theorem assigns_parameter
    (reads : ∀ window ∈ value.windows,
      window.base.IsFilled filled ∧ window.base ≠ .parameter position) :
    program.AssignsInOrder routine filled (.dense (.parameter position) offset rows cols) op
      value where
  stores := trivial
  whole := .inl rfl
  old_filled := .inr trivial
  reads_filled window mem := (reads window mem).1
  ordered := .inr (.inr (.inl fun window mem => (reads window mem).2))

/-- An assignment to a real array of the routine's own. -/
theorem assigns_own {decl : ArrayDecl α} (found : routine.locals[position]? = some decl)
    (real : decl.kind = .real) (old_filled : op = .set ∨ position ∈ filled)
    (reads_filled : ∀ window ∈ value.windows, window.base.IsFilled filled)
    (ahead : rows * cols ≤ 1 ∨ ∀ window ∈ value.windows, window.base ≠ .own position) :
    program.AssignsInOrder routine filled (.dense (.own position) offset rows cols) op
      value where
  stores := trivial
  whole := .inl (by simp only [Window.base_dense, Scope.kindOf, found, Option.elim_some, real])
  old_filled := old_filled
  reads_filled := reads_filled
  ordered := .inr (ahead.imp_right .inl)

end Program

namespace Objective

variable {α : Type} [Scalar α] {program : Program α} {problem : Problem α}

theorem isOrderly_blockRoutine (names : BlockNames) (damping : α) (rows cols : Nat)
    (jacobian weight : Option (Matrix α)) :
    program.IsOrderly (blockRoutine names damping rows cols jacobian weight) := by
  rw [blockRoutine_eq]
  refine Program.isOrderly_of_body
      ⟨Program.assigns_parameter ?_, Program.assigns_parameter ?_, trivial⟩ rfl <;>
    cases jacobian <;> cases weight <;>
      simp [Expr.windows, Expr.transpose, Base.IsFilled, Window.transpose]

theorem isOrderly_crossRoutine : program.IsOrderly (crossRoutine problem) := by
  rw [crossRoutine_eq]
  refine Program.isOrderly_of_body ⟨Program.assigns_own rfl rfl (.inl rfl) ?_ (.inr ?_),
      Program.assigns_parameter ?_, trivial⟩ rfl <;>
    cases jacX : problem.jacX <;> cases jacU : problem.jacU <;> cases weight : problem.weight <;>
      simp [Expr.windows, Expr.transpose, Base.IsFilled, Window.transpose, ArrayDecl.own]

/-! ## Calls of the block routines -/

omit [Scalar α] in
/-- There are as many arguments as parameters for a matrix that is passed if it is not
known. -/
theorem length_passed {known : Option (Matrix α)} {passed : Option Window}
    (isPassed : passed.isSome = known.isNone) :
    (if known.isNone then 1 else 0) = (passed.map Argument.reference).toList.length := by
  rcases passed_or_known isPassed with ⟨given, rfl, rfl⟩ | ⟨matrix, rfl, rfl⟩ <;> rfl

omit [Scalar α] in
theorem mem_pairsOf_set {target : Window} {value : Expr α} {rest : List (Statement α)}
    {pair : Base × Base} :
    pair ∈ Statement.pairsOf (.set target value :: rest) ↔
      (∃ window ∈ value.windows, (target.base, window.base) = pair) ∨
        pair ∈ Statement.pairsOf rest := by
  rw [Statement.pairsOf, List.mem_append, Statement.set, Statement.pairs, List.mem_map]

theorem atCall_parameter {arguments before after : List Argument} {window : Window}
    (split : arguments = before ++ .reference window :: after) {position : Nat}
    (position_eq : position = before.length) :
    Program.atCall arguments (.parameter position) = window.base := by
  subst split position_eq
  simp [Program.atCall, Argument.window?]

/-- What is read of a matrix that is passed if it is not known, also if it is
transposed. -/
theorem atCall_operand {known : Option (Matrix α)} {passed : Option Window}
    (isPassed : passed.isSome = known.isNone) {arguments before after : List Argument}
    (split : arguments = before ++ ((passed.map Argument.reference).toList ++ after))
    {position : Nat} (position_eq : position = before.length) {rows cols : Nat}
    {window : Window} :
    let operand : Expr α :=
      known.elim (.read (.dense (.parameter position) (.const 0) rows cols)) .known
    window ∈ operand.windows ∨ window ∈ operand.transpose.windows →
      ∃ given ∈ passed, Program.atCall arguments window.base = given.base := by
  intro operand isRead
  rcases passed_or_known isPassed with ⟨given, rfl, rfl⟩ | ⟨matrix, rfl, rfl⟩
  · have base_eq : window.base = .parameter position := by
      rcases isRead with isRead | isRead <;> cases List.mem_singleton.1 isRead <;> rfl
    exact ⟨given, rfl, base_eq ▸ atCall_parameter split position_eq⟩
  · rcases isRead with isRead | isRead <;> exact absurd isRead List.not_mem_nil

/-- What holds for all windows holds for those that are passed. -/
theorem windows_of_references {arguments : List Argument} {windows : List Window}
    {property : Window → Prop} (holds : ∀ window ∈ windows, property window)
    (listed : arguments = windows.map Argument.reference) :
    ∀ argument ∈ arguments, ∀ window ∈ argument.window?, property window := by
  subst listed
  intro argument mem window isWindow
  obtain ⟨given, listed, rfl⟩ := List.mem_map.1 mem
  cases isWindow
  exact holds _ listed

/-- The arrays that are passed to a block routine: those of the blocks are none of
the others. -/
theorem passesApart_blockRoutine {names : BlockNames} {damping : α} {rows cols : Nat}
    {jacobian weight : Option (Matrix α)} {jacobianWindow weightWindow : Option Window}
    {hessian gradient : Window} (jacobianPassed : jacobianWindow.isSome = jacobian.isNone)
    (weightPassed : weightWindow.isSome = weight.isNone)
    (of_module : ∀ window ∈ jacobianWindow.toList ++ weightWindow.toList ++ [hessian, gradient],
      ∃ id, window.base = .global id)
    (apart : ∀ window ∈ jacobianWindow.toList ++ weightWindow.toList, gradient.base ≠ window.base)
    (hessian_apart : ∀ window ∈ jacobianWindow, hessian.base ≠ window.base)
    (blocks_apart : hessian.base ≠ gradient.base)
    (stores : program.MayStore hessian.base ∧ program.MayStore gradient.base) :
    program.PassesApart (blockRoutine names damping rows cols jacobian weight)
      ((jacobianWindow.map Argument.reference).toList ++
        (weightWindow.map Argument.reference).toList ++
        [.reference hessian, .reference gradient]) := by
  let first := (jacobianWindow.map Argument.reference).toList
  let second := (weightWindow.map Argument.reference).toList
  let arguments := first ++ second ++ [.reference hessian, .reference gradient]
  have atHessian : Program.atCall arguments (.parameter (first.length + second.length)) =
      hessian.base :=
    atCall_parameter rfl List.length_append.symm
  have atGradient : Program.atCall arguments (.parameter (first.length + second.length + 1)) =
      gradient.base :=
    @atCall_parameter _ (first ++ second ++ [.reference hessian]) [] gradient
      (by simp [arguments]) _ (by simp only [List.length_append, List.length_singleton])
  have atJacobian {window : Window} :=
    @atCall_operand α _ jacobian jacobianWindow jacobianPassed arguments [] _
      (List.append_assoc first second _) 0 rfl rows cols window
  have atWeight {window : Window} :=
    @atCall_operand α _ weight weightWindow weightPassed arguments first _
      (List.append_assoc first second _) _ rfl rows rows window
  rw [blockRoutine_eq]
  simp only [length_passed jacobianPassed, length_passed weightPassed]
  refine ⟨?_, ?_, ?_⟩
  · refine windows_of_references of_module ?_
    simp only [List.map_append, Option.toList_map, List.map_cons, List.map_nil]
  · intro pair mem _
    rcases mem_pairsOf_set.1 mem with ⟨window, isRead, rfl⟩ | mem
    · simp only [Window.base_dense]
      rw [atGradient]
      rcases List.mem_append.1 isRead with isRead | isRead
      · obtain ⟨given, passed, at_eq⟩ := atJacobian (.inr isRead)
        rw [at_eq]
        exact apart given (List.mem_append_left _ (Option.mem_toList.2 passed))
      · obtain ⟨given, passed, at_eq⟩ := atWeight (.inl isRead)
        rw [at_eq]
        exact apart given (List.mem_append_right _ (Option.mem_toList.2 passed))
    rcases mem_pairsOf_set.1 mem with ⟨window, isRead, rfl⟩ | mem
    · simp only [Window.base_dense]
      rw [atHessian]
      rw [windows_damped] at isRead
      rcases List.mem_append.1 isRead with isRead | isRead
      · obtain rfl := List.mem_singleton.1 isRead
        exact atGradient ▸ blocks_apart
      · obtain ⟨given, passed, at_eq⟩ := atJacobian (.inl isRead)
        rw [at_eq]
        exact hessian_apart given passed
    · exact absurd mem List.not_mem_nil
  · intro position written
    rcases List.mem_cons.1 written with rfl | written
    · exact atGradient ▸ stores.2
    · obtain rfl := List.mem_singleton.1 written
      exact atHessian ▸ stores.1

/-- The arrays that are passed to the cross routine: that of the block is none of the
others. -/
theorem passesApart_crossRoutine {jacXWindow jacUWindow weightWindow : Option Window}
    {cross : Window} (jacXPassed : jacXWindow.isSome = problem.jacX.isNone)
    (jacUPassed : jacUWindow.isSome = problem.jacU.isNone)
    (weightPassed : weightWindow.isSome = problem.weight.isNone)
    (of_module : ∀ window ∈ jacXWindow.toList ++ jacUWindow.toList ++ weightWindow.toList ++
      [cross], ∃ id, window.base = .global id)
    (apart : ∀ window ∈ jacUWindow, cross.base ≠ window.base)
    (stores : program.MayStore cross.base) :
    program.PassesApart (crossRoutine problem)
      ((jacXWindow.map Argument.reference).toList ++
        (jacUWindow.map Argument.reference).toList ++
        (weightWindow.map Argument.reference).toList ++ [.reference cross]) := by
  let first := (jacXWindow.map Argument.reference).toList
  let second := (jacUWindow.map Argument.reference).toList
  let third := (weightWindow.map Argument.reference).toList
  let arguments := first ++ second ++ third ++ [.reference cross]
  have atCross : Program.atCall arguments
      (.parameter (first.length + second.length + third.length)) = cross.base :=
    atCall_parameter rfl (by simp only [List.length_append])
  have atJacX {window : Window} :=
    @atCall_operand α _ problem.jacX jacXWindow jacXPassed arguments [] _
      (by simp only [arguments, List.append_assoc]; rfl) 0 rfl problem.dims.ny problem.dims.nx window
  have atJacU {window : Window} :=
    @atCall_operand α _ problem.jacU jacUWindow jacUPassed arguments first _
      (by simp only [arguments, List.append_assoc]; rfl) _ rfl problem.dims.ny problem.dims.nu window
  have atWeight {window : Window} :=
    @atCall_operand α _ problem.weight weightWindow weightPassed arguments (first ++ second) _
      (List.append_assoc (first ++ second) third _) _ List.length_append.symm problem.dims.ny
      problem.dims.ny window
  -- the product of the routine's own is none of the arrays of the module
  have notOwn (window : Window) (listed : window ∈ jacXWindow.toList ++ jacUWindow.toList ++
      weightWindow.toList ++ [cross]) : .own 0 ≠ window.base ∧ window.base ≠ .own 0 := by
    obtain ⟨id, isGlobal⟩ := of_module window listed
    rw [isGlobal]
    exact ⟨Base.noConfusion, Base.noConfusion⟩
  rw [crossRoutine_eq]
  simp only [length_passed jacXPassed, length_passed jacUPassed, length_passed weightPassed]
  refine ⟨?_, ?_, ?_⟩
  · refine windows_of_references of_module ?_
    simp only [List.map_append, Option.toList_map, List.map_cons, List.map_nil]
  · intro pair mem _
    rcases mem_pairsOf_set.1 mem with ⟨window, isRead, rfl⟩ | mem
    · simp only [Window.base_dense]
      rcases List.mem_append.1 isRead with isRead | isRead
      · obtain ⟨given, passed, at_eq⟩ := atJacX (.inr isRead)
        rw [at_eq]
        exact (notOwn given (by simp [Option.mem_def.1 passed])).1
      · obtain ⟨given, passed, at_eq⟩ := atWeight (.inl isRead)
        rw [at_eq]
        exact (notOwn given (by simp [Option.mem_def.1 passed])).1
    rcases mem_pairsOf_set.1 mem with ⟨window, isRead, rfl⟩ | mem
    · simp only [Window.base_dense]
      rw [atCross]
      rcases List.mem_append.1 isRead with isRead | isRead
      · obtain rfl := List.mem_singleton.1 isRead
        exact (notOwn cross (by simp)).2
      · obtain ⟨given, passed, at_eq⟩ := atJacU (.inl isRead)
        rw [at_eq]
        exact apart given passed
    · exact absurd mem List.not_mem_nil
  · intro position written
    obtain rfl := List.mem_singleton.1 written
    exact atCross ▸ stores

section Calls

variable {routine : Routine α} {extremes : Program.Extremes} {filled : List Nat}

/-- The arrays that are passed to a block routine of the problem: output of the
residual function, weighting, and the two blocks. -/
theorem isOrderly_blockCall {names : BlockNames} {damping : α} {rows cols : Nat}
    {jacobian weight : Option (Matrix α)} {jacobianWindow weightWindow : Option Window}
    {hessianWindow gradientWindow : Window} {weighting hessian gradient : Quantity}
    (mem : blockRoutine names damping rows cols jacobian weight ∈ problem.program.routines)
    (jacobianPassed : jacobianWindow.isSome = jacobian.isNone)
    (weightPassed : weightWindow.isSome = weight.isNone)
    (jacobianBase : ∀ window ∈ jacobianWindow,
      window.base = .global (problem.plan.id .objValueOut))
    (weightBase : ∀ window ∈ weightWindow, window.base = .global (problem.plan.id weighting))
    (hessianBase : hessianWindow.base = .global (problem.plan.id hessian))
    (gradientBase : gradientWindow.base = .global (problem.plan.id gradient))
    (hessianSupplied : problem.Supplies hessian) (gradientSupplied : problem.Supplies gradient)
    (distinct : [.objValueOut, weighting, hessian, gradient].Nodup) :
    (Statement.run names.routine ((jacobianWindow.map Argument.reference).toList ++
        (weightWindow.map Argument.reference).toList ++
        [.reference hessianWindow, .reference gradientWindow])).IsOrderly problem.program routine
      extremes filled := by
  refine ⟨rfl, fun callee known => ?_⟩
  obtain rfl := Option.some.inj ((problem.routine?_eq mem).symm.trans known)
  simp only [List.nodup_cons, List.mem_cons, List.not_mem_nil, or_false, not_or] at distinct
  obtain ⟨⟨_, outNotHessian, outNotGradient⟩, ⟨_, weightNotGradient⟩, notGradient, _⟩ := distinct
  refine passesApart_blockRoutine jacobianPassed weightPassed ?_ ?_ ?_ ?_ ⟨?_, ?_⟩
  · intro window listed
    simp only [List.mem_append, Option.mem_toList, List.mem_cons, List.not_mem_nil,
      or_false] at listed
    rcases listed with (listed | listed) | rfl | rfl
    · exact ⟨_, jacobianBase window listed⟩
    · exact ⟨_, weightBase window listed⟩
    · exact ⟨_, hessianBase⟩
    · exact ⟨_, gradientBase⟩
  · intro window listed
    rw [gradientBase]
    rcases List.mem_append.1 listed with listed | listed
    · rw [jacobianBase window (Option.mem_toList.1 listed)]
      exact (gradientSupplied.base_ne outNotGradient).symm
    · rw [weightBase window (Option.mem_toList.1 listed)]
      exact (gradientSupplied.base_ne weightNotGradient).symm
  · intro window listed
    rw [hessianBase, jacobianBase window listed]
    exact (hessianSupplied.base_ne outNotHessian).symm
  · rw [hessianBase, gradientBase]
    exact gradientSupplied.base_ne notGradient
  · exact hessianBase ▸ hessianSupplied.mayStore
  · exact gradientBase ▸ gradientSupplied.mayStore

theorem base_weightWindow? {node : AffineIndex} {window : Window}
    (passed : problem.plan.weightWindow? problem.dims problem.flags node = some window) :
    window.base = .global (problem.plan.id .w) := by
  unfold Plan.weightWindow? at passed
  split at passed
  · split at passed <;> cases passed <;> rfl
  · contradiction

theorem base_derivativeWindow? {start : Option Nat} {size : Nat} {window : Window}
    (passed : derivativeWindow? problem start size = some window) :
    window.base = .global (problem.plan.id .objValueOut) := by
  obtain ⟨_, _, rfl⟩ := Option.map_eq_some_iff.1 passed
  rfl

theorem base_terminalWeightWindow? {window : Window}
    (passed : terminalWeightWindow? problem = some window) :
    window.base = .global (problem.plan.id .wN) := by
  obtain ⟨_, passed⟩ := Option.mem_ite_none_right.1 passed
  cases passed
  rfl

/-- The routines of the blocks that are not known belong to the program. -/
theorem mem_of_computed :
    let known := KnownBlocks.ofProblem problem
    let dims := problem.dims
    let damping := problem.flags.levenbergMarquardt
    (known.states = none →
        blockRoutine stateNames damping dims.ny dims.nx problem.jacX problem.weight ∈
          problem.program.routines) ∧
      (known.controls = none →
        blockRoutine controlNames damping dims.ny dims.nu problem.jacU problem.weight ∈
          problem.program.routines) ∧
      (known.cross = none → crossRoutine problem ∈ problem.program.routines) ∧
      (known.terminal = none →
        blockRoutine terminalNames damping dims.nyn dims.nx problem.jacXEnd
          problem.terminalWeight ∈ problem.program.routines) := by
  refine ⟨fun none => ?_, fun none => ?_, fun none => ?_, fun none => ?_⟩ <;>
    exact Problem.mem_routines.1 _ (by simp [blockRoutines, Problem.blocks_plan, none])

theorem areOrderly_stageCalls (node : AffineIndex) :
    Statement.AreOrderly problem.program routine extremes filled
      (stageCalls problem problem.plan node) := by
  obtain ⟨weightPassed, _⟩ := @passes_weightWindow? α _ problem node
  obtain ⟨states_eq, controls_eq, cross_eq⟩ := @stageArguments_eq α _ problem node
  simp only [stageCalls_eq, states_eq, controls_eq, cross_eq, Option.isNone_iff_eq_none]
  refine .append (.append ?_ ?_) ?_ <;> split
  · rename_i states
    exact ⟨isOrderly_blockCall (mem_of_computed.1 states) (passes_derivatives _).1 weightPassed
      (fun _ => base_derivativeWindow?) (fun _ => base_weightWindow?) rfl rfl
      (Problem.supplies_of_notMem (by simp) (by decide))
      (Problem.supplies_of_notMem (by simp [states]) (by decide)) (by decide), trivial⟩
  · trivial
  · rename_i controls
    exact ⟨isOrderly_blockCall (mem_of_computed.2.1 controls) (passes_derivatives _).2.1
      weightPassed (fun _ => base_derivativeWindow?) (fun _ => base_weightWindow?) rfl rfl
      (Problem.supplies_of_notMem (by simp) (by decide))
      (Problem.supplies_of_notMem (by simp [controls]) (by decide)) (by decide), trivial⟩
  · trivial
  · rename_i cross
    have mem := mem_of_computed.2.2.1 cross
    refine ⟨⟨rfl, fun callee known => ?_⟩, trivial⟩
    obtain rfl := Option.some.inj ((problem.routine?_eq mem).symm.trans known)
    have supplied : problem.Supplies .hessianS :=
      Problem.supplies_of_notMem (by simp) (by decide)
    refine passesApart_crossRoutine (passes_derivatives _).1 (passes_derivatives _).2.1
      weightPassed ?_ ?_ supplied.mayStore
    · intro window listed
      simp only [List.mem_append, Option.mem_toList, List.mem_singleton] at listed
      rcases listed with ((listed | listed) | listed) | rfl
      · exact ⟨_, base_derivativeWindow? listed⟩
      · exact ⟨_, base_derivativeWindow? listed⟩
      · exact ⟨_, base_weightWindow? listed⟩
      · exact ⟨_, rfl⟩
    · intro window listed
      rw [base_derivativeWindow? listed]
      exact (supplied.base_ne (by decide)).symm
  · trivial

theorem areOrderly_terminalCall :
    Statement.AreOrderly problem.program routine extremes filled
      (terminalCall problem problem.plan) := by
  simp only [terminalCall_eq, terminalArguments_eq, Option.isNone_iff_eq_none]
  split
  · rename_i terminal
    exact ⟨isOrderly_blockCall (mem_of_computed.2.2.2 terminal) (passes_derivatives _).2.2
      passes_terminalWeightWindow?.1 (fun _ => base_derivativeWindow?)
      (fun _ => base_terminalWeightWindow?) rfl rfl
      (Problem.supplies_of_notMem (by simp) (by decide))
      (Problem.supplies_of_notMem (by simp [terminal]) (by decide)) (by decide), trivial⟩
  · trivial

end Calls

/-! ## Evaluation and gradient -/

section Routines

variable {routine : Routine α} {extremes : Program.Extremes} {filled : List Nat}

theorem isOrderly_evaluateRoutine :
    problem.program.IsOrderly (evaluateRoutine problem problem.plan) := by
  have input : problem.Supplies .objValueIn := Problem.supplies_of_notMem (by simp) (by decide)
  have output : problem.Supplies .objValueOut := Problem.supplies_of_notMem (by simp) (by decide)
  have stageResidual : problem.Supplies .dy := Problem.supplies_of_notMem (by simp) (by decide)
  have residual : problem.Supplies .dyN := Problem.supplies_of_notMem (by simp) (by decide)
  refine Program.isOrderly_of_body (.append ⟨⟨List.not_mem_nil, ?_⟩, trivial⟩ ?_) rfl
  · refine .append (.append (input.loads (by decide) _ _) ⟨?_, ?_, trivial⟩)
      (areOrderly_stageCalls _)
    · exact input.evaluates output _
    · exact stageResidual.copies (by decide) _ _ _
  · refine .append (.append (input.loads (by decide) _ _) ⟨?_, ?_, trivial⟩)
      areOrderly_terminalCall
    · exact input.evaluates output _
    · exact residual.moves rfl rfl (by decide)

/-- A computed block is read from its own quantity. -/
theorem base_blockAt {known : Option (Matrix α)} {quantity : Quantity} {node : AffineIndex}
    {rows : Nat} {window : Window}
    (mem : window ∈ (problem.plan.blockAt (.ofOption known quantity) node rows).windows) :
    window.base = .global (problem.plan.id quantity) := by
  cases known with
  | some _ => cases mem
  | none => exact congrArg Window.base (List.mem_singleton.1 mem)

/-- What the two assignments of the gradient routine read: a block, the residuals, and
the linear term if it is passed. -/
theorem exists_gradientRoutine :
    ∃ state control,
      (gradientRoutine problem problem.plan).body =
        [.set (.dense (.parameter 0) (.const 0) problem.dims.nx 1) state,
          .set (.dense (.parameter 1) (.const 0) problem.dims.nu 1) control] ∧
      (∀ window ∈ state.windows,
        (∃ source ∈ [Quantity.q2, .dy], window.base = .global (problem.plan.id source)) ∨
          passesLinear problem.plan.linear = true ∧ window.base = .parameter 2) ∧
      ∀ window ∈ control.windows,
        (∃ source ∈ [Quantity.r2, .dy], window.base = .global (problem.plan.id source)) ∨
          passesLinear problem.plan.linear = true ∧ window.base = .parameter 3 := by
  have reads {known : Option (Matrix α)} {quantity : Quantity} {node offset : AffineIndex}
      {rows length position : Nat} {linear : Option (Expr α)}
      (passed : ∀ window ∈ linear.elim [] Expr.windows,
        passesLinear problem.plan.linear = true ∧ window.base = .parameter position) :
      ∀ window ∈ (withLinear (.mul (problem.plan.blockAt (.ofOption known quantity) node rows)
          (.read (problem.plan.flat .dy offset length))) linear).windows,
        (∃ source ∈ [quantity, .dy], window.base = .global (problem.plan.id source)) ∨
          passesLinear problem.plan.linear = true ∧ window.base = .parameter position := by
    intro window mem
    rw [windows_withLinear, Expr.windows, Expr.windows, List.mem_append, List.mem_append,
      List.mem_singleton] at mem
    rcases mem with (block | rfl) | term
    · exact .inl ⟨quantity, List.mem_cons_self, base_blockAt block⟩
    · exact .inl ⟨.dy, List.mem_cons_of_mem _ List.mem_cons_self, rfl⟩
    · exact .inr (passed window term)
  refine ⟨_, _, rfl, reads ?_, reads ?_⟩ <;>
    cases terms : LinearStorage.ofProblem problem <;>
    simp [terms, passesLinear, Expr.windows]

theorem isOrderly_gradientRoutine :
    problem.program.IsOrderly (gradientRoutine problem problem.plan) := by
  obtain ⟨state, control, body_eq, stateReads, controlReads⟩ :=
    @exists_gradientRoutine α _ problem
  refine Program.isOrderly_of_body ?_ rfl
  rw [body_eq]
  refine ⟨Program.assigns_parameter fun window mem => ?_,
    Program.assigns_parameter fun window mem => ?_, trivial⟩
  · rcases stateReads window mem with ⟨_, _, base_eq⟩ | ⟨_, base_eq⟩ <;>
      simp [base_eq, Base.IsFilled]
  · rcases controlReads window mem with ⟨_, _, base_eq⟩ | ⟨_, base_eq⟩ <;>
      simp [base_eq, Base.IsFilled]

/-- Filling the Hessian with known blocks reads nothing. -/
theorem areOrderly_initialization :
    Statement.AreOrderly problem.program routine [] filled
      (initialization problem problem.plan) := by
  have fills {extremes : Program.Extremes} {quantity : Quantity} {target : Window}
      {value : Matrix α} (present : problem.plan.has quantity = true)
      (other : quantity ∉ Quantity.bounds)
      (base_eq : target.base = .global (problem.plan.id quantity)) :
      (Statement.set target (.known value)).IsOrderly problem.program routine extremes filled :=
    (Problem.supplies_of_notMem present other).assigns base_eq (List.forall_mem_nil _)
  unfold initialization
  refine .append ?_ ?_
  · split
    · trivial
    · refine ⟨⟨List.not_mem_nil, .append (.append ?_ ?_) ?_⟩, trivial⟩ <;> beta_reduce <;> split
      · exact ⟨fills (by simp) (by decide) rfl, trivial⟩
      · trivial
      · exact ⟨fills (by simp) (by decide) rfl, trivial⟩
      · trivial
      · exact ⟨fills (by simp) (by decide) rfl, trivial⟩
      · trivial
  · split
    · exact ⟨fills (by simp) (by decide) rfl, trivial⟩
    · trivial

end Routines

end Objective

end RtiAssembly
