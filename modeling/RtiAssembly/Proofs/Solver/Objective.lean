import RtiAssembly.Proofs.Solver.Stage

/-!
# What the evaluation of the objective computes

The stages are evaluated in the order of their nodes, and the terminal node
behind them.
-/

namespace RtiAssembly

open Statement

namespace Objective

variable {α σ : Type} [Scalar α] {problem : Problem α} {frame : Frame}

/-! ## Terminal node -/

section Terminal

variable (problem)

/-- The terminal weighting. -/
def terminalWeight (memory : problem.Contents) : Matrix α :=
  terminalWeightPlace.getD problem problem.terminalWeight memory problem.dims.nyn
    problem.dims.nyn

/-- The quantities that the evaluation of the terminal node may change. -/
def terminalShare (quantity : Quantity) : Prop :=
  quantity = .objValueIn ∨ quantity = .objValueOut ∨ quantity = .dyN ∨
    (KnownBlocks.ofProblem problem).terminal = none ∧
      (quantity = .qN2 ∨ quantity = .hessianQf)

/-- What the evaluation of the terminal node leaves behind, given the memory
before it. -/
structure TerminalHolds (start : problem.Contents)
    (call : HostCall α problem.program.table.sizes) (memory : problem.Contents) : Prop where
  asks : problem.Asks .terminalCost start problem.dims.n call
  residuals : ∀ row < problem.dims.nyn,
    problem.valueAt memory .dyN row = call.leaves 1 row
  blocks : (KnownBlocks.ofProblem problem).terminal = none →
    let dims := problem.dims
    let fx := usedTerminalFx problem call
    let gradient := fx.transpose.mul (terminalWeight problem start)
    problem.part memory .qN2 0 dims.nx dims.nyn = gradient ∧
      problem.part memory .hessianQf 0 dims.nx dims.nx =
        (gradient.mul fx).shifted problem.flags.levenbergMarquardt

/-- The statements of the terminal node. -/
def terminalStatements : List (Statement α) :=
  let dims := problem.dims
  problem.plan.loadNodeInput dims .objValueIn (.const dims.n) false ++
    [problem.plan.evaluate .terminalCost .objValueIn .objValueOut,
      .set (problem.plan.whole .dyN)
        (.read (problem.plan.flat .objValueOut (.const 0) dims.nyn))] ++
    terminalCall problem problem.plan

variable {problem}

theorem bindings_terminal :
    (terminalArguments problem).map frame.bindingOf =
      (terminalFxPlace problem).bindings problem problem.jacXEnd ++
        terminalWeightPlace.bindings problem problem.terminalWeight ++
        [(Place.mk .hessianQf 0).binding problem, (Place.mk .qN2 0).binding problem] := by
  have whole (quantity : Quantity) : frame.bindingOf (problem.plan.passWhole quantity) =
      (Place.mk quantity 0).binding problem :=
    congrArg Binding.array (Frame.startOf_whole quantity)
  have weight : (if problem.plan.has .wN then [problem.plan.passWhole .wN] else []).map
      frame.bindingOf = terminalWeightPlace.bindings problem problem.terminalWeight := by
    cases runtime : problem.terminalWeight with
    | some _ => simp [runtime, Place.bindings]
    | none => simp [runtime, Place.bindings, whole, terminalWeightPlace]
  simp only [terminalArguments, List.map_append, List.map_cons, List.map_nil,
    derivativeArguments, (bindings_derivatives _).2.2, weight, whole]

variable (host : Host α σ problem.program.table.sizes) (depth : Nat) (world : problem.Recorded σ)

/-- The terminal blocks, unless they are known. -/
theorem moves_terminalBlocks (wellFormed : problem.WellFormed) :
    let dims := problem.dims
    let memory := world.store.memory
    let fx := (terminalFxPlace problem).getD problem problem.jacXEnd memory dims.nyn dims.nx
    let gradient := fx.transpose.mul (terminalWeight problem memory)
    let after := effects (problem.program.scene host.recorded (depth + 1)) frame
      (terminalCall problem problem.plan) world
    problem.Moves (fun quantity _ => (KnownBlocks.ofProblem problem).terminal = none ∧
        (quantity = .qN2 ∨ quantity = .hessianQf)) [] world after ∧
      ((KnownBlocks.ofProblem problem).terminal = none →
        problem.part after.store.memory .qN2 0 dims.nx dims.nyn = gradient ∧
          problem.part after.store.memory .hessianQf 0 dims.nx dims.nx =
            (gradient.mul fx).shifted problem.flags.levenbergMarquardt) := by
  intro dims memory fx gradient after
  cases terminal : (KnownBlocks.ofProblem problem).terminal with
  | some _ =>
      have after_eq : after = world := by simp [after, terminalCall_eq, terminal, effects]
      rw [after_eq]
      exact ⟨.refl world, fun none => absurd none (Option.some_ne_none _)⟩
  | none =>
      have shapeHessian : problem.shapeOf? .hessianQf = some (dims.nx, dims.nx) := by
        simp [dims]
      have shapeGradient : problem.shapeOf? .qN2 = some (dims.nx, dims.nyn) := by
        simp [terminal, dims]
      have mem : blockRoutine terminalNames problem.flags.levenbergMarquardt dims.nyn dims.nx
          problem.jacXEnd problem.terminalWeight ∈ problem.program.routines := by
        refine Problem.mem_routines.1 _ ?_
        simp [blockRoutines, Problem.blocks_plan, terminal, dims]
      have forms := forms_blockCall depth world host mem wellFormed.shape_jacXEnd
        wellFormed.shape_terminalWeight (@bindings_terminal α _ problem frame)
        ⟨Quantity.noConfusion, by decide⟩
        (Nat.le_of_eq (by rw [problem.sizeOf_eq shapeGradient, Nat.zero_add]))
        (Nat.le_of_eq (by rw [problem.sizeOf_eq shapeHessian, Nat.zero_add]))
      have after_eq : after = (Statement.run terminalNames.routine
          (terminalArguments problem)).effect (problem.program.scene host.recorded (depth + 1))
            frame world := by
        simp [after, terminalCall_eq, terminal, effects_singleton]
      rw [after_eq]
      refine ⟨forms.moves.mono ?_, fun _ => ⟨forms.gradient_eq, forms.hessian_eq⟩⟩
      rintro quantity position (covers | covers)
      · exact ⟨rfl, .inl covers.1⟩
      · exact ⟨rfl, .inr covers.1⟩

/-- The evaluation of the terminal node. -/
theorem terminal_step (wellFormed : problem.WellFormed) (tame : problem.CostsTame host) :
    let after := effects (problem.program.scene host.recorded (depth + 1)) frame
      (terminalStatements problem) world
    ∃ call, problem.Moves (fun quantity _ => terminalShare problem quantity) [call] world after ∧
      TerminalHolds problem world.store.memory call after.store.memory := by
  intro after
  let dims := problem.dims
  let scene := problem.program.scene host.recorded (depth + 1)
  obtain ⟨inputs, outputs⟩ := @sizeOf_buffers α _ problem
  obtain ⟨_, values_le, _⟩ := EvaluationLayout.derivatives_le problem
  let asked := effects scene frame
    (problem.plan.loadNodeInput dims .objValueIn (.const dims.n) false ++
      [problem.plan.evaluate .terminalCost .objValueIn .objValueOut]) world
  obtain ⟨call, asks, askedMoves, holds⟩ : ∃ call,
      problem.Asks .terminalCost world.store.memory dims.n call ∧
        problem.Moves (fun quantity _ => quantity = .objValueIn ∨ quantity = .objValueOut) [call]
          world asked ∧
        ∀ position < problem.sizeOf .objValueOut,
          problem.valueAt asked.store.memory .objValueOut position = call.leaves 1 position := by
    have asks := @Problem.asks_node α σ _ problem host scene frame world rfl .terminalCost
      tame.terminalCost .objValueIn .objValueOut (.const dims.n) dims.n rfl inputs
      (by decide) (by decide)
    rwa [decide_eq_false (Nat.lt_irrefl dims.n)] at asks
  let copied := (Statement.set (problem.plan.whole .dyN)
    (.read (problem.plan.flat .objValueOut (.const 0) dims.nyn))).effect scene frame asked
  have shapeResidual : problem.shapeOf? .dyN = some (dims.nyn, 1) := by simp [dims]
  have shows := @Frame.valueIn_flat frame α _ problem asked.store .objValueOut (.const 0) dims.nyn
  have copiedPuts := @Problem.puts_whole α σ _ problem scene frame asked .dyN dims.nyn 1
    shapeResidual .set (.read (problem.plan.flat .objValueOut (.const 0) dims.nyn))
    (by rw [shows]; rfl)
  have copiedMoves : problem.Moves (fun quantity _ => quantity = .dyN) [] asked copied :=
    copiedPuts.moves fun _ _ _ => rfl
  obtain ⟨blocksMoves, blocks⟩ :=
    @moves_terminalBlocks α σ _ problem frame host depth copied wellFormed
  have after_eq : after = effects scene frame (terminalCall problem problem.plan) copied := by
    simp only [after, terminalStatements, effects_append, effects_singleton, asked, copied]
    rfl
  have fxCopied : (terminalFxPlace problem).getD problem problem.jacXEnd copied.store.memory
      dims.nyn dims.nx = usedTerminalFx problem call := by
    rw [Place.getD_eq _ copiedMoves.memory fun _ => by simp [terminalFxPlace]]
    exact (used_eq holds).2.2
  have weightCopied : terminalWeight problem copied.store.memory =
      terminalWeight problem world.store.memory :=
    (Place.getD_eq _ copiedMoves.memory fun _ => by simp [terminalWeightPlace]).trans
      (Place.getD_eq _ askedMoves.memory fun _ => by simp [terminalWeightPlace])
  rw [after_eq]
  refine ⟨call, ?_, asks, fun row row_lt => ?_, fun computed => ?_⟩
  · refine (askedMoves.mono ?_).trans ((copiedMoves.mono ?_).trans (blocksMoves.mono ?_))
    · rintro _ _ (rfl | rfl)
      · exact .inl rfl
      · exact .inr (.inl rfl)
    · exact fun _ _ here => .inr (.inr (.inl here))
    · exact fun _ _ here => .inr (.inr (.inr here))
  · have row_lt : row < dims.nyn * 1 := by rwa [Nat.mul_one]
    have copiedRow := copiedPuts.memory.inside row_lt
    rw [Nat.zero_add, shows] at copiedRow
    refine (blocksMoves.memory .dyN _ (by simp)).trans (copiedRow.trans ?_)
    refine (Problem.element_part _ _ row_lt).trans ?_
    rw [Frame.valueOf_const, Nat.zero_add]
    exact holds row (by omega)
  · have holdsBlocks := blocks computed
    rw [fxCopied, weightCopied] at holdsBlocks
    exact holdsBlocks

end Terminal

/-! ## The whole horizon -/

section Horizon

variable (problem)

/-- The statements of a stage. -/
def stageStatements : List (Statement α) :=
  let dims := problem.dims
  let node := AffineIndex.var nodeName
  problem.plan.loadNodeInput dims .objValueIn node true ++
    [problem.plan.evaluate .stageCost .objValueIn .objValueOut,
      problem.plan.copy .dy (node.scaled dims.ny) .objValueOut (.const 0) dims.ny] ++
    stageCalls problem problem.plan node

theorem body_evaluateRoutine :
    (evaluateRoutine problem problem.plan).body =
      [.loop nodeName 0 problem.dims.n (stageStatements problem)] ++
        terminalStatements problem :=
  rfl

/-- The quantities that the evaluation of the objective may change. -/
def share (quantity : Quantity) : Prop :=
  (stageSize? problem quantity).isSome ∨ terminalShare problem quantity

/-- What the evaluation of the objective leaves behind, given the memory before
it and its calls. -/
structure Holds (start : problem.Contents)
    (stages : List (HostCall α problem.program.table.sizes))
    (terminal : HostCall α problem.program.table.sizes) (memory : problem.Contents) : Prop where
  count : stages.length = problem.dims.n
  stage : ∀ node < problem.dims.n, ∃ call, stages[node]? = some call ∧
    StageHolds problem start node call memory
  terminal : TerminalHolds problem start terminal memory

variable {problem}

theorem share_of_stageShare {node : Nat} {quantity : Quantity} {position : Nat}
    (inside : stageShare problem node quantity position) : share problem quantity := by
  rcases inside with rfl | rfl | ⟨size, written, _⟩
  · exact .inr (.inl rfl)
  · exact .inr (.inr (.inl rfl))
  · exact .inl (Option.isSome_iff_exists.2 ⟨size, written⟩)

/-- Inputs of nodes and weightings are not touched. -/
theorem not_share {quantity : Quantity}
    (input : quantity = .x ∨ quantity = .u ∨ quantity = .od ∨ quantity = .w ∨ quantity = .wN) :
    ¬share problem quantity := by
  rcases input with rfl | rfl | rfl | rfl | rfl <;> simp [share, terminalShare, stageSize?]

theorem inputs_kept : ¬share problem .x ∧ ¬share problem .u ∧ ¬share problem .od :=
  ⟨not_share (.inl rfl), not_share (.inr (.inl rfl)), not_share (.inr (.inr (.inl rfl)))⟩

/-- The evaluation of the terminal node does not touch those of the stages. -/
theorem not_terminalShare {node : Nat} {quantity : Quantity} {position : Nat}
    (inside : nodeShare problem node quantity position) : ¬terminalShare problem quantity := by
  obtain ⟨size, written, _⟩ := inside
  rintro (rfl | rfl | rfl | ⟨_, rfl | rfl⟩) <;> simp [stageSize?] at written

variable (host : Host α σ problem.program.table.sizes) (depth : Nat) (world : problem.Recorded σ)

/-- The evaluation of the stages, one after the other. -/
theorem holds_stages (wellFormed : problem.WellFormed) (tame : problem.CostsTame host) :
    let after := (Statement.loop nodeName 0 problem.dims.n (stageStatements problem)).effect
      (problem.program.scene host.recorded (depth + 1)) frame world
    ∃ stages, problem.Moves (fun quantity _ => share problem quantity) stages world after ∧
      stages.length = problem.dims.n ∧ ∀ node < problem.dims.n, ∃ call,
        stages[node]? = some call ∧
          StageHolds problem world.store.memory node call after.store.memory := by
  rw [effect_loop]
  refine Problem.moves_rounds_calls (fun _ _ _ _ => share_of_stageShare)
    (fun _ _ earlier _ _ _ _ changes held =>
      held.of_changes changes fun _ _ => not_stageShare earlier)
    fun round round_lt before changes => ?_
  obtain ⟨call, moves, asks, residuals, blocks⟩ := stage_step host depth before wellFormed tame
    (Frame.valueOf_bind nodeName round) round_lt
  have weight_eq : stageWeight problem before.store.memory round =
      stageWeight problem world.store.memory round :=
    Place.getD_eq _ changes fun _ => not_share (.inr (.inr (.inr (.inl rfl))))
  rw [weight_eq] at blocks
  exact ⟨call, moves, asks.of_changes changes fun _ => inputs_kept, residuals, blocks⟩

/-- The statements of the evaluation. -/
theorem holds_body (wellFormed : problem.WellFormed) (tame : problem.CostsTame host) :
    let after := effects (problem.program.scene host.recorded (depth + 1)) frame
      (evaluateRoutine problem problem.plan).body world
    ∃ stages terminal, problem.Moves (fun quantity _ => share problem quantity)
        (stages ++ [terminal]) world after ∧
      Holds problem world.store.memory stages terminal after.store.memory := by
  let evaluated := (Statement.loop nodeName 0 problem.dims.n (stageStatements problem)).effect
    (problem.program.scene host.recorded (depth + 1)) frame world
  obtain ⟨stages, stageMoves, count, held⟩ : ∃ stages,
      problem.Moves (fun quantity _ => share problem quantity) stages world evaluated ∧
        stages.length = problem.dims.n ∧ ∀ node < problem.dims.n, ∃ call,
          stages[node]? = some call ∧
            StageHolds problem world.store.memory node call evaluated.store.memory :=
    holds_stages host depth world wellFormed tame
  obtain ⟨terminal, terminalMoves, asks, residuals, blocks⟩ :=
    @terminal_step α σ _ problem frame host depth evaluated wellFormed tame
  have weight_eq : terminalWeight problem evaluated.store.memory =
      terminalWeight problem world.store.memory :=
    Place.getD_eq _ stageMoves.memory fun _ => not_share (.inr (.inr (.inr (.inr rfl))))
  rw [weight_eq] at blocks
  simp only [body_evaluateRoutine, effects_append, effects_singleton]
  refine ⟨stages, terminal, stageMoves.trans (terminalMoves.mono fun _ _ => Or.inr), count,
    fun node node_lt => ?_,
    asks.of_changes stageMoves.memory fun _ => inputs_kept, residuals, blocks⟩
  obtain ⟨call, place, holdsCall⟩ := held node node_lt
  exact ⟨call, place, holdsCall.of_changes terminalMoves.memory fun _ _ => not_terminalShare⟩

/-- The evaluation of the objective. -/
theorem holds_evaluate (wellFormed : problem.WellFormed) (tame : problem.CostsTame host) :
    let after := (Statement.run evaluateName []).effect
      (problem.program.scene host.recorded (depth + 2)) frame world
    ∃ stages terminal, problem.Moves (fun quantity _ => share problem quantity)
        (stages ++ [terminal]) world after ∧
      Holds problem world.store.memory stages terminal after.store.memory := by
  intro after
  have after_eq : after = (problem.program.perform host.recorded (depth + 2)
      (evaluateRoutine problem problem.plan) [] world).2 :=
    Problem.effect_run Problem.mem_routines.2.1 [] world
  rw [after_eq]
  obtain ⟨stages, terminal, moves, held⟩ := holds_body host depth _ wellFormed tame
  exact ⟨stages, terminal, Problem.moves_perform moves, held⟩

end Horizon

end Objective

end RtiAssembly
