import RtiAssembly.Proofs.Solver.Objective
import RtiAssembly.Proofs.Solver.Requests

/-!
# The objective with any host

Whatever a host does, the evaluation of the objective asks for every node of the
horizon, one after the other, and keeps the residuals that come back.  A quantity
that the host does not itself write then holds what the calls have left: residuals
and blocks are stated by the outputs and the weighting that stand in memory when
the function of a node has returned.
-/

namespace RtiAssembly

open Statement

namespace Objective

variable {α σ : Type} [Scalar α] {problem : Problem α} {frame : Frame}

/-! ## Results of a node -/

/-- The state block of a node: the product of derivative and weighting as they
stand when the function of the node has returned. -/
def stateHessian (problem : Problem α) (node : Nat)
    (call : HostCall α problem.program.table.sizes) : Matrix α :=
  let dims := problem.dims
  let start := problem.plan.layout.stageFx.getD 0
  let fx := problem.jacX.getD (.ofFn dims.ny dims.nx fun row col =>
    problem.returned call .objValueOut (start + (row * dims.nx + col)))
  ((fx.transpose.mul (stageWeight problem call.after node)).mul fx).shifted
    problem.flags.levenbergMarquardt

/-- The request for a stage. -/
def stageRequest (node : Nat) : Request :=
  ⟨.stageCost, .objValueIn, .objValueOut, node⟩

/-- The request for the terminal node. -/
def terminalRequest (problem : Problem α) : Request :=
  ⟨.terminalCost, .objValueIn, .objValueOut, problem.dims.n⟩

/-- What the evaluation of a node leaves behind with any host, given its call, in
quantities that the host spares. -/
structure StageReturns (problem : Problem α) (host : Host α σ problem.program.table.sizes)
    (node : Nat) (call : HostCall α problem.program.table.sizes) (memory : problem.Contents) :
    Prop where
  meets : problem.Meets (stageRequest node) call
  residuals : problem.Spares host .dy → ∀ row < problem.dims.ny,
    problem.valueAt memory .dy (node * problem.dims.ny + row) =
      problem.returned call .objValueOut row
  states : problem.Spares host .hessianQ → (KnownBlocks.ofProblem problem).states = none →
    let nx := problem.dims.nx
    problem.part memory .hessianQ (node * (nx * nx)) nx nx = stateHessian problem node call

/-- The evaluation of the objective with any host, given its calls. -/
structure Returns (problem : Problem α) (host : Host α σ problem.program.table.sizes)
    (stages : List (HostCall α problem.program.table.sizes))
    (terminal : HostCall α problem.program.table.sizes) (memory : problem.Contents) : Prop where
  count : stages.length = problem.dims.n
  stage : ∀ node < problem.dims.n, ∃ call, stages[node]? = some call ∧
    StageReturns problem host node call memory
  meets : problem.Meets (terminalRequest problem) terminal
  residuals : problem.Spares host .dyN → ∀ row < problem.dims.nyn,
    problem.valueAt memory .dyN row = problem.returned terminal .objValueOut row

/-- The calls of the stages meet the requests for them one by one. -/
theorem Returns.meets_stages {host : Host α σ problem.program.table.sizes}
    {stages : List (HostCall α problem.program.table.sizes)}
    {terminal : HostCall α problem.program.table.sizes} {memory : problem.Contents}
    (returns : Returns problem host stages terminal memory) :
    List.Forall₂ problem.Meets ((List.range problem.dims.n).map stageRequest) stages := by
  refine List.forall₂_iff_get.2 ⟨by simp [returns.count], fun node listed _ => ?_⟩
  have node_lt : node < problem.dims.n := by simpa using listed
  obtain ⟨call, place, stageReturns⟩ := returns.stage node node_lt
  have call_eq : stages.get ⟨node, _⟩ = call := (List.getElem?_eq_some_iff.1 place).2
  rw [call_eq]
  simpa using stageReturns.meets

section Changes

variable {host : Host α σ problem.program.table.sizes} {before after : problem.Contents}
  {region : Quantity → Nat → Prop}

/-- What the host does elsewhere and what others change elsewhere does not matter to a
node. -/
theorem StageReturns.of_changes {node : Nat} {call : HostCall α problem.program.table.sizes}
    (returns : StageReturns problem host node call before)
    (changes : problem.Changes (fun quantity position =>
      ¬problem.Spares host quantity ∨ region quantity position) before after)
    (outside : ∀ quantity position, nodeShare problem node quantity position →
      ¬region quantity position) :
    StageReturns problem host node call after where
  meets := returns.meets
  residuals spares row row_lt := by
    have inside : nodeShare problem node .dy (node * problem.dims.ny + row) :=
      ⟨_, rfl, Nat.le_add_right _ _, Nat.add_lt_add_left row_lt _⟩
    rw [changes .dy _ (not_or.2 ⟨not_not.2 spares, outside _ _ inside⟩)]
    exact returns.residuals spares row row_lt
  states spares computed := by
    intro nx
    have size : stageSize? problem .hessianQ = some (nx * nx) := by simp [stageSize?, computed, nx]
    rw [changes.part_eq fun position start_le position_lt => not_or.2 ⟨not_not.2 spares,
      outside _ _ ⟨_, size, start_le, position_lt⟩⟩]
    exact returns.states spares computed

theorem Returns.of_changes {stages : List (HostCall α problem.program.table.sizes)}
    {terminal : HostCall α problem.program.table.sizes}
    (returns : Returns problem host stages terminal before)
    (changes : problem.Changes (fun quantity position =>
      ¬problem.Spares host quantity ∨ region quantity position) before after)
    (outside : ∀ quantity position, quantity = .dyN ∨ (stageSize? problem quantity).isSome →
      ¬region quantity position) :
    Returns problem host stages terminal after where
  count := returns.count
  stage node node_lt := by
    obtain ⟨call, place, held⟩ := returns.stage node node_lt
    refine ⟨call, place, held.of_changes changes fun quantity position inside => ?_⟩
    obtain ⟨size, written, _⟩ := inside
    exact outside quantity position (.inr (Option.isSome_iff_exists.2 ⟨size, written⟩))
  meets := returns.meets
  residuals spares row row_lt := by
    rw [changes .dyN _ (not_or.2 ⟨not_not.2 spares, outside _ _ (.inl rfl)⟩)]
    exact returns.residuals spares row row_lt

end Changes

/-! ## Steps -/

/-- A derivative in the output buffer is the one that the function left there. -/
theorem stageFx_of_returned {memory : problem.Contents}
    {call : HostCall α problem.program.table.sizes}
    (holds : ∀ position < problem.sizeOf .objValueOut,
      problem.valueAt memory .objValueOut position =
        problem.returned call .objValueOut position) :
    stageFx problem memory = problem.jacX.getD
      (.ofFn problem.dims.ny problem.dims.nx fun row col =>
        problem.returned call .objValueOut
          (problem.plan.layout.stageFx.getD 0 + (row * problem.dims.nx + col))) := by
  obtain ⟨_, _, fx_le, _⟩ := EvaluationLayout.derivatives_le problem
  have outputs := (@sizeOf_buffers α _ problem).2
  unfold stageFx Place.getD stageFxPlace Place.matrix
  cases known : problem.jacX with
  | some _ => rfl
  | none =>
      simp only [Option.getD_none]
      refine Matrix.ofFn_congr fun row row_lt col col_lt => holds _ ?_
      have present : ∃ start, problem.plan.layout.stageFx = some start := by
        simp [EvaluationLayout.ofProblem, known]
      obtain ⟨start, starts⟩ := present
      have inside := fx_le start (by simpa using starts)
      have row_le := block_le problem.dims.nx row_lt
      rw [starts, Option.getD_some]
      omega

variable (host : Host α σ problem.program.table.sizes) (depth : Nat)
  (world : problem.Recorded σ) {node : AffineIndex} {number : Nat}

/-- The evaluation of a node. -/
theorem returns_stage (wellFormed : problem.WellFormed) (value : frame.valueOf node = number)
    (number_lt : number < problem.dims.n) :
    let dims := problem.dims
    let after := effects (problem.program.scene host.recorded (depth + 1)) frame
      (problem.plan.loadNodeInput dims .objValueIn node true ++
        [problem.plan.evaluate .stageCost .objValueIn .objValueOut,
          problem.plan.copy .dy (node.scaled dims.ny) .objValueOut (.const 0) dims.ny] ++
        stageCalls problem problem.plan node) world
    ∃ call, problem.Moves (fun quantity position => ¬problem.Spares host quantity ∨
        stageShare problem number quantity position) [call] world after ∧
      StageReturns problem host number call after.store.memory := by
  intro dims after
  let scene := problem.program.scene host.recorded (depth + 1)
  obtain ⟨inputs, outputs⟩ := @sizeOf_buffers α _ problem
  obtain ⟨values_le, _⟩ := EvaluationLayout.derivatives_le problem
  let asked := effects scene frame
    (problem.plan.loadNodeInput dims .objValueIn node true ++
      [problem.plan.evaluate .stageCost .objValueIn .objValueOut]) world
  let copied := (problem.plan.copy .dy (node.scaled dims.ny) .objValueOut (.const 0)
    dims.ny).effect scene frame asked
  have after_eq : after = effects scene frame (stageCalls problem problem.plan node) copied := by
    simp only [after, effects_append, effects, copied, asked]
    rfl
  obtain ⟨call, meets, askedMoves, restored, holds⟩ :=
    @Problem.meets_node α σ _ problem host frame scene world rfl .stageCost .objValueIn
      .objValueOut node number value true (decide_eq_true number_lt) inputs (by decide) (by decide)
  have starts : frame.valueOf (node.scaled dims.ny) = number * dims.ny := by
    rw [Frame.valueOf_scaled, value]
  have residualRoom : number * dims.ny + dims.ny ≤ problem.sizeOf .dy := by
    rw [problem.sizeOf_eq Problem.shapeOf?_evaluation.2.2.2.2.1, Nat.mul_one]
    exact block_le dims.ny number_lt
  have copies : problem.Puts .dy (number * dims.ny) dims.ny
      (fun row => problem.valueAt asked.store.memory .objValueOut (0 + row)) asked copied := by
    have puts := @Problem.puts_copy α σ _ problem scene frame asked .dy .objValueOut
      (node.scaled dims.ny) (.const 0) dims.ny (starts ▸ residualRoom)
    rwa [starts] at puts
  have copiedMoves : problem.Moves (nodeShare problem number) [] asked copied :=
    copies.moves fun position start_le position_lt => ⟨dims.ny, rfl, start_le, position_lt⟩
  have notCopied (quantity : Quantity) (other : quantity = .objValueOut ∨ quantity = .w)
      (position : Nat) : ¬nodeShare problem number quantity position := by
    rcases other with rfl | rfl <;> rintro ⟨size, written, _⟩ <;> simp [stageSize?] at written
  obtain ⟨callsMoves, blocks⟩ := moves_stageCalls host depth copied wellFormed value number_lt
  have fx_eq : stageFx problem copied.store.memory = stageFx problem asked.store.memory :=
    Place.getD_eq _ copiedMoves.memory (notCopied .objValueOut (.inl rfl))
  have weight_eq : stageWeight problem copied.store.memory number =
      stageWeight problem call.after number :=
    (Place.getD_eq _ copiedMoves.memory (notCopied .w (.inr rfl))).trans
      (Place.getD_eq _ restored fun _ => by simp [stageWeightPlace])
  rw [after_eq]
  refine ⟨call, ?_, meets, fun _ row row_lt => ?_, fun _ computed => ?_⟩
  · refine (askedMoves.mono fun quantity _ touched => touched.imp_right ?_).trans
      ((copiedMoves.mono fun _ _ inside => .inr (.inr (.inr inside))).trans
        (callsMoves.mono fun _ _ inside => .inr (.inr (.inr inside.2))))
    exact fun buffer => buffer.imp_right .inl
  · rw [callsMoves.memory .dy _ fun here => here.1 rfl, copies.memory.inside row_lt, Nat.zero_add]
    exact holds row (by omega)
  · refine (blocks.states computed).2.trans ?_
    rw [fx_eq, weight_eq, stageFx_of_returned holds]
    rfl

/-- The evaluation of the stages, one after the other. -/
theorem returns_stages (wellFormed : problem.WellFormed) :
    let after := (Statement.loop nodeName 0 problem.dims.n (stageStatements problem)).effect
      (problem.program.scene host.recorded (depth + 1)) frame world
    ∃ stages, problem.Moves (fun quantity _ => ¬problem.Spares host quantity ∨
        (stageSize? problem quantity).isSome ∨ quantity = .objValueIn ∨ quantity = .objValueOut)
        stages world after ∧
      stages.length = problem.dims.n ∧ ∀ node < problem.dims.n, ∃ call,
        stages[node]? = some call ∧ StageReturns problem host node call after.store.memory := by
  rw [effect_loop]
  refine @Problem.moves_rounds_calls α σ _ problem world _ problem.dims.n _
    (fun round quantity position => ¬problem.Spares host quantity ∨
      stageShare problem round quantity position)
    (StageReturns problem host) ?_ ?_ ?_
  · rintro round _ quantity position (unspared | rfl | rfl | ⟨size, written, _⟩)
    · exact .inl unspared
    · exact .inr (.inr (.inl rfl))
    · exact .inr (.inr (.inr rfl))
    · exact .inr (.inl (Option.isSome_iff_exists.2 ⟨size, written⟩))
  · exact fun round later earlier _ call before after changes returns =>
      returns.of_changes changes fun _ _ => not_stageShare earlier
  · exact fun round round_lt before _ =>
      returns_stage host depth before wellFormed (Frame.valueOf_bind nodeName round) round_lt

/-- The evaluation of the terminal node. -/
theorem returns_terminal (wellFormed : problem.WellFormed) :
    let after := effects (problem.program.scene host.recorded (depth + 1)) frame
      (terminalStatements problem) world
    ∃ call, problem.Moves (fun quantity _ => ¬problem.Spares host quantity ∨
        terminalShare problem quantity) [call] world after ∧
      problem.Meets (terminalRequest problem) call ∧
      ∀ row < problem.dims.nyn, problem.valueAt after.store.memory .dyN row =
        problem.returned call .objValueOut row := by
  intro after
  let dims := problem.dims
  let scene := problem.program.scene host.recorded (depth + 1)
  obtain ⟨inputs, outputs⟩ := @sizeOf_buffers α _ problem
  obtain ⟨_, values_le, _⟩ := EvaluationLayout.derivatives_le problem
  let asked := effects scene frame
    (problem.plan.loadNodeInput dims .objValueIn (.const dims.n) false ++
      [problem.plan.evaluate .terminalCost .objValueIn .objValueOut]) world
  let copied := (Statement.set (problem.plan.whole .dyN)
    (.read (problem.plan.flat .objValueOut (.const 0) dims.nyn))).effect scene frame asked
  have after_eq : after = effects scene frame (terminalCall problem problem.plan) copied := by
    simp only [after, terminalStatements, effects_append, effects, copied, asked]
    rfl
  obtain ⟨call, meets, askedMoves, _, holds⟩ :=
    @Problem.meets_node α σ _ problem host frame scene world rfl .terminalCost .objValueIn
      .objValueOut (.const dims.n) dims.n rfl false (decide_eq_false (Nat.lt_irrefl dims.n)) inputs
      (by decide) (by decide)
  have shapeResidual : problem.shapeOf? .dyN = some (dims.nyn, 1) := by simp [dims]
  have shows := @Frame.valueIn_flat frame α _ problem asked.store .objValueOut (.const 0) dims.nyn
  have copies := @Problem.puts_whole α σ _ problem scene frame asked .dyN dims.nyn 1
    shapeResidual .set (.read (problem.plan.flat .objValueOut (.const 0) dims.nyn))
    (by rw [shows]; rfl)
  obtain ⟨blocksMoves, _⟩ :=
    @moves_terminalBlocks α σ _ problem frame host depth copied wellFormed
  rw [after_eq]
  refine ⟨call, (askedMoves.mono fun quantity _ touched => touched.imp_right ?_).trans
    ((copies.moves fun _ _ _ => .inr (.inr (.inr (.inl rfl)))).trans
      (blocksMoves.mono fun _ _ here => .inr (.inr (.inr (.inr here))))), meets,
    fun row row_lt => ?_⟩
  · exact fun buffer => buffer.imp_right .inl
  · have inside : row < dims.nyn * 1 := by rwa [Nat.mul_one]
    have copied_eq := copies.memory.inside inside
    rw [Nat.zero_add, shows] at copied_eq
    refine (blocksMoves.memory .dyN _ (by simp)).trans (copied_eq.trans ?_)
    refine (Problem.element_part _ _ inside).trans ?_
    rw [Frame.valueOf_const, Nat.zero_add]
    exact holds row (by omega)

/-- The evaluation of the objective. -/
theorem returns_evaluate (wellFormed : problem.WellFormed) :
    let after := (Statement.run evaluateName []).effect
      (problem.program.scene host.recorded (depth + 2)) frame world
    ∃ stages terminal, problem.Moves (fun quantity _ => ¬problem.Spares host quantity ∨
        share problem quantity) (stages ++ [terminal]) world after ∧
      Returns problem host stages terminal after.store.memory := by
  intro after
  let routine := evaluateRoutine problem problem.plan
  let started := world.update fun store =>
    store.push (routine.locals.map fun decl => Array.replicate decl.size 0)
  let inner := Frame.ofCall routine [] world.store.stack.size
  let scene := problem.program.scene host.recorded (depth + 1)
  let evaluated := (Statement.loop nodeName 0 problem.dims.n (stageStatements problem)).effect scene
    inner started
  have after_eq : after = (problem.program.perform host.recorded (depth + 2) routine [] world).2 :=
    Problem.effect_run Problem.mem_routines.2.1 [] world
  have body_eq : effects scene inner routine.body started =
      effects scene inner (terminalStatements problem) evaluated := by
    simp only [routine, body_evaluateRoutine, effects_append, effects_singleton]
    rfl
  obtain ⟨stages, stageMoves, count, held⟩ :=
    @returns_stages α σ _ problem inner host depth started wellFormed
  obtain ⟨terminal, terminalMoves, meets, residuals⟩ :=
    @returns_terminal α σ _ problem inner host depth evaluated wellFormed
  have moves : problem.Moves (fun quantity _ => ¬problem.Spares host quantity ∨
      share problem quantity) (stages ++ [terminal]) started
      (effects scene inner routine.body started) := by
    rw [body_eq]
    refine (stageMoves.mono fun _ _ touched => touched.imp_right ?_).trans
      (terminalMoves.mono fun _ _ touched => touched.imp_right .inr)
    rintro (written | rfl | rfl)
    · exact .inl written
    · exact .inr (.inl rfl)
    · exact .inr (.inr (.inl rfl))
  have returns : Returns problem host stages terminal
      (effects scene inner routine.body started).store.memory := by
    rw [body_eq]
    refine ⟨count, fun node node_lt => ?_, meets, fun _ => residuals⟩
    obtain ⟨call, place, stageReturns⟩ := held node node_lt
    exact ⟨call, place, stageReturns.of_changes terminalMoves.memory fun _ _ => not_terminalShare⟩
  rw [after_eq]
  exact ⟨stages, terminal, Problem.moves_perform moves, returns⟩

end Objective

end RtiAssembly
