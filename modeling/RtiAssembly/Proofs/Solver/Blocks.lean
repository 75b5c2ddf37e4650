import RtiAssembly.Proofs.Machine.OwnArrays
import RtiAssembly.Proofs.Number.Laws
import RtiAssembly.Proofs.Program.Safe
import RtiAssembly.Proofs.Program.Steps

/-!
# What the block routines compute

A block routine reads a derivative and a weighting, known or passed, and writes
a gradient block and a Hessian block.  What it writes is stated as a product of
the two matrices, wherever they come from.
-/

namespace RtiAssembly

open Statement

namespace Problem

variable {α σ : Type} [Scalar α] {problem : Problem α}
  {host : Host α σ problem.program.table.sizes} {depth : Nat} {frame : Frame}

/-! ## Calls of routines -/

/-- A call of a routine of the program performs the routine. -/
theorem effect_run {routine : Routine α} (mem : routine ∈ problem.program.routines)
    (arguments : List Argument) (world : World α σ problem.program.table.sizes) :
    (Statement.run routine.name arguments).effect (problem.program.scene host depth) frame world =
      (problem.program.perform host depth routine (arguments.map frame.bindingOf) world).2 := by
  simp only [Statement.run, effect_call, Option.elim_none, Scene.call, Scene.callRoutine,
    routine?_eq mem]

/-- What the body of a routine does to the module is what its call does. -/
theorem moves_perform {routine : Routine α} {bindings : List Binding}
    {host : Host α (σ × List (HostCall α problem.program.table.sizes))
      problem.program.table.sizes} {world : problem.Recorded σ}
    {region : Quantity → Nat → Prop} {calls : List (HostCall α problem.program.table.sizes)}
    (moves : let started := world.update fun store =>
        store.push (routine.locals.map fun decl => Array.replicate decl.size 0)
      problem.Moves region calls started
        (effects (problem.program.scene host depth)
          (Frame.ofCall routine bindings world.store.stack.size) routine.body started)) :
    problem.Moves region calls world
      (problem.program.perform host (depth + 1) routine bindings world).2 :=
  ⟨moves.record, moves.memory⟩

/-- The world in which the body of a routine without parameters starts. -/
def startOf (problem : Problem α) (routine : Routine α) (state : σ)
    (memory : problem.Contents) : problem.Recorded σ :=
  ⟨(Store.mk memory #[]).push
    (routine.locals.map fun decl => Array.replicate decl.size 0), (state, [])⟩

/-- The arrays of a routine's own keep their declared sizes while its body runs. -/
theorem size_own {routine : Routine α} {array : Nat} {decl : ArrayDecl α}
    (declared : routine.locals[array]? = some decl) {state : σ} {memory : problem.Contents}
    {world : problem.Recorded σ}
    (alike : world.store.Alike (problem.startOf routine state memory).store) :
    (world.store.content (.stack ((Frame.ofCall routine [] 0).height + array))).size =
      decl.size := by
  rw [alike.size_content]
  have own := ((Store.mk memory #[]).size_content_push
    (routine.locals.map fun decl => Array.replicate decl.size (0 : α))).2 array
  refine (congrArg Array.size own).trans ?_
  simp [List.getD_eq_getElem?_getD, declared]

/-- A run of a routine without parameters returns, and it does what its body
does. -/
theorem run_eq_effects {routine : Routine α} (mem : routine ∈ problem.program.routines)
    (parameters : routine.parameters = []) (safe : problem.program.Safe 3 routine)
    (host : Host α σ problem.program.table.sizes) (state : σ) (memory : problem.Contents) :
    ∃ depth,
      let frame := Frame.ofCall routine [] 0
      let ended := effects (problem.program.scene host.recorded (depth + 2)) frame routine.body
        (problem.startOf routine state memory)
      problem.program.run host state memory routine.name [] =
          ⟨.ok (routine.result.elim 0 fun position =>
              ended.store.read (frame.startOf (.vector (.own position) (.const 0) 1))),
            ended.store.memory, ended.state.1⟩ ∧
        problem.program.trace host state memory routine.name [] = ended.state.2 := by
  obtain ⟨depth, depth_eq⟩ := Nat.exists_eq_add_of_le' problem.three_le_callDepth
  have known := problem.routine?_eq mem
  have recorded := @Program.run_of_safe α _ _ _ _ host.recorded _ known parameters _ safe
    problem.three_le_callDepth (state, []) memory
  have erased := Program.run_recorded known parameters safe problem.three_le_callDepth host state
    memory
  rw [depth_eq, Program.perform_succ] at recorded
  refine ⟨depth, ?_, ?_⟩
  · rw [erased, recorded]
    rfl
  · rw [Program.trace, recorded]
    rfl

/-- A run of a routine that calls nothing leaves the host as it was. -/
theorem run_of_quiet {routine : Routine α} (mem : routine ∈ problem.program.routines)
    (parameters : routine.parameters = []) (safe : problem.program.Safe 1 routine)
    (quiet : callsOf routine.body = []) (host : Host α σ problem.program.table.sizes) (state : σ)
    (memory : problem.Contents) :
    ∃ depth,
      let frame := Frame.ofCall routine [] 0
      let ended := effects (problem.program.scene host.recorded (depth + 2)) frame routine.body
        (problem.startOf routine state memory)
      problem.program.run host state memory routine.name [] =
          ⟨.ok (routine.result.elim 0 fun position =>
              ended.store.read (frame.startOf (.vector (.own position) (.const 0) 1))),
            ended.store.memory, state⟩ ∧
        problem.program.trace host state memory routine.name [] = [] := by
  obtain ⟨depth, run_eq, trace_eq⟩ := problem.run_eq_effects mem parameters
    (safe.mono (by omega)) host state memory
  have state_eq := @state_effects α _ _ _
    (problem.program.scene host.recorded (depth + 2)) (Frame.ofCall routine [] 0) routine.body
    (quiet ▸ List.forall_mem_nil _) (problem.startOf routine state memory)
  refine ⟨depth, run_eq.trans ?_, trace_eq.trans (congrArg Prod.snd state_eq)⟩
  rw [state_eq]
  rfl

/-- A run of the preparation integrates, evaluates the objective and then the constraints,
and returns what the integration has left of its own scalar. -/
theorem run_preparation_eq (wellFormed : problem.WellFormed)
    (host : Host α σ problem.program.table.sizes) (state : σ) (memory : problem.Contents) :
    ∃ depth,
      let scene := problem.program.scene host.recorded (depth + 2)
      let frame := Frame.ofCall (Phases.preparationRoutine : Routine α) [] 0
      let simulated := (Statement.invoke .modelSimulation [] (some (Phases.ownScalar 0))).effect
        scene frame (problem.startOf Phases.preparationRoutine state memory)
      let evaluated := (Statement.run Objective.evaluateName []).effect scene frame simulated
      let ended := (Statement.run Constraints.evaluateName []).effect scene frame evaluated
      problem.program.run host state memory Phases.preparationName [] =
          ⟨.ok (frame.ownAt ended.store 0 0), ended.store.memory, ended.state.1⟩ ∧
        problem.program.trace host state memory Phases.preparationName [] = ended.state.2 := by
  obtain ⟨_, _, _, _, _, _, prepares, _⟩ := @mem_routines α _ problem
  obtain ⟨depth, run_eq, trace_eq⟩ := problem.run_eq_effects prepares rfl
    (safe_preparation wellFormed) host state memory
  let scene := problem.program.scene host.recorded (depth + 2)
  let frame := Frame.ofCall (Phases.preparationRoutine : Routine α) [] 0
  let started := problem.startOf Phases.preparationRoutine state memory
  let simulated := (Statement.invoke .modelSimulation [] (some (Phases.ownScalar 0))).effect scene
    frame started
  let evaluated := (Statement.run Objective.evaluateName []).effect scene frame simulated
  have ended_eq : effects scene frame (Phases.preparationRoutine : Routine α).body started =
      (Statement.run Constraints.evaluateName []).effect scene frame evaluated := by
    simp only [Phases.preparationRoutine, effects]
    rfl
  have reads (world : problem.Recorded σ) :
      (Phases.preparationRoutine : Routine α).result.elim 0 (fun position =>
        world.store.read (frame.startOf (.vector (.own position) (.const 0) 1))) =
      frame.ownAt world.store 0 0 := rfl
  rw [ended_eq, reads] at run_eq
  rw [ended_eq] at trace_eq
  exact ⟨depth, run_eq, trace_eq⟩

end Problem

/-! ## Matrices of a block routine -/

namespace Objective

variable {α σ : Type} [Scalar α] {problem : Problem α} {frame : Frame}

/-- A matrix that is known or bound to a part of a quantity. -/
theorem valueIn_known {store : Store α problem.program.table.sizes}
    {known : Option (Matrix α)} {position rows cols start : Nat} {quantity : Quantity}
    (bound : known = none → frame.bindings[position]? =
      some (.array ⟨.global (problem.plan.id quantity), start⟩)) :
    let expr : Expr α :=
      known.elim (.read (.dense (.parameter position) (.const 0) rows cols)) .known
    let value := known.getD (problem.part store.memory quantity start rows cols)
    frame.valueIn store expr = value ∧ frame.valueIn store expr.transpose = value.transpose := by
  cases known with
  | some matrix => exact ⟨rfl, rfl⟩
  | none =>
      have shows := @Frame.shown_eq_part frame α _ problem store _ _ _ _ _ _
        (Frame.startOf_parameter (bound rfl) rows cols)
      exact ⟨shows, Frame.shown_transpose.trans (congrArg Matrix.transpose shows)⟩

theorem valueIn_damped (store : Store α problem.program.table.sizes) (value : Expr α)
    (amount : α) {size : Nat} (rows_eq : (frame.valueIn store value).rows = size) :
    frame.valueIn store (damped value size amount) =
      (frame.valueIn store value).shifted amount := by
  unfold damped Matrix.shifted
  subst rows_eq
  split <;> rfl

section Blocks

variable {depth : Nat} {world : problem.Recorded σ}

/-- Where a matrix of a block routine lies if it is passed. -/
structure Place where
  quantity : Quantity
  start : Nat

/-- The binding of a parameter to a place. -/
def Place.binding (place : Place) (problem : Problem α) : Binding :=
  .array ⟨.global (problem.plan.id place.quantity), place.start⟩

/-- The matrix of given shape at a place. -/
def Place.matrix (place : Place) (problem : Problem α) (memory : problem.Contents)
    (rows cols : Nat) : Matrix α :=
  problem.part memory place.quantity place.start rows cols

/-- The elements of a matrix at a place. -/
def Place.Covers (place : Place) (count : Nat) (quantity : Quantity) (position : Nat) : Prop :=
  quantity = place.quantity ∧ place.start ≤ position ∧ position < place.start + count

/-- A matrix of a block routine: known, or found at a place. -/
def Place.getD (place : Place) (problem : Problem α) (known : Option (Matrix α))
    (memory : problem.Contents) (rows cols : Nat) : Matrix α :=
  known.getD (place.matrix problem memory rows cols)

theorem Place.shape_getD (place : Place) {known : Option (Matrix α)} {rows cols : Nat}
    (shapeKnown : ∀ matrix ∈ known, matrix.shape = (rows, cols)) (memory : problem.Contents) :
    (place.getD problem known memory rows cols).shape = (rows, cols) := by
  cases known with
  | none => rfl
  | some matrix => exact shapeKnown matrix rfl

theorem Place.getD_eq (place : Place) {known : Option (Matrix α)} {rows cols : Nat}
    {region : Quantity → Nat → Prop} {before after : problem.Contents}
    (changes : problem.Changes region before after)
    (outside : ∀ position, ¬region place.quantity position) :
    place.getD problem known after rows cols = place.getD problem known before rows cols :=
  congrArg known.getD (changes.part_eq fun position _ _ => outside position)

/-- The binding of the parameter for a matrix that is not known. -/
def Place.bindings (place : Place) (problem : Problem α) (known : Option (Matrix α)) :
    List Binding :=
  if known.isNone then [place.binding problem] else []

/-- A step that writes the product of the transposed derivative with the
weighting, and from it the Hessian block. -/
structure FormsBlocks (problem : Problem α) (hessian gradient : Place) (rows cols : Nat)
    (jacobian weight : Matrix α) (damping : α) (before after : problem.Recorded σ) : Prop where
  moves : problem.Moves (fun quantity position =>
    gradient.Covers (cols * rows) quantity position ∨
      hessian.Covers (cols * cols) quantity position) [] before after
  gradient_eq : gradient.matrix problem after.store.memory cols rows =
    jacobian.transpose.mul weight
  hessian_eq : hessian.matrix problem after.store.memory cols cols =
    ((jacobian.transpose.mul weight).mul jacobian).shifted damping

/-- A step that writes the cross block. -/
structure FormsCross (problem : Problem α) (cross : Place) (jacX jacU weight : Matrix α)
    (before after : problem.Recorded σ) : Prop where
  moves : problem.Moves (cross.Covers (problem.dims.nx * problem.dims.nu)) [] before after
  cross_eq : cross.matrix problem after.store.memory problem.dims.nx problem.dims.nu =
    (jacX.transpose.mul weight).mul jacU

/-- A matrix that is stored at a place is found there. -/
theorem Place.puts_set (scene : Scene α (σ × List (HostCall α problem.program.table.sizes))
      problem.program.table.sizes) {target : Place} {position rows cols : Nat}
    (bound : frame.bindings[position]? = some (target.binding problem))
    (room : target.start + rows * cols ≤ problem.sizeOf target.quantity)
    {value : Expr α} {matrix : Matrix α} (value_eq : frame.valueIn world.store value = matrix)
    (shape_eq : matrix.shape = (rows, cols)) :
    let after := (Statement.set (.dense (.parameter position) (.const 0) rows cols) value).effect
      scene frame world
    problem.Puts target.quantity target.start (rows * cols) matrix.element world after ∧
      target.matrix problem after.store.memory rows cols = matrix := by
  subst value_eq
  intro after
  have puts : problem.Puts target.quantity target.start (rows * cols)
      (frame.valueIn world.store value).element world after :=
    Problem.puts_assign (Frame.startOf_parameter bound rows cols) room .set shape_eq
  exact ⟨puts, puts.memory.part_self shape_eq⟩

/-- A matrix that is stored in an array of the routine's own is found there, and the
module is left as it was. -/
theorem shows_setOwn (scene : Scene α (σ × List (HostCall α problem.program.table.sizes))
      problem.program.table.sizes) (position : Nat) {rows cols : Nat}
    (room : rows * cols ≤ (world.store.content (.stack (frame.height + position))).size)
    {value : Expr α} {matrix : Matrix α} (value_eq : frame.valueIn world.store value = matrix)
    (shape_eq : matrix.shape = (rows, cols)) :
    let window := Window.dense (.own position) (.const 0) rows cols
    let after := (Statement.set window value).effect scene frame world
    after.store.memory = world.store.memory ∧ after.state = world.state ∧
      frame.shown after.store window = matrix := by
  intro window after
  have after_eq : after = world.update fun store =>
      store.combine ⟨.stack (frame.height + position), 0⟩ window .set matrix := by
    simp only [after, Statement.set]
    rw [effect]
    exact World.update_congr (congrArg (world.store.combine _ window .set) value_eq)
  rw [after_eq]
  refine ⟨Store.memory_combine_stack _ _ _ _ _ _, rfl, ?_⟩
  exact Frame.shown_combine rfl (by rwa [Nat.zero_add]) shape_eq

/-- The statements of a block routine. -/
theorem effects_blocks {scene : Scene α (σ × List (HostCall α problem.program.table.sizes))
      problem.program.table.sizes} {jacobian weight : Option (Matrix α)} {rows cols : Nat}
    {jacobianPlace weightPlace hessian gradient : Place} {weightPosition position : Nat}
    (shapeJacobian : ∀ matrix ∈ jacobian, matrix.shape = (rows, cols))
    (shapeWeight : ∀ matrix ∈ weight, matrix.shape = (rows, rows))
    (jacobianBound : jacobian = none → frame.bindings[0]? = some (jacobianPlace.binding problem))
    (weightBound : weight = none →
      frame.bindings[weightPosition]? = some (weightPlace.binding problem))
    (hessianBound : frame.bindings[position]? = some (hessian.binding problem))
    (gradientBound : frame.bindings[position + 1]? = some (gradient.binding problem))
    (apart : jacobianPlace.quantity ≠ gradient.quantity ∧ gradient.quantity ≠ hessian.quantity)
    (gradientRoom : gradient.start + cols * rows ≤ problem.sizeOf gradient.quantity)
    (hessianRoom : hessian.start + cols * cols ≤ problem.sizeOf hessian.quantity)
    {damping : α} {body : List (Statement α)}
    (body_eq :
      let jacobianExpr : Expr α :=
        jacobian.elim (.read (.dense (.parameter 0) (.const 0) rows cols)) .known
      let weightExpr : Expr α :=
        weight.elim (.read (.dense (.parameter weightPosition) (.const 0) rows rows)) .known
      let gradientWindow := Window.dense (.parameter (position + 1)) (.const 0) cols rows
      body =
        [.set gradientWindow (.mul jacobianExpr.transpose weightExpr),
          .set (.dense (.parameter position) (.const 0) cols cols)
            (damped (.mul (.read gradientWindow) jacobianExpr) cols damping)]) :
    FormsBlocks problem hessian gradient rows cols
      (jacobianPlace.getD problem jacobian world.store.memory rows cols)
      (weightPlace.getD problem weight world.store.memory rows rows) damping world
      (effects scene frame body world) := by
  let jacobianExpr : Expr α :=
    jacobian.elim (.read (.dense (.parameter 0) (.const 0) rows cols)) .known
  let weightExpr : Expr α :=
    weight.elim (.read (.dense (.parameter weightPosition) (.const 0) rows rows)) .known
  let gradientWindow := Window.dense (.parameter (position + 1)) (.const 0) cols rows
  let jacobianValue := jacobianPlace.getD problem jacobian world.store.memory rows cols
  let gradientValue := jacobianValue.transpose.mul
    (weightPlace.getD problem weight world.store.memory rows rows)
  have shapeValue : jacobianValue.shape = (rows, cols) := jacobianPlace.shape_getD shapeJacobian _
  have jacobianCols : jacobianValue.cols = cols := congrArg Prod.snd shapeValue
  have weightCols : (weightPlace.getD problem weight world.store.memory rows rows).cols = rows :=
    congrArg Prod.snd (weightPlace.shape_getD shapeWeight world.store.memory)
  have shapeGradient : gradientValue.shape = (cols, rows) := Prod.ext jacobianCols weightCols
  have gradientEq : frame.valueIn world.store (.mul jacobianExpr.transpose weightExpr) =
      gradientValue :=
    congrArg₂ Matrix.mul (valueIn_known jacobianBound).2 (valueIn_known weightBound).1
  let first := (Statement.set gradientWindow (.mul jacobianExpr.transpose weightExpr)).effect
    scene frame world
  obtain ⟨firstPuts, gradientHolds⟩ := Place.puts_set scene gradientBound gradientRoom
    gradientEq shapeGradient
  have jacobianKept : jacobianPlace.getD problem jacobian first.store.memory rows cols =
      jacobianValue :=
    congrArg jacobian.getD (firstPuts.memory.part_other apart.1 _ _ _)
  let product : Expr α := .mul (.read gradientWindow) jacobianExpr
  have productEq : frame.valueIn first.store product = gradientValue.mul jacobianValue := by
    have shows := @Frame.shown_eq_part frame α _ problem first.store _ _ _ _ _ _
      (Frame.startOf_parameter gradientBound cols rows)
    rw [← jacobianKept]
    exact congrArg₂ Matrix.mul (shows.trans gradientHolds) (valueIn_known jacobianBound).1
  have hessianEq : frame.valueIn first.store (damped product cols damping) =
      (gradientValue.mul jacobianValue).shifted damping := by
    rw [← productEq]
    exact valueIn_damped first.store product damping (productEq ▸ jacobianCols)
  have shapeHessian : ((gradientValue.mul jacobianValue).shifted damping).shape = (cols, cols) := by
    rw [Matrix.shape_shifted]
    exact Prod.ext jacobianCols jacobianCols
  obtain ⟨secondPuts, hessianHolds⟩ := Place.puts_set scene hessianBound hessianRoom
    hessianEq shapeHessian
  rw [body_eq, effects, effects_singleton]
  refine ⟨?_, ?_, hessianHolds⟩
  · exact (firstPuts.moves fun _ le lt => .inl ⟨rfl, le, lt⟩).trans
      (secondPuts.moves fun _ le lt => .inr ⟨rfl, le, lt⟩)
  · exact (secondPuts.memory.part_other apart.2 _ _ _).trans gradientHolds

variable (host : Host α σ problem.program.table.sizes) (depth) (world)

/-- A call of a block routine forms its blocks. -/
theorem forms_blockCall {names : BlockNames} {jacobian weight : Option (Matrix α)}
    {rows cols : Nat} {damping : α}
    (mem : blockRoutine names damping rows cols jacobian weight ∈ problem.program.routines)
    (shapeJacobian : ∀ matrix ∈ jacobian, matrix.shape = (rows, cols))
    (shapeWeight : ∀ matrix ∈ weight, matrix.shape = (rows, rows))
    {jacobianPlace weightPlace hessian gradient : Place} {arguments : List Argument}
    (bound : arguments.map frame.bindingOf = jacobianPlace.bindings problem jacobian ++
      weightPlace.bindings problem weight ++ [hessian.binding problem, gradient.binding problem])
    (apart : jacobianPlace.quantity ≠ gradient.quantity ∧ gradient.quantity ≠ hessian.quantity)
    (gradientRoom : gradient.start + cols * rows ≤ problem.sizeOf gradient.quantity)
    (hessianRoom : hessian.start + cols * cols ≤ problem.sizeOf hessian.quantity) :
    FormsBlocks problem hessian gradient rows cols
      (jacobianPlace.getD problem jacobian world.store.memory rows cols)
      (weightPlace.getD problem weight world.store.memory rows rows) damping world
      ((Statement.run names.routine arguments).effect
        (problem.program.scene host.recorded (depth + 1)) frame world) := by
  let routine := blockRoutine names damping rows cols jacobian weight
  let bindings := arguments.map frame.bindingOf
  let started := world.update fun store =>
    store.push (routine.locals.map fun decl => Array.replicate decl.size 0)
  let inner := Frame.ofCall routine bindings world.store.stack.size
  let jacobianCount := if jacobian.isNone then 1 else 0
  let weightCount := if weight.isNone then 1 else 0
  have jacobianBound : jacobian = none →
      inner.bindings[0]? = some (jacobianPlace.binding problem) := by
    rintro rfl
    change (arguments.map frame.bindingOf)[0]? = _
    rw [bound]
    rfl
  have weightBound : weight = none →
      inner.bindings[jacobianCount]? = some (weightPlace.binding problem) := by
    rintro rfl
    change (arguments.map frame.bindingOf)[jacobianCount]? = _
    rw [bound]
    cases jacobian <;> rfl
  have blocksBound :
      inner.bindings[jacobianCount + weightCount]? = some (hessian.binding problem) ∧
        inner.bindings[jacobianCount + weightCount + 1]? = some (gradient.binding problem) := by
    change (arguments.map frame.bindingOf)[_]? = _ ∧ (arguments.map frame.bindingOf)[_]? = _
    rw [bound]
    cases jacobian <;> cases weight <;> exact ⟨rfl, rfl⟩
  have written := blockRoutine_eq names damping rows cols jacobian weight
  have forms := @effects_blocks α σ _ problem inner started
    (problem.program.scene host.recorded depth) jacobian weight rows cols jacobianPlace
    weightPlace hessian gradient jacobianCount (jacobianCount + weightCount) shapeJacobian
    shapeWeight jacobianBound weightBound blocksBound.1 blocksBound.2 apart gradientRoom
    hessianRoom damping routine.body (congrArg Routine.body written)
  have name_eq : names.routine = routine.name := (congrArg Routine.name written).symm
  rw [name_eq, Problem.effect_run mem]
  exact ⟨Problem.moves_perform forms.moves, forms.gradient_eq, forms.hessian_eq⟩

/-- The statements of the cross routine keep the product of the transposed
derivative with the weighting in an array of their own. -/
theorem effects_cross {scene : Scene α (σ × List (HostCall α problem.program.table.sizes))
      problem.program.table.sizes} (wellFormed : problem.WellFormed)
    {jacXPlace jacUPlace weightPlace cross : Place} {jacUPosition weightPosition position : Nat}
    (jacXBound : problem.jacX = none → frame.bindings[0]? = some (jacXPlace.binding problem))
    (jacUBound : problem.jacU = none →
      frame.bindings[jacUPosition]? = some (jacUPlace.binding problem))
    (weightBound : problem.weight = none →
      frame.bindings[weightPosition]? = some (weightPlace.binding problem))
    (crossBound : frame.bindings[position]? = some (cross.binding problem))
    (ownRoom : (world.store.content (.stack frame.height)).size =
      problem.dims.nx * problem.dims.ny)
    (crossRoom : cross.start + problem.dims.nx * problem.dims.nu ≤
      problem.sizeOf cross.quantity)
    {body : List (Statement α)}
    (body_eq :
      let dims := problem.dims
      let product := Window.dense (.own 0) (.const 0) dims.nx dims.ny
      let jacX : Expr α :=
        problem.jacX.elim (.read (.dense (.parameter 0) (.const 0) dims.ny dims.nx)) .known
      let jacU : Expr α :=
        problem.jacU.elim
          (.read (.dense (.parameter jacUPosition) (.const 0) dims.ny dims.nu)) .known
      let weight : Expr α :=
        problem.weight.elim
          (.read (.dense (.parameter weightPosition) (.const 0) dims.ny dims.ny)) .known
      body =
        [.set product (.mul jacX.transpose weight),
          .set (.dense (.parameter position) (.const 0) dims.nx dims.nu)
            (.mul (.read product) jacU)]) :
    FormsCross problem cross
      (jacXPlace.getD problem problem.jacX world.store.memory problem.dims.ny problem.dims.nx)
      (jacUPlace.getD problem problem.jacU world.store.memory problem.dims.ny problem.dims.nu)
      (weightPlace.getD problem problem.weight world.store.memory problem.dims.ny
        problem.dims.ny)
      world (effects scene frame body world) := by
  let dims := problem.dims
  let memory := world.store.memory
  let jacX := jacXPlace.getD problem problem.jacX memory dims.ny dims.nx
  let jacU := jacUPlace.getD problem problem.jacU memory dims.ny dims.nu
  let weight := weightPlace.getD problem problem.weight memory dims.ny dims.ny
  have jacXCols : jacX.cols = dims.nx :=
    congrArg Prod.snd (jacXPlace.shape_getD wellFormed.shape_jacX memory)
  have jacUCols : jacU.cols = dims.nu :=
    congrArg Prod.snd (jacUPlace.shape_getD wellFormed.shape_jacU memory)
  have weightCols : weight.cols = dims.ny :=
    congrArg Prod.snd (weightPlace.shape_getD wellFormed.shape_weight memory)
  have shapeProduct : (jacX.transpose.mul weight).shape = (dims.nx, dims.ny) :=
    Prod.ext jacXCols weightCols
  have shapeCross : ((jacX.transpose.mul weight).mul jacU).shape = (dims.nx, dims.nu) :=
    Prod.ext jacXCols jacUCols
  let product := Window.dense (.own 0) (.const 0) dims.nx dims.ny
  let jacXExpr : Expr α :=
    problem.jacX.elim (.read (.dense (.parameter 0) (.const 0) dims.ny dims.nx)) .known
  let jacUExpr : Expr α :=
    problem.jacU.elim (.read (.dense (.parameter jacUPosition) (.const 0) dims.ny dims.nu)) .known
  let weightExpr : Expr α :=
    problem.weight.elim
      (.read (.dense (.parameter weightPosition) (.const 0) dims.ny dims.ny)) .known
  let first := (Statement.set product (.mul jacXExpr.transpose weightExpr)).effect scene frame
    world
  have productEq : frame.valueIn world.store (.mul jacXExpr.transpose weightExpr) =
      jacX.transpose.mul weight :=
    congrArg₂ Matrix.mul (valueIn_known jacXBound).2 (valueIn_known weightBound).1
  obtain ⟨kept, sameState, shows⟩ := shows_setOwn scene 0 ownRoom.ge
    productEq shapeProduct
  have crossEq : frame.valueIn first.store (.mul (.read product) jacUExpr) =
      (jacX.transpose.mul weight).mul jacU := by
    have known : frame.valueIn first.store jacUExpr =
        jacUPlace.getD problem problem.jacU first.store.memory dims.ny dims.nu :=
      (valueIn_known jacUBound).1
    rw [kept] at known
    exact congrArg₂ Matrix.mul shows known
  obtain ⟨puts, crossHolds⟩ := Place.puts_set scene crossBound crossRoom crossEq
    shapeCross
  have stays : problem.Moves (cross.Covers (dims.nx * dims.nu)) [] world first :=
    ⟨(congrArg Prod.snd sameState).trans (List.append_nil _).symm, fun _ _ _ => by rw [kept]⟩
  rw [body_eq, effects, effects_singleton]
  exact ⟨stays.trans (puts.moves fun _ le lt => ⟨rfl, le, lt⟩), crossHolds⟩

/-- A call of the cross routine forms the cross block. -/
theorem forms_crossCall (wellFormed : problem.WellFormed)
    (mem : crossRoutine problem ∈ problem.program.routines)
    {jacXPlace jacUPlace weightPlace cross : Place} {arguments : List Argument}
    (bound : arguments.map frame.bindingOf = jacXPlace.bindings problem problem.jacX ++
      jacUPlace.bindings problem problem.jacU ++ weightPlace.bindings problem problem.weight ++
      [cross.binding problem])
    (crossRoom : cross.start + problem.dims.nx * problem.dims.nu ≤
      problem.sizeOf cross.quantity) :
    FormsCross problem cross
      (jacXPlace.getD problem problem.jacX world.store.memory problem.dims.ny problem.dims.nx)
      (jacUPlace.getD problem problem.jacU world.store.memory problem.dims.ny problem.dims.nu)
      (weightPlace.getD problem problem.weight world.store.memory problem.dims.ny
        problem.dims.ny)
      world ((Statement.run crossName arguments).effect
        (problem.program.scene host.recorded (depth + 1)) frame world) := by
  let routine := crossRoutine problem
  let started := world.update fun store =>
    store.push (routine.locals.map fun decl => Array.replicate decl.size 0)
  let inner := Frame.ofCall routine (arguments.map frame.bindingOf) world.store.stack.size
  let jacXCount := if problem.jacX.isNone then 1 else 0
  let jacUCount := if problem.jacU.isNone then 1 else 0
  let weightCount := if problem.weight.isNone then 1 else 0
  have jacXBound : problem.jacX = none →
      inner.bindings[0]? = some (jacXPlace.binding problem) := by
    intro runtime
    change (arguments.map frame.bindingOf)[0]? = _
    rw [bound, runtime]
    rfl
  have jacUBound : problem.jacU = none →
      inner.bindings[jacXCount]? = some (jacUPlace.binding problem) := by
    intro runtime
    change (arguments.map frame.bindingOf)[jacXCount]? = _
    rw [bound, runtime]
    simp only [jacXCount]
    cases problem.jacX <;> rfl
  have weightBound : problem.weight = none →
      inner.bindings[jacXCount + jacUCount]? = some (weightPlace.binding problem) := by
    intro runtime
    change (arguments.map frame.bindingOf)[jacXCount + jacUCount]? = _
    rw [bound, runtime]
    simp only [jacXCount, jacUCount]
    cases problem.jacX <;> cases problem.jacU <;> rfl
  have crossBound :
      inner.bindings[jacXCount + jacUCount + weightCount]? = some (cross.binding problem) := by
    change (arguments.map frame.bindingOf)[jacXCount + jacUCount + weightCount]? = _
    rw [bound]
    simp only [jacXCount, jacUCount, weightCount]
    cases problem.jacX <;> cases problem.jacU <;> cases problem.weight <;> rfl
  have written := crossRoutine_eq problem
  have ownRoom : (started.store.content (.stack inner.height)).size =
      problem.dims.nx * problem.dims.ny := by
    have locals_eq : routine.locals =
        [.own "tmpS2" problem.dims.nx problem.dims.ny .real] := congrArg Routine.locals written
    simp [started, inner, World.update, Store.push, Store.content, Frame.ofCall, locals_eq,
      ArrayDecl.own, ArrayDecl.size]
  have forms := @effects_cross α σ _ problem inner started
    (problem.program.scene host.recorded depth) wellFormed jacXPlace jacUPlace weightPlace cross
    jacXCount (jacXCount + jacUCount) (jacXCount + jacUCount + weightCount) jacXBound jacUBound
    weightBound crossBound ownRoom crossRoom routine.body (congrArg Routine.body written)
  have name_eq : crossName = routine.name := (congrArg Routine.name written).symm
  rw [name_eq, Problem.effect_run mem]
  exact ⟨Problem.moves_perform forms.moves, forms.cross_eq⟩

end Blocks

end Objective

end RtiAssembly
