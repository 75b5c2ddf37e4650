import RtiAssembly.Proofs.Assembly.Constraints
import RtiAssembly.Proofs.Solver.Blocks
import RtiAssembly.Proofs.Solver.Nodes

/-!
# What the evaluation of the constraints computes

The box bounds end up as the configured bounds minus the trajectory, and every
affine row as a configured bound minus a value of a constraint function on its
node.  The path constraint is evaluated on all nodes before its rows are
written; a point constraint writes its rows at once.
-/

namespace RtiAssembly

open Statement

namespace Constraints

variable {α σ : Type} [Scalar α] {problem : Problem α} {frame : Frame}

/-! ## Rows -/

/-- Consecutive affine rows hold the configured bounds minus given values. -/
structure RowsHold (problem : Problem α) (start : problem.Contents) (offset dim : Nat)
    (value : Nat → α) (memory : problem.Contents) : Prop where
  lower : ∀ row < dim, problem.valueAt memory .qpLbA (offset + row) =
    problem.valueAt start .lbAValues (offset + row) - value row
  upper : ∀ row < dim, problem.valueAt memory .qpUbA (offset + row) =
    problem.valueAt start .ubAValues (offset + row) - value row

/-- Consecutive rows of the affine bounds. -/
def InRows (offset dim : Nat) (quantity : Quantity) (position : Nat) : Prop :=
  (quantity = .qpLbA ∨ quantity = .qpUbA) ∧ offset ≤ position ∧ position < offset + dim

theorem RowsHold.of_changes {start before after : problem.Contents} {offset dim : Nat}
    {value : Nat → α} {region : Quantity → Nat → Prop}
    (held : RowsHold problem start offset dim value before)
    (changes : problem.Changes region before after)
    (outside : ∀ quantity position, InRows offset dim quantity position →
      ¬region quantity position) :
    RowsHold problem start offset dim value after where
  lower row row_lt :=
    (changes .qpLbA _ (outside _ _ ⟨.inl rfl, Nat.le_add_right _ _,
      Nat.add_lt_add_left row_lt _⟩)).trans (held.lower row row_lt)
  upper row row_lt :=
    (changes .qpUbA _ (outside _ _ ⟨.inr rfl, Nat.le_add_right _ _,
      Nat.add_lt_add_left row_lt _⟩)).trans (held.upper row row_lt)

/-- Rows refer to the configured bounds and to the values only. -/
theorem RowsHold.of_before {start before memory : problem.Contents} {offset dim : Nat}
    {value same : Nat → α} {region : Quantity → Nat → Prop}
    (held : RowsHold problem before offset dim value memory)
    (changes : problem.Changes region start before)
    (outside : ∀ position, ¬region .lbAValues position ∧ ¬region .ubAValues position)
    (values_eq : ∀ row < dim, value row = same row) :
    RowsHold problem start offset dim same memory where
  lower row row_lt := by
    rw [held.lower row row_lt, changes .lbAValues _ (outside _).1, values_eq row row_lt]
  upper row row_lt := by
    rw [held.upper row row_lt, changes .ubAValues _ (outside _).2, values_eq row row_lt]

/-- The quantities that the evaluation of the constraints may change. -/
def share : Quantity → Prop
  | .qpLb | .qpUb | .qpLbA | .qpUbA | .conValueIn | .conValueOut | .pacEvH | .pacEvHx | .pacEvHu
  | .pocEvH | .pocEvHx | .pocEvHu => True
  | _ => False

/-- What the path constraint and the point constraints may change of them. -/
def affineShare (quantity : Quantity) : Prop :=
  share quantity ∧ quantity ≠ .qpLb ∧ quantity ≠ .qpUb

/-- What the evaluation of a constraint on a node leaves behind in its rows,
given the memory before it and its call. -/
structure SegmentHolds (problem : Problem α) (name : String) (node offset dim : Nat)
    (start : problem.Contents) (call : HostCall α problem.program.table.sizes)
    (memory : problem.Contents) : Prop where
  asks : problem.Asks (.constraint name) start node call
  rows : RowsHold problem start offset dim (fun row => call.leaves 1 row) memory

namespace SegmentHolds

variable {name : String} {node offset dim : Nat} {start before memory : problem.Contents}
  {call : HostCall α problem.program.table.sizes}

theorem of_changes {region : Quantity → Nat → Prop}
    (held : SegmentHolds problem name node offset dim start call before)
    (changes : problem.Changes region before memory)
    (outside : ∀ quantity position, InRows offset dim quantity position →
      ¬region quantity position) :
    SegmentHolds problem name node offset dim start call memory :=
  ⟨held.asks, held.rows.of_changes changes outside⟩

/-- What constraints change does not matter to the segments of others. -/
theorem of_before (held : SegmentHolds problem name node offset dim before call memory)
    (changes : problem.Changes (fun quantity _ => share quantity) start before) :
    SegmentHolds problem name node offset dim start call memory :=
  ⟨held.asks.of_changes changes fun _ => ⟨id, id, id⟩,
    held.rows.of_before changes (fun _ => ⟨id, id⟩) fun _ _ => rfl⟩

end SegmentHolds

theorem affineShare_of_inRows {offset dim : Nat} {quantity : Quantity} {position : Nat}
    (inside : InRows offset dim quantity position) : affineShare quantity := by
  rcases inside.1 with rfl | rfl <;> exact ⟨trivial, by decide, by decide⟩

omit [Scalar α] in
/-- The rows of the path constraint on a node belong to it. -/
theorem InRows.owns_path {path : PathConstraint α} (known : problem.path = some path) {node : Nat}
    (node_lt : node < problem.dims.n) {quantity : Quantity} {position : Nat}
    (inside : InRows (problem.affineOffset node) path.dim quantity position) :
    problem.Owns (.path node) position :=
  ⟨node_lt, inside.2.1, (pathDim_of_path known).symm ▸ inside.2.2⟩

omit [Scalar α] in
/-- The rows of a point constraint belong to it. -/
theorem InRows.owns_point {node : Nat} {point : PointConstraint α}
    (mem : (node, point) ∈ problem.points.entries) {quantity : Quantity} {position : Nat}
    (inside : InRows (problem.pointOffset node) point.dim quantity position) :
    problem.Owns (.point node) position :=
  ⟨point, NodeMap.get?_of_mem mem, inside.2⟩

/-! ## Buffers -/

/-- The buffers of the constraints. -/
theorem sizeOf_buffers (present : problem.hasConstraints = true) :
    problem.sizeOf .conValueIn = problem.dims.nx + problem.dims.nu + problem.dims.nod ∧
      problem.sizeOf .conValueOut = Quantity.constraintWidth problem := by
  have shapeIn : problem.shapeOf? .conValueIn =
      some (1, problem.dims.nx + problem.dims.nu + problem.dims.nod) := by simp [present]
  have shapeOut : problem.shapeOf? .conValueOut = some (1, Quantity.constraintWidth problem) := by
    simp [present]
  rw [problem.sizeOf_eq shapeIn, problem.sizeOf_eq shapeOut, Nat.one_mul, Nat.one_mul]
  exact ⟨rfl, rfl⟩

section Steps

variable {scene : Scene α (σ × List (HostCall α problem.program.table.sizes))
    problem.program.table.sizes} {world : problem.Recorded σ}

/-- Derivatives go to the rows of their constraint. -/
theorem moves_derivative {target : Quantity} {count cols rows row start : Nat}
    {first : AffineIndex} (shape : problem.shapeOf? target = some (count, cols))
    (starts : frame.valueOf first = row) (room : row + rows ≤ count) :
    problem.Moves (fun quantity _ => quantity = target) [] world
      ((Statement.set (problem.plan.rows target first rows)
        (.read (problem.plan.dense .conValueOut (.const start) rows cols))).effect scene frame
          world) := by
  have puts := @Problem.puts_rows α σ _ problem scene frame world target count cols rows row
    first shape starts room .set (.read (problem.plan.dense .conValueOut (.const start) rows cols))
    rfl
  exact puts.moves fun _ _ _ => rfl

/-- Both sides of consecutive affine rows, written as configured bounds minus
stored values. -/
theorem sides_step {values : Quantity} {offset second : AffineIndex} {start behind dim : Nat}
    {lower upper : Expr α} (starts : frame.valueOf offset = start)
    (value : frame.valueOf second = behind) (room : start + dim ≤ problem.affineDim)
    (different : values ≠ .qpLbA)
    (lower_eq : ∀ store : Store α problem.program.table.sizes,
      frame.valueIn store lower = problem.part store.memory .lbAValues start dim 1)
    (upper_eq : ∀ store : Store α problem.program.table.sizes,
      frame.valueIn store upper = problem.part store.memory .ubAValues start dim 1) :
    let after := effects scene frame
      [.set (problem.plan.flat .qpLbA offset dim)
          (.sub lower (.read (problem.plan.flat values second dim))),
        .set (problem.plan.flat .qpUbA offset dim)
          (.sub upper (.read (problem.plan.flat values second dim)))] world
    problem.Moves (InRows start dim) [] world after ∧
      RowsHold problem world.store.memory start dim
        (fun row => problem.valueAt world.store.memory values (behind + row))
        after.store.memory := by
  have lowerRoom : start + dim ≤ problem.sizeOf .qpLbA := by
    rw [problem.sizeOf_eq Problem.shapeOf?_quadraticProgram.2.2.2.2.2.2.2.1, Nat.mul_one]
    exact Nat.le_trans room (Nat.le_max_left _ _)
  have upperRoom : start + dim ≤ problem.sizeOf .qpUbA := by
    rw [problem.sizeOf_eq Problem.shapeOf?_quadraticProgram.2.2.2.2.2.2.2.2.1, Nat.mul_one]
    exact Nat.le_trans room (Nat.le_max_left _ _)
  let lowered := (Statement.set (problem.plan.flat .qpLbA offset dim)
    (.sub lower (.read (problem.plan.flat values second dim)))).effect scene frame world
  let raised := (Statement.set (problem.plan.flat .qpUbA offset dim)
    (.sub upper (.read (problem.plan.flat values second dim)))).effect scene frame lowered
  have lowerPuts : problem.Puts .qpLbA start dim _ world lowered :=
    Problem.puts_sub starts lowerRoom (lower_eq _) value
  have upperPuts : problem.Puts .qpUbA start dim _ lowered raised :=
    Problem.puts_sub starts upperRoom (upper_eq _) value
  intro after
  have after_eq : after = raised := by
    simp only [after, effects]
    rfl
  rw [after_eq]
  refine ⟨?_, fun row row_lt => ?_, fun row row_lt => ?_⟩
  · exact (lowerPuts.moves fun _ le lt => ⟨.inl rfl, le, lt⟩).trans
      (upperPuts.moves fun _ le lt => ⟨.inr rfl, le, lt⟩)
  · have other : Quantity.qpLbA ≠ .qpUbA := by decide
    exact (upperPuts.memory.other other _).trans (lowerPuts.memory.inside row_lt)
  · have configured : Quantity.ubAValues ≠ .qpLbA := by decide
    refine (upperPuts.memory.inside row_lt).trans ?_
    rw [lowerPuts.memory.other configured, lowerPuts.memory.other different]

end Steps

/-! ## The path constraint -/

section Path

variable {path : PathConstraint α}

/-- The elements that the evaluation of the path constraint on a node may
change. -/
def pathShare (path : PathConstraint α) (node : Nat) (quantity : Quantity) (position : Nat) :
    Prop :=
  quantity = .conValueIn ∨ quantity = .conValueOut ∨ quantity = .pacEvHx ∨ quantity = .pacEvHu ∨
    quantity = .pacEvH ∧ node * path.dim ≤ position ∧ position < node * path.dim + path.dim

/-- What is stored as a value of the path constraint on a node. -/
def pathValue (problem : Problem α) (path : PathConstraint α) (memory : problem.Contents)
    (node row : Nat) : α :=
  problem.valueAt memory .pacEvH (node * path.dim + row)

/-- The values of the path constraint on a node, given the memory before. -/
structure PathValues (problem : Problem α) (path : PathConstraint α) (start : problem.Contents)
    (node : Nat) (call : HostCall α problem.program.table.sizes) (memory : problem.Contents) :
    Prop where
  asks : problem.Asks (.constraint path.name) start node call
  values : ∀ row < path.dim, pathValue problem path memory node row = call.leaves 1 row

theorem PathValues.of_changes {start before after : problem.Contents} {node : Nat}
    {call : HostCall α problem.program.table.sizes} {region : Quantity → Nat → Prop}
    (held : PathValues problem path start node call before)
    (changes : problem.Changes region before after)
    (outside : ∀ position, node * path.dim ≤ position →
      position < node * path.dim + path.dim → ¬region .pacEvH position) :
    PathValues problem path start node call after where
  asks := held.asks
  values row row_lt :=
    (changes .pacEvH _ (outside _ (Nat.le_add_right _ _) (Nat.add_lt_add_left row_lt _))).trans
      (held.values row row_lt)

variable {host : Host α σ problem.program.table.sizes}
  {scene : Scene α (σ × List (HostCall α problem.program.table.sizes))
    problem.program.table.sizes} {world : problem.Recorded σ} {node : AffineIndex} {number : Nat}

/-- A derivative of the path constraint is kept unless it is given. -/
theorem moves_pathDerivative {target : Quantity} {cols start : Nat}
    (shape : problem.plan.has target = true →
      problem.shapeOf? target = some (problem.dims.n * path.dim, cols))
    (value : frame.valueOf node = number) (number_lt : number < problem.dims.n) :
    problem.Moves (fun quantity _ => quantity = target) [] world
      (effects scene frame
        (if problem.plan.has target then
          [.set (problem.plan.rows target (node.scaled path.dim) path.dim)
            (.read (problem.plan.dense .conValueOut (.const start) path.dim cols))] else [])
        world) := by
  by_cases present : problem.plan.has target = true
  · rw [if_pos present, effects_singleton]
    refine moves_derivative (shape present) ?_ (block_le path.dim number_lt)
    rw [Frame.valueOf_scaled, value]
  · rw [if_neg present, effects]
    exact .refl world

/-- The evaluation of the path constraint on a node. -/
theorem path_step (known : problem.path = some path) (records : scene.host = host.recorded)
    (tame : problem.Tame host) (value : frame.valueOf node = number)
    (number_lt : number < problem.dims.n) :
    let after := effects scene frame (pathStage problem problem.plan path node) world
    ∃ call, problem.Moves (pathShare path number) [call] world after ∧
      PathValues problem path world.store.memory number call after.store.memory := by
  intro after
  let dims := problem.dims
  have present : problem.hasConstraints = true := by simp [Problem.hasConstraints, known]
  obtain ⟨inputs, outputs⟩ := sizeOf_buffers present
  have width := Problem.outputWidth_le known
  have dim_eq := pathDim_of_path known
  have shapeValues : problem.shapeOf? .pacEvH = some (problem.dims.n * path.dim, 1) := by
    simp [known, dim_eq]
  have valuesRoom : number * path.dim + path.dim ≤ problem.sizeOf .pacEvH := by
    rw [problem.sizeOf_eq shapeValues, Nat.mul_one]
    exact block_le path.dim number_lt
  have outputsRoom : path.dim ≤ problem.sizeOf .conValueOut := by
    rw [outputs]
    unfold PathConstraint.outputWidth at width
    omega
  let asked := effects scene frame
    (problem.plan.loadNodeInput dims .conValueIn node true ++
      [problem.plan.evaluate (.constraint path.name) .conValueIn .conValueOut,
        problem.plan.copy .pacEvH (node.scaled path.dim) .conValueOut (.const 0) path.dim]) world
  obtain ⟨call, asks, moves, _, values⟩ : ∃ call,
      problem.Asks (.constraint path.name) world.store.memory number call ∧
        problem.Moves (fun quantity position => quantity = .conValueIn ∨
          quantity = .conValueOut ∨ quantity = .pacEvH ∧ number * path.dim ≤ position ∧
            position < number * path.dim + path.dim) [call] world asked ∧
        (∀ position < problem.sizeOf .conValueOut,
          problem.valueAt asked.store.memory .conValueOut position = call.leaves 1 position) ∧
        ∀ row < path.dim, problem.valueAt asked.store.memory .pacEvH (number * path.dim + row) =
          call.leaves 1 row := by
    have asks := @Problem.asks_values α σ _ problem host scene frame world records
      (.constraint path.name) (tame.constraint path.name) .conValueIn .conValueOut .pacEvH node
      (node.scaled path.dim) number (number * path.dim) path.dim value inputs
      (by decide) (by decide) (by rw [Frame.valueOf_scaled, value]) valuesRoom outputsRoom
      (by decide)
    rwa [decide_eq_true number_lt] at asks
  let controlStart := if problem.plan.has .pacEvHx then path.dim + path.dim * dims.nx else path.dim
  let derivative (target : Quantity) (start cols : Nat) : List (Statement α) :=
    if problem.plan.has target then
      [.set (problem.plan.rows target (node.scaled path.dim) path.dim)
        (.read (problem.plan.dense .conValueOut (.const start) path.dim cols))]
    else []
  let first := effects scene frame (derivative .pacEvHx path.dim dims.nx) asked
  let second := effects scene frame (derivative .pacEvHu controlStart dims.nu) first
  have firstMoves : problem.Moves (fun quantity _ => quantity = .pacEvHx) [] asked first := by
    refine moves_pathDerivative (fun runtime => ?_) value number_lt
    simp [known] at runtime
    simp [known, dim_eq, runtime, dims]
  have secondMoves : problem.Moves (fun quantity _ => quantity = .pacEvHu) [] first second := by
    refine moves_pathDerivative (fun runtime => ?_) value number_lt
    simp [known] at runtime
    simp [known, dim_eq, runtime, dims]
  have after_eq : after = second := by
    simp only [after, pathStage, effects_append, second, first, asked]
    rfl
  rw [after_eq]
  refine ⟨call, ?_, asks, fun row row_lt => ?_⟩
  · refine (moves.mono ?_).trans ((firstMoves.mono ?_).trans (secondMoves.mono ?_))
    · rintro _ _ (rfl | rfl | here)
      · exact .inl rfl
      · exact .inr (.inl rfl)
      · exact .inr (.inr (.inr (.inr here)))
    · exact fun _ _ here => .inr (.inr (.inl here))
    · exact fun _ _ here => .inr (.inr (.inr (.inl here)))
  · rw [pathValue, secondMoves.memory .pacEvH _ (by decide),
      firstMoves.memory .pacEvH _ (by decide)]
    exact values row row_lt

/-- The rows of the path constraint on a node, written from its values. -/
theorem bounds_step (host : Host α σ problem.program.table.sizes) (depth : Nat)
    (world : problem.Recorded σ) (wellFormed : problem.WellFormed)
    (known : problem.path = some path) (number_lt : number < problem.dims.n) :
    let offset := problem.affineOffset number
    let memory := world.store.memory
    let after := (pathBoundsCall problem problem.plan path number).effect
      (problem.program.scene host.recorded (depth + 1)) frame world
    problem.Moves (InRows offset path.dim) [] world after ∧
      RowsHold problem memory offset path.dim (pathValue problem path memory number)
        after.store.memory := by
  intro offset memory after
  let routine := pathBoundsRoutine problem problem.plan path
  let arguments : List Argument :=
    [.index (.const offset), .index (.const number),
      problem.plan.passFlat .lbAValues (.const offset) path.dim,
      problem.plan.passFlat .ubAValues (.const offset) path.dim]
  let started := world.update fun store =>
    store.push (routine.locals.map fun decl => Array.replicate decl.size 0)
  let inner := Frame.ofCall routine (arguments.map frame.bindingOf) world.store.stack.size
  have offset_eq : inner.valueOf (.var "offset") = offset := by
    simp [inner, routine, arguments, pathBoundsRoutine, Frame.ofCall, Frame.valueOf,
      Frame.bindingOf, Binding.index?, Plan.passFlat, List.lookup]
  have index_eq : inner.valueOf ((AffineIndex.var "ind").scaled path.dim) =
      number * path.dim := by
    rw [Frame.valueOf_scaled]
    simp [inner, routine, arguments, pathBoundsRoutine, Frame.ofCall, Frame.valueOf,
      Frame.bindingOf, Binding.index?, Plan.passFlat]
  have rows := pathRows_le wellFormed number_lt
  rw [pathDim_of_path known] at rows
  have shows {position : Nat} {configured : Quantity}
      (bound : inner.bindings[position]? =
        some (.array ⟨.global (problem.plan.id configured), offset⟩))
      (store : Store α problem.program.table.sizes) :
      inner.valueIn store (.read (.dense (.parameter position) (.const 0) path.dim 1)) =
        problem.part store.memory configured offset path.dim 1 :=
    Frame.shown_eq_part (Frame.startOf_parameter bound path.dim 1)
  have lowerBound : inner.bindings[2]? =
      some (.array ⟨.global (problem.plan.id .lbAValues), offset⟩) :=
    congrArg (some ∘ Binding.array) (Frame.startOf_global _ _ _ _)
  have upperBound : inner.bindings[3]? =
      some (.array ⟨.global (problem.plan.id .ubAValues), offset⟩) :=
    congrArg (some ∘ Binding.array) (Frame.startOf_global _ _ _ _)
  have values : Quantity.pacEvH ≠ .qpLbA := by decide
  obtain ⟨moves, rowsHold⟩ := @sides_step α σ _ problem inner
    (problem.program.scene host.recorded depth) started .pacEvH (.var "offset")
    ((AffineIndex.var "ind").scaled path.dim) offset (number * path.dim) path.dim
    (.read (.dense (.parameter 2) (.const 0) path.dim 1))
    (.read (.dense (.parameter 3) (.const 0) path.dim 1)) offset_eq index_eq rows values
    (shows lowerBound) (shows upperBound)
  have after_eq : after = (problem.program.perform host.recorded (depth + 1) routine
      (arguments.map frame.bindingOf) world).2 :=
    Problem.effect_run (Problem.mem_routines.2.2.2.1 path known) arguments world
  rw [after_eq]
  exact ⟨Problem.moves_perform moves, rowsHold⟩

omit [Scalar α] in
theorem affineShare_of_pathShare {node : Nat} {quantity : Quantity} {position : Nat}
    (inside : pathShare path node quantity position) : affineShare quantity := by
  rcases inside with rfl | rfl | rfl | rfl | ⟨rfl, _⟩ <;> exact ⟨trivial, by decide, by decide⟩

/-- The evaluation of the path constraint on all nodes. -/
theorem holds_pathStages (known : problem.path = some path) (tame : problem.Tame host)
    (records : scene.host = host.recorded) :
    let after := (Statement.loop nodeName 0 problem.dims.n
      (pathStage problem problem.plan path (.var nodeName))).effect scene frame world
    ∃ calls, problem.Moves (fun quantity _ => affineShare quantity) calls world after ∧
      calls.length = problem.dims.n ∧ ∀ node < problem.dims.n, ∃ call,
        calls[node]? = some call ∧
          PathValues problem path world.store.memory node call after.store.memory := by
  rw [effect_loop]
  refine @Problem.moves_rounds_calls α σ _ problem world _ problem.dims.n _ (pathShare path)
    (PathValues problem path world.store.memory) (fun _ _ _ _ => affineShare_of_pathShare) ?_ ?_
  · intro round later earlier _ call before after changes held
    refine held.of_changes changes fun position _ position_lt => ?_
    have before_le : (round + 1) * path.dim ≤ later * path.dim :=
      Nat.mul_le_mul_right path.dim earlier
    rw [Nat.add_mul, Nat.one_mul] at before_le
    rintro (_ | _ | _ | _ | ⟨_, later_le, _⟩) <;> try contradiction
    omega
  · intro round round_lt before changes
    obtain ⟨call, moves, asks, values⟩ := path_step known records tame
      (Frame.valueOf_bind nodeName round) round_lt
    exact ⟨call, moves, asks.of_changes changes fun _ => ⟨And.left, And.left, And.left⟩, values⟩

/-- The rows of the path constraint on all nodes, written from its values. -/
theorem holds_pathBounds (host : Host α σ problem.program.table.sizes) (depth : Nat)
    (world : problem.Recorded σ) (wellFormed : problem.WellFormed)
    (known : problem.path = some path) :
    let memory := world.store.memory
    let after := effects (problem.program.scene host.recorded (depth + 1)) frame
      ((List.range problem.dims.n).map (pathBoundsCall problem problem.plan path)) world
    problem.Moves (fun quantity _ => quantity = .qpLbA ∨ quantity = .qpUbA) [] world after ∧
      ∀ node < problem.dims.n, RowsHold problem memory (problem.affineOffset node) path.dim
        (pathValue problem path memory node) after.store.memory := by
  intro memory
  rw [effects_map_range]
  refine @Problem.moves_rounds_quiet α σ _ problem world _ problem.dims.n _
    (fun node => InRows (problem.affineOffset node) path.dim)
    (fun node => RowsHold problem memory (problem.affineOffset node) path.dim
      (pathValue problem path memory node))
    (fun _ _ _ _ inside => inside.1) ?_ ?_
  · intro node later earlier later_lt before between changes held
    refine held.of_changes changes fun _ _ inside touched => ?_
    have same := Problem.owner_unique wellFormed
      (inside.owns_path known (Nat.lt_trans earlier later_lt)) (touched.owns_path known later_lt)
    exact absurd (Problem.RowOwner.path.inj same) (Nat.ne_of_lt earlier)
  · intro node node_lt before changes
    obtain ⟨moves, rows⟩ := @bounds_step α σ _ problem frame path node host depth before
      wellFormed known
      node_lt
    exact ⟨moves, rows.of_before changes (fun _ => ⟨by simp, by simp⟩)
      fun row _ => changes .pacEvH _ (by simp)⟩

/-- The path constraint over the horizon. -/
theorem holds_path (host : Host α σ problem.program.table.sizes) (depth : Nat)
    (world : problem.Recorded σ) (wellFormed : problem.WellFormed)
    (known : problem.path = some path) (tame : problem.Tame host) :
    let after := effects (problem.program.scene host.recorded (depth + 1)) frame
      (pathPart problem problem.plan path) world
    ∃ calls, problem.Moves (fun quantity _ => affineShare quantity) calls world after ∧
      calls.length = problem.dims.n ∧ ∀ node < problem.dims.n, ∃ call,
        calls[node]? = some call ∧
          SegmentHolds problem path.name node (problem.affineOffset node) path.dim
            world.store.memory call after.store.memory := by
  intro after
  let scene := problem.program.scene host.recorded (depth + 1)
  let evaluated := (Statement.loop nodeName 0 problem.dims.n
    (pathStage problem problem.plan path (.var nodeName))).effect scene frame world
  obtain ⟨calls, moves, count, values⟩ : ∃ calls,
      problem.Moves (fun quantity _ => affineShare quantity) calls world evaluated ∧
        calls.length = problem.dims.n ∧ ∀ node < problem.dims.n, ∃ call,
          calls[node]? = some call ∧
            PathValues problem path world.store.memory node call evaluated.store.memory :=
    holds_pathStages known tame rfl
  have present : problem.plan.has .lbAValues = true := by
    obtain ⟨dim_le, dim_pos⟩ := affineDim_pos_of_path wellFormed known
    have affine_pos : 0 < problem.affineDim := Nat.lt_of_lt_of_le dim_pos dim_le
    simp [affine_pos]
  have after_eq : after = effects scene frame
      ((List.range problem.dims.n).map (pathBoundsCall problem problem.plan path)) evaluated := by
    simp only [after, pathPart, if_pos present, effects_append, effects_singleton]
    rfl
  obtain ⟨boundMoves, rows⟩ := @holds_pathBounds α σ _ problem frame path host depth evaluated
    wellFormed
    known
  rw [after_eq]
  refine ⟨calls, ?_, count, fun node node_lt => ?_⟩
  · rw [← List.append_nil calls]
    refine moves.trans (boundMoves.mono ?_)
    rintro _ _ (rfl | rfl) <;> exact ⟨trivial, by decide, by decide⟩
  · obtain ⟨call, place, holdsCall⟩ := values node node_lt
    exact ⟨call, place, holdsCall.asks,
      (rows node node_lt).of_before moves.memory (fun _ => ⟨And.left, And.left⟩)
        holdsCall.values⟩

end Path

/-! ## Point constraints -/

section Points

variable {point : PointConstraint α} {host : Host α σ problem.program.table.sizes}
  {scene : Scene α (σ × List (HostCall α problem.program.table.sizes))
    problem.program.table.sizes} {world : problem.Recorded σ}

/-- The elements that the evaluation of a point constraint may change. -/
def pointShare (problem : Problem α) (entry : Nat × PointConstraint α) (quantity : Quantity)
    (position : Nat) : Prop :=
  quantity = .conValueIn ∨ quantity = .conValueOut ∨ quantity = .pocEvH ∨ quantity = .pocEvHx ∨
    quantity = .pocEvHu ∨
      InRows (problem.pointOffset entry.1) entry.2.dim quantity position

omit [Scalar α] in
theorem affineShare_of_pointShare {entry : Nat × PointConstraint α} {quantity : Quantity}
    {position : Nat} (inside : pointShare problem entry quantity position) :
    affineShare quantity := by
  rcases inside with rfl | rfl | rfl | rfl | rfl | inside
  · exact ⟨trivial, by decide, by decide⟩
  · exact ⟨trivial, by decide, by decide⟩
  · exact ⟨trivial, by decide, by decide⟩
  · exact ⟨trivial, by decide, by decide⟩
  · exact ⟨trivial, by decide, by decide⟩
  · exact affineShare_of_inRows inside

omit [Scalar α] in
/-- Of the affine bounds, a point constraint changes its rows only. -/
theorem InRows.of_pointShare {entry : Nat × PointConstraint α} {quantity : Quantity}
    {position : Nat} (inside : pointShare problem entry quantity position)
    (bound : quantity = .qpLbA ∨ quantity = .qpUbA) :
    InRows (problem.pointOffset entry.1) entry.2.dim quantity position := by
  rcases inside with rfl | rfl | rfl | rfl | rfl | inside
  · simp at bound
  · simp at bound
  · simp at bound
  · simp at bound
  · simp at bound
  · exact inside

/-- The values of a point constraint fit where they come from and where they are kept. -/
theorem rooms_point {row node : Nat} (wellFormed : problem.WellFormed)
    (mem : (node, point) ∈ problem.points.entries) (room : row + point.dim ≤ problem.pointDim) :
    0 < problem.pointDim ∧ point.dim ≤ problem.sizeOf .conValueOut ∧
      row + point.dim ≤ problem.sizeOf .pocEvH := by
  obtain ⟨_, outputs⟩ := sizeOf_buffers (Problem.hasConstraints_of_mem mem)
  have fitting : point.Fits problem.dims node := wellFormed.point_fits _ mem
  have points_pos : 0 < problem.pointDim :=
    Nat.lt_of_lt_of_le fitting.dim_pos (Nat.le_trans (Nat.le_add_left _ _) room)
  refine ⟨points_pos, ?_, ?_⟩
  · have width := Problem.width_le mem
    have outputs_pos : 0 < Validation.outputsPerRow problem.dims node := by
      unfold Validation.outputsPerRow
      split <;> omega
    rw [fitting.width_eq] at width
    rw [outputs]
    exact Nat.le_trans (Nat.le_mul_of_pos_right point.dim outputs_pos) width
  · have shape : problem.shapeOf? .pocEvH = some (problem.pointDim, 1) := by simp [points_pos]
    rw [problem.sizeOf_eq shape, Nat.mul_one]
    exact room

/-- The derivatives of a point constraint are kept apart from its values. -/
theorem moves_pointDerivatives {row node : Nat} (points_pos : 0 < problem.pointDim)
    (room : row + point.dim ≤ problem.pointDim) (world : problem.Recorded σ) :
    let dims := problem.dims
    let dim := point.dim
    let derivative (target : Quantity) (start cols : Nat) : Statement α :=
      .set (problem.plan.rows target (.const row) dim)
        (.read (problem.plan.dense .conValueOut (.const start) dim cols))
    problem.Moves (fun quantity _ => quantity = .pocEvHx ∨ quantity = .pocEvHu) [] world
      (effects scene frame (derivative .pocEvHx dim dims.nx ::
        if node < dims.n then [derivative .pocEvHu (dim + dim * dims.nx) dims.nu] else [])
        world) := by
  intro dims dim derivative
  have keeps {target : Quantity} {start cols : Nat} (between : problem.Recorded σ)
      (shape : problem.shapeOf? target = some (problem.pointDim, cols)) :
      problem.Moves (fun quantity _ => quantity = target) [] between
        ((derivative target start cols).effect scene frame between) :=
    moves_derivative shape rfl room
  have first : problem.Moves (fun quantity _ => quantity = .pocEvHx) [] world
      ((derivative .pocEvHx dim dims.nx).effect scene frame world) :=
    keeps world (by simp [points_pos, dims])
  rw [effects]
  split
  · rw [effects_singleton]
    exact (first.mono fun _ _ here => .inl here).trans
      ((keeps _ (by simp [points_pos, dims])).mono fun _ _ here => .inr here)
  · exact first.mono fun _ _ here => .inl here

/-- The evaluation of a point constraint. -/
theorem point_step {row node : Nat} (wellFormed : problem.WellFormed)
    (mem : (node, point) ∈ problem.points.entries) (room : row + point.dim ≤ problem.pointDim)
    (tame : problem.Tame host) (records : scene.host = host.recorded) :
    let after := effects scene frame (pointPart problem problem.plan row node point) world
    ∃ call, problem.Moves (pointShare problem (node, point)) [call] world after ∧
      SegmentHolds problem point.name node (problem.pointOffset node) point.dim
        world.store.memory call after.store.memory := by
  intro after
  let dims := problem.dims
  let dim := point.dim
  obtain ⟨inputs, _⟩ := sizeOf_buffers (Problem.hasConstraints_of_mem mem)
  obtain ⟨points_pos, outputsRoom, valuesRoom⟩ := rooms_point wellFormed mem room
  have fitting : point.Fits dims node := wellFormed.point_fits _ mem
  have rows := wellFormed.affineRows_le fitting.node_le
  rw [Problem.pointRowsOf_of_mem mem] at rows
  let asked := effects scene frame
    (problem.plan.loadNodeInput dims .conValueIn (.const node) (decide (node < dims.n)) ++
      [problem.plan.evaluate (.constraint point.name) .conValueIn .conValueOut,
        problem.plan.copy .pocEvH (.const row) .conValueOut (.const 0) dim]) world
  obtain ⟨call, asks, moves, _, values⟩ := @Problem.asks_values α σ _ problem host scene frame
    world records (.constraint point.name) (tame.constraint point.name) .conValueIn .conValueOut
    .pocEvH (.const node) (.const row) node row dim rfl inputs (by decide) (by decide) rfl
    valuesRoom outputsRoom (by decide)
  change problem.Moves _ [call] world asked at moves
  let derivative (target : Quantity) (start cols : Nat) : Statement α :=
    .set (problem.plan.rows target (.const row) dim)
      (.read (problem.plan.dense .conValueOut (.const start) dim cols))
  let derived := effects scene frame (derivative .pocEvHx dim dims.nx ::
    if node < dims.n then [derivative .pocEvHu (dim + dim * dims.nx) dims.nu] else []) asked
  have derivedMoves : problem.Moves
      (fun quantity _ => quantity = .pocEvHx ∨ quantity = .pocEvHu) [] asked derived :=
    moves_pointDerivatives points_pos room asked
  have different : Quantity.pocEvH ≠ .qpLbA := by decide
  obtain ⟨sidesMoves, sides⟩ := @sides_step α σ _ problem frame scene derived .pocEvH
    (.const (problem.pointOffset node)) (.const row) (problem.pointOffset node) row dim
    (.read (problem.plan.flat .lbAValues (.const (problem.pointOffset node)) dim))
    (.read (problem.plan.flat .ubAValues (.const (problem.pointOffset node)) dim)) rfl rfl
    rows different (fun _ => Frame.valueIn_flat) (fun _ => Frame.valueIn_flat)
  have after_eq : after = effects scene frame
      [.set (problem.plan.flat .qpLbA (.const (problem.pointOffset node)) dim)
          (.sub (.read (problem.plan.flat .lbAValues (.const (problem.pointOffset node)) dim))
            (.read (problem.plan.flat .pocEvH (.const row) dim))),
        .set (problem.plan.flat .qpUbA (.const (problem.pointOffset node)) dim)
          (.sub (.read (problem.plan.flat .ubAValues (.const (problem.pointOffset node)) dim))
            (.read (problem.plan.flat .pocEvH (.const row) dim)))] derived := by
    simp only [after, pointPart, effects_append, effects_singleton, derived, asked]
    simp only [effects, effect]
    rfl
  have evaluated : problem.Moves (fun quantity _ => quantity = .conValueIn ∨
      quantity = .conValueOut ∨ quantity = .pocEvH ∨ quantity = .pocEvHx ∨ quantity = .pocEvHu)
      [call] world derived := by
    refine (moves.mono ?_).trans (derivedMoves.mono ?_)
    · rintro _ _ (rfl | rfl | ⟨rfl, _⟩) <;> simp
    · exact fun _ _ here => .inr (.inr (.inr here))
  rw [after_eq]
  refine ⟨call, (evaluated.mono ?_).trans (sidesMoves.mono ?_), asks,
    sides.of_before evaluated.memory (fun _ => ⟨by simp, by simp⟩) fun index index_lt => ?_⟩
  · rintro _ _ (rfl | rfl | rfl | rfl | rfl) <;> simp [pointShare]
  · exact fun _ _ inside => .inr (.inr (.inr (.inr (.inr inside))))
  · rw [derivedMoves.memory .pocEvH _ (by decide)]
    exact values index index_lt

/-- The evaluation of point constraints, one after the other. -/
theorem holds_points (wellFormed : problem.WellFormed) (tame : problem.Tame host)
    (records : scene.host = host.recorded) (entries : List (Nat × PointConstraint α)) (row : Nat)
    (world : problem.Recorded σ) (belong : ∀ entry ∈ entries, entry ∈ problem.points.entries)
    (ascending : entries.Pairwise fun first second => first.1 < second.1)
    (room : row + (entries.map fun entry => entry.2.dim).sum ≤ problem.pointDim) :
    let after := effects scene frame (pointParts problem problem.plan row entries) world
    ∃ calls, problem.Moves
        (fun quantity position => ∃ entry ∈ entries, pointShare problem entry quantity position)
        calls world after ∧
      ∀ entry ∈ entries, ∃ call ∈ calls,
        SegmentHolds problem entry.2.name entry.1 (problem.pointOffset entry.1) entry.2.dim
          world.store.memory call after.store.memory := by
  induction entries generalizing row world with
  | nil =>
      simp only [pointParts, effects]
      exact ⟨[], .refl world, List.forall_mem_nil _⟩
  | cons entry rest ih =>
      obtain ⟨node, point⟩ := entry
      rw [List.pairwise_cons] at ascending
      simp only [List.map_cons, List.sum_cons] at room
      have mem := belong (node, point) List.mem_cons_self
      simp only [pointParts, effects_append]
      let between := effects scene frame (pointPart problem problem.plan row node point) world
      obtain ⟨call, moves, held⟩ : ∃ call,
          problem.Moves (pointShare problem (node, point)) [call] world between ∧
            SegmentHolds problem point.name node (problem.pointOffset node) point.dim
              world.store.memory call between.store.memory :=
        point_step wellFormed mem (by omega) tame records
      obtain ⟨calls, restMoves, restHeld⟩ := ih (row + point.dim) between
        (fun other later => belong other (List.mem_cons_of_mem _ later)) ascending.2 (by omega)
      have shared := moves.memory.mono fun _ _ inside => (affineShare_of_pointShare inside).1
      refine ⟨call :: calls, ?_, fun other listed => ?_⟩
      · refine (moves.mono fun _ _ inside => ?_).trans (restMoves.mono ?_)
        · exact ⟨_, List.mem_cons_self, inside⟩
        · rintro _ _ ⟨other, later, inside⟩
          exact ⟨other, List.mem_cons_of_mem _ later, inside⟩
      · rcases List.mem_cons.1 listed with rfl | later
        · refine ⟨call, List.mem_cons_self, held.of_changes restMoves.memory ?_⟩
          rintro quantity position inside ⟨other, later, touched⟩
          have rows := InRows.of_pointShare touched inside.1
          have same := Problem.owner_unique wellFormed (inside.owns_point mem)
            (rows.owns_point (belong other (List.mem_cons_of_mem _ later)))
          exact absurd (Problem.RowOwner.point.inj same) (Nat.ne_of_lt (ascending.1 _ later))
        · obtain ⟨made, inside, holdsMade⟩ := restHeld other later
          exact ⟨made, List.mem_cons_of_mem _ inside, holdsMade.of_before shared⟩

end Points

/-! ## Box bounds -/

section Box

variable (problem)

/-- One side of the box bounds holds the configured bounds minus the trajectory:
the controls of all intervals, then the states behind the initial one. -/
structure SideHolds (target configured : Quantity) (start memory : problem.Contents) : Prop where
  controls : ∀ row < problem.dims.n * problem.dims.nu, problem.valueAt memory target row =
    problem.valueAt start configured row - problem.valueAt start .u row
  states : ∀ row < problem.dims.n * problem.dims.nx,
    problem.valueAt memory target (problem.dims.n * problem.dims.nu + row) =
      problem.valueAt start configured (problem.dims.n * problem.dims.nu + row) -
        problem.valueAt start .x (problem.dims.nx + row)

variable {problem}

namespace SideHolds

variable {target configured : Quantity} {start before after : problem.Contents}
  {region : Quantity → Nat → Prop}

theorem of_changes (held : SideHolds problem target configured start before)
    (changes : problem.Changes region before after)
    (outside : ∀ position, ¬region target position) :
    SideHolds problem target configured start after where
  controls row row_lt := (changes target _ (outside _)).trans (held.controls row row_lt)
  states row row_lt := (changes target _ (outside _)).trans (held.states row row_lt)

/-- A side refers to the configured bounds and to the trajectory only. -/
theorem of_before (held : SideHolds problem target configured before after)
    (changes : problem.Changes region start before)
    (outside : ∀ position,
      ¬region configured position ∧ ¬region .u position ∧ ¬region .x position) :
    SideHolds problem target configured start after where
  controls row row_lt := by
    rw [held.controls row row_lt, changes configured _ (outside _).1,
      changes .u _ (outside _).2.1]
  states row row_lt := by
    rw [held.states row row_lt, changes configured _ (outside _).1, changes .x _ (outside _).2.2]

end SideHolds

/-- One side of the box bounds. -/
theorem side_step {scene : Scene α (σ × List (HostCall α problem.program.table.sizes))
      problem.program.table.sizes} (world : problem.Recorded σ) {target configured : Quantity}
    (shape : problem.shapeOf? target =
      some (problem.dims.n * (problem.dims.nu + problem.dims.nx), 1))
    (different : configured ≠ target ∧ Quantity.x ≠ target) :
    let after := effects scene frame (boxSide problem problem.plan target configured) world
    problem.Moves (fun quantity _ => quantity = target) [] world after ∧
      SideHolds problem target configured world.store.memory after.store.memory := by
  intro after
  let controls := problem.dims.n * problem.dims.nu
  let states := problem.dims.n * problem.dims.nx
  have size_eq : problem.sizeOf target = controls + states := by
    rw [problem.sizeOf_eq shape, Nat.mul_one, Nat.mul_add]
  let side (source : Quantity) (start behind length : Nat) : Statement α :=
    .set (problem.plan.flat target (.const start) length)
      (.sub (.read (problem.plan.flat configured (.const start) length))
        (.read (problem.plan.flat source (.const behind) length)))
  have sidePuts (source : Quantity) (start behind length : Nat) (between : problem.Recorded σ)
      (room : start + length ≤ problem.sizeOf target) :
      problem.Puts target start length
        (fun row => problem.valueAt between.store.memory configured (start + row) -
          problem.valueAt between.store.memory source (behind + row))
        between ((side source start behind length).effect scene frame between) :=
    @Problem.puts_sub α σ _ problem scene frame between target configured source
      (.const start) (.const behind) start start behind length _ rfl room
      (@Frame.valueIn_flat frame α _ problem between.store configured (.const start) length) rfl
  let first := (side .u 0 0 controls).effect scene frame world
  have after_eq : after =
      (side .x controls problem.dims.nx states).effect scene frame first := by
    simp only [after, boxSide, effects]
    rfl
  have firstPuts := sidePuts .u 0 0 controls world (by omega)
  have secondPuts := sidePuts .x controls problem.dims.nx states first (by omega)
  rw [← after_eq] at secondPuts
  refine ⟨(firstPuts.moves fun _ _ _ => rfl).trans (secondPuts.moves fun _ _ _ => rfl), ?_, ?_⟩
  · intro row row_lt
    have written := firstPuts.memory.inside row_lt
    rw [Nat.zero_add] at written
    rw [secondPuts.memory, if_neg fun inside => absurd inside.2.1 (Nat.not_le_of_lt row_lt)]
    exact written
  · intro row row_lt
    rw [secondPuts.memory.inside row_lt, firstPuts.memory.other different.1,
      firstPuts.memory.other different.2]

/-- Both sides of the box bounds. -/
theorem box_step {scene : Scene α (σ × List (HostCall α problem.program.table.sizes))
      problem.program.table.sizes} (world : problem.Recorded σ) :
    let memory := world.store.memory
    let after := effects scene frame (boxSide problem problem.plan .qpUb .ubValues)
      (effects scene frame (boxSide problem problem.plan .qpLb .lbValues) world)
    problem.Moves (fun quantity _ => quantity = .qpLb ∨ quantity = .qpUb) [] world after ∧
      SideHolds problem .qpLb .lbValues memory after.store.memory ∧
      SideHolds problem .qpUb .ubValues memory after.store.memory := by
  intro memory after
  obtain ⟨lowerMoves, lower⟩ := @side_step α σ _ problem frame scene world .qpLb .lbValues
    Problem.shapeOf?_quadraticProgram.2.2.2.2.2.1 (by decide)
  obtain ⟨upperMoves, upper⟩ := @side_step α σ _ problem frame scene
    (effects scene frame (boxSide problem problem.plan .qpLb .lbValues) world) .qpUb .ubValues
    Problem.shapeOf?_quadraticProgram.2.2.2.2.2.2.1 (by decide)
  exact ⟨(lowerMoves.mono fun _ _ => .inl).trans (upperMoves.mono fun _ _ => .inr),
    lower.of_changes upperMoves.memory fun _ => by decide,
    upper.of_before lowerMoves.memory fun _ => by decide⟩

end Box

/-! ## All bounds -/

section Evaluation

variable (problem)

/-- The box bounds are in memory after the evaluation, and so are the rows of the
calls for the constraints: the path constraint on all nodes, then every point
constraint. -/
structure Holds (start : problem.Contents)
    (calls : List (HostCall α problem.program.table.sizes)) (memory : problem.Contents) :
    Prop where
  lower : SideHolds problem .qpLb .lbValues start memory
  upper : SideHolds problem .qpUb .ubValues start memory
  path : ∀ path ∈ problem.path, ∀ node < problem.dims.n, ∃ call ∈ calls,
    SegmentHolds problem path.name node (problem.affineOffset node) path.dim start call memory
  point : ∀ node, ∀ point ∈ problem.points.get? node, ∃ call ∈ calls,
    SegmentHolds problem point.name node (problem.pointOffset node) point.dim start call memory

variable {problem}

/-- The statements of the evaluation. -/
theorem holds_body (host : Host α σ problem.program.table.sizes) (depth : Nat)
    (world : problem.Recorded σ) (wellFormed : problem.WellFormed) (tame : problem.Tame host) :
    let after := effects (problem.program.scene host.recorded (depth + 1)) frame
      (evaluateRoutine problem problem.plan).body world
    ∃ calls, problem.Moves (fun quantity _ => share quantity) calls world after ∧
      Holds problem world.store.memory calls after.store.memory := by
  let scene := problem.program.scene host.recorded (depth + 1)
  let boxed := effects scene frame (boxSide problem problem.plan .qpUb .ubValues)
    (effects scene frame (boxSide problem problem.plan .qpLb .lbValues) world)
  obtain ⟨sidesMoves, lower, upper⟩ := @box_step α σ _ problem frame scene world
  have boxedMoves : problem.Moves (fun quantity _ => share quantity) [] world boxed := by
    refine sidesMoves.mono ?_
    rintro _ _ (rfl | rfl) <;> exact trivial
  let evaluated := effects scene frame (problem.path.elim [] (pathPart problem problem.plan)) boxed
  obtain ⟨pathCalls, pathMoves, pathHeld⟩ : ∃ calls,
      problem.Moves (fun quantity _ => affineShare quantity) calls boxed evaluated ∧
        ∀ path ∈ problem.path, ∀ node < problem.dims.n, ∃ call ∈ calls,
          SegmentHolds problem path.name node (problem.affineOffset node) path.dim
            boxed.store.memory call evaluated.store.memory := by
    cases known : problem.path with
    | none =>
        simp only [evaluated, known, Option.elim_none, effects]
        exact ⟨[], .refl boxed, fun _ mem => absurd mem (Option.not_mem_none _)⟩
    | some path =>
        obtain ⟨calls, moves, _, held⟩ := @holds_path α σ _ problem frame path host depth boxed
          wellFormed known tame
        simp only [evaluated, known, Option.elim_some]
        refine ⟨calls, moves, ?_⟩
        rintro _ ⟨⟩ node node_lt
        obtain ⟨call, place, holdsCall⟩ := held node node_lt
        exact ⟨call, List.mem_of_getElem? place, holdsCall⟩
  obtain ⟨pointCalls, pointMoves, pointHeld⟩ := @holds_points α σ _ problem frame host scene
    wellFormed tame rfl problem.points.entries 0 evaluated (fun _ => id) problem.points.ascending
    (by rw [Nat.zero_add, Problem.pointDim_eq_sum])
  let ended := effects scene frame (pointParts problem problem.plan 0 problem.points.entries)
    evaluated
  have affineMoves : problem.Moves (fun quantity _ => affineShare quantity)
      (pathCalls ++ pointCalls) boxed ended := by
    refine pathMoves.trans (pointMoves.mono ?_)
    rintro _ _ ⟨_, _, inside⟩
    exact affineShare_of_pointShare inside
  have pathShared : problem.Moves (fun quantity _ => share quantity) pathCalls boxed evaluated :=
    pathMoves.mono fun _ _ => And.left
  simp only [evaluateRoutine, effects_append]
  refine ⟨pathCalls ++ pointCalls, boxedMoves.trans (affineMoves.mono fun _ _ => And.left),
    lower.of_changes affineMoves.memory fun _ inside => inside.2.1 rfl,
    upper.of_changes affineMoves.memory fun _ inside => inside.2.2 rfl, ?_, ?_⟩
  · intro path known node node_lt
    obtain ⟨call, made, held⟩ := pathHeld path known node node_lt
    refine ⟨call, List.mem_append_left _ made,
      (held.of_changes pointMoves.memory ?_).of_before boxedMoves.memory⟩
    rintro quantity position inside ⟨entry, mem, touched⟩
    have rows := InRows.of_pointShare touched inside.1
    have same := Problem.owner_unique wellFormed (inside.owns_path known node_lt)
      (rows.owns_point mem)
    exact absurd same Problem.RowOwner.noConfusion
  · intro node point found
    obtain ⟨call, made, held⟩ := pointHeld (node, point) (NodeMap.mem_of_get? found)
    exact ⟨call, List.mem_append_right _ made,
      held.of_before (boxedMoves.trans pathShared).memory⟩

/-- The evaluation of the constraints. -/
theorem holds_evaluate (host : Host α σ problem.program.table.sizes) (depth : Nat)
    (world : problem.Recorded σ) (wellFormed : problem.WellFormed) (tame : problem.Tame host) :
    let after := (Statement.run evaluateName []).effect
      (problem.program.scene host.recorded (depth + 2)) frame world
    ∃ calls, problem.Moves (fun quantity _ => share quantity) calls world after ∧
      Holds problem world.store.memory calls after.store.memory := by
  intro after
  have after_eq : after = (problem.program.perform host.recorded (depth + 2)
      (evaluateRoutine problem problem.plan) [] world).2 :=
    Problem.effect_run Problem.mem_routines.2.2.2.2.1 [] world
  rw [after_eq]
  obtain ⟨calls, moves, held⟩ := holds_body host depth _ wellFormed tame
  exact ⟨calls, Problem.moves_perform moves, held⟩

end Evaluation

end Constraints

end RtiAssembly
