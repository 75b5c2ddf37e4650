import RtiAssembly.Proofs.Machine.Recording
import RtiAssembly.Proofs.Storage.Contents

/-!
# Steps of a solver

What single statements do to the quantities of a solver and to the record of
calls: assignments, copies, evaluations of a function from one buffer to
another, and loops.
-/

namespace RtiAssembly

open Statement

/-! ## Statements one after the other -/

section Effects

variable {α σ : Type} [Scalar α] {sizes : List Nat} {scene : Scene α σ sizes} {frame : Frame}

theorem Statement.effects_append (first second : List (Statement α)) (world : World α σ sizes) :
    effects scene frame (first ++ second) world =
      effects scene frame second (effects scene frame first world) := by
  induction first generalizing world with
  | nil => rw [List.nil_append, effects]
  | cons statement rest ih => rw [List.cons_append, effects, effects, ih]

theorem Statement.effects_singleton (statement : Statement α) (world : World α σ sizes) :
    effects scene frame [statement] world = statement.effect scene frame world := by
  rw [effects, effects]

theorem Statement.effect_comment (text : String) (world : World α σ sizes) :
    (Statement.comment text).effect scene frame world = world := by
  rw [effect]

theorem Statement.effect_loop (name : String) (count : Nat) (body : List (Statement α))
    (world : World α σ sizes) :
    (Statement.loop name 0 count body).effect scene frame world =
      (List.range count).foldl
        (fun world round => effects scene (frame.bind name round) body world) world := by
  rw [effect, Nat.sub_zero, ← List.range_eq_range']

theorem Statement.effects_map_range (statement : Nat → Statement α) (count : Nat)
    (world : World α σ sizes) :
    effects scene frame ((List.range count).map statement) world =
      (List.range count).foldl
        (fun world round => (statement round).effect scene frame world) world := by
  generalize List.range count = rounds
  induction rounds generalizing world with
  | nil => rw [List.map_nil, effects, List.foldl_nil]
  | cons round rest ih => rw [List.map_cons, effects, List.foldl_cons, ih]

end Effects

namespace Problem

variable {α σ : Type} [Scalar α] {problem : Problem α}

/-- The worlds in which calls are recorded. -/
abbrev Recorded (problem : Problem α) (σ : Type) : Type :=
  World α (σ × List (HostCall α problem.program.table.sizes)) problem.program.table.sizes

/-- A step that changes elements of a region only and makes the given calls. -/
structure Moves (problem : Problem α) (region : Quantity → Nat → Prop)
    (calls : List (HostCall α problem.program.table.sizes))
    (before after : problem.Recorded σ) : Prop where
  record : after.state.2 = before.state.2 ++ calls
  memory : problem.Changes region before.store.memory after.store.memory

namespace Moves

variable {region wider : Quantity → Nat → Prop}
  {calls later : List (HostCall α problem.program.table.sizes)}
  {before between after : problem.Recorded σ}

theorem refl (world : problem.Recorded σ) : problem.Moves region [] world world where
  record := (List.append_nil _).symm
  memory := .refl _

theorem trans (first : problem.Moves region calls before between)
    (second : problem.Moves region later between after) :
    problem.Moves region (calls ++ later) before after where
  record := by rw [second.record, first.record, List.append_assoc]
  memory := first.memory.trans second.memory

theorem mono (moves : problem.Moves region calls before after)
    (contained : ∀ quantity position, region quantity position → wider quantity position) :
    problem.Moves wider calls before after where
  record := moves.record
  memory := moves.memory.mono contained

end Moves

/-! ## Assignments -/

section Assignments

variable {scene : Scene α (σ × List (HostCall α problem.program.table.sizes))
    problem.program.table.sizes} {frame : Frame} {world : problem.Recorded σ}

/-- A step that writes consecutive elements of one quantity. -/
structure Puts (problem : Problem α) (quantity : Quantity) (start count : Nat)
    (value : Nat → α) (before after : problem.Recorded σ) : Prop where
  state : after.state = before.state
  memory : problem.Writes quantity start count value before.store.memory after.store.memory

theorem Puts.moves {quantity : Quantity} {start count : Nat} {value : Nat → α}
    {before after : problem.Recorded σ}
    (puts : problem.Puts quantity start count value before after)
    {region : Quantity → Nat → Prop}
    (contained : ∀ position, start ≤ position → position < start + count →
      region quantity position) :
    problem.Moves region [] before after where
  record := by rw [puts.state, List.append_nil]
  memory := puts.memory.changes contained

theorem Puts.congr {quantity : Quantity} {start count : Nat} {value same : Nat → α}
    {before after : problem.Recorded σ}
    (puts : problem.Puts quantity start count value before after)
    (values_eq : ∀ position < count, value position = same position) :
    problem.Puts quantity start count same before after :=
  ⟨puts.state, puts.memory.congr values_eq⟩

/-- An assignment writes the elements of its window. -/
theorem puts_assign {base : Base} {offset : AffineIndex} {rows cols : Nat}
    {quantity : Quantity} {start : Nat}
    (starts : frame.startOf (.dense base offset rows cols) =
      ⟨.global (problem.plan.id quantity), start⟩)
    (room : start + rows * cols ≤ problem.sizeOf quantity) (op : AssignOp) {value : Expr α}
    (shape_eq : (frame.valueIn world.store value).shape = (rows, cols)) :
    problem.Puts quantity start (rows * cols)
      (fun position => op.combine (problem.valueAt world.store.memory quantity (start + position))
        ((frame.valueIn world.store value).element position))
      world ((Statement.assign (.dense base offset rows cols) op value).effect scene frame
        world) := by
  rw [effect, starts]
  exact ⟨rfl, writes_combine world.store room op shape_eq⟩

/-- An assignment to consecutive elements. -/
theorem puts_flat {quantity : Quantity} {offset : AffineIndex} {start length : Nat}
    (starts : frame.valueOf offset = start) (room : start + length ≤ problem.sizeOf quantity)
    (op : AssignOp) {value : Expr α}
    (shape_eq : (frame.valueIn world.store value).shape = (length, 1)) :
    problem.Puts quantity start length
      (fun position => op.combine (problem.valueAt world.store.memory quantity (start + position))
        ((frame.valueIn world.store value).element position))
      world ((Statement.assign (problem.plan.flat quantity offset length) op value).effect scene
        frame world) := by
  subst starts
  have puts := @puts_assign α σ _ problem scene frame world _ _ _ _ _ _
    (Frame.startOf_global (problem.plan.id quantity) offset length 1)
    (by rwa [Nat.mul_one]) op value shape_eq
  rwa [Nat.mul_one] at puts

/-- An assignment to a whole quantity. -/
theorem puts_whole {quantity : Quantity} {rows cols : Nat}
    (shape : problem.shapeOf? quantity = some (rows, cols)) (op : AssignOp) {value : Expr α}
    (shape_eq : (frame.valueIn world.store value).shape = (rows, cols)) :
    problem.Puts quantity 0 (rows * cols)
      (fun position => op.combine (problem.valueAt world.store.memory quantity position)
        ((frame.valueIn world.store value).element position))
      world ((Statement.assign (problem.plan.whole quantity) op value).effect scene frame
        world) := by
  rw [Frame.whole_eq shape]
  have puts := @puts_assign α σ _ problem scene frame world _ _ _ _ _ _
    (Frame.startOf_global (problem.plan.id quantity) (.const 0) rows cols)
    (Nat.le_of_eq (by rw [problem.sizeOf_eq shape, Frame.valueOf_const, Nat.zero_add])) op value
    shape_eq
  simpa only [Frame.valueOf_const, Nat.zero_add] using puts

/-- An assignment to rows of a quantity. -/
theorem puts_rows {quantity : Quantity} {count cols rows row : Nat} {first : AffineIndex}
    (shape : problem.shapeOf? quantity = some (count, cols)) (starts : frame.valueOf first = row)
    (room : row + rows ≤ count) (op : AssignOp) {value : Expr α}
    (shape_eq : (frame.valueIn world.store value).shape = (rows, cols)) :
    problem.Puts quantity (row * cols) (rows * cols)
      (fun position => op.combine
        (problem.valueAt world.store.memory quantity (row * cols + position))
        ((frame.valueIn world.store value).element position))
      world ((Statement.assign (problem.plan.rows quantity first rows) op value).effect scene
        frame world) := by
  have start_eq : frame.valueOf (first.scaled cols) = row * cols := by
    rw [Frame.valueOf_scaled, starts]
  have inside : row * cols + rows * cols ≤ problem.sizeOf quantity := by
    rw [problem.sizeOf_eq shape, ← Nat.add_mul]
    exact Nat.mul_le_mul_right cols room
  rw [Frame.rows_eq first rows shape, ← start_eq]
  exact puts_assign (Frame.startOf_global _ _ _ _) (start_eq ▸ inside) op shape_eq

/-- An assignment of a difference of vectors. -/
theorem puts_sub {target minuend subtrahend : Quantity} {offset second : AffineIndex}
    {start first behind length : Nat} {left : Expr α} (starts : frame.valueOf offset = start)
    (room : start + length ≤ problem.sizeOf target)
    (left_eq : frame.valueIn world.store left =
      problem.part world.store.memory minuend first length 1)
    (value : frame.valueOf second = behind) :
    problem.Puts target start length
      (fun position => problem.valueAt world.store.memory minuend (first + position) -
        problem.valueAt world.store.memory subtrahend (behind + position))
      world ((Statement.set (problem.plan.flat target offset length)
        (.sub left (.read (problem.plan.flat subtrahend second length)))).effect scene frame
          world) := by
  have value_eq : frame.valueIn world.store
      (.sub left (.read (problem.plan.flat subtrahend second length))) =
        (problem.part world.store.memory minuend first length 1).sub
          (problem.part world.store.memory subtrahend behind length 1) :=
    congrArg₂ Matrix.sub left_eq (value ▸ Frame.valueIn_flat)
  have puts := @puts_flat α σ _ problem scene frame world target offset start length starts room
    .set (.sub left (.read (problem.plan.flat subtrahend second length))) (by rw [value_eq]; rfl)
  refine puts.congr fun position position_lt => ?_
  have inside : position < length * 1 := by rwa [Nat.mul_one]
  have same : (problem.part world.store.memory minuend first length 1).shape =
      (problem.part world.store.memory subtrahend behind length 1).shape := rfl
  rw [value_eq, AssignOp.combine, Matrix.element_sub same inside, element_part _ _ inside,
    element_part _ _ inside]

/-- An assignment of consecutive elements. -/
theorem puts_vector {target source : Quantity} {offset second : AffineIndex}
    {start first length : Nat} (starts : frame.valueOf offset = start)
    (room : start + length ≤ problem.sizeOf target) (op : AssignOp)
    (value : frame.valueOf second = first) :
    problem.Puts target start length
      (fun position => op.combine (problem.valueAt world.store.memory target (start + position))
        (problem.valueAt world.store.memory source (first + position)))
      world ((Statement.assign (problem.plan.flat target offset length) op
        (.read (problem.plan.flat source second length))).effect scene frame world) := by
  have shows := @Frame.valueIn_flat frame α _ problem world.store source second length
  rw [value] at shows
  have puts := @puts_flat α σ _ problem scene frame world target offset start length starts room
    op (.read (problem.plan.flat source second length)) (by rw [shows]; rfl)
  refine puts.congr fun position position_lt => ?_
  rw [shows, element_part _ _ (by rwa [Nat.mul_one])]

/-- A copy writes what it reads. -/
theorem puts_copy {target source : Quantity} {targetOffset sourceOffset : AffineIndex}
    {length : Nat} (room : frame.valueOf targetOffset + length ≤ problem.sizeOf target) :
    problem.Puts target (frame.valueOf targetOffset) length
      (fun position => problem.valueAt world.store.memory source
        (frame.valueOf sourceOffset + position))
      world ((problem.plan.copy target targetOffset source sourceOffset length).effect scene
        frame world) :=
  puts_vector rfl room .set rfl

end Assignments

/-! ## Evaluations -/

section Evaluations

variable {host : Host α σ problem.program.table.sizes}
  {scene : Scene α (σ × List (HostCall α problem.program.table.sizes))
    problem.program.table.sizes} {frame : Frame} {world : problem.Recorded σ}

/-- A recorded call of a function that maps an input buffer to an output
buffer. -/
structure Evaluates (problem : Problem α) (function : External) (input output : Quantity)
    (memory : problem.Contents) (call : HostCall α problem.program.table.sizes) : Prop where
  function_eq : call.function = function
  memory_eq : call.memory = memory
  passed_eq : call.passed =
    [.array (memory.content (problem.plan.id input)),
      .array (memory.content (problem.plan.id output))]

/-- What comes back from a function in its two buffers. -/
theorem valueAt_restored (store : Store α problem.program.table.sizes) (frame : Frame)
    {input output : Quantity} (different : input ≠ output) (arguments : List (Passed α)) :
    let restored := ([problem.plan.passWhole input, problem.plan.passWhole output].zip
        arguments).foldl (fun (store : Store α problem.program.table.sizes) item =>
          store.putBack frame item.1 item.2) store
    problem.Changes (fun quantity _ => quantity = input ∨ quantity = output) store.memory
        restored.memory ∧
      ∀ position < problem.sizeOf output,
        problem.valueAt restored.memory output position =
          (((arguments[1]?).map Passed.elements).getD #[]).getD position
            (problem.valueAt store.memory output position) := by
  have notInput : ¬output = input := Ne.symm different
  rcases arguments with _ | ⟨first, _ | ⟨second, rest⟩⟩
  · exact ⟨.refl _, fun _ _ => rfl⟩
  · simp only [List.zip_cons_cons, List.zip_nil_right, List.foldl_cons, List.foldl_nil]
    constructor
    · intro quantity position outside
      rw [valueAt_putBack, if_neg fun here => outside (.inl here.1)]
    · intro position _
      rw [valueAt_putBack, if_neg fun here => notInput here.1]
      rfl
  · simp only [List.zip_cons_cons, List.zip_nil_left, List.foldl_cons, List.foldl_nil]
    constructor
    · intro quantity position outside
      rw [valueAt_putBack, if_neg fun here => outside (.inr here.1), valueAt_putBack,
        if_neg fun here => outside (.inl here.1)]
    · intro position position_lt
      rw [valueAt_putBack, if_pos ⟨rfl, position_lt⟩, valueAt_putBack,
        if_neg fun here => notInput here.1]
      rfl

variable (frame) (world)

/-- The evaluation of a function that writes only through its arguments. -/
theorem moves_evaluate (records : scene.host = host.recorded) {function : External}
    (tame : ∀ passed memory state, (host function passed memory state).memory = memory)
    {input output : Quantity} (different : input ≠ output) :
    let after := (problem.plan.evaluate function input output).effect scene frame world
    ∃ call, problem.Evaluates function input output world.store.memory call ∧
      problem.Moves (fun quantity _ => quantity = input ∨ quantity = output) [call] world after ∧
      ∀ position < problem.sizeOf output,
        problem.valueAt after.store.memory output position = call.leaves 1 position := by
  let memory := world.store.memory
  let passed : List (Passed α) :=
    [.array (memory.content (problem.plan.id input)),
      .array (memory.content (problem.plan.id output))]
  let reply := host function passed memory world.state.1
  let call : HostCall α problem.program.table.sizes :=
    ⟨function, passed, memory, reply.status, reply.arguments, memory⟩
  let restored := ([problem.plan.passWhole input, problem.plan.passWhole output].zip
    reply.arguments).foldl (fun (store : Store α problem.program.table.sizes) item =>
      store.putBack frame item.1 item.2) world.store
  have effect_eq : (problem.plan.evaluate function input output).effect scene frame world =
      ⟨restored, (reply.state, world.state.2 ++ [call])⟩ := by
    have kept : (host function passed world.store.memory world.state.1).memory =
      world.store.memory := tame _ _ _
    rw [Plan.evaluate, Statement.effect_invoke records]
    simp only [List.map_cons, List.map_nil, Frame.passedTo_whole]
    rw [kept]
  obtain ⟨changes, holds⟩ := valueAt_restored world.store frame different reply.arguments
  simp only [effect_eq]
  exact ⟨call, ⟨rfl, rfl, rfl⟩, ⟨rfl, changes⟩, holds⟩

end Evaluations

/-! ## Node inputs -/

/-- Consecutive elements of a quantity as a list. -/
def slice (problem : Problem α) (memory : problem.Contents) (quantity : Quantity)
    (start count : Nat) : List α :=
  (List.range count).map fun position => problem.valueAt memory quantity (start + position)

/-- What the functions of a node see: its state, its control and its online
data.  The terminal node has no control. -/
def nodeInput (problem : Problem α) (memory : problem.Contents) (node : Nat) : List α :=
  let dims := problem.dims
  problem.slice memory .x (node * dims.nx) dims.nx ++
    (if node < dims.n then problem.slice memory .u (node * dims.nu) dims.nu else []) ++
    problem.slice memory .od (node * dims.nod) dims.nod

@[simp]
theorem length_slice (memory : problem.Contents) (quantity : Quantity) (start count : Nat) :
    (problem.slice memory quantity start count).length = count := by
  simp [slice]

theorem slice_congr {first second : problem.Contents} {quantity : Quantity}
    (same : ∀ position, problem.valueAt first quantity position =
      problem.valueAt second quantity position) (start count : Nat) :
    problem.slice first quantity start count = problem.slice second quantity start count :=
  List.map_congr_left fun _ _ => same _

/-- Node inputs depend on the trajectory and the online data only. -/
theorem Changes.nodeInput_eq {region : Quantity → Nat → Prop}
    {before after : problem.Contents} (changes : problem.Changes region before after)
    (outside : ∀ position, ¬region .x position ∧ ¬region .u position ∧ ¬region .od position)
    (node : Nat) : problem.nodeInput after node = problem.nodeInput before node := by
  simp only [nodeInput, slice_congr fun position => changes .x position (outside position).1,
    slice_congr fun position => changes .u position (outside position).2.1,
    slice_congr fun position => changes .od position (outside position).2.2]

section Inputs

variable {scene : Scene α (σ × List (HostCall α problem.program.table.sizes))
    problem.program.table.sizes} {frame : Frame} {world : problem.Recorded σ}

/-- A step that changes a buffer only, so that it starts with the given values. -/
structure Loads (problem : Problem α) (buffer : Quantity) (values : List α)
    (before after : problem.Recorded σ) : Prop where
  moves : problem.Moves (fun quantity _ => quantity = buffer) [] before after
  holds : ∀ position < values.length,
    problem.valueAt after.store.memory buffer position = values.getD position 0

theorem loads_nil (buffer : Quantity) (world : problem.Recorded σ) :
    problem.Loads buffer [] world world :=
  ⟨.refl world, nofun⟩

/-- A copy behind the loaded values loads what it reads. -/
theorem Loads.copy {buffer source : Quantity} {values : List α}
    {before between : problem.Recorded σ} (loads : problem.Loads buffer values before between)
    (apart : source ≠ buffer) {offset : AffineIndex} {start count : Nat}
    (value : frame.valueOf offset = start)
    (room : values.length + count ≤ problem.sizeOf buffer) :
    problem.Loads buffer (values ++ problem.slice before.store.memory source start count) before
      ((problem.plan.copy buffer (.const values.length) source offset count).effect scene frame
        between) := by
  have puts := @puts_copy α σ _ problem scene frame between buffer source (.const values.length)
    offset count room
  simp only [Frame.valueOf_const, value] at puts
  refine ⟨loads.moves.trans (puts.moves fun _ _ _ => rfl), fun position position_lt => ?_⟩
  rw [List.length_append, slice, List.length_map, List.length_range] at position_lt
  rw [List.getD_eq_getElem?_getD]
  rcases Nat.lt_or_ge position values.length with front | behind
  · rw [List.getElem?_append_left front, ← List.getD_eq_getElem?_getD, ← loads.holds _ front,
      puts.memory, if_neg (by omega)]
  · have inside : position - values.length < count := by omega
    have written := puts.memory.inside inside
    rw [Nat.add_sub_cancel' behind] at written
    rw [written, List.getElem?_append_right behind, slice, List.getElem?_map,
      List.getElem?_range inside]
    exact loads.moves.memory source _ apart

/-- Loading the input of a node. -/
theorem loads_loadNodeInput {buffer : Quantity} {node : AffineIndex} {number : Nat}
    (value : frame.valueOf node = number)
    (room : problem.sizeOf buffer = problem.dims.nx + problem.dims.nu + problem.dims.nod)
    (apart : Quantity.x ≠ buffer ∧ .u ≠ buffer ∧ .od ≠ buffer) :
    problem.Loads buffer (problem.nodeInput world.store.memory number) world
      (effects scene frame
        (problem.plan.loadNodeInput problem.dims buffer node (decide (number < problem.dims.n)))
        world) := by
  have index (factor : Nat) : frame.valueOf (node.scaled factor) = number * factor := by
    rw [Frame.valueOf_scaled, value]
  let dims := problem.dims
  let memory := world.store.memory
  let state : List α := problem.slice memory .x (number * dims.nx) dims.nx
  let control : List α :=
    if number < dims.n then problem.slice memory .u (number * dims.nu) dims.nu else []
  let first := (problem.plan.copy buffer (.const 0) .x (node.scaled dims.nx) dims.nx).effect
    scene frame world
  have loadsState : problem.Loads buffer state world first :=
    (loads_nil buffer world).copy apart.1 (index dims.nx) (by simp [room, dims]; omega)
  let second := effects scene frame
    (if number < dims.n then
      [problem.plan.copy buffer (.const dims.nx) .u (node.scaled dims.nu) dims.nu] else []) first
  have loadsControl : problem.Loads buffer (state ++ control) world second := by
    simp only [second, control]
    by_cases inside : number < dims.n
    · rw [if_pos inside, if_pos inside, effects_singleton]
      have copied := @Loads.copy α σ _ problem scene frame buffer .u state world first loadsState
        apart.2.1 (node.scaled dims.nu) _ dims.nu (index dims.nu)
        (by rw [length_slice, room]; exact Nat.le_add_right _ _)
      rwa [length_slice] at copied
    · rw [if_neg inside, if_neg inside, List.append_nil, effects]
      exact loadsState
  have start_eq : (state ++ control).length =
      if number < dims.n then dims.nx + dims.nu else dims.nx := by
    simp only [control]
    split <;> simp [state]
  have effects_eq : effects scene frame
      (problem.plan.loadNodeInput dims buffer node (decide (number < dims.n))) world =
        effects scene frame
          (if problem.plan.has .od then
            [problem.plan.copy buffer (.const (state ++ control).length) .od
              (node.scaled dims.nod) dims.nod] else []) second := by
    simp only [Plan.loadNodeInput, effects_append, effects_singleton, decide_eq_true_eq, start_eq]
    rfl
  rw [effects_eq]
  by_cases present : 0 < dims.nod
  · have has_od : problem.plan.has .od = true := by
      simp [present, dims]
    rw [if_pos has_od, effects_singleton]
    refine loadsControl.copy apart.2.2 (index dims.nod) ?_
    have front_le : (state ++ control).length ≤ problem.dims.nx + problem.dims.nu := by
      rw [start_eq]
      split
      · exact Nat.le_refl _
      · exact Nat.le_add_right _ _
    rw [room]
    exact Nat.add_le_add_right front_le _
  · have none : dims.nod = 0 := Nat.eq_zero_of_not_pos present
    have has_od : ¬problem.plan.has .od = true := by
      simp [present, dims]
    have online : problem.slice memory .od (number * dims.nod) dims.nod = [] := by
      rw [none]
      rfl
    have input_eq : problem.nodeInput memory number = state ++ control := by
      simp only [nodeInput, online, List.append_nil, state, control, dims]
    rw [if_neg has_od, effects, input_eq]
    exact loadsControl

end Inputs

end Problem

end RtiAssembly
