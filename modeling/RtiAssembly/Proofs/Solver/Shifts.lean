import RtiAssembly.Proofs.Program.Faultless
import RtiAssembly.Proofs.Solver.Blocks
import RtiAssembly.Proofs.Solver.ControlLoop

/-!
# Shifts of the trajectory

A shift moves every block of a trajectory one node back and puts what it is passed
behind the last one.  Blocks are moved in place: a round overwrites the block that
the round before has moved, and reads one that no round has written yet.
-/

namespace RtiAssembly

open Statement

/-- A call of a routine does the same whether or not calls are recorded. -/
theorem Program.perform_erased {α σ : Type} [Scalar α] (program : Program α)
    (host : Host α σ program.table.sizes) (depth : Nat) (routine : Routine α)
    (bindings : List Binding)
    (world : World α (σ × List (HostCall α program.table.sizes)) program.table.sizes) :
    program.perform host depth routine bindings world.erased =
      ((program.perform host.recorded depth routine bindings world).1,
        (program.perform host.recorded depth routine bindings world).2.erased) := by
  obtain ⟨result_eq, world_eq⟩ := (program.erases_scene host depth).2.2 routine bindings world
  exact Prod.ext result_eq.symm world_eq.symm

namespace Problem

variable {α σ : Type} [Scalar α] {problem : Problem α} {quantity : Quantity} {size last : Nat}

/-! ## Steps -/

section Steps

variable {scene : Scene α (σ × List (HostCall α problem.program.table.sizes))
    problem.program.table.sizes} {frame : Frame} {world : problem.Recorded σ}

/-- A step that goes on writing where another one has stopped. -/
theorem Puts.append {start first second : Nat} {front behind : Nat → α}
    {before between after : problem.Recorded σ}
    (puts : problem.Puts quantity start first front before between)
    (next : problem.Puts quantity (start + first) second behind between after) :
    problem.Puts quantity start (first + second)
      (fun position => if position < first then front position else behind (position - first))
      before after := by
  refine ⟨next.state.trans puts.state, fun other position => ?_⟩
  rw [next.memory, puts.memory]
  by_cases same : other = quantity
  · rcases Nat.lt_or_ge position start with outside | start_le
    · rw [if_neg (by omega), if_neg (by omega), if_neg (by omega)]
    · rcases Nat.lt_or_ge position (start + first) with inFront | first_le
      · rw [if_neg (by omega), if_pos ⟨same, start_le, inFront⟩,
          if_pos ⟨same, start_le, by omega⟩, if_pos (by omega)]
      · rcases Nat.lt_or_ge position (start + first + second) with inside | behind_le
        · rw [if_pos ⟨same, first_le, inside⟩, if_pos ⟨same, start_le, by omega⟩,
            if_neg (by omega), Nat.sub_sub]
        · rw [if_neg (by omega), if_neg (by omega), if_neg (by omega)]
  · rw [if_neg fun here => same here.1, if_neg fun here => same here.1,
      if_neg fun here => same here.1]

/-- A step that writes nothing. -/
theorem puts_none (quantity : Quantity) (start : Nat) (value : Nat → α)
    (world : problem.Recorded σ) : problem.Puts quantity start 0 value world world := by
  refine ⟨rfl, fun other position => (if_neg fun here => ?_).symm⟩
  exact absurd here.2.2 (Nat.not_lt.2 here.2.1)

/-- The rounds that move blocks: each reads a block that is still as it was. -/
theorem puts_moveBack (shape : problem.shapeOf? quantity = some (last + 1, size)) :
    problem.Puts quantity 0 (last * size)
      (fun position => problem.valueAt world.store.memory quantity (position + size)) world
      ((Horizon.moveBack problem.plan quantity size last).effect scene frame world) := by
  rw [Horizon.moveBack, effect_loop]
  suffices rounds : ∀ count ≤ last, problem.Puts quantity 0 (count * size)
      (fun position => problem.valueAt world.store.memory quantity (position + size)) world
      ((List.range count).foldl (fun world round => effects scene (frame.bind "index" round)
        [problem.plan.copy quantity ((AffineIndex.var "index").scaled size) quantity
          (((AffineIndex.var "index").scaled size).plus size) size] world) world) from
    rounds last (Nat.le_refl last)
  intro count count_le
  induction count with
  | zero =>
      rw [Nat.zero_mul]
      exact puts_none _ _ _ _
  | succ count ih =>
      have earlier := ih (Nat.le_of_lt count_le)
      rw [List.range_succ, List.foldl_append, List.foldl_cons, List.foldl_nil, effects_singleton]
      generalize List.foldl _ world (List.range count) = moved at earlier
      have room : (frame.bind "index" count).valueOf ((AffineIndex.var "index").scaled size) +
          size ≤ problem.sizeOf quantity := by
        rw [Frame.valueOf_scaled, Frame.valueOf_bind, problem.sizeOf_eq shape]
        exact block_le size (by omega)
      have copies := @puts_copy α σ _ problem scene (frame.bind "index" count) moved quantity
        quantity ((AffineIndex.var "index").scaled size)
        (((AffineIndex.var "index").scaled size).plus size) size room
      rw [Frame.valueOf_scaled, Frame.valueOf_bind, Frame.valueOf_bind_scaled_plus] at copies
      rw [Nat.succ_mul]
      refine (earlier.append ((Nat.zero_add (count * size)).symm ▸ copies)).congr
        fun position position_lt => ?_
      split
      · rfl
      · rename_i behind
        rw [earlier.memory, if_neg (by omega)]
        exact congrArg _ (by omega)

/-- What is passed is put behind the blocks. -/
theorem puts_appendBlock (shape : problem.shapeOf? quantity = some (last + 1, size))
    {start : Cell} (bound : frame.bindings[0]? = some (.array start)) :
    problem.Puts quantity (last * size) size
      (fun position => world.store.read (start.plus position)) world
      ((Horizon.appendBlock problem.plan quantity size last).effect scene frame world) := by
  have shows : frame.valueIn world.store
      (.read (.dense (.parameter 0) (.const 0) size 1) : Expr α) =
        Matrix.ofFn size 1 fun row col => world.store.read (start.plus (row * 1 + col)) := by
    rw [Frame.valueIn, Expr.value, Frame.shown, Frame.startOf_parameter bound]
    rfl
  have room : last * size + size ≤ problem.sizeOf quantity := by
    rw [problem.sizeOf_eq shape, Nat.succ_mul]
  have puts := @puts_flat α σ _ problem scene frame world quantity (.const (last * size)) _ size
    rfl room .set (.read (.dense (.parameter 0) (.const 0) size 1)) (by rw [shows]; rfl)
  refine puts.congr fun position position_lt => ?_
  rw [shows, AssignOp.combine, Matrix.element_ofFn _ (by rwa [Nat.mul_one]), Nat.div_one,
    Nat.mod_one, Nat.mul_one, Nat.add_zero]

end Steps

/-! ## Runs -/

/-- What a shift writes: the blocks behind the first one, and then what it is passed. -/
def shiftedElement (problem : Problem α) (memory : problem.Contents) (quantity : Quantity)
    (size last : Nat) (values : Array α) (position : Nat) : α :=
  if position < last * size then problem.valueAt memory quantity (position + size)
  else values.getD (position - last * size) 0

/-- What surrounds the parameter of a shift. -/
structure IsShift (problem : Problem α) (routine : Routine α) (quantity : Quantity)
    (size last : Nat) : Prop where
  mem : routine ∈ problem.program.routines
  shape : problem.shapeOf? quantity = some (last + 1, size)
  parameters : ∃ name, routine.parameters = [⟨name, .array size 1⟩]
  locals_eq : routine.locals = []
  result : routine.result = none
  body : routine.body =
    (if 0 < last then [Horizon.moveBack problem.plan quantity size last] else []) ++
      [Horizon.appendBlock problem.plan quantity size last]

section Runs

variable {routine : Routine α}

/-- The moves of a shift. -/
theorem puts_moves (shape : problem.shapeOf? quantity = some (last + 1, size))
    {scene : Scene α (σ × List (HostCall α problem.program.table.sizes))
      problem.program.table.sizes} {frame : Frame} {world : problem.Recorded σ} :
    let moves := if 0 < last then [Horizon.moveBack problem.plan quantity size last] else []
    let moved := effects scene frame moves world
    moved.store.stack = world.store.stack ∧
      problem.Puts quantity 0 (last * size)
        (fun position => problem.valueAt world.store.memory quantity (position + size)) world
        moved := by
  intro moves moved
  rcases Nat.eq_zero_or_pos last with rfl | moving
  · rw [Nat.zero_mul]
    exact ⟨rfl, puts_none _ _ _ _⟩
  · have moved_eq : moved =
        effects scene frame [Horizon.moveBack problem.plan quantity size last] world := by
      simp only [moved, moves, if_pos moving]
    rw [moved_eq]
    constructor
    · refine stack_effects _ (fun base mem => ?_) (List.forall_mem_nil _) world
      exact ⟨_, List.mem_singleton.1 mem⟩
    · rw [effects_singleton]
      exact puts_moveBack shape

/-- A run of a shift returns, asks nothing of its host, and writes one quantity. -/
theorem IsShift.run (isShift : problem.IsShift routine quantity size last)
    (wellFormed : problem.WellFormed) (host : Host α σ problem.program.table.sizes) (state : σ)
    (memory : problem.Contents) {values : Array α} (values_size : values.size = size) :
    let outcome := problem.program.run host state memory routine.name [.array values]
    outcome.result = .ok 0 ∧ outcome.state = state ∧
      problem.Writes quantity 0 ((last + 1) * size)
        (problem.shiftedElement memory quantity size last values) memory outcome.memory := by
  obtain ⟨name, parameters⟩ := isShift.parameters
  have takes : List.Forall₂ Parameter.Takes routine.parameters [.array values] := by
    rw [parameters]
    exact .cons (values_size.trans (Nat.mul_one size).symm) .nil
  obtain ⟨bindings, arrays, bound, _, run_eq⟩ :=
    Program.run_of_takes (problem.routine?_eq isShift.mem)
      (problem.safe_routines wellFormed routine isShift.mem) problem.three_le_callDepth takes host
      state memory
  obtain ⟨rfl, rfl⟩ : [.array ⟨.stack 0, 0⟩] = bindings ∧ [values] = arrays := by
    simpa [parameters, Program.bindOutside, values_size] using bound
  obtain ⟨depth, depth_eq⟩ := Nat.exists_eq_add_of_le' problem.three_le_callDepth
  -- recording calls changes nothing, and there are none
  let started : problem.Recorded σ := ⟨⟨memory, #[values]⟩, (state, [])⟩
  let scene := problem.program.scene host.recorded (depth + 2)
  let frame := Frame.ofCall routine [.array ⟨.stack 0, 0⟩] 1
  let ended := effects scene frame routine.body started
  have performed : problem.program.perform host.recorded (depth + 3) routine
      [.array ⟨.stack 0, 0⟩] started =
        (0, ended.update fun store => store.truncate 1) := by
    rw [Program.perform_succ, isShift.locals_eq, isShift.result]
    rfl
  have erased := problem.program.perform_erased host (depth + 3) routine
    [.array ⟨.stack 0, 0⟩] started
  rw [performed] at erased
  let moved := effects scene frame
    (if 0 < last then [Horizon.moveBack problem.plan quantity size last] else []) started
  obtain ⟨stack_eq, moves⟩ := @puts_moves α σ _ problem quantity size last isShift.shape scene
    frame started
  have appended := @puts_appendBlock α σ _ problem quantity size last scene frame moved
    isShift.shape ⟨.stack 0, 0⟩ rfl
  have puts : problem.Puts quantity 0 ((last + 1) * size)
      (problem.shiftedElement memory quantity size last values) started ended := by
    simp only [ended, isShift.body, effects_append, effects_singleton, Nat.succ_mul]
    refine (moves.append ((Nat.zero_add (last * size)).symm ▸ appended)).congr
      fun position _ => ?_
    unfold shiftedElement
    split
    · rfl
    · refine (Store.read_stack_congr stack_eq 0 _).trans ?_
      exact congrArg (values.getD · 0) (Nat.zero_add _)
  have state_eq : ended.state.1 = state := congrArg Prod.fst puts.state
  intro outcome
  have outcome_eq : outcome = ⟨.ok 0, ended.store.memory, ended.state.1⟩ := by
    refine run_eq.trans ?_
    rw [depth_eq]
    exact congrArg (fun performed : α × World α σ problem.program.table.sizes =>
      (⟨.ok performed.1, performed.2.store.memory, performed.2.state⟩ :
        problem.program.Outcome σ)) erased
  rw [outcome_eq]
  exact ⟨rfl, state_eq, puts.memory⟩

/-! ## Trajectories -/

/-- What a shift does to a trajectory: every block has moved one node back, the last one is
what was passed, and no other array of the module has changed. -/
structure Shifts (problem : Problem α) (quantity : Quantity) (size last : Nat)
    (values : Array α) (before after : problem.Contents) : Prop where
  moved : ∀ node < last, problem.slice after quantity (node * size) size =
    problem.slice before quantity ((node + 1) * size) size
  appended : problem.slice after quantity (last * size) size = values.toList
  others : ∀ id, id ≠ problem.plan.id quantity → after.content id = before.content id

/-- An array that is not written stays as it is, under whatever number it stands. -/
theorem Writes.content_eq {start count : Nat} {value : Nat → α} {before after : problem.Contents}
    (writes : problem.Writes quantity start count value before after) {id : Nat}
    (other : id ≠ problem.plan.id quantity) : after.content id = before.content id := by
  cases found : problem.plan.table.get? id with
  | none => rw [content_eq_empty found, content_eq_empty found]
  | some decl =>
      obtain ⟨written, _, rfl⟩ := problem.exists_quantity found
      exact problem.content_eq (writes.other fun same => other (congrArg problem.plan.id same))

/-- What a shift writes, block by block. -/
theorem shifts_of_writes {values : Array α} (values_size : values.size = size)
    {before after : problem.Contents}
    (writes : problem.Writes quantity 0 ((last + 1) * size)
      (problem.shiftedElement before quantity size last values) before after) :
    problem.Shifts quantity size last values before after := by
  have element {position : Nat} (inside : position < (last + 1) * size) :
      problem.valueAt after quantity position =
        problem.shiftedElement before quantity size last values position := by
    have written := writes.inside inside
    rwa [Nat.zero_add] at written
  refine ⟨fun node node_lt => List.map_congr_left fun row mem => ?_, ?_, fun _ => writes.content_eq⟩
  · have row_lt := List.mem_range.1 mem
    have inside : node * size + row < last * size :=
      Nat.lt_of_lt_of_le (Nat.add_lt_add_left row_lt _) (block_le size node_lt)
    have all : last * size ≤ (last + 1) * size := Nat.mul_le_mul_right size last.le_succ
    rw [element (Nat.lt_of_lt_of_le inside all), shiftedElement, if_pos inside, Nat.succ_mul,
      Nat.add_right_comm]
  · refine List.ext_getElem (by rw [length_slice, Array.length_toList, values_size]) ?_
    intro row row_lt _
    rw [length_slice] at row_lt
    have inside : last * size + row < (last + 1) * size := by
      rw [Nat.succ_mul]
      exact Nat.add_lt_add_left row_lt _
    simp only [slice, List.getElem_map, List.getElem_range]
    rw [element inside, shiftedElement, if_neg (Nat.not_lt.2 (Nat.le_add_right _ _)),
      Nat.add_sub_cancel_left]
    simp [values_size, row_lt]

theorem slice_add (memory : problem.Contents) (quantity : Quantity) (start front behind : Nat) :
    problem.slice memory quantity start (front + behind) =
      problem.slice memory quantity start front ++
        problem.slice memory quantity (start + front) behind := by
  simp only [slice, List.range_add, List.map_append, List.map_map, Function.comp_def,
    Nat.add_assoc]

/-- A quantity as the list of its elements. -/
theorem toList_content (memory : problem.Contents) (quantity : Quantity) :
    (memory.content (problem.plan.id quantity)).toList =
      problem.slice memory quantity 0 (problem.sizeOf quantity) := by
  refine List.ext_getElem ?_ fun position inside _ => ?_
  · rw [length_slice, Array.length_toList, size_content]
  · rw [Array.length_toList] at inside
    simp [slice, valueAt, inside]

/-- What a shift does to a trajectory as a whole: it drops the first block and appends what
it is passed. -/
theorem toList_of_writes (shape : problem.shapeOf? quantity = some (last + 1, size))
    {values : Array α} (values_size : values.size = size) {before after : problem.Contents}
    (writes : problem.Writes quantity 0 ((last + 1) * size)
      (problem.shiftedElement before quantity size last values) before after) :
    (after.content (problem.plan.id quantity)).toList =
      (before.content (problem.plan.id quantity)).toList.drop size ++ values.toList := by
  have front : problem.slice after quantity 0 (last * size) =
      problem.slice before quantity (0 + size) (last * size) := by
    refine List.map_congr_left fun position mem => ?_
    have inside := List.mem_range.1 mem
    rw [writes.inside (Nat.lt_of_lt_of_le inside (Nat.mul_le_mul_right size last.le_succ)),
      shiftedElement, if_pos inside]
    exact congrArg _ (by omega)
  have behind := (shifts_of_writes values_size writes).appended
  calc (after.content (problem.plan.id quantity)).toList
    _ = problem.slice after quantity 0 (last * size + size) := by
        rw [toList_content, problem.sizeOf_eq shape, Nat.succ_mul]
    _ = problem.slice before quantity (0 + size) (last * size) ++ values.toList := by
        rw [slice_add, front, Nat.zero_add (last * size), behind]
    _ = (problem.slice before quantity 0 (size + last * size)).drop size ++ values.toList := by
        rw [slice_add before, List.drop_left' (length_slice before quantity 0 size)]
    _ = (before.content (problem.plan.id quantity)).toList.drop size ++ values.toList := by
        rw [toList_content, problem.sizeOf_eq shape, Nat.succ_mul, Nat.add_comm]

/-- Shifts one after the other drop as many blocks as they append. -/
theorem IsShift.runAll (isShift : problem.IsShift routine quantity size last)
    (wellFormed : problem.WellFormed) (host : Host α σ problem.program.table.sizes)
    (ends : List (Array α)) (sizes_eq : ∀ values ∈ ends, values.size = size)
    (memory : problem.Contents) (state : σ) :
    let orders := ends.map fun values => (routine.name, [Passed.array values])
    ((problem.program.runAll host orders (memory, state)).1.content
        (problem.plan.id quantity)).toList =
      ((memory.content (problem.plan.id quantity)).toList ++
        ends.flatMap Array.toList).drop (ends.length * size) := by
  induction ends generalizing memory state with
  | nil => simp [Program.runAll]
  | cons values rest ih =>
      let outcome := problem.program.run host state memory routine.name [.array values]
      obtain ⟨_, _, writes⟩ := isShift.run wellFormed host state memory
        (sizes_eq values List.mem_cons_self)
      have shifted := toList_of_writes isShift.shape (sizes_eq values List.mem_cons_self) writes
      have others := ih (fun other mem => sizes_eq other (List.mem_cons_of_mem _ mem))
        outcome.memory outcome.state
      have size_le : size ≤ (memory.content (problem.plan.id quantity)).toList.length := by
        rw [Array.length_toList, size_content, problem.sizeOf_eq isShift.shape]
        exact Nat.le_mul_of_pos_left size last.succ_pos
      refine others.trans ?_
      rw [shifted, List.flatMap_cons, List.length_cons, Nat.succ_mul, Nat.add_comm,
        ← List.drop_drop, List.drop_append_of_le_length size_le, List.append_assoc]

end Runs

/-! ## Both shifts -/

/-- As many shifts as there are blocks leave what was passed, in its order. -/
theorem IsShift.runAll_full {routine : Routine α}
    (isShift : problem.IsShift routine quantity size last)
    (wellFormed : problem.WellFormed) (host : Host α σ problem.program.table.sizes)
    (memory : problem.Contents) (state : σ) {ends : List (Array α)}
    (count : ends.length = last + 1) (sizes_eq : ∀ values ∈ ends, values.size = size) :
    let orders := ends.map fun values => (routine.name, [Passed.array values])
    ((problem.program.runAll host orders (memory, state)).1.content
        (problem.plan.id quantity)).toList = ends.flatMap Array.toList := by
  intro orders
  have length_eq : (memory.content (problem.plan.id quantity)).toList.length =
      ends.length * size := by
    rw [Array.length_toList, size_content, problem.sizeOf_eq isShift.shape, count]
  exact (isShift.runAll wellFormed host ends sizes_eq memory state).trans
    (List.drop_left' length_eq)

theorem isShift_states (wellFormed : problem.WellFormed) :
    problem.IsShift (Horizon.shiftStatesRoutine problem problem.plan) .x problem.dims.nx
      problem.dims.n where
  mem := by
    rw [routines_program]
    simp
  shape := by simp
  parameters := ⟨_, rfl⟩
  locals_eq := rfl
  result := rfl
  body := by
    rw [if_pos wellFormed.n_pos]
    rfl

theorem isShift_controls (wellFormed : problem.WellFormed) :
    problem.IsShift (Horizon.shiftControlsRoutine problem problem.plan) .u problem.dims.nu
      (problem.dims.n - 1) where
  mem := by
    rw [routines_program]
    simp
  shape := by
    rw [Nat.sub_add_cancel wellFormed.n_pos]
    simp
  parameters := ⟨_, rfl⟩
  locals_eq := rfl
  result := rfl
  body := by
    simp only [Horizon.shiftControlsRoutine, Nat.sub_pos_iff_lt]

end Problem

/-- Shifts of the horizon.  A shift of the states moves every state one node back and puts
what it is passed at the end of the horizon; a shift of the controls does the same with the
controls.  No other array of the module changes.  As many shifts as there are blocks leave
exactly what was passed, in its order. -/
theorem shifts_of_accepted {α σ : Type} [Scalar α] {description : Description α}
    {problem : Problem α} (accepted : description.validate.value = some problem)
    (host : Host α σ problem.program.table.sizes) (state : σ) (memory : problem.Contents) :
    let dims := description.dims
    let program := problem.program
    let shiftStates (xEnd : Array α) := (Horizon.shiftStatesName, [Passed.array xEnd])
    let shiftControls (uEnd : Array α) := (Horizon.shiftControlsName, [Passed.array uEnd])
    Plan.ofProblem problem = .ok problem.plan ∧
      (∀ xEnd : Array α, xEnd.size = dims.nx →
        let outcome := program.run host state memory Horizon.shiftStatesName [.array xEnd]
        outcome.result = .ok 0 ∧
          problem.Shifts .x dims.nx dims.n xEnd memory outcome.memory) ∧
      (∀ uEnd : Array α, uEnd.size = dims.nu →
        let outcome := program.run host state memory Horizon.shiftControlsName [.array uEnd]
        outcome.result = .ok 0 ∧
          problem.Shifts .u dims.nu (dims.n - 1) uEnd memory outcome.memory) ∧
      (∀ ends : List (Array α), ends.length = dims.n + 1 → (∀ xEnd ∈ ends, xEnd.size = dims.nx) →
        ((program.runAll host (ends.map shiftStates) (memory, state)).1.content
          (problem.plan.id .x)).toList = ends.flatMap Array.toList) ∧
      ∀ ends : List (Array α), ends.length = dims.n → (∀ uEnd ∈ ends, uEnd.size = dims.nu) →
        ((program.runAll host (ends.map shiftControls) (memory, state)).1.content
          (problem.plan.id .u)).toList = ends.flatMap Array.toList := by
  intro dims program shiftStates shiftControls
  have wellFormed := Description.wellFormed_of_validate accepted
  have dims_eq : problem.dims = dims := (Description.keeps_of_validate accepted).dims
  have states := Problem.isShift_states wellFormed
  have controls := Problem.isShift_controls wellFormed
  rw [← dims_eq]
  refine ⟨wellFormed.ofProblem_eq_ok, fun xEnd size_eq => ?_, fun uEnd size_eq => ?_,
    fun ends count sizes_eq => states.runAll_full wellFormed host memory state count sizes_eq,
    fun ends count sizes_eq => controls.runAll_full wellFormed host memory state
      (count.trans (Nat.sub_add_cancel wellFormed.n_pos).symm) sizes_eq⟩
  · obtain ⟨result, _, writes⟩ := states.run wellFormed host state memory size_eq
    exact ⟨result, Problem.shifts_of_writes size_eq writes⟩
  · obtain ⟨result, _, writes⟩ := controls.run wellFormed host state memory size_eq
    exact ⟨result, Problem.shifts_of_writes size_eq writes⟩

/-- The states one, two and three of a small problem move back for a nine, and three shifts
replace them. -/
theorem shifts_twoIntervals :
    let problem := Problem.twoIntervals
    let program := problem.program
    let start := program.initialMemory.overwrite (problem.plan.id .x) #[1, 2, 3]
    let outcome := program.run Host.idle () start Horizon.shiftStatesName [.array #[9]]
    let orders := [#[4], #[5], #[6]].map fun xEnd : Array ℚ =>
      (Horizon.shiftStatesName, [Passed.array xEnd])
    Description.twoIntervals.validate.value = some problem ∧
      problem.slice outcome.memory .x 0 1 = [2] ∧ problem.slice outcome.memory .x 1 1 = [3] ∧
      problem.slice outcome.memory .x 2 1 = [9] ∧
      ((program.runAll Host.idle orders (start, ())).1.content (problem.plan.id .x)).toList =
        [4, 5, 6] := by
  intro problem program start outcome orders
  obtain ⟨_, states, _, all, _⟩ :=
    shifts_of_accepted Description.validate_twoIntervals Host.idle () start
  have shifts := (states #[9] rfl).2
  refine ⟨Description.validate_twoIntervals, (shifts.moved 0 (by decide)).trans ?_,
    (shifts.moved 1 (by decide)).trans ?_, shifts.appended, ?_⟩
  · decide +kernel
  · decide +kernel
  · exact all [#[4], #[5], #[6]] rfl (by decide)

end RtiAssembly
