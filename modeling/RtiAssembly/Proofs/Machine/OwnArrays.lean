import RtiAssembly.Proofs.Matrix
import RtiAssembly.Proofs.Machine.Cells
import RtiAssembly.Proofs.Machine.Correctness
import RtiAssembly.Proofs.Machine.Writes

/-!
# Arrays of a routine's own

A routine keeps intermediate results in arrays that last until it returns.  An
assignment to such an array changes its elements and nothing else: neither the
module, nor the host, nor any other array on the stack.
-/

namespace RtiAssembly

open Statement

variable {α σ : Type} [Scalar α] {sizes : List Nat}

/-! ## Statements that ask nothing of the host -/

section Quiet

/-- A callee that leaves the host as it is. -/
def Scene.IsQuiet (scene : Scene α σ sizes) (callee : Callee) : Prop :=
  ∀ frame arguments world, (scene.call frame callee arguments world).2.state = world.state

variable {scene : Scene α σ sizes}

mutual

theorem Statement.state_effect {frame : Frame} : (statement : Statement α) →
    (∀ call ∈ statement.calls, scene.IsQuiet call.1) → (world : World α σ sizes) →
    (statement.effect scene frame world).state = world.state
  | .assign _ _ _, _, world => by
      rw [effect]
      rfl
  | .clear _, _, world => by
      rw [effect]
      rfl
  | .loop name start stop body, quiet, world => by
      rw [effect]
      induction List.range' start (stop - start) generalizing world with
      | nil => rfl
      | cons value rest ih =>
          rw [List.foldl_cons, ih]
          exact Statement.state_effects body quiet world
  | .call callee arguments status, quiet, world => by
      have kept := quiet _ (List.mem_singleton_self _) frame arguments world
      cases status with
      | none => rwa [effect]
      | some target => rwa [effect]
  | .comment _, _, world => by
      rw [effect]

/-- The host takes no part in statements whose calls are quiet. -/
theorem Statement.state_effects {frame : Frame} : (statements : List (Statement α)) →
    (∀ call ∈ callsOf statements, scene.IsQuiet call.1) → (world : World α σ sizes) →
    (effects scene frame statements world).state = world.state
  | [], _, world => by
      rw [effects]
  | statement :: rest, quiet, world => by
      rw [effects, Statement.state_effects rest fun call mem =>
          quiet call (List.mem_append_right _ mem),
        Statement.state_effect statement fun call mem => quiet call (List.mem_append_left _ mem)]

end

end Quiet

/-! ## Statements that write to the module only -/

section Stack

omit [Scalar α] in
theorem Frame.startOf_of_base {frame : Frame} {window : Window} {id : Nat}
    (base_eq : window.base = .global id) :
    frame.startOf window = ⟨.global id, 0 + frame.valueOf window.offset⟩ := by
  rw [startOf, base_eq]
  rfl

omit [Scalar α] in
/-- What an external function leaves in an array of the module is not on the stack. -/
theorem Store.stack_putBack (store : Store α sizes) {frame : Frame} {argument : Argument}
    (inModule : ∀ window ∈ argument.window?, ∃ id, window.base = .global id) (left : Passed α) :
    (store.putBack frame argument left).stack = store.stack := by
  unfold putBack
  split
  · rename_i window values
    obtain ⟨id, base_eq⟩ := inModule window rfl
    have listed : ∀ entry ∈ (frame.cellsOf window).zip values.toList,
        entry.1.buffer = .global id := by
      intro entry mem
      obtain ⟨element, _, cell_eq⟩ := List.mem_map.1 (List.of_mem_zip mem).1
      rw [← cell_eq, Frame.startOf_of_base base_eq]
      rfl
    unfold writeAll
    generalize (frame.cellsOf window).zip values.toList = entries at listed
    induction entries generalizing store with
    | nil => rfl
    | cons entry rest ih =>
        obtain ⟨⟨buffer, position⟩, value⟩ := entry
        obtain rfl : buffer = .global id := listed _ List.mem_cons_self
        exact ih _ fun other mem => listed other (List.mem_cons_of_mem _ mem)
  · rfl

variable {scene : Scene α σ sizes}

mutual

theorem Statement.stack_effect {frame : Frame} : (statement : Statement α) →
    (∀ base ∈ statement.targets, ∃ id, base = .global id) →
    (∀ call ∈ statement.calls, ∃ function, call.1 = .external function) →
    (world : World α σ sizes) →
    (statement.effect scene frame world).store.stack = world.store.stack
  | .assign target op value, inModule, _, world => by
      obtain ⟨id, base_eq⟩ := inModule _ (List.mem_singleton_self _)
      rw [effect, Frame.startOf_of_base base_eq]
      exact Store.stack_combine_global _ _ _ _ _ _
  | .clear _, _, _, world => by
      rw [effect]
      rfl
  | .loop name start stop body, inModule, external, world => by
      rw [effect]
      induction List.range' start (stop - start) generalizing world with
      | nil => rfl
      | cons value rest ih =>
          rw [List.foldl_cons, ih]
          exact Statement.stack_effects body inModule external world
  | .call (.routine _) _ _, _, external, _ => nomatch external _ (List.mem_singleton_self _)
  | .call (.external function) arguments status, inModule, _, world => by
      have restored (items : List (Argument × Passed α)) (store : Store α sizes)
          (passed : ∀ item ∈ items, item.1 ∈ arguments) :
          (items.foldl (fun store item => store.putBack frame item.1 item.2) store).stack =
            store.stack := by
        induction items generalizing store with
        | nil => rfl
        | cons item rest ih =>
            rw [List.foldl_cons, ih _ fun other mem => passed other (List.mem_cons_of_mem _ mem)]
            refine store.stack_putBack (fun window isWindow => inModule _ ?_) item.2
            refine List.mem_map_of_mem (List.mem_append_left _ (List.mem_filterMap.2 ?_))
            exact ⟨item.1, passed item List.mem_cons_self, isWindow⟩
      have called : (scene.callExternal frame function arguments world).2.store.stack =
          world.store.stack :=
        restored _ _ fun item mem => (List.of_mem_zip mem).1
      rw [effect]
      cases status with
      | none => exact called
      | some target =>
          obtain ⟨id, base_eq⟩ := inModule target.base
            (List.mem_map_of_mem (List.mem_append_right _ List.mem_cons_self))
          simp only [Scene.call, World.update, Frame.startOf_of_base base_eq]
          exact called
  | .comment _, _, _, world => by
      rw [effect]

/-- Statements that write to arrays of the module only leave the stack as it is. -/
theorem Statement.stack_effects {frame : Frame} : (statements : List (Statement α)) →
    (∀ base ∈ targetsOf statements, ∃ id, base = .global id) →
    (∀ call ∈ callsOf statements, ∃ function, call.1 = .external function) →
    (world : World α σ sizes) →
    (effects scene frame statements world).store.stack = world.store.stack
  | [], _, _, world => by
      rw [effects]
  | statement :: rest, inModule, external, world => by
      rw [effects, Statement.stack_effects rest
          (fun base mem => inModule base (List.mem_append_right _ mem))
          fun call mem => external call (List.mem_append_right _ mem),
        Statement.stack_effect statement
          (fun base mem => inModule base (List.mem_append_left _ mem))
          fun call mem => external call (List.mem_append_left _ mem)]

end

end Stack

/-! ## Elements of own arrays -/

namespace Frame

/-- The element of an array of the routine's own at a position. -/
def ownAt (frame : Frame) (store : Store α sizes) (array position : Nat) : α :=
  store.read ⟨.stack (frame.height + array), position⟩

/-- A window over an array of the routine's own shows its elements. -/
theorem shown_own (frame : Frame) (store : Store α sizes) (array rows cols : Nat) :
    frame.shown store (.dense (.own array) (.const 0) rows cols) =
      .ofFn rows cols fun row col => frame.ownAt store array (row * cols + col) := by
  refine Matrix.ofFn_congr fun row _ col _ => ?_
  have start_eq : frame.startOf (.dense (.own array) (.const 0) rows cols) =
      ⟨.stack (frame.height + array), 0⟩ := rfl
  rw [start_eq, Cell.plus, Nat.zero_add]
  rfl

/-- A step that writes the first elements of an array of the routine's own. -/
structure PutsOwn (frame : Frame) (array count : Nat) (value : Nat → α)
    (before after : World α σ sizes) : Prop where
  state : after.state = before.state
  memory : after.store.memory = before.store.memory
  alike : after.store.Alike before.store
  read_stack : ∀ other position, after.store.read ⟨.stack other, position⟩ =
    if other = frame.height + array ∧ position < count then value position
    else before.store.read ⟨.stack other, position⟩

namespace PutsOwn

variable {frame : Frame} {array count : Nat} {value : Nat → α} {before after : World α σ sizes}

theorem inside (puts : frame.PutsOwn array count value before after) {position : Nat}
    (position_lt : position < count) : frame.ownAt after.store array position = value position :=
  (puts.read_stack _ position).trans (if_pos ⟨rfl, position_lt⟩)

theorem other (puts : frame.PutsOwn array count value before after) {kept : Nat}
    (different : kept ≠ array) (position : Nat) :
    frame.ownAt after.store kept position = frame.ownAt before.store kept position :=
  (puts.read_stack _ position).trans
    (if_neg fun same => different (Nat.add_left_cancel same.1))

theorem congr {same : Nat → α} (puts : frame.PutsOwn array count value before after)
    (values_eq : ∀ position < count, value position = same position) :
    frame.PutsOwn array count same before after where
  state := puts.state
  memory := puts.memory
  alike := puts.alike
  read_stack other position := by
    rw [puts.read_stack]
    split
    · rename_i here
      exact values_eq position here.2
    · rfl

/-- What was written as a whole is shown. -/
theorem shown {matrix : Matrix α} {rows cols : Nat}
    (puts : frame.PutsOwn array (rows * cols) matrix.element before after)
    (shape_eq : matrix.shape = (rows, cols)) :
    frame.shown after.store (.dense (.own array) (.const 0) rows cols) = matrix := by
  rw [shown_own]
  refine Eq.trans (Matrix.ofFn_congr fun row row_lt col col_lt => puts.inside ?_)
    (Matrix.ofFn_element shape_eq)
  have le := Nat.mul_le_mul_right cols row_lt
  rw [Nat.succ_mul] at le
  omega

end PutsOwn

/-- An assignment to an array of the routine's own writes its elements. -/
theorem putsOwn_assign (scene : Scene α σ sizes) {frame : Frame} {world : World α σ sizes}
    {array rows cols : Nat}
    (room : rows * cols ≤ (world.store.content (.stack (frame.height + array))).size)
    (op : AssignOp) {value : Expr α}
    (shape_eq : (frame.valueIn world.store value).shape = (rows, cols)) :
    frame.PutsOwn array (rows * cols)
      (fun position => op.combine (frame.ownAt world.store array position)
        ((frame.valueIn world.store value).element position))
      world ((Statement.assign (.dense (.own array) (.const 0) rows cols) op value).effect scene
        frame world) := by
  let window := Window.dense (.own array) (.const 0) rows cols
  let matrix := frame.valueIn world.store value
  have cols_eq : matrix.cols = cols := congrArg Prod.snd shape_eq
  have after_eq : (Statement.assign window op value).effect scene frame world =
      world.update fun store =>
        store.combine ⟨.stack (frame.height + array), 0⟩ window op matrix := by
    rw [effect]
    exact World.update_congr rfl
  rw [after_eq]
  refine ⟨rfl, Store.memory_combine_stack _ _ _ _ _ _, Store.alike_combine _ _ _ _ _,
    fun other position => ?_⟩
  have written := @Store.read_combine α _ world.store _ ⟨.stack (frame.height + array), 0⟩
    (.own array) (.const 0) rows cols (by rwa [Nat.zero_add]) op matrix ⟨.stack other, position⟩
  refine Eq.trans written ?_
  simp only [Buffer.stack.injEq, Nat.zero_le, true_and, Nat.zero_add, Nat.sub_zero]
  split
  · rename_i here
    rw [here.1, Matrix.element, cols_eq]
    rfl
  · rfl

/-! ## Numbers of a routine's own -/

/-- An assignment of a number to the first element of an own array. -/
theorem putsOwn_scalar (scene : Scene α σ sizes) {frame : Frame} {world : World α σ sizes}
    {array : Nat}
    (room : 1 ≤ (world.store.content (.stack (frame.height + array))).size) (op : AssignOp)
    {value : Expr α} {number : α}
    (shape_eq : (frame.valueIn world.store value).shape = (1, 1))
    (entry_eq : (frame.valueIn world.store value).entry 0 0 = number) :
    frame.PutsOwn array 1
      (fun _ => op.combine (frame.ownAt world.store array 0) number)
      world ((Statement.assign (.dense (.own array) (.const 0) 1 1) op value).effect scene
        frame world) := by
  have cols_eq : (frame.valueIn world.store value).cols = 1 := congrArg Prod.snd shape_eq
  refine (putsOwn_assign scene room op shape_eq).congr fun position position_lt => ?_
  obtain rfl : position = 0 := Nat.lt_one_iff.1 position_lt
  rw [← entry_eq, Matrix.element, cols_eq]

end Frame

end RtiAssembly
