import RtiAssembly.Proofs.Machine.Effect
import RtiAssembly.Proofs.Matrix

/-!
# Look-ups that succeed

A computation returns if it ends without a fault.  Looking up the elements of a
window returns if the frame sees the whole window, and then the window shows
what stands in its cells.  A look-up that returns has found a cell.  Nothing that
a statement does to a store changes the sizes of its buffers, so what a frame
sees stays in sight.
-/

namespace RtiAssembly

/-! ## Computations that return -/

namespace Execution

variable {α σ β γ : Type} {sizes : List Nat}

/-- A computation that returns a value and leaves a world behind. -/
def Returns (execution : Execution α σ sizes β) (world : World α σ sizes) (value : β)
    (after : World α σ sizes) : Prop :=
  execution.run.run world = (.ok value, after)

theorem returns_pure (value : β) (world : World α σ sizes) :
    Returns (pure value) world value world := rfl

theorem Returns.bind {first : Execution α σ sizes β} {next : β → Execution α σ sizes γ}
    {world middle after : World α σ sizes} {value : β} {result : γ}
    (firstReturns : Returns first world value middle)
    (nextReturns : Returns (next value) middle result after) :
    Returns (first >>= next) world result after := by
  unfold Returns at firstReturns nextReturns ⊢
  rw [ExceptT.run_bind, StateT.run_bind, firstReturns]
  exact nextReturns

theorem returns_get (world : World α σ sizes) :
    Returns (get : Execution α σ sizes (World α σ sizes)) world world world := rfl

theorem returns_set (world after : World α σ sizes) :
    Returns (set after : Execution α σ sizes PUnit) world () after := rfl

theorem returns_change (step : Store α sizes → Store α sizes) (world : World α σ sizes) :
    Returns (change step) world () (world.update step) := rfl

theorem returns_inspect {query : Store α sizes → Except Fault β} {world : World α σ sizes}
    {value : β} (found : query world.store = .ok value) :
    Returns (inspect query) world value world := by
  unfold Returns inspect
  rw [ExceptT.run_bind, StateT.run_bind]
  change (inspect.liftExcept (query world.store)).run.run world = _
  rw [found]
  rfl

/-- A look-up that fails leaves the world as it is. -/
theorem run_inspect_of_error {query : Store α sizes → Except Fault β} {world : World α σ sizes}
    {fault : Fault} (found : query world.store = .error fault) :
    (inspect query).run.run world = (.error fault, world) := by
  unfold inspect
  rw [ExceptT.run_bind, StateT.run_bind]
  change (inspect.liftExcept (query world.store)).run.run world = _
  rw [found]
  rfl

/-- A sweep whose visits all return goes from world to world. -/
theorem returns_forM {items : List β} {visit : β → Execution α σ sizes PUnit}
    {step : World α σ sizes → β → World α σ sizes}
    {invariant : World α σ sizes → Prop} {world : World α σ sizes}
    (visitReturns : ∀ item ∈ items, ∀ world, invariant world →
      Returns (visit item) world () (step world item) ∧ invariant (step world item))
    (holds : invariant world) :
    Returns (items.forM visit) world () (items.foldl step world) ∧
      invariant (items.foldl step world) := by
  induction items generalizing world with
  | nil => exact ⟨rfl, holds⟩
  | cons item rest ih =>
      obtain ⟨firstReturns, kept⟩ := visitReturns item List.mem_cons_self world holds
      obtain ⟨restReturns, keptLast⟩ := ih
        (fun other mem => visitReturns other (List.mem_cons_of_mem item mem)) kept
      rw [List.forM_eq_forM, List.forM_cons]
      exact ⟨firstReturns.bind restReturns, keptLast⟩

end Execution

theorem forM_eq_ok {β : Type} {items : List β} {visit : β → Except Fault PUnit}
    (each : ∀ item ∈ items, visit item = .ok ()) : items.forM visit = .ok () := by
  induction items with
  | nil => rfl
  | cons item rest ih =>
      rw [List.forM_eq_forM, List.forM_cons, each item List.mem_cons_self]
      exact ih fun other mem => each other (List.mem_cons_of_mem item mem)

theorem eq_ok_of_forM {β : Type} {items : List β} {visit : β → Except Fault PUnit}
    (passes : items.forM visit = .ok ()) : ∀ item ∈ items, visit item = .ok () := by
  induction items with
  | nil => exact fun _ mem => absurd mem List.not_mem_nil
  | cons first rest ih =>
      rw [List.forM_eq_forM, List.forM_cons] at passes
      cases visited : visit first with
      | error fault =>
          rw [visited] at passes
          contradiction
      | ok done =>
          rw [visited] at passes
          exact List.forall_mem_cons.2 ⟨visited, ih passes⟩

theorem mapM_eq_ok {β γ : Type} {items : List β} {visit : β → Except Fault γ} {value : β → γ}
    (each : ∀ item ∈ items, visit item = .ok (value item)) :
    items.mapM visit = .ok (items.map value) := by
  induction items with
  | nil => rfl
  | cons item rest ih =>
      rw [List.mapM_cons, each item List.mem_cons_self,
        ih fun other mem => each other (List.mem_cons_of_mem item mem)]
      rfl

/-! ## Sizes of buffers -/

theorem Memory.size_content {α : Type} {sizes : List Nat} (memory : Memory α sizes) (id : Nat) :
    (memory.content id).size = sizes.getD id 0 := by
  have same := congrArg (fun sizes : List Nat => sizes.getD id 0) memory.sizes_arrays
  simp only [List.getD_eq_getElem?_getD, List.getElem?_map, Array.getElem?_toList] at same
  rw [content, Array.getD_eq_getD_getElem?, List.getD_eq_getElem?_getD, ← same]
  cases memory.arrays[id]? <;> rfl

/-- Overwriting an array leaves the others as they are. -/
theorem Memory.content_overwrite_of_ne {α : Type} {sizes : List Nat} (memory : Memory α sizes)
    {id other : Nat} (apart : id ≠ other) (values : Array α) :
    (memory.overwrite id values).content other = memory.content other := by
  simp [content, overwrite, modify, Array.getD_eq_getD_getElem?, Array.getElem?_modify, apart]

namespace Store

variable {α : Type} {sizes : List Nat}

/-- Two stores have buffers of the same sizes. -/
def Alike (first second : Store α sizes) : Prop :=
  first.stack.toList.map Array.size = second.stack.toList.map Array.size

theorem Alike.refl (store : Store α sizes) : store.Alike store := rfl

theorem Alike.trans {first second third : Store α sizes} (left : first.Alike second)
    (right : second.Alike third) : first.Alike third :=
  Eq.trans left right

theorem Alike.symm {first second : Store α sizes} (alike : first.Alike second) :
    second.Alike first :=
  Eq.symm alike

theorem Alike.size_content {first second : Store α sizes} (alike : first.Alike second)
    (buffer : Buffer) : (first.content buffer).size = (second.content buffer).size := by
  cases buffer with
  | global id => rw [content, content, Memory.size_content, Memory.size_content]
  | stack position =>
      have same := congrArg (fun sizes : List Nat => sizes.getD position 0) alike
      simp only [List.getD_eq_getElem?_getD, List.getElem?_map, Array.getElem?_toList] at same
      simp only [content, Array.getD_eq_getD_getElem?]
      generalize first.stack[position]? = left at same ⊢
      generalize second.stack[position]? = right at same ⊢
      cases left <;> cases right <;> exact same

theorem Alike.size_stack {first second : Store α sizes} (alike : first.Alike second) :
    first.stack.size = second.stack.size := by
  simpa using congrArg List.length alike

theorem alike_write (store : Store α sizes) (cell : Cell) (value : α) :
    (store.write cell value).Alike store := by
  unfold write
  cases cell.buffer with
  | global id => rfl
  | stack position =>
      exact Memory.map_size_modify _ _ _ fun _ => Array.size_setIfInBounds

theorem alike_clear [Scalar α] (store : Store α sizes) (id : Nat) :
    (store.clear id).Alike store := rfl

theorem alike_writeAll (store : Store α sizes) (entries : List (Cell × α)) :
    (store.writeAll entries).Alike store := by
  induction entries generalizing store with
  | nil => rfl
  | cons entry rest ih => exact (ih _).trans (alike_write store entry.1 entry.2)

theorem alike_combine [Scalar α] (store : Store α sizes) (start : Cell) (window : Window)
    (op : AssignOp) (value : Matrix α) : (store.combine start window op value).Alike store := by
  unfold combine
  induction window.elements generalizing store with
  | nil => rfl
  | cons element rest ih => exact (ih _).trans (alike_write store _ _)

theorem alike_putBack [Scalar α] (store : Store α sizes) (frame : Frame) (argument : Argument)
    (left : Passed α) : (store.putBack frame argument left).Alike store := by
  unfold putBack
  split
  · exact alike_writeAll store _
  · rfl

end Store

/-! ## Elements of windows -/

namespace Window

theorem mem_positions {rows cols row col : Nat} :
    (row, col) ∈ positions rows cols ↔ row < rows ∧ col < cols := by
  unfold positions
  split
  · rename_i none
    simp [none]
  · simp

theorem storedPosition_lt {window : Window} {row col : Nat} (row_lt : row < window.rows)
    (col_lt : col < window.cols) : window.storedPosition row col < window.extent := by
  have rows_le : row * window.stride ≤ (window.rows - 1) * window.stride :=
    Nat.mul_le_mul_right _ (by omega)
  rw [storedPosition, extent, if_neg (by omega)]
  omega

theorem extent_pos {window : Window} (nonempty : 0 < window.size) : 0 < window.extent := by
  have rows_pos : 0 < window.rows := Nat.pos_of_mul_pos_right nonempty
  have cols_pos : 0 < window.cols := Nat.pos_of_mul_pos_left nonempty
  exact Nat.zero_lt_of_lt (storedPosition_lt rows_pos cols_pos)

theorem position_lt {window : Window} {row col : Nat} (row_lt : row < window.shape.1)
    (col_lt : col < window.shape.2) : window.position row col < window.extent := by
  unfold shape at row_lt col_lt
  unfold position
  split
  · rename_i transposed
    rw [if_pos transposed] at row_lt col_lt
    exact storedPosition_lt col_lt row_lt
  · rename_i upright
    rw [if_neg upright] at row_lt col_lt
    exact storedPosition_lt row_lt col_lt

end Window

namespace Frame

variable {α : Type} {sizes : List Nat} {frame : Frame} {store : Store α sizes} {window : Window}

/-- All elements of a window lie inside its array. -/
def Sees (frame : Frame) (store : Store α sizes) (window : Window) : Prop :=
  ∃ origin offset, frame.origin? window.base = some origin ∧
    (window.offset.evalIn? fun name => frame.scope.lookup name) = some offset ∧
    origin.position + offset + window.extent ≤ (store.content origin.buffer).size

theorem Sees.of_alike {other : Store α sizes} (sees : frame.Sees store window)
    (alike : store.Alike other) : frame.Sees other window := by
  obtain ⟨origin, offset, base, index, room⟩ := sees
  exact ⟨origin, offset, base, index, by rwa [← alike.size_content]⟩

theorem locate_eq_ok (sees : frame.Sees store window) {distance : Nat}
    (inside : distance < window.extent) :
    frame.locate store window distance = .ok ((frame.startOf window).plus distance) := by
  obtain ⟨origin, offset, base, index, room⟩ := sees
  have valueOf_eq : frame.valueOf window.offset = offset := by rw [valueOf, index]; rfl
  have startOf_eq : frame.startOf window = origin.plus offset := by
    rw [startOf, base, valueOf_eq]
    rfl
  unfold locate
  rw [base]
  simp only [Frame.index, index]
  rw [startOf_eq]
  exact if_pos (by omega)

theorem check_eq_ok (sees : frame.Sees store window) : frame.check store window = .ok () := by
  unfold check
  rw [sweepPositions_eq_forM]
  refine forM_eq_ok fun ⟨row, col⟩ mem => ?_
  obtain ⟨row_lt, col_lt⟩ := Window.mem_positions.1 mem
  simp only [locate_eq_ok sees (Window.position_lt row_lt col_lt)]
  rfl

theorem cells_eq_ok (sees : frame.Sees store window) :
    frame.cells store window = .ok (frame.cellsOf window) := by
  have stored : frame.checkStored store window = .ok () := by
    unfold checkStored
    rw [sweepPositions_eq_forM]
    refine forM_eq_ok fun ⟨row, col⟩ mem => ?_
    obtain ⟨row_lt, col_lt⟩ := Window.mem_positions.1 mem
    simp only [locate_eq_ok sees (Window.storedPosition_lt row_lt col_lt)]
    rfl
  unfold cells
  rw [stored]
  refine mapM_eq_ok fun ⟨row, col⟩ mem => ?_
  obtain ⟨row_lt, col_lt⟩ := Window.mem_positions.1 mem
  exact locate_eq_ok sees (Window.storedPosition_lt row_lt col_lt)

/-- Every element of a checked window has a cell. -/
theorem locate_of_check (checked : frame.check store window = .ok ()) {row col : Nat}
    (row_lt : row < window.shape.1) (col_lt : col < window.shape.2) :
    ∃ cell, frame.locate store window (window.position row col) = .ok cell := by
  rw [check, sweepPositions_eq_forM] at checked
  have visited := eq_ok_of_forM checked (row, col) (Window.mem_positions.2 ⟨row_lt, col_lt⟩)
  cases located : frame.locate store window (window.position row col) with
  | error fault =>
      simp only [located] at visited
      contradiction
  | ok cell => exact ⟨cell, rfl⟩

/-- What is known about an element that has a cell. -/
theorem of_locate {distance : Nat} {cell : Cell}
    (located : frame.locate store window distance = .ok cell) :
    ∃ origin offset, frame.origin? window.base = some origin ∧
      (window.offset.evalIn? fun name => frame.scope.lookup name) = some offset ∧
      cell = origin.plus (offset + distance) ∧
      cell.position < (store.content cell.buffer).size := by
  unfold locate at located
  cases base : frame.origin? window.base with
  | none =>
      rw [base] at located
      contradiction
  | some origin =>
      cases index : window.offset.evalIn? fun name => frame.scope.lookup name with
      | none =>
          simp only [base, Frame.index, index] at located
          contradiction
      | some offset =>
          simp only [base, Frame.index, index] at located
          by_cases inside : origin.position + offset + distance <
              (store.content origin.buffer).size
          · have cell_eq := (Except.ok.inj ((if_pos inside).symm.trans located)).symm
            subst cell_eq
            refine ⟨origin, offset, rfl, rfl, ?_, inside⟩
            rw [Cell.plus, Nat.add_assoc]
          · have failed := (if_neg inside).symm.trans located
            contradiction

variable [Scalar α]

theorem view_eq (sees : frame.Sees store window) :
    frame.view store window = frame.shown store window := by
  refine Matrix.ofFn_congr fun row row_lt col col_lt => ?_
  rw [locate_eq_ok sees (Window.position_lt row_lt col_lt)]

/-- A window shows what stands in the cells of its elements. -/
theorem entry_view {row col : Nat} (row_lt : row < window.shape.1) (col_lt : col < window.shape.2)
    {cell : Cell} (located : frame.locate store window (window.position row col) = .ok cell) :
    (frame.view store window).entry row col = store.read cell := by
  rw [view, Matrix.entry_ofFn _ row_lt col_lt, located]

/-- The value of an expression depends on what its windows show. -/
theorem value_congr {first second : Window → Matrix α} {expr : Expr α}
    (same : ∀ window ∈ expr.windows, first window = second window) :
    expr.value first = expr.value second := by
  induction expr with
  | read window => exact same window (List.mem_singleton_self window)
  | known value => rfl
  | add left right leftSame rightSame =>
      rw [Expr.value, Expr.value,
        leftSame fun window mem => same window (List.mem_append_left _ mem),
        rightSame fun window mem => same window (List.mem_append_right _ mem)]
  | sub left right leftSame rightSame =>
      rw [Expr.value, Expr.value,
        leftSame fun window mem => same window (List.mem_append_left _ mem),
        rightSame fun window mem => same window (List.mem_append_right _ mem)]
  | mul left right leftSame rightSame =>
      rw [Expr.value, Expr.value,
        leftSame fun window mem => same window (List.mem_append_left _ mem),
        rightSame fun window mem => same window (List.mem_append_right _ mem)]
  | abs inner innerSame => rw [Expr.value, Expr.value, innerSame same]

theorem evaluate_eq_ok {expr : Expr α} (sees : ∀ window ∈ expr.windows, frame.Sees store window) :
    frame.evaluate store expr = .ok (frame.valueIn store expr) := by
  have checked : expr.windows.forM (frame.check store) = .ok () :=
    forM_eq_ok fun window mem => check_eq_ok (sees window mem)
  have shows : expr.value (frame.view store) = expr.value (frame.shown store) :=
    value_congr fun window mem => view_eq (sees window mem)
  unfold evaluate
  rw [checked, shows]
  rfl

end Frame

end RtiAssembly
