import RtiAssembly.Proofs.Machine.Lookup

/-!
# Cells

An assignment to a dense window changes the cells of the window and no others.
What stands in a cell afterwards is its old content combined with one entry of
the assigned matrix; read as a matrix, the window holds the assigned one.
-/

namespace RtiAssembly

/-- Rows and columns of a rectangle, counted row by row. -/
theorem Window.positions_eq_map (rows cols : Nat) :
    positions rows cols =
      (List.range (rows * cols)).map fun count => (count / cols, count % cols) := by
  by_cases none : cols = 0
  · simp [positions, none]
  · rw [positions, if_neg none]
    induction rows with
    | zero => simp
    | succ rows ih =>
        rw [List.range_succ, List.flatMap_append, ih, Nat.succ_mul, List.range_add,
          List.map_append, List.flatMap_singleton, List.map_map]
        congr 1
        refine List.map_congr_left fun col mem => ?_
        have col_lt : col < cols := List.mem_range.1 mem
        rw [Function.comp_apply, Matrix.position_div rows col_lt,
          Matrix.position_mod rows col_lt]

namespace Store

variable {α : Type} {sizes : List Nat} {store : Store α sizes}

/-! ## Single cells -/

theorem read_stack_congr [Scalar α] {other : Store α sizes} (same : store.stack = other.stack)
    (buffer position : Nat) :
    store.read ⟨.stack buffer, position⟩ = other.read ⟨.stack buffer, position⟩ := by
  simp only [read, content, same]

theorem content_write (store : Store α sizes) (cell : Cell) (value : α) (buffer : Buffer) :
    (store.write cell value).content buffer =
      if buffer = cell.buffer then (store.content buffer).setIfInBounds cell.position value
      else store.content buffer := by
  obtain ⟨target, position⟩ := cell
  unfold write content
  cases target with
  | global id =>
      cases buffer with
      | stack other => simp
      | global other =>
          simp only [Memory.write, Memory.modify, Memory.content, Array.getD_eq_getD_getElem?,
            Array.getElem?_modify, Buffer.global.injEq, eq_comm]
          by_cases same : id = other
          · subst same
            cases found : store.memory.arrays[id]? <;> simp
          · simp [same]
  | stack place =>
      cases buffer with
      | global other => simp
      | stack other =>
          simp only [Array.getD_eq_getD_getElem?, Array.getElem?_modify, Buffer.stack.injEq,
            eq_comm]
          by_cases same : place = other
          · subst same
            cases found : store.stack[place]? <;> simp
          · simp [same]

theorem size_content_write (store : Store α sizes) (cell : Cell) (value : α) (buffer : Buffer) :
    ((store.write cell value).content buffer).size = (store.content buffer).size :=
  (alike_write store cell value).size_content buffer

variable [Scalar α]

theorem read_write {cell : Cell} (inside : cell.position < (store.content cell.buffer).size)
    (value : α) (other : Cell) :
    (store.write cell value).read other = if other = cell then value else store.read other := by
  obtain ⟨buffer, position⟩ := cell
  obtain ⟨otherBuffer, otherPosition⟩ := other
  simp only [read, content_write, Cell.mk.injEq]
  by_cases sameBuffer : otherBuffer = buffer
  · subst sameBuffer
    by_cases samePosition : otherPosition = position
    · subst samePosition
      simp [Array.getD_eq_getD_getElem?, inside]
    · simp [Array.getD_eq_getD_getElem?, samePosition,
        Array.getElem?_setIfInBounds_ne (Ne.symm samePosition)]
  · simp [sameBuffer]

/-- A store is determined by the sizes of its buffers and what its cells hold. -/
theorem ext_read {first second : Store α sizes} (alike : first.Alike second)
    (reads : ∀ cell, first.read cell = second.read cell) : first = second := by
  have content_eq (buffer : Buffer) : first.content buffer = second.content buffer := by
    apply Array.ext (alike.size_content buffer)
    intro position inside insideSecond
    have same := reads ⟨buffer, position⟩
    simpa [read, Array.getD_eq_getD_getElem?, inside, insideSecond] using same
  have memory_eq : first.memory.arrays = second.memory.arrays := by
    apply Array.ext
    · simpa using congrArg List.length
        (first.memory.sizes_arrays.trans second.memory.sizes_arrays.symm)
    · intro id inside insideSecond
      have same := content_eq (.global id)
      simpa [content, Memory.content, Array.getD_eq_getD_getElem?, inside, insideSecond] using same
  have stack_eq : first.stack = second.stack := by
    apply Array.ext alike.size_stack
    intro position inside insideSecond
    have same := content_eq (.stack position)
    simpa [content, Array.getD_eq_getD_getElem?, inside, insideSecond] using same
  obtain ⟨⟨_, _⟩, _⟩ := first
  obtain ⟨⟨_, _⟩, _⟩ := second
  cases memory_eq
  cases stack_eq
  rfl

/-! ## Dense windows -/

/-- Combine the first cells behind a start with the entries of a matrix. -/
def fill (store : Store α sizes) (start : Cell) (cols : Nat) (op : AssignOp) (value : Matrix α) :
    (count : Nat) → Store α sizes
  | 0 => store
  | count + 1 =>
      let before := store.fill start cols op value count
      before.write (start.plus count) (op.combine (before.read (start.plus count))
        (value.entry (count / cols) (count % cols)))

/-- Assigning to a dense window goes through its cells in order. -/
theorem combine_dense (store : Store α sizes) (start : Cell) (base : Base)
    (offset : AffineIndex) (rows cols : Nat) (op : AssignOp) (value : Matrix α) :
    store.combine start (.dense base offset rows cols) op value =
      store.fill start cols op value (rows * cols) := by
  have elements_eq : (Window.dense base offset rows cols).elements =
      (List.range (rows * cols)).map fun count => (count / cols, count % cols) :=
    Window.positions_eq_map rows cols
  unfold combine
  rw [elements_eq, List.foldl_map]
  induction rows * cols with
  | zero => rfl
  | succ count ih =>
      have position_eq : (Window.dense base offset rows cols).position (count / cols)
          (count % cols) = count := Nat.div_add_mod' count cols
      rw [List.range_succ, List.foldl_append, ih]
      simp only [List.foldl_cons, List.foldl_nil, position_eq]
      rfl

/-- The cells in front are written, those behind still hold their old content. -/
theorem read_fill {start : Cell} {count : Nat} (cols : Nat) (op : AssignOp) (value : Matrix α)
    (room : start.position + count ≤ (store.content start.buffer).size) (cell : Cell) :
    ((store.fill start cols op value count).content start.buffer).size =
        (store.content start.buffer).size ∧
      (store.fill start cols op value count).read cell =
        if cell.buffer = start.buffer ∧ start.position ≤ cell.position ∧
            cell.position < start.position + count then
          op.combine (store.read cell)
            (value.entry ((cell.position - start.position) / cols)
              ((cell.position - start.position) % cols))
        else store.read cell := by
  induction count generalizing cell with
  | zero => simp [fill]
  | succ count ih =>
      have roomBefore : start.position + count ≤ (store.content start.buffer).size := by omega
      obtain ⟨size_eq, read_eq⟩ := ih roomBefore (start.plus count)
      have inside : (start.plus count).position <
          ((store.fill start cols op value count).content (start.plus count).buffer).size := by
        rw [Cell.plus, size_eq]
        exact room
      constructor
      · rw [fill, size_content_write, size_eq]
      · rw [fill, read_write inside, read_eq, (ih roomBefore cell).2]
        by_cases here : cell = start.plus count
        · subst here
          simp [Cell.plus]
        · have elsewhere : ¬(cell.buffer = start.buffer ∧
              cell.position = start.position + count) := by
            rintro ⟨sameBuffer, samePosition⟩
            apply here
            cases cell
            simp_all [Cell.plus]
          have same : (cell.buffer = start.buffer ∧ start.position ≤ cell.position ∧
                cell.position < start.position + count) ↔
              (cell.buffer = start.buffer ∧ start.position ≤ cell.position ∧
                cell.position < start.position + (count + 1)) := by
            refine and_congr_right fun sameBuffer => ?_
            have samePosition : cell.position ≠ start.position + count :=
              fun same => elsewhere ⟨sameBuffer, same⟩
            omega
          rw [if_neg here]
          simp only [same]

/-- An assignment changes the cells of its window and no others. -/
theorem read_combine {start : Cell} {base : Base} {offset : AffineIndex} {rows cols : Nat}
    (room : start.position + rows * cols ≤ (store.content start.buffer).size) (op : AssignOp)
    (value : Matrix α) (cell : Cell) :
    (store.combine start (.dense base offset rows cols) op value).read cell =
      if cell.buffer = start.buffer ∧ start.position ≤ cell.position ∧
          cell.position < start.position + rows * cols then
        op.combine (store.read cell)
          (value.entry ((cell.position - start.position) / cols)
            ((cell.position - start.position) % cols))
      else store.read cell := by
  rw [combine_dense]
  exact (read_fill cols op value room cell).2

/-- An assignment to an array on the stack leaves the module as it is. -/
theorem memory_combine_stack (store : Store α sizes) (position first : Nat) (window : Window)
    (op : AssignOp) (value : Matrix α) :
    (store.combine ⟨.stack position, first⟩ window op value).memory = store.memory := by
  unfold combine
  induction window.elements generalizing store with
  | nil => rfl
  | cons entry rest ih => rw [List.foldl_cons, ih]; rfl

/-- An assignment to an array of the module leaves the stack as it is. -/
theorem stack_combine_global (store : Store α sizes) (id first : Nat) (window : Window)
    (op : AssignOp) (value : Matrix α) :
    (store.combine ⟨.global id, first⟩ window op value).stack = store.stack := by
  unfold combine
  induction window.elements generalizing store with
  | nil => rfl
  | cons entry rest ih => rw [List.foldl_cons, ih]; rfl

/-! ## Consecutive cells -/

/-- Writing values to consecutive cells, as far as there are values. -/
theorem read_writeAll {buffer : Buffer} {first count : Nat}
    (room : first + count ≤ (store.content buffer).size) (values : List α) (cell : Cell) :
    (store.writeAll (((List.range' first count).map (Cell.mk buffer)).zip values)).read cell =
      if cell.buffer = buffer ∧ first ≤ cell.position ∧ cell.position < first + count then
        values.getD (cell.position - first) (store.read cell)
      else store.read cell := by
  induction count generalizing first store values with
  | zero =>
      rw [if_neg (by omega)]
      rfl
  | succ count ih =>
      cases values with
      | nil =>
          rw [List.zip_nil_right]
          split <;> rfl
      | cons value rest =>
          have inside : (Cell.mk buffer first).position < (store.content buffer).size :=
            Nat.lt_of_lt_of_le (Nat.lt_add_of_pos_right (Nat.succ_pos count)) room
          have roomLater : first + 1 + count ≤
              ((store.write ⟨buffer, first⟩ value).content buffer).size := by
            rw [size_content_write]
            omega
          have later := ih roomLater rest
          rw [read_write inside] at later
          rw [List.range'_succ, List.map_cons, List.zip_cons_cons]
          refine Eq.trans later ?_
          by_cases here : cell = ⟨buffer, first⟩
          · subst here
            simp
          · rw [if_neg here]
            by_cases behind : cell.buffer = buffer ∧ first + 1 ≤ cell.position ∧
                cell.position < first + 1 + count
            · have difference : cell.position - first = cell.position - (first + 1) + 1 := by
                omega
              have among : cell.buffer = buffer ∧ first ≤ cell.position ∧
                  cell.position < first + (count + 1) := ⟨behind.1, by omega, by omega⟩
              rw [if_pos behind, if_pos among, difference, List.getD_cons_succ]
            · have outside : ¬(cell.buffer = buffer ∧ first ≤ cell.position ∧
                  cell.position < first + (count + 1)) := by
                rintro ⟨sameBuffer, first_le, position_lt⟩
                have moved : cell.position ≠ first := fun samePosition => here (by
                  cases cell
                  simp_all)
                exact behind ⟨sameBuffer, by omega, by omega⟩
              rw [if_neg behind, if_neg outside]

end Store

end RtiAssembly
