import RtiAssembly.Proofs.Machine.Cells
import RtiAssembly.Proofs.Machine.Recording
import RtiAssembly.Proofs.Program.Fitting

/-!
# Contents of quantities

The memory of a solver is read by quantity and position.  An assignment writes
consecutive elements of one quantity, and whatever a routine does to a memory
is bounded by the region of the elements that it may change.
-/

namespace RtiAssembly

namespace Problem

variable {α : Type} [Scalar α] {problem : Problem α}

/-! ## Elements and parts -/

/-- The memories of the program of a problem. -/
abbrev Contents (problem : Problem α) : Type :=
  problem.program.Contents

/-- The element of a quantity at a position, zero outside. -/
def valueAt (problem : Problem α) (memory : problem.Contents) (quantity : Quantity)
    (position : Nat) : α :=
  (memory.content (problem.plan.id quantity)).getD position 0

/-- Consecutive elements of a quantity as a matrix, row by row. -/
def part (problem : Problem α) (memory : problem.Contents) (quantity : Quantity)
    (start rows cols : Nat) : Matrix α :=
  .ofFn rows cols fun row col => problem.valueAt memory quantity (start + (row * cols + col))

/-- Number of elements of a quantity. -/
def sizeOf (problem : Problem α) (quantity : Quantity) : Nat :=
  (problem.shapeOf? quantity).elim 0 fun (rows, cols) => rows * cols

theorem size_content (memory : problem.Contents) (quantity : Quantity) :
    (memory.content (problem.plan.id quantity)).size = problem.sizeOf quantity := by
  have found : problem.program.table.arrays[problem.plan.id quantity]? =
      quantity.describe problem := problem.get?_id_plan quantity
  rw [Memory.size_content, ArrayTable.sizes, List.getD_eq_getElem?_getD, List.getElem?_map, found,
    sizeOf, shapeOf?]
  cases quantity.describe problem <;> rfl

/-- A quantity with elements is told apart by its position in the table. -/
theorem global_id_inj {quantity other : Quantity} {position : Nat}
    (inside : position < problem.sizeOf quantity) :
    Buffer.global (problem.plan.id other) = .global (problem.plan.id quantity) ↔
      other = quantity := by
  have present : problem.plan.has quantity = true := by
    rw [has_eq]
    unfold sizeOf at inside
    cases known : problem.shapeOf? quantity with
    | some _ => rfl
    | none =>
        rw [known] at inside
        contradiction
  rw [Buffer.global.injEq, eq_comm, problem.id_plan_inj present, eq_comm]

theorem sizeOf_eq {quantity : Quantity} {rows cols : Nat}
    (known : problem.shapeOf? quantity = some (rows, cols)) :
    problem.sizeOf quantity = rows * cols := by
  rw [sizeOf, known]
  rfl

/-- Arrays are equal if they hold the same quantities. -/
theorem content_eq {first second : problem.Contents} {quantity : Quantity}
    (same : ∀ position, problem.valueAt first quantity position =
      problem.valueAt second quantity position) :
    first.content (problem.plan.id quantity) = second.content (problem.plan.id quantity) := by
  apply Array.ext ((problem.size_content first quantity).trans
    (problem.size_content second quantity).symm)
  intro position inside insideSecond
  simpa [valueAt, Array.getD_eq_getD_getElem?, inside, insideSecond] using same position

/-- There are no other arrays than those in the table. -/
theorem content_eq_empty {id : Nat} (absent : problem.plan.table.get? id = none)
    (memory : problem.Contents) : memory.content id = #[] := by
  rw [← Array.size_eq_zero_iff, Memory.size_content, ArrayTable.sizes,
    List.getD_eq_getElem?_getD, List.getElem?_map,
    show problem.program.table.arrays[id]? = none from absent]
  rfl

/-- A memory is determined by what its quantities hold. -/
theorem memory_ext {first second : problem.Contents}
    (same : ∀ quantity position, problem.valueAt first quantity position =
      problem.valueAt second quantity position) : first = second := by
  have stores_eq : Store.mk first #[] = Store.mk second #[] := by
    refine Store.ext_read rfl fun cell => ?_
    obtain ⟨id | _, position⟩ := cell
    · cases found : problem.plan.table.get? id with
      | some decl =>
          obtain ⟨quantity, _, rfl⟩ := problem.exists_quantity found
          exact same quantity position
      | none =>
          rw [Store.read, Store.read, Store.content, Store.content, content_eq_empty found first,
            content_eq_empty found second]
    · rfl
  exact congrArg Store.memory stores_eq

/-- Parts of two memories agree if their elements do. -/
theorem part_congr {first second : problem.Contents} {quantity : Quantity}
    {start rows cols : Nat}
    (same : ∀ position, start ≤ position → position < start + rows * cols →
      problem.valueAt first quantity position = problem.valueAt second quantity position) :
    problem.part first quantity start rows cols = problem.part second quantity start rows cols := by
  refine Matrix.ofFn_congr fun row row_lt col col_lt => same _ (Nat.le_add_right _ _) ?_
  have inside := block_le cols row_lt
  omega

theorem element_part (memory : problem.Contents) (quantity : Quantity) {start rows cols : Nat}
    {position : Nat} (inside : position < rows * cols) :
    (problem.part memory quantity start rows cols).element position =
      problem.valueAt memory quantity (start + position) := by
  rw [part, Matrix.element_ofFn _ inside, Nat.div_add_mod']

theorem valueAt_of_le {quantity : Quantity} {position : Nat}
    (outside : problem.sizeOf quantity ≤ position) (memory : problem.Contents) :
    problem.valueAt memory quantity position = 0 := by
  rw [valueAt, Array.getD_eq_getD_getElem?,
    Array.getElem?_eq_none (problem.size_content memory quantity ▸ outside), Option.getD_none]

/-- The blocks of all nodes make up the whole array. -/
theorem valueAt_eq_of_blocks {quantity : Quantity} {count rows cols : Nat}
    (shape : problem.shapeOf? quantity = some (count * rows, cols))
    {first second : problem.Contents}
    (same : ∀ node < count,
      problem.part first quantity (node * (rows * cols)) rows cols =
        problem.part second quantity (node * (rows * cols)) rows cols) (position : Nat) :
    problem.valueAt first quantity position = problem.valueAt second quantity position := by
  have size_eq : problem.sizeOf quantity = count * (rows * cols) := by
    rw [problem.sizeOf_eq shape, Nat.mul_assoc]
  rcases Nat.lt_or_ge position (problem.sizeOf quantity) with inside | outside
  · rw [size_eq] at inside
    have size_pos : 0 < rows * cols := Nat.pos_of_mul_pos_left (Nat.zero_lt_of_lt inside)
    have node_lt : position / (rows * cols) < count :=
      Nat.div_lt_of_lt_mul (Nat.mul_comm _ _ ▸ inside)
    have offset_lt := Nat.mod_lt position size_pos
    have blocks := congrArg (fun block => block.element (position % (rows * cols)))
      (same _ node_lt)
    simpa only [element_part _ _ offset_lt, Nat.div_add_mod'] using blocks
  · rw [valueAt_of_le outside, valueAt_of_le outside]

/-- The rows of one part make up the whole array. -/
theorem valueAt_eq_of_part {quantity : Quantity} {rows cols : Nat}
    (shape : problem.shapeOf? quantity = some (rows, cols)) {first second : problem.Contents}
    (same : problem.part first quantity 0 rows cols = problem.part second quantity 0 rows cols)
    (position : Nat) :
    problem.valueAt first quantity position = problem.valueAt second quantity position := by
  have single : problem.shapeOf? quantity = some (1 * rows, cols) := by rwa [Nat.one_mul]
  refine valueAt_eq_of_blocks single (fun node node_lt => ?_) position
  obtain rfl : node = 0 := Nat.lt_one_iff.1 node_lt
  rw [Nat.zero_mul]
  exact same

/-! ## Written elements -/

/-- What a step does that writes consecutive elements of one quantity. -/
def Writes (problem : Problem α) (quantity : Quantity) (start count : Nat) (value : Nat → α)
    (before after : problem.Contents) : Prop :=
  ∀ other position, problem.valueAt after other position =
    if other = quantity ∧ start ≤ position ∧ position < start + count then
      value (position - start)
    else problem.valueAt before other position

namespace Writes

variable {quantity : Quantity} {start count : Nat} {value : Nat → α}
  {before after : problem.Contents}

theorem inside (writes : problem.Writes quantity start count value before after)
    {position : Nat} (position_lt : position < count) :
    problem.valueAt after quantity (start + position) = value position := by
  rw [writes, if_pos ⟨rfl, Nat.le_add_right _ _, Nat.add_lt_add_left position_lt _⟩,
    Nat.add_sub_cancel_left]

theorem other (writes : problem.Writes quantity start count value before after)
    {other : Quantity} (different : other ≠ quantity) (position : Nat) :
    problem.valueAt after other position = problem.valueAt before other position := by
  rw [writes, if_neg fun same => different same.1]

theorem part_other (writes : problem.Writes quantity start count value before after)
    {other : Quantity} (different : other ≠ quantity) (first rows cols : Nat) :
    problem.part after other first rows cols = problem.part before other first rows cols :=
  part_congr fun position _ _ => writes.other different position

/-- A part that was written as a whole holds what was written. -/
theorem part_self {matrix : Matrix α} {rows cols : Nat}
    (writes : problem.Writes quantity start (rows * cols) matrix.element before after)
    (shape_eq : matrix.shape = (rows, cols)) :
    problem.part after quantity start rows cols = matrix := by
  rw [← Matrix.ofFn_element shape_eq]
  refine Matrix.ofFn_congr fun row row_lt col col_lt => writes.inside ?_
  have inside := block_le cols row_lt
  omega

theorem congr (writes : problem.Writes quantity start count value before after)
    {same : Nat → α} (values_eq : ∀ position < count, value position = same position) :
    problem.Writes quantity start count same before after := by
  intro other position
  rw [writes]
  split
  · exact values_eq _ (by omega)
  · rfl

/-- A part to which a matrix was added. -/
theorem part_add {matrix : Matrix α} {rows cols : Nat}
    (writes : problem.Writes quantity start (rows * cols)
      (fun position => problem.valueAt before quantity (start + position) +
        matrix.element position) before after)
    (shape_eq : matrix.shape = (rows, cols)) :
    problem.part after quantity start rows cols =
      (problem.part before quantity start rows cols).add matrix := by
  have sums : problem.Writes quantity start (rows * cols)
      ((problem.part before quantity start rows cols).add matrix).element before after := by
    apply writes.congr
    intro position inside
    have same : (problem.part before quantity start rows cols).shape = matrix.shape :=
      shape_eq.symm
    rw [Matrix.element_add same inside, element_part _ _ inside]
  exact sums.part_self rfl

/-- A part to which the difference of two vectors was assigned. -/
theorem part_sub {memory : problem.Contents} {minuend subtrahend : Quantity}
    {first behind length : Nat}
    (writes : problem.Writes quantity start length
      (fun position => problem.valueAt memory minuend (first + position) -
        problem.valueAt memory subtrahend (behind + position)) before after) :
    problem.part after quantity start length 1 =
      (problem.part memory minuend first length 1).sub
        (problem.part memory subtrahend behind length 1) := by
  let left := problem.part memory minuend first length 1
  let right := problem.part memory subtrahend behind length 1
  have differences : problem.Writes quantity start (length * 1) (left.sub right).element before
      after := by
    rw [Nat.mul_one]
    apply writes.congr
    intro position position_lt
    have inside : position < length * 1 := by rwa [Nat.mul_one]
    have same : left.shape = right.shape := rfl
    rw [Matrix.element_sub same inside, element_part _ _ inside, element_part _ _ inside]
  exact differences.part_self rfl

end Writes

/-- The elements that a step may change. -/
def Changes (problem : Problem α) (region : Quantity → Nat → Prop)
    (before after : problem.Contents) : Prop :=
  ∀ quantity position, ¬region quantity position →
    problem.valueAt after quantity position = problem.valueAt before quantity position

namespace Changes

variable {region wider : Quantity → Nat → Prop} {before between after : problem.Contents}

theorem refl (memory : problem.Contents) : problem.Changes region memory memory :=
  fun _ _ _ => rfl

theorem trans (first : problem.Changes region before between)
    (second : problem.Changes region between after) : problem.Changes region before after :=
  fun quantity position outside =>
    (second quantity position outside).trans (first quantity position outside)

theorem mono (changes : problem.Changes region before after)
    (contained : ∀ quantity position, region quantity position → wider quantity position) :
    problem.Changes wider before after :=
  fun quantity position outside =>
    changes quantity position fun inside => outside (contained quantity position inside)

/-- Two steps one after the other may change what either of them may. -/
theorem both (first : problem.Changes region before between)
    (second : problem.Changes wider between after) :
    problem.Changes (fun quantity position => region quantity position ∨ wider quantity position)
      before after :=
  (first.mono fun _ _ => .inl).trans (second.mono fun _ _ => .inr)

theorem part_eq (changes : problem.Changes region before after) {quantity : Quantity}
    {start rows cols : Nat}
    (outside : ∀ position, start ≤ position → position < start + rows * cols →
      ¬region quantity position) :
    problem.part after quantity start rows cols = problem.part before quantity start rows cols :=
  part_congr fun position start_le position_lt =>
    changes quantity position (outside position start_le position_lt)

end Changes

theorem Writes.changes {quantity : Quantity} {start count : Nat} {value : Nat → α}
    {before after : problem.Contents}
    (writes : problem.Writes quantity start count value before after)
    {region : Quantity → Nat → Prop}
    (contained : ∀ position, start ≤ position → position < start + count →
      region quantity position) :
    problem.Changes region before after := by
  intro other position outside
  rw [writes, if_neg]
  rintro ⟨rfl, start_le, position_lt⟩
  exact outside (contained position start_le position_lt)

/-! ## Assignments -/

/-- An assignment to a dense window over a quantity writes its elements. -/
theorem writes_combine (store : Store α problem.program.table.sizes)
    {quantity : Quantity} {start : Nat} {base : Base} {offset : AffineIndex} {rows cols : Nat}
    (room : start + rows * cols ≤ problem.sizeOf quantity) (op : AssignOp) {value : Matrix α}
    (shape_eq : value.shape = (rows, cols)) :
    problem.Writes quantity start (rows * cols)
      (fun position => op.combine (problem.valueAt store.memory quantity (start + position))
        (value.element position))
      store.memory
      (store.combine ⟨.global (problem.plan.id quantity), start⟩
        (.dense base offset rows cols) op value).memory := by
  have inside : start + rows * cols ≤
      (store.content (.global (problem.plan.id quantity))).size := by
    rw [Store.content, problem.size_content]
    exact room
  intro other position
  have written := @Store.read_combine α _ store _
    ⟨.global (problem.plan.id quantity), start⟩ base offset rows cols inside op value
    ⟨.global (problem.plan.id other), position⟩
  have same : (Buffer.global (problem.plan.id other) = .global (problem.plan.id quantity) ∧
        start ≤ position ∧ position < start + rows * cols) ↔
      other = quantity ∧ start ≤ position ∧ position < start + rows * cols :=
    and_congr_left fun inside => problem.global_id_inj (Nat.lt_of_lt_of_le inside.2 room)
  simp only [same] at written
  refine Eq.trans written ?_
  split
  · rename_i here
    obtain ⟨rfl, start_le, position_lt⟩ := here
    have cols_eq : value.cols = cols := congrArg Prod.snd shape_eq
    simp only [Matrix.element, cols_eq, Nat.add_sub_cancel' start_le]
    rfl
  · rfl

end Problem

/-! ## Windows over quantities -/

namespace Frame

variable {frame : Frame}

@[simp]
theorem valueOf_const (constant : Nat) : frame.valueOf (.const constant) = constant := rfl

@[simp]
theorem valueOf_bind (name : String) (value : Nat) :
    (frame.bind name value).valueOf (.var name) = value := by
  simp [valueOf, bind]

@[simp]
theorem valueOf_bind_plus (name : String) (value amount : Nat) :
    (frame.bind name value).valueOf ((AffineIndex.var name).plus amount) = value + amount := by
  simp [valueOf, bind, AffineIndex.evalIn?, AffineIndex.plus, AffineIndex.var]

@[simp]
theorem valueOf_scaled (index : AffineIndex) (factor : Nat) :
    frame.valueOf (index.scaled factor) = frame.valueOf index * factor := by
  rw [valueOf, valueOf, AffineIndex.evalIn?_scaled]
  cases index.evalIn? fun name => frame.scope.lookup name
  · exact (Nat.zero_mul factor).symm
  · rfl

/-- The block behind that of a loop variable. -/
@[simp]
theorem valueOf_bind_scaled_plus (name : String) (value factor amount : Nat) :
    (frame.bind name value).valueOf (((AffineIndex.var name).scaled factor).plus amount) =
      value * factor + amount := by
  simp [valueOf, bind, AffineIndex.evalIn?, AffineIndex.plus, AffineIndex.var,
    AffineIndex.scaled, Nat.mul_comm]

@[simp]
theorem startOf_global (id : Nat) (offset : AffineIndex) (rows cols : Nat) :
    frame.startOf (.dense (.global id) offset rows cols) = ⟨.global id, frame.valueOf offset⟩ := by
  rw [startOf]
  exact congrArg _ (Nat.zero_add _)

theorem startOf_parameter {position : Nat} {start : Cell}
    (bound : frame.bindings[position]? = some (.array start)) (rows cols : Nat) :
    frame.startOf (.dense (.parameter position) (.const 0) rows cols) = start := by
  simp only [startOf, Window.dense, origin?, bound]
  rfl

variable {α : Type} [Scalar α] {problem : Problem α}

/-- A dense window over a quantity shows a part of it. -/
theorem shown_eq_part {store : Store α problem.program.table.sizes} {base : Base}
    {offset : AffineIndex} {rows cols : Nat} {quantity : Quantity} {start : Nat}
    (starts : frame.startOf (.dense base offset rows cols) =
      ⟨.global (problem.plan.id quantity), start⟩) :
    frame.shown store (.dense base offset rows cols) =
      problem.part store.memory quantity start rows cols := by
  unfold shown
  rw [starts]
  rfl

/-- Consecutive elements of a quantity as a value. -/
theorem valueIn_flat {store : Store α problem.program.table.sizes} {quantity : Quantity}
    {offset : AffineIndex} {length : Nat} :
    frame.valueIn store (.read (problem.plan.flat quantity offset length) : Expr α) =
      problem.part store.memory quantity (frame.valueOf offset) length 1 :=
  shown_eq_part (startOf_global _ _ _ _)

/-- A window that was written shows what was written. -/
theorem shown_combine {sizes : List Nat} {store : Store α sizes} {base : Base}
    {offset : AffineIndex} {rows cols : Nat} {start : Cell} {value : Matrix α}
    (starts : frame.startOf (.dense base offset rows cols) = start)
    (room : start.position + rows * cols ≤ (store.content start.buffer).size)
    (shape_eq : value.shape = (rows, cols)) :
    frame.shown (store.combine start (.dense base offset rows cols) .set value)
      (.dense base offset rows cols) = value := by
  unfold shown
  rw [starts]
  refine Eq.trans (Matrix.ofFn_congr fun row row_lt col col_lt => ?_)
    (Matrix.ofFn_element shape_eq)
  change row < rows at row_lt
  change col < cols at col_lt
  have inside := block_le cols row_lt
  have position_lt : start.position + (row * cols + col) < start.position + rows * cols := by
    omega
  have written := @Store.read_combine α _ store _ start base offset rows cols room .set value
    (start.plus (row * cols + col))
  have cols_eq : value.cols = cols := congrArg Prod.snd shape_eq
  refine written.trans (Eq.trans (if_pos ⟨rfl, Nat.le_add_right _ _, position_lt⟩) ?_)
  simp only [Cell.plus, Nat.add_sub_cancel_left]
  simp only [Window.dense, Window.shape, Matrix.element, cols_eq]
  rfl

/-- A transposed window shows the transposed part. -/
theorem shown_transpose {sizes : List Nat} {store : Store α sizes} {base : Base}
    {offset : AffineIndex} {rows cols : Nat} :
    frame.shown store (Window.dense base offset rows cols).transpose =
      (frame.shown store (.dense base offset rows cols)).transpose := by
  refine Matrix.ofFn_congr fun row row_lt col col_lt => ?_
  let window := Window.dense base offset rows cols
  have shows : (frame.shown store window).entry col row =
      store.read ((frame.startOf window).plus (window.position col row)) :=
    Matrix.entry_ofFn (fun row col =>
      store.read ((frame.startOf window).plus (window.position row col))) col_lt row_lt
  exact shows.symm

/-- The cells of a dense window follow each other. -/
theorem cellsOf_dense {base : Base} {offset : AffineIndex} {rows cols : Nat} {buffer : Buffer}
    {start : Nat} (starts : frame.startOf (.dense base offset rows cols) = ⟨buffer, start⟩) :
    frame.cellsOf (.dense base offset rows cols) =
      (List.range' start (rows * cols)).map (Cell.mk buffer) := by
  have stored : (Window.dense base offset rows cols).storedElements =
      (List.range (rows * cols)).map fun count => (count / cols, count % cols) :=
    Window.positions_eq_map rows cols
  rw [cellsOf, starts, stored, List.map_map, List.range'_eq_map_range, List.map_map]
  refine List.map_congr_left fun count _ => ?_
  have position_eq : (Window.dense base offset rows cols).storedPosition (count / cols)
      (count % cols) = count := Nat.div_add_mod' count cols
  simp only [Function.comp_apply, position_eq]
  rfl

theorem whole_eq {quantity : Quantity} {rows cols : Nat}
    (shape : problem.shapeOf? quantity = some (rows, cols)) :
    problem.plan.whole quantity =
      .dense (.global (problem.plan.id quantity)) (.const 0) rows cols := by
  rw [Plan.whole, ArrayTable.whole, Problem.rowsOf_eq, Problem.colsOf_eq, shape]
  rfl

/-- A quantity with one column, as consecutive elements. -/
theorem whole_eq_flat {quantity : Quantity} {length : Nat}
    (shape : problem.shapeOf? quantity = some (length, 1)) :
    problem.plan.whole quantity = problem.plan.flat quantity (.const 0) length :=
  whole_eq shape

/-- Rows of a quantity follow each other. -/
theorem rows_eq {quantity : Quantity} {count cols : Nat} (first : AffineIndex) (rows : Nat)
    (shape : problem.shapeOf? quantity = some (count, cols)) :
    problem.plan.rows quantity first rows =
      .dense (.global (problem.plan.id quantity)) (first.scaled cols) rows cols := by
  have cols_eq : problem.plan.table.colsOf (problem.plan.id quantity) = cols := by
    rw [Problem.colsOf_eq, shape]
    rfl
  rw [Plan.rows, ArrayTable.rows, cols_eq]

/-- A whole quantity as a value. -/
theorem valueIn_whole {store : Store α problem.program.table.sizes} {quantity : Quantity}
    {rows cols : Nat} (shape : problem.shapeOf? quantity = some (rows, cols)) :
    frame.valueIn store (.read (problem.plan.whole quantity) : Expr α) =
      problem.part store.memory quantity 0 rows cols := by
  rw [whole_eq shape]
  exact shown_eq_part (startOf_global _ _ _ _)

theorem startOf_whole (quantity : Quantity) :
    frame.startOf (problem.plan.whole quantity) = ⟨.global (problem.plan.id quantity), 0⟩ :=
  startOf_global _ _ _ _

theorem cellsOf_whole (quantity : Quantity) :
    frame.cellsOf (problem.plan.whole quantity) =
      (List.range' 0 (problem.sizeOf quantity)).map
        (Cell.mk (.global (problem.plan.id quantity))) := by
  have size_eq : problem.plan.table.rowsOf (problem.plan.id quantity) *
      problem.plan.table.colsOf (problem.plan.id quantity) = problem.sizeOf quantity := by
    rw [Problem.rowsOf_eq, Problem.colsOf_eq, Problem.sizeOf]
    cases problem.shapeOf? quantity <;> rfl
  rw [← size_eq]
  exact cellsOf_dense (startOf_whole quantity)

/-- A whole quantity is passed with its content. -/
theorem passedTo_whole (store : Store α problem.program.table.sizes) (quantity : Quantity) :
    frame.passedTo store (problem.plan.passWhole quantity) =
      .array (store.memory.content (problem.plan.id quantity)) := by
  rw [Plan.passWhole, passedTo, cellsOf_whole, Passed.array.injEq]
  apply Array.ext
  · simp [problem.size_content]
  · intro position _ inside
    simp [Store.read, Store.content, Array.getD_eq_getD_getElem?,
      Array.getElem?_eq_getElem inside]

end Frame

/-- What comes back in a whole quantity stands there afterwards. -/
theorem Problem.valueAt_putBack {α : Type} [Scalar α] {problem : Problem α} {frame : Frame}
    (store : Store α problem.program.table.sizes) (quantity : Quantity) (left : Passed α)
    (other : Quantity) (position : Nat) :
    problem.valueAt (store.putBack frame (problem.plan.passWhole quantity) left).memory other
        position =
      if other = quantity ∧ position < problem.sizeOf quantity then
        left.elements.getD position (problem.valueAt store.memory quantity position)
      else problem.valueAt store.memory other position := by
  unfold Plan.passWhole Store.putBack
  cases left with
  | index _ =>
      simp only [Passed.elements]
      split
      · rename_i here
        rw [here.1]
        rfl
      · rfl
  | array values =>
      have room : 0 + problem.sizeOf quantity ≤
          (store.content (.global (problem.plan.id quantity))).size := by
        rw [Store.content, problem.size_content, Nat.zero_add]
      have written := Store.read_writeAll room values.toList
        ⟨.global (problem.plan.id other), position⟩
      have same : (Buffer.global (problem.plan.id other) = .global (problem.plan.id quantity) ∧
            0 ≤ position ∧ position < 0 + problem.sizeOf quantity) ↔
          other = quantity ∧ position < problem.sizeOf quantity := by
        rw [Nat.zero_add, and_iff_right (Nat.zero_le position)]
        exact and_congr_left fun position_lt => problem.global_id_inj position_lt
      simp only [same, Nat.sub_zero] at written
      simp only [Frame.cellsOf_whole]
      refine Eq.trans written ?_
      split
      · rename_i here
        rw [← here.1]
        simp [Passed.elements, List.getD_eq_getElem?_getD, Array.getD_eq_getD_getElem?]
        rfl
      · rfl

end RtiAssembly
