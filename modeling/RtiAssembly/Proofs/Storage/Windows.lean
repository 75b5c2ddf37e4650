import RtiAssembly.Proofs.Machine.Lookup
import RtiAssembly.Proofs.Program.Fitting

/-!
# Windows over declared arrays

A window over an array of the module is asked for as a part of the array: whole
rows, a block, or consecutive elements.  It shows this part and nothing else,
whatever the value of the variable in its offset: each element has the index that
is expected, and a running call finds it in the cell of that index.

A window over a part of an array ends inside the array.  The one exception has no
elements: a block without rows behind the last row starts behind the end, because
its first column still counts.  Where rows do not overlap, no two elements of a
window share a position, and the extent ends right behind the last element.
-/

namespace RtiAssembly

/-! ## Values of indices -/

namespace AffineIndex

@[simp]
theorem eval_scaled (index : AffineIndex) (factor value : Nat) :
    (index.scaled factor).eval value = index.eval value * factor := by
  rcases index with ⟨_ | ⟨name, coefficient⟩, constant⟩
  · rfl
  · simp only [scaled, eval, Option.map_some]
    ring

@[simp]
theorem eval_plus (index : AffineIndex) (amount value : Nat) :
    (index.plus amount).eval value = index.eval value + amount := by
  rcases index with ⟨_ | ⟨name, coefficient⟩, constant⟩ <;> simp only [plus, eval, Nat.add_assoc]

/-- In a scope that binds its variable an index has the value that it has there. -/
theorem evalIn?_eq_eval {index : AffineIndex} {lookup : String → Option Nat} {value : Nat}
    (bound : ∀ name ∈ index.variableName?, lookup name = some value) :
    index.evalIn? lookup = some (index.eval value) := by
  rcases index with ⟨_ | ⟨name, coefficient⟩, constant⟩
  · rfl
  · have known : lookup name = some value := bound name rfl
    simp [evalIn?, eval, known]

end AffineIndex

/-! ## What a window shows -/

/-- The position of an element of an array, counted row by row. -/
def ArrayDecl.position {α : Type} (decl : ArrayDecl α) (row col : Nat) : Nat :=
  row * decl.cols + col

namespace Frame

variable {α : Type} {sizes : List Nat}

/-- The variable of an index, if it has one, has a given value in a frame. -/
def Binds (frame : Frame) (index : AffineIndex) (value : Nat) : Prop :=
  ∀ name ∈ index.variableName?, frame.scope.lookup name = some value

/-- The cell at a position of an array of the module; behind its end is none. -/
def cellOf (frame : Frame) (store : Store α sizes) (id position : Nat) : Except Fault Cell :=
  let length := (store.memory.content id).size
  if position < length then
    .ok ⟨.global id, position⟩
  else
    .error (.outOfBounds frame.routine position length)

theorem locate_global {frame : Frame} {window : Window} {id value : Nat}
    (base : window.base = .global id) (binds : frame.Binds window.offset value)
    (store : Store α sizes) (distance : Nat) :
    frame.locate store window distance =
      frame.cellOf store id (window.offset.eval value + distance) := by
  have offset_eq : frame.index window.offset = .ok (window.offset.eval value) := by
    rw [Frame.index, AffineIndex.evalIn?_eq_eval binds]
  unfold locate
  rw [base]
  simp only [origin?, offset_eq, Nat.zero_add]
  rfl

end Frame

namespace Window

/-- With its variable at a value, a window shows the elements of an array at given
positions. -/
structure Shows (window : Window) (id value : Nat) (position : Nat → Nat → Nat) : Prop where
  base : window.base = .global id
  /-- The index of an element is its position. -/
  element : ∀ row col, (window.element row col).eval value = position row col
  /-- A call in which the variable has the value finds an element at its position. -/
  located : ∀ {α : Type} {sizes : List Nat} (frame : Frame) (store : Store α sizes),
    frame.Binds window.offset value → ∀ row col,
      frame.locate store window (window.position row col) =
        frame.cellOf store id (position row col)

variable {window : Window} {id value : Nat} {position : Nat → Nat → Nat}

theorem eval_element (window : Window) (row col value : Nat) :
    (window.element row col).eval value =
      window.offset.eval value + window.position row col :=
  AffineIndex.eval_plus _ _ _

/-- The calls find what the indices say. -/
theorem shows_of_element (base : window.base = .global id)
    (element : ∀ row col, (window.element row col).eval value = position row col) :
    window.Shows id value position where
  base := base
  element := element
  located frame store binds row col := by
    rw [Frame.locate_global base binds, ← element, eval_element]

/-- The transposed window shows the same elements with row and column exchanged. -/
theorem Shows.transpose (shows : window.Shows id value position) :
    window.transpose.Shows id value fun row col => position col row := by
  refine shows_of_element shows.base fun row col => ?_
  rw [← shows.element, eval_element, eval_element, position_transpose]
  rfl

/-- A dense window shows consecutive elements. -/
theorem shows_dense (id : Nat) (offset : AffineIndex) (rows cols value : Nat) :
    (dense (.global id) offset rows cols).Shows id value fun row col =>
      offset.eval value + row * cols + col :=
  shows_of_element rfl fun row col =>
    (eval_element _ row col value).trans (Nat.add_assoc _ _ _).symm

/-! ## Where a window ends -/

/-- With its variable at a value, a window ends inside an array of a given size. -/
def EndsWithin (window : Window) (value size : Nat) : Prop :=
  window.offset.eval value + window.extent ≤ size

theorem endsWithin_dense {base : Base} {offset : AffineIndex} {rows cols size : Nat} :
    (dense base offset rows cols).EndsWithin value size ↔
      offset.eval value + rows * cols ≤ size := by
  rw [EndsWithin, extent_dense]
  rfl

/-! ## Positions of elements -/

/-- The elements of a window lie apart, and the extent ends right behind the last
one. -/
structure IsTight (window : Window) : Prop where
  injective : ∀ row < window.shape.1, ∀ col < window.shape.2,
    ∀ otherRow < window.shape.1, ∀ otherCol < window.shape.2,
      window.position row col = window.position otherRow otherCol →
        row = otherRow ∧ col = otherCol
  below : ∀ row < window.shape.1, ∀ col < window.shape.2,
    window.position row col < window.extent
  attained : ∃ row < window.shape.1, ∃ col < window.shape.2,
    window.position row col = window.extent - 1

/-- In rows that do not overlap, a position determines its row and column. -/
theorem storedPosition_injective (wide : window.cols ≤ window.stride)
    {row col otherRow otherCol : Nat} (col_lt : col < window.cols)
    (other_lt : otherCol < window.cols)
    (same : window.storedPosition row col = window.storedPosition otherRow otherCol) :
    row = otherRow ∧ col = otherCol := by
  have col_inside : col < window.stride := Nat.lt_of_lt_of_le col_lt wide
  have other_inside : otherCol < window.stride := Nat.lt_of_lt_of_le other_lt wide
  unfold storedPosition at same
  constructor
  · calc row = (row * window.stride + col) / window.stride :=
          (Matrix.position_div row col_inside).symm
      _ = (otherRow * window.stride + otherCol) / window.stride := by rw [same]
      _ = otherRow := Matrix.position_div otherRow other_inside
  · calc col = (row * window.stride + col) % window.stride :=
          (Matrix.position_mod row col_inside).symm
      _ = (otherRow * window.stride + otherCol) % window.stride := by rw [same]
      _ = otherCol := Matrix.position_mod otherRow other_inside

theorem storedPosition_last (rows_pos : 0 < window.rows) (cols_pos : 0 < window.cols) :
    window.storedPosition (window.rows - 1) (window.cols - 1) = window.extent - 1 := by
  rw [storedPosition, extent, if_neg (by omega)]
  omega

theorem isTight_of_wide (nonempty : 0 < window.size) (wide : window.cols ≤ window.stride) :
    window.IsTight := by
  have rows_pos : 0 < window.rows := Nat.pos_of_mul_pos_right nonempty
  have cols_pos : 0 < window.cols := Nat.pos_of_mul_pos_left nonempty
  have last := storedPosition_last rows_pos cols_pos
  have lastRow := Nat.sub_one_lt_of_lt rows_pos
  have lastCol := Nat.sub_one_lt_of_lt cols_pos
  refine ⟨?_, fun _ row_lt _ col_lt => position_lt row_lt col_lt, ?_⟩
  all_goals
    unfold shape position
    cases window.transposed
  · intro row _ col col_lt otherRow _ otherCol other_lt same
    exact storedPosition_injective wide col_lt other_lt same
  · intro row row_lt col _ otherRow other_lt otherCol _ same
    exact (storedPosition_injective wide row_lt other_lt same).symm
  · exact ⟨_, lastRow, _, lastCol, last⟩
  · exact ⟨_, lastCol, _, lastRow, last⟩

end Window

/-! ## Parts of an array -/

namespace ArrayTable

variable {α : Type} {table : ArrayTable α} {id : Nat} {decl : ArrayDecl α}

theorem colsOf_of_declared (declared : table.get? id = some decl) :
    table.colsOf id = decl.cols := by
  rw [colsOf, declared]
  rfl

theorem rowsOf_of_declared (declared : table.get? id = some decl) :
    table.rowsOf id = decl.rows := by
  rw [rowsOf, declared]
  rfl

/-- Every window over an array shows the part that it is asked for. -/
structure ShowsParts (table : ArrayTable α) (id : Nat) (decl : ArrayDecl α) (value : Nat) :
    Prop where
  whole : (table.whole id).Shows id value decl.position
  rows : ∀ first count, (table.rows id first count).Shows id value fun row col =>
    decl.position (first.eval value + row) col
  block : ∀ firstRow firstCol rows cols,
    (table.block id firstRow firstCol rows cols).Shows id value fun row col =>
      decl.position (firstRow.eval value + row) (firstCol + col)
  flat : ∀ offset length, (ArrayTable.flat id offset length).Shows id value fun row col =>
    offset.eval value + row * 1 + col
  dense : ∀ offset rows cols, (ArrayTable.dense id offset rows cols).Shows id value
    fun row col => offset.eval value + row * cols + col

theorem showsParts (declared : table.get? id = some decl) (value : Nat) :
    table.ShowsParts id decl value where
  whole := by
    refine Window.shows_of_element rfl fun row col => ?_
    rw [Window.eval_element, whole, colsOf_of_declared declared]
    exact Nat.zero_add _
  rows first count := by
    refine Window.shows_of_element rfl fun row col => ?_
    rw [Window.eval_element, rows, colsOf_of_declared declared]
    change (first.scaled decl.cols).eval value + (row * decl.cols + col) = _
    rw [AffineIndex.eval_scaled, ArrayDecl.position, Nat.add_mul, Nat.add_assoc]
  block firstRow firstCol rows cols := by
    refine Window.shows_of_element rfl fun row col => ?_
    rw [Window.eval_element, block, colsOf_of_declared declared]
    change ((firstRow.scaled decl.cols).plus firstCol).eval value + (row * decl.cols + col) = _
    rw [AffineIndex.eval_plus, AffineIndex.eval_scaled, ArrayDecl.position, Nat.add_mul]
    omega
  flat offset length := Window.shows_dense id offset length 1 value
  dense offset rows cols := Window.shows_dense id offset rows cols value

/-- Windows over parts that lie inside an array end inside it.  A block does not if
it has no rows and starts behind the last row, in another column than the first. -/
structure EndsParts (table : ArrayTable α) (id : Nat) (decl : ArrayDecl α) (value : Nat) :
    Prop where
  whole : (table.whole id).EndsWithin value decl.size
  rows : ∀ first count, first.eval value + count ≤ decl.rows →
    (table.rows id first count).EndsWithin value decl.size
  block : ∀ firstRow firstCol rows cols, firstRow.eval value + rows ≤ decl.rows →
    firstCol + cols ≤ decl.cols →
      ((table.block id firstRow firstCol rows cols).EndsWithin value decl.size ↔
        ¬(rows = 0 ∧ firstRow.eval value = decl.rows ∧ 0 < firstCol))
  flat : ∀ offset length, offset.eval value + length ≤ decl.size →
    (ArrayTable.flat id offset length).EndsWithin value decl.size
  dense : ∀ offset rows cols, offset.eval value + rows * cols ≤ decl.size →
    (ArrayTable.dense id offset rows cols).EndsWithin value decl.size

theorem eval_offset_block (declared : table.get? id = some decl) (firstRow : AffineIndex)
    (firstCol rows cols value : Nat) :
    (table.block id firstRow firstCol rows cols).offset.eval value =
      firstRow.eval value * decl.cols + firstCol := by
  rw [block, colsOf_of_declared declared, AffineIndex.eval_plus, AffineIndex.eval_scaled]

/-- A block that starts in a row of the array ends inside the array. -/
theorem endsWithin_block (declared : table.get? id = some decl) {value : Nat}
    {firstRow : AffineIndex} {firstCol rows cols : Nat}
    (starts : firstRow.eval value < decl.rows) (rows_le : firstRow.eval value + rows ≤ decl.rows)
    (cols_le : firstCol + cols ≤ decl.cols) :
    (table.block id firstRow firstCol rows cols).EndsWithin value decl.size := by
  have extent_le : (table.block id firstRow firstCol rows cols).extent ≤
      (rows - 1) * decl.cols + cols := by
    rw [block, colsOf_of_declared declared, Window.extent]
    split
    · exact Nat.zero_le _
    · exact Nat.le_refl _
  have last_lt : firstRow.eval value + (rows - 1) + 1 ≤ decl.rows := by omega
  rw [Window.EndsWithin, eval_offset_block declared]
  calc firstRow.eval value * decl.cols + firstCol +
        (table.block id firstRow firstCol rows cols).extent
      ≤ firstRow.eval value * decl.cols + firstCol + ((rows - 1) * decl.cols + cols) :=
        Nat.add_le_add_left extent_le _
    _ = (firstRow.eval value + (rows - 1)) * decl.cols + (firstCol + cols) := by ring
    _ ≤ (firstRow.eval value + (rows - 1)) * decl.cols + decl.cols :=
        Nat.add_le_add_left cols_le _
    _ = (firstRow.eval value + (rows - 1) + 1) * decl.cols := (Nat.succ_mul _ _).symm
    _ ≤ decl.rows * decl.cols := Nat.mul_le_mul_right _ last_lt

theorem endsWithin_block_iff (declared : table.get? id = some decl) {value : Nat}
    {firstRow : AffineIndex} {firstCol rows cols : Nat}
    (rows_le : firstRow.eval value + rows ≤ decl.rows) (cols_le : firstCol + cols ≤ decl.cols) :
    (table.block id firstRow firstCol rows cols).EndsWithin value decl.size ↔
      ¬(rows = 0 ∧ firstRow.eval value = decl.rows ∧ 0 < firstCol) := by
  rcases Nat.lt_or_ge (firstRow.eval value) decl.rows with starts | behind
  · have ends := endsWithin_block declared starts rows_le cols_le
    exact iff_of_true ends fun exceptional => Nat.ne_of_lt starts exceptional.2.1
  · have rows_eq : rows = 0 := by omega
    have first_eq : firstRow.eval value = decl.rows := by omega
    have extent_eq : (table.block id firstRow firstCol rows cols).extent = 0 :=
      if_pos (Or.inl rows_eq)
    rw [Window.EndsWithin, eval_offset_block declared, extent_eq, first_eq, ArrayDecl.size]
    omega

theorem endsParts (declared : table.get? id = some decl) (value : Nat) :
    table.EndsParts id decl value where
  whole := by
    rw [whole, rowsOf_of_declared declared, colsOf_of_declared declared,
      Window.endsWithin_dense]
    exact Nat.le_of_eq (Nat.zero_add _)
  rows first count rows_le := by
    rw [rows, colsOf_of_declared declared, Window.endsWithin_dense, AffineIndex.eval_scaled,
      ← Nat.add_mul]
    exact Nat.mul_le_mul_right _ rows_le
  block _ _ _ _ rows_le cols_le := endsWithin_block_iff declared rows_le cols_le
  flat offset length room := by
    rw [flat, Window.vector, Window.endsWithin_dense, Nat.mul_one]
    exact room
  dense _ _ _ room := Window.endsWithin_dense.2 room

end ArrayTable

/-- Windows address the parts of an array that they are asked for, for every value of
the variable in their offset; transposed windows address the same elements with row
and column exchanged.  Windows over parts that lie inside an array end inside it,
unless they are blocks without rows behind the last row and right of the first column.
In every window with an element whose rows do not overlap, distinct elements have
distinct positions below the extent, and the last of these positions is taken. -/
theorem windows_address_parts {α : Type} {table : ArrayTable α} {id : Nat} {decl : ArrayDecl α}
    (declared : table.get? id = some decl) (value : Nat) :
    table.ShowsParts id decl value ∧
      (∀ window position, Window.Shows window id value position →
        window.transpose.Shows id value fun row col => position col row) ∧
      table.EndsParts id decl value ∧
      ∀ window : Window, 0 < window.size → window.cols ≤ window.stride → window.IsTight :=
  ⟨ArrayTable.showsParts declared value, fun _ _ shows => shows.transpose,
    ArrayTable.endsParts declared value, fun _ => Window.isTight_of_wide⟩

/-- A block of every other row in an array of four columns.  It reaches the last
element of the array. -/
theorem windows_address_parts_striding :
    let decl : ArrayDecl ℚ := .real .workspace "m" 6 4 ""
    let table : ArrayTable ℚ := ⟨[decl]⟩
    let window := table.block 0 ((AffineIndex.var "i").scaled 2) 1 2 3
    let frame : Frame := ⟨"fill", [], 0, [("i", 2)]⟩
    let store : Store ℚ [24] := ⟨⟨#[.replicate 24 0], rfl⟩, #[]⟩
    table.get? 0 = some decl ∧ (window.element 1 2).eval 2 = 23 ∧
      frame.locate store window (window.position 1 2) = .ok ⟨.global 0, 23⟩ ∧
      frame.locate store window.transpose (window.transpose.position 2 1) =
        .ok ⟨.global 0, 23⟩ ∧
      window.EndsWithin 2 decl.size ∧ window.IsTight := by
  intro decl table window frame store
  obtain ⟨shows, transposed, ends, tight⟩ :=
    windows_address_parts (rfl : table.get? 0 = some decl) 2
  have shown := shows.block ((AffineIndex.var "i").scaled 2) 1 2 3
  have binds : frame.Binds window.offset 2 := by
    rintro name named
    cases named
    rfl
  refine ⟨rfl, shown.element 1 2, shown.located frame store binds 1 2,
    (transposed _ _ shown).located frame store binds 2 1, ?_, tight window (by decide) (by decide)⟩
  exact (ends.block ((AffineIndex.var "i").scaled 2) 1 2 3 (by decide) (by decide)).2 (by decide)

/-- No row behind the last one and one column right of the first one lie inside an
array of two rows and columns, but the window over them starts behind its end. -/
theorem block_without_rows :
    let decl : ArrayDecl ℚ := .real .workspace "g" 2 2 ""
    let table : ArrayTable ℚ := ⟨[decl]⟩
    let window := table.block 0 (.const 2) 1 0 1
    table.get? 0 = some decl ∧
      (AffineIndex.const 2).eval 0 + window.rows ≤ decl.rows ∧ 1 + window.cols ≤ decl.cols ∧
      window.offset.eval 0 + window.extent = 5 ∧ ¬window.EndsWithin 0 decl.size := by
  refine ⟨rfl, by decide, by decide, rfl, ?_⟩
  rw [Window.EndsWithin]
  decide

end RtiAssembly
