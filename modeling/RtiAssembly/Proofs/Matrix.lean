import Mathlib
import RtiAssembly.Matrix

/-!
# Shapes and entries of matrices

Every operation on matrices says which shape its result has and what stands at
each place of it.
-/

namespace RtiAssembly

namespace Matrix

/-! ## Positions -/

/-- A position, counted row by row, determines its row. -/
theorem position_div {cols col : Nat} (row : Nat) (col_lt : col < cols) :
    (row * cols + col) / cols = row := by
  rw [Nat.mul_comm, Nat.mul_add_div (Nat.zero_lt_of_lt col_lt), Nat.div_eq_of_lt col_lt,
    Nat.add_zero]

/-- A position, counted row by row, determines its column. -/
theorem position_mod {cols col : Nat} (row : Nat) (col_lt : col < cols) :
    (row * cols + col) % cols = col := by
  rw [Nat.mul_comm, Nat.mul_add_mod, Nat.mod_eq_of_lt col_lt]

variable {α : Type} [Scalar α]

/-! ## Entries -/

omit [Scalar α] in
/-- A matrix is determined by its entries inside its shape. -/
theorem ofFn_congr {rows cols : Nat} {first second : Nat → Nat → α}
    (same : ∀ row < rows, ∀ col < cols, first row col = second row col) :
    ofFn rows cols first = ofFn rows cols second := by
  have entries_eq : (ofFn rows cols first).entries = (ofFn rows cols second).entries := by
    simp only [ofFn]
    congr 1
    funext position
    have cols_pos : 0 < cols := Nat.pos_of_mul_pos_left (Nat.zero_lt_of_lt position.isLt)
    have row_lt : position.val / cols < rows :=
      Nat.div_lt_of_lt_mul (Nat.mul_comm rows cols ▸ position.isLt)
    exact same _ row_lt _ (Nat.mod_lt _ cols_pos)
  unfold ofFn at entries_eq ⊢
  congr

@[simp]
theorem entry_ofFn {rows cols : Nat} (value : Nat → Nat → α) {row col : Nat}
    (row_lt : row < rows) (col_lt : col < cols) :
    (ofFn rows cols value).entry row col = value row col := by
  have inside : row * cols + col < rows * cols :=
    calc row * cols + col < row * cols + cols := Nat.add_lt_add_left col_lt _
      _ = (row + 1) * cols := (Nat.succ_mul row cols).symm
      _ ≤ rows * cols := Nat.mul_le_mul_right cols row_lt
  simp only [entry, ofFn]
  rw [Array.getD_eq_getD_getElem?, Array.getElem?_ofFn, dif_pos inside]
  simp only [Option.getD_some, position_div row col_lt, position_mod row col_lt]
  exact if_pos ⟨row_lt, col_lt⟩

/-- Outside of both matrices the entries are zero. -/
@[simp]
theorem entry_transpose (matrix : Matrix α) (row col : Nat) :
    matrix.transpose.entry row col = matrix.entry col row := by
  by_cases inside : col < matrix.rows ∧ row < matrix.cols
  · exact entry_ofFn _ inside.2 inside.1
  · rw [entry, entry, if_neg inside]
    exact if_neg fun other => inside other.symm

/-- The matrix with the entries of a matrix is that matrix. -/
theorem ofFn_entry (matrix : Matrix α) : ofFn matrix.rows matrix.cols matrix.entry = matrix := by
  obtain ⟨rows, cols, entries, size_entries⟩ := matrix
  have entries_eq : (ofFn rows cols (Matrix.entry ⟨rows, cols, entries, size_entries⟩)).entries =
      entries := by
    apply Array.ext
    · rw [ofFn, Array.size_ofFn, size_entries]
    · intro position inside _
      have position_lt : position < rows * cols := by simpa [ofFn] using inside
      have cols_pos : 0 < cols := Nat.pos_of_mul_pos_left (Nat.zero_lt_of_lt position_lt)
      have row_lt : position / cols < rows :=
        Nat.div_lt_of_lt_mul (Nat.mul_comm rows cols ▸ position_lt)
      have col_lt : position % cols < cols := Nat.mod_lt _ cols_pos
      simp only [ofFn, Array.getElem_ofFn, entry, if_pos (And.intro row_lt col_lt)]
      rw [Nat.div_add_mod', Array.getD_eq_getD_getElem?,
        Array.getElem?_eq_getElem (size_entries ▸ position_lt), Option.getD_some]
  unfold ofFn at entries_eq ⊢
  congr

/-- The entry at a position, counted row by row. -/
def element (matrix : Matrix α) (position : Nat) : α :=
  matrix.entry (position / matrix.cols) (position % matrix.cols)

theorem element_ofFn {rows cols : Nat} (value : Nat → Nat → α) {position : Nat}
    (inside : position < rows * cols) :
    (ofFn rows cols value).element position = value (position / cols) (position % cols) := by
  have cols_pos : 0 < cols := Nat.pos_of_mul_pos_left (Nat.zero_lt_of_lt inside)
  have row_lt : position / cols < rows :=
    Nat.div_lt_of_lt_mul (Nat.mul_comm rows cols ▸ inside)
  exact entry_ofFn value row_lt (Nat.mod_lt _ cols_pos)

theorem element_eq_entry (matrix : Matrix α) {row col : Nat} (col_lt : col < matrix.cols) :
    matrix.element (row * matrix.cols + col) = matrix.entry row col := by
  rw [element, position_div row col_lt, position_mod row col_lt]

/-- A matrix is determined by its shape and its elements. -/
theorem ofFn_element {matrix : Matrix α} {rows cols : Nat}
    (shape_eq : matrix.shape = (rows, cols)) :
    (ofFn rows cols fun row col => matrix.element (row * cols + col)) = matrix := by
  cases shape_eq
  calc _ = ofFn matrix.rows matrix.cols matrix.entry :=
        ofFn_congr fun _ _ _ col_lt => matrix.element_eq_entry col_lt
    _ = matrix := matrix.ofFn_entry

theorem element_add {left right : Matrix α} (same : left.shape = right.shape) {position : Nat}
    (inside : position < left.size) :
    (left.add right).element position = left.element position + right.element position := by
  have cols_eq : left.cols = right.cols := congrArg Prod.snd same
  rw [add, element_ofFn _ inside, element, element, cols_eq]

theorem element_sub {left right : Matrix α} (same : left.shape = right.shape) {position : Nat}
    (inside : position < left.size) :
    (left.sub right).element position = left.element position - right.element position := by
  have cols_eq : left.cols = right.cols := congrArg Prod.snd same
  rw [sub, element_ofFn _ inside, element, element, cols_eq]

/-! ## Shapes -/

omit [Scalar α] in
@[simp]
theorem shape_ofFn (rows cols : Nat) (value : Nat → Nat → α) :
    (ofFn rows cols value).shape = (rows, cols) := rfl

@[simp]
theorem shape_add (left right : Matrix α) : (left.add right).shape = left.shape := rfl

@[simp]
theorem shape_sub (left right : Matrix α) : (left.sub right).shape = left.shape := rfl

@[simp]
theorem shape_transpose (matrix : Matrix α) : matrix.transpose.shape = matrix.shape.swap := rfl

omit [Scalar α] in
@[simp]
theorem shape_column (values : List α) : (column values).shape = (values.length, 1) := rfl

omit [Scalar α] in
@[simp]
theorem shape_scalar (value : α) : (scalar value).shape = (1, 1) := rfl

@[simp]
theorem shape_zeros (rows cols : Nat) : (zeros rows cols : Matrix α).shape = (rows, cols) := rfl

@[simp]
theorem shape_mul (left right : Matrix α) :
    (left.mul right).shape = (left.rows, right.cols) := rfl

@[simp]
theorem shape_scaledIdentity (size : Nat) (factor : α) :
    (scaledIdentity size factor).shape = (size, size) := rfl

@[simp]
theorem shape_damped (matrix : Matrix α) (amount : α) :
    (matrix.damped amount).shape = matrix.shape := by
  unfold damped
  split <;> rfl

end Matrix

end RtiAssembly
