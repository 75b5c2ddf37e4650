import RtiAssembly.Number.Scalar

/-!
# Dense matrices

A matrix owns its entries row by row.  Products add their terms from left to
right, so that a product has one well-defined value in rounding arithmetic.
-/

namespace RtiAssembly

/-- A dense matrix; entry `(i, j)` is stored at `i * cols + j`. -/
structure Matrix (α : Type) where
  rows : Nat
  cols : Nat
  entries : Array α
  size_entries : entries.size = rows * cols

namespace Matrix

variable {α : Type}

/-- The matrix with a given entry at each row and column. -/
def ofFn (rows cols : Nat) (entry : Nat → Nat → α) : Matrix α where
  rows := rows
  cols := cols
  entries := Array.ofFn fun position : Fin (rows * cols) =>
    entry (position.val / cols) (position.val % cols)
  size_entries := Array.size_ofFn

/-- Number of rows and number of columns. -/
def shape (matrix : Matrix α) : Nat × Nat :=
  (matrix.rows, matrix.cols)

/-- Number of entries. -/
def size (matrix : Matrix α) : Nat :=
  matrix.rows * matrix.cols

variable [Scalar α]

/-- The entry in row `row` and column `col`, zero outside the matrix. -/
def entry (matrix : Matrix α) (row col : Nat) : α :=
  if row < matrix.rows ∧ col < matrix.cols then
    matrix.entries.getD (row * matrix.cols + col) 0
  else
    0

/-- The column with the given entries. -/
def column (values : List α) : Matrix α where
  rows := values.length
  cols := 1
  entries := values.toArray
  size_entries := by simp

/-- The `1 x 1` matrix of a number. -/
def scalar (value : α) : Matrix α where
  rows := 1
  cols := 1
  entries := #[value]
  size_entries := rfl

/-- The `rows x cols` matrix whose rows start with the given ones. -/
def ofRows (rows cols : Nat) (values : List (List α)) : Matrix α :=
  ofFn rows cols fun row col => (values.getD row []).getD col 0

/-- The zero matrix. -/
def zeros (rows cols : Nat) : Matrix α :=
  ofFn rows cols fun _ _ => 0

/-- The identity matrix, each entry multiplied by `factor`. -/
def scaledIdentity (size : Nat) (factor : α) : Matrix α :=
  ofFn size size fun row col => (if row = col then 1 else 0) * factor

/-- The matrix as a list of rows. -/
def toRows (matrix : Matrix α) : List (List α) :=
  (List.range matrix.rows).map fun row =>
    (List.range matrix.cols).map fun col => matrix.entry row col

/-- The transposed matrix. -/
def transpose (matrix : Matrix α) : Matrix α :=
  ofFn matrix.cols matrix.rows fun row col => matrix.entry col row

/-- Entrywise sum. -/
def add (left right : Matrix α) : Matrix α :=
  ofFn left.rows left.cols fun row col => left.entry row col + right.entry row col

/-- Entrywise difference. -/
def sub (left right : Matrix α) : Matrix α :=
  ofFn left.rows left.cols fun row col => left.entry row col - right.entry row col

/-- Entrywise absolute value. -/
def abs (matrix : Matrix α) : Matrix α :=
  ofFn matrix.rows matrix.cols fun row col => Scalar.abs (matrix.entry row col)

/-- The terms of entry `(row, col)` of a product, in order. -/
def terms (left right : Matrix α) (row col : Nat) : List α :=
  (List.range left.cols).map fun inner => left.entry row inner * right.entry inner col

/-- Whether a product counts as large: more than five rows, columns and terms. -/
def isLargeProduct (left right : Matrix α) : Bool :=
  5 < left.rows && 5 < right.cols && 5 < left.cols

/-- How many terms of a large product are added up in one part. -/
def partLength : Nat :=
  256

/-- The sum of `count` terms of a product from the term `first` on.  It starts
at zero, and each term is multiplied and added in one rounding. -/
def fusedSum (left right : Matrix α) (row col first count : Nat) : α :=
  (List.range' first count).foldl
    (fun sum inner => Scalar.mulAdd (left.entry row inner) (right.entry inner col) sum) 0

/-- The sums of the parts of entry `(row, col)` of a product, in order. -/
def partSums (left right : Matrix α) (row col : Nat) : List α :=
  (List.range ((left.cols + partLength - 1) / partLength)).map fun part =>
    let first := part * partLength
    left.fusedSum right row col first (min partLength (left.cols - first))

/-- Entry `(row, col)` of a product.  The terms are added from left to right; in
a large product they are added up in parts. -/
def productEntry (left right : Matrix α) (row col : Nat) : α :=
  if left.isLargeProduct right then
    Scalar.sum (left.partSums right row col)
  else
    Scalar.sum (left.terms right row col)

/-- Matrix product. -/
def mul (left right : Matrix α) : Matrix α :=
  ofFn left.rows right.cols (left.productEntry right)

/-- Add `amount` to every diagonal entry; zero leaves the matrix as it is. -/
def damped (matrix : Matrix α) (amount : α) : Matrix α :=
  if Scalar.isZero amount then
    matrix
  else
    ofFn matrix.rows matrix.cols fun row col =>
      if row = col then matrix.entry row col + amount else matrix.entry row col

/-- Whether every entry is zero. -/
def isZero (matrix : Matrix α) : Bool :=
  matrix.entries.all Scalar.isZero

/-- Whether two matrices have the same shape and equal numbers. -/
def same (left right : Matrix α) : Bool :=
  left.shape == right.shape &&
    (left.entries.toList.zip right.entries.toList).all fun (first, second) =>
      Scalar.same first second

end Matrix

end RtiAssembly
