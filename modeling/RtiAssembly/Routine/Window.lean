import RtiAssembly.Routine.Index

/-!
# Windows

A window is a rectangular view into an array.  The array is flat and row-major;
the window starts at an offset, and its rows lie a fixed stride apart.  Row
slices, blocks and reshaped vectors are all windows, and none of them is a
copy.
-/

namespace RtiAssembly

/-- What a window looks into. -/
inductive Base
  /-- An array of the module, by its position in the table. -/
  | global (id : Nat)
  /-- A parameter of the routine. -/
  | parameter (position : Nat)
  /-- An array of the routine's own. -/
  | own (position : Nat)
  deriving DecidableEq, Repr

/-- The parameter that is looked into, if it is one. -/
def Base.parameter? : Base → Option Nat
  | .global _ => none
  | .parameter position => some position
  | .own _ => none

/-- A strided rectangular view into an array. -/
structure Window where
  base : Base
  offset : AffineIndex
  /-- Number of stored rows, before transposition. -/
  rows : Nat
  /-- Number of stored columns, before transposition. -/
  cols : Nat
  /-- Distance between the starts of consecutive stored rows. -/
  stride : Nat
  transposed : Bool
  deriving DecidableEq, Repr

namespace Window

/-- The contiguous window of given shape. -/
def dense (base : Base) (offset : AffineIndex) (rows cols : Nat) : Window :=
  ⟨base, offset, rows, cols, cols, false⟩

/-- The contiguous column of given length. -/
def vector (base : Base) (offset : AffineIndex) (length : Nat) : Window :=
  dense base offset length 1

/-- The transposed view of the same elements. -/
def transpose (window : Window) : Window :=
  { window with transposed := !window.transposed }

/-- Number of rows and columns as expressions see them. -/
def shape (window : Window) : Nat × Nat :=
  if window.transposed then (window.cols, window.rows) else (window.rows, window.cols)

/-- Rows and columns up to given limits, row by row. -/
def positions (rows cols : Nat) : List (Nat × Nat) :=
  if cols = 0 then
    []
  else
    (List.range rows).flatMap fun row => (List.range cols).map fun col => (row, col)

/-- Row and column of every element as expressions see them, row by row. -/
def elements (window : Window) : List (Nat × Nat) :=
  positions window.shape.1 window.shape.2

/-- Row and column of every stored element, row by row. -/
def storedElements (window : Window) : List (Nat × Nat) :=
  positions window.rows window.cols

/-- Number of elements. -/
def size (window : Window) : Nat :=
  window.rows * window.cols

/-- Whether the window has no element. -/
def isEmpty (window : Window) : Bool :=
  window.size == 0

/-- Number of array elements from the offset to behind the last element. -/
def extent (window : Window) : Nat :=
  if window.rows = 0 ∨ window.cols = 0 then
    0
  else
    (window.rows - 1) * window.stride + window.cols

/-- Position of a stored element behind the offset. -/
def storedPosition (window : Window) (row col : Nat) : Nat :=
  row * window.stride + col

/-- Position of an element behind the offset. -/
def position (window : Window) (row col : Nat) : Nat :=
  if window.transposed then window.storedPosition col row else window.storedPosition row col

/-- Index of an element in its array. -/
def element (window : Window) (row col : Nat) : AffineIndex :=
  window.offset.plus (window.position row col)

end Window

end RtiAssembly
