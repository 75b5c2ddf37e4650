import RtiAssembly.Diagnostic
import RtiAssembly.Routine.Declaration
import RtiAssembly.Routine.Window

/-!
# Array tables

All arrays of a module in the order of their declaration.  Names are unique,
and given content has the declared shape.  Windows over a declared array are
built here, so that strides come from the declaration.
-/

namespace RtiAssembly

/-- The arrays of a module in the order of their declaration. -/
structure ArrayTable (α : Type) where
  arrays : List (ArrayDecl α)

namespace ArrayTable

variable {α : Type}

/-- The table without arrays. -/
def empty : ArrayTable α :=
  ⟨[]⟩

/-- Number of arrays. -/
def length (table : ArrayTable α) : Nat :=
  table.arrays.length

/-- The array at a position. -/
def get? (table : ArrayTable α) (id : Nat) : Option (ArrayDecl α) :=
  table.arrays[id]?

/-- The position of the array of a given name. -/
def find? (table : ArrayTable α) (name : String) : Option Nat :=
  table.arrays.findIdx? fun decl => decl.name == name

/-- Whether a position belongs to the table. -/
def contains (table : ArrayTable α) (id : Nat) : Bool :=
  id < table.length

/-- The name of the array at a position. -/
def nameOf (table : ArrayTable α) (id : Nat) : String :=
  ((table.get? id).map ArrayDecl.name).getD ""

/-- The arrays of one storage class with their positions. -/
def ofClass (table : ArrayTable α) (storage : StorageClass) : List (Nat × ArrayDecl α) :=
  (table.arrays.zipIdx.map Prod.swap).filter fun (_, decl) => decl.storage == storage

/-- Declare an array: its name must be new, and given content must have the
declared shape. -/
def declare (table : ArrayTable α) (decl : ArrayDecl α) : Except Diagnostic (ArrayTable α) :=
  if (table.find? decl.name).isSome then
    .error (.error .storage decl.name "array declared twice")
  else
    match decl.given with
    | none => .ok ⟨table.arrays ++ [decl]⟩
    | some content =>
        if content.shape = (decl.rows, decl.cols) then
          .ok ⟨table.arrays ++ [decl]⟩
        else
          .error
            (.error .storage decl.name
              ("constant content is " ++ toString content.rows ++ "x" ++ toString content.cols ++
                ", declared " ++ toString decl.rows ++ "x" ++ toString decl.cols))

/-- Declare arrays one after the other. -/
def declareAll (table : ArrayTable α) (decls : List (ArrayDecl α)) :
    Except Diagnostic (ArrayTable α) :=
  decls.foldlM declare table

/-- Refuse an array that does not have the expected number of elements. -/
def expectSize (decl : ArrayDecl α) (expected : Nat) : Except Diagnostic Unit :=
  if decl.size = expected then
    .ok ()
  else
    .error
      (.error .storage decl.name
        ("expected " ++ toString expected ++ " elements, found " ++ toString decl.rows ++ "x" ++
          toString decl.cols))

/-! ## Windows over a declared array -/

/-- Number of columns of the array at a position. -/
def colsOf (table : ArrayTable α) (id : Nat) : Nat :=
  (table.get? id).elim 0 ArrayDecl.cols

/-- Number of rows of the array at a position. -/
def rowsOf (table : ArrayTable α) (id : Nat) : Nat :=
  (table.get? id).elim 0 ArrayDecl.rows

/-- The whole array with its declared shape. -/
def whole (table : ArrayTable α) (id : Nat) : Window :=
  .dense (.global id) (.const 0) (table.rowsOf id) (table.colsOf id)

/-- Consecutive elements as a column. -/
def flat (id : Nat) (offset : AffineIndex) (length : Nat) : Window :=
  .vector (.global id) offset length

/-- Consecutive elements as a matrix. -/
def dense (id : Nat) (offset : AffineIndex) (rows cols : Nat) : Window :=
  .dense (.global id) offset rows cols

/-- Whole rows of the array. -/
def rows (table : ArrayTable α) (id : Nat) (first : AffineIndex) (count : Nat) : Window :=
  .dense (.global id) (first.scaled (table.colsOf id)) count (table.colsOf id)

/-- A block of the array; its rows keep the stride of the array. -/
def block (table : ArrayTable α) (id : Nat) (row : AffineIndex) (col rows cols : Nat) :
    Window where
  base := .global id
  offset := (row.scaled (table.colsOf id)).plus col
  rows := rows
  cols := cols
  stride := table.colsOf id
  transposed := false

end ArrayTable

end RtiAssembly
