import RtiAssembly.Machine.Fault
import RtiAssembly.Machine.Memory
import RtiAssembly.Routine.Basic
import RtiAssembly.Routine.Sweep

/-!
# Frames

Every running call has a frame: what its parameters stand for, where its own
arrays lie and which indices are in scope.  A frame turns an element of a
window into a cell of the store, and an expression into a matrix.
-/

namespace RtiAssembly

/-- An array of the module, or an array that belongs to a running call. -/
inductive Buffer
  | global (id : Nat)
  | stack (position : Nat)
  deriving DecidableEq, Repr

/-- A position in a buffer. -/
structure Cell where
  buffer : Buffer
  position : Nat
  deriving DecidableEq, Repr

/-- The memory of the module and the arrays of the running calls. -/
structure Store (α : Type) (sizes : List Nat) where
  memory : Memory α sizes
  stack : Array (Array α)

namespace Store

variable {α : Type} {sizes : List Nat}

/-- The content of a buffer; an absent buffer has no elements. -/
def content (store : Store α sizes) : Buffer → Array α
  | .global id => store.memory.content id
  | .stack position => store.stack.getD position #[]

/-- The value of a cell, zero outside the buffer. -/
def read [Scalar α] (store : Store α sizes) (cell : Cell) : α :=
  (store.content cell.buffer).getD cell.position 0

/-- Write a cell; outside the buffer nothing changes. -/
def write (store : Store α sizes) (cell : Cell) (value : α) : Store α sizes :=
  match cell.buffer with
  | .global id => { store with memory := store.memory.write id cell.position value }
  | .stack position =>
      { store with
        stack := store.stack.modify position fun content =>
          content.setIfInBounds cell.position value }

/-- Set an array of the module to zero. -/
def clear [Scalar α] (store : Store α sizes) (id : Nat) : Store α sizes :=
  { store with memory := store.memory.clear id }

/-- Add arrays on top of the stack. -/
def push (store : Store α sizes) (contents : List (Array α)) : Store α sizes :=
  { store with stack := store.stack ++ contents }

/-- Keep only the arrays below a height of the stack. -/
def truncate (store : Store α sizes) (height : Nat) : Store α sizes :=
  { store with stack := store.stack.take height }

end Store

/-- What a parameter stands for. -/
inductive Binding
  /-- The array that starts at a cell. -/
  | array (start : Cell)
  | index (value : Nat)
  deriving DecidableEq, Repr

/-- The cell of an array binding. -/
def Binding.start? : Binding → Option Cell
  | .array start => some start
  | .index _ => none

/-- The value of an index binding. -/
def Binding.index? : Binding → Option Nat
  | .array _ => none
  | .index value => some value

/-- The surroundings of a running call. -/
structure Frame where
  /-- Name of the routine. -/
  routine : String
  bindings : List Binding
  /-- Height of the stack below the routine's own arrays. -/
  height : Nat
  /-- Indices in scope, the innermost first. -/
  scope : List (String × Nat)
  deriving DecidableEq, Repr

namespace Frame

variable {α : Type} {sizes : List Nat}

/-- The frame of a call whose own arrays start at a height of the stack. -/
def ofCall (routine : Routine α) (bindings : List Binding) (height : Nat) : Frame where
  routine := routine.name
  bindings := bindings
  height := height
  scope :=
    ((routine.parameters.zip bindings).filterMap fun (parameter, binding) =>
      binding.index?.map fun value => (parameter.name, value)).reverse

/-- The frame inside a loop. -/
def bind (frame : Frame) (name : String) (value : Nat) : Frame :=
  { frame with scope := (name, value) :: frame.scope }

/-- The value of an index. -/
def index (frame : Frame) (index : AffineIndex) : Except Fault Nat :=
  match index.evalIn? fun name => frame.scope.lookup name with
  | some value => .ok value
  | none => .error (.unboundIndex (index.variableName?.getD ""))

/-- Where the array of a window starts; none for a parameter that is no array. -/
def origin? (frame : Frame) : Base → Option Cell
  | .global id => some ⟨.global id, 0⟩
  | .own position => some ⟨.stack (frame.height + position), 0⟩
  | .parameter position => frame.bindings[position]? >>= Binding.start?

/-- The cell at a distance behind the start of a window. -/
def locate (frame : Frame) (store : Store α sizes) (window : Window) (distance : Nat) :
    Except Fault Cell :=
  match frame.origin? window.base with
  | none => .error (.arity frame.routine)
  | some origin => do
      let offset ← frame.index window.offset
      let position := origin.position + offset + distance
      let length := (store.content origin.buffer).size
      if position < length then
        .ok ⟨origin.buffer, position⟩
      else
        .error (.outOfBounds frame.routine position length)

/-- Refuse a window with a stored element outside its array. -/
def checkStored (frame : Frame) (store : Store α sizes) (window : Window) : Except Fault Unit :=
  sweepPositions
    (fun row col => do
      let _ ← frame.locate store window (window.storedPosition row col))
    window.rows window.cols

/-- The cells of the elements of a window in storage order. -/
def cells (frame : Frame) (store : Store α sizes) (window : Window) :
    Except Fault (List Cell) := do
  frame.checkStored store window
  window.storedElements.mapM fun (row, col) =>
    frame.locate store window (window.storedPosition row col)

/-- Refuse a window with an element outside its array. -/
def check (frame : Frame) (store : Store α sizes) (window : Window) : Except Fault Unit :=
  sweepPositions
    (fun row col => do
      let _ ← frame.locate store window (window.position row col))
    window.shape.1 window.shape.2

variable [Scalar α]

/-- The matrix that a window shows; elements outside their array are zero. -/
def view (frame : Frame) (store : Store α sizes) (window : Window) : Matrix α :=
  Matrix.ofFn window.shape.1 window.shape.2 fun row col =>
    match frame.locate store window (window.position row col) with
    | .ok cell => store.read cell
    | .error _ => 0

/-- The value of an expression.  Every window is checked before the first one
is used. -/
def evaluate (frame : Frame) (store : Store α sizes) (expr : Expr α) :
    Except Fault (Matrix α) := do
  expr.windows.forM (frame.check store)
  .ok (expr.value (frame.view store))

end Frame

end RtiAssembly
