import Mathlib
import RtiAssembly.Machine.Run

/-!
# Effects of statements

A run that ends without a fault only reads and writes cells.  The effect of a
statement is what it does to the world if every look-up succeeds; it is a
function of the world alone.  Safe programs have no other behavior, and what
they compute is stated and proved about their effects.
-/

namespace RtiAssembly

/-- The cell at a distance behind a cell. -/
def Cell.plus (cell : Cell) (distance : Nat) : Cell :=
  ⟨cell.buffer, cell.position + distance⟩

/-! ## What a frame denotes -/

namespace Frame

variable {α : Type} {sizes : List Nat}

/-- The value of an index. -/
def valueOf (frame : Frame) (index : AffineIndex) : Nat :=
  (index.evalIn? fun name => frame.scope.lookup name).getD 0

/-- The cell at which a window starts. -/
def startOf (frame : Frame) (window : Window) : Cell :=
  ((frame.origin? window.base).getD ⟨.global 0, 0⟩).plus (frame.valueOf window.offset)

/-- What an argument binds a parameter to. -/
def bindingOf (frame : Frame) : Argument → Binding
  | .reference window => .array (frame.startOf window)
  | .index index => .index (frame.valueOf index)

/-- The cells of the elements of a window in storage order. -/
def cellsOf (frame : Frame) (window : Window) : List Cell :=
  window.storedElements.map fun (row, col) =>
    (frame.startOf window).plus (window.storedPosition row col)

variable [Scalar α]

/-- The matrix that a window shows. -/
def shown (frame : Frame) (store : Store α sizes) (window : Window) : Matrix α :=
  Matrix.ofFn window.shape.1 window.shape.2 fun row col =>
    store.read ((frame.startOf window).plus (window.position row col))

/-- The value of an expression. -/
def valueIn (frame : Frame) (store : Store α sizes) (expr : Expr α) : Matrix α :=
  expr.value (frame.shown store)

/-- An argument as an external function receives it. -/
def passedTo (frame : Frame) (store : Store α sizes) : Argument → Passed α
  | .reference window => .array ((frame.cellsOf window).map store.read).toArray
  | .index index => .index (frame.valueOf index)

end Frame

/-! ## What happens to a store -/

namespace Store

variable {α : Type} {sizes : List Nat}

/-- Write values to cells, one after the other. -/
def writeAll (store : Store α sizes) (entries : List (Cell × α)) : Store α sizes :=
  entries.foldl (fun store (cell, value) => store.write cell value) store

variable [Scalar α]

/-- Combine the elements of a window with those of a matrix, row by row. -/
def combine (store : Store α sizes) (start : Cell) (window : Window) (op : AssignOp)
    (value : Matrix α) : Store α sizes :=
  window.elements.foldl
    (fun store (row, col) =>
      let cell := start.plus (window.position row col)
      store.write cell (op.combine (store.read cell) (value.entry row col)))
    store

/-- Put back what an external function left in an argument. -/
def putBack (store : Store α sizes) (frame : Frame) (argument : Argument) (left : Passed α) :
    Store α sizes :=
  match argument, left with
  | .reference window, .array values =>
      store.writeAll ((frame.cellsOf window).zip values.toList)
  | _, _ => store

end Store

/-- The host that changes nothing. -/
def Host.idle {α : Type} {sizes : List Nat} : Host α Unit sizes :=
  fun _ passed memory state => ⟨0, passed, memory, state⟩

/-! ## Effects -/

namespace World

variable {α σ : Type} {sizes : List Nat}

/-- The world with its store changed. -/
def update (world : World α σ sizes) (change : Store α sizes → Store α sizes) :
    World α σ sizes :=
  { world with store := change world.store }

end World

/-- What surrounds the statements of a program, with the effect of a call. -/
structure Scene (α σ : Type) (sizes : List Nat) where
  routine? : String → Option (Routine α)
  host : Host α σ sizes
  perform : Routine α → List Binding → World α σ sizes → α × World α σ sizes

section Effects

variable {α σ : Type} {sizes : List Nat} [Scalar α]

/-- The effect of a call of a routine, with its return value. -/
def Scene.callRoutine (scene : Scene α σ sizes) (frame : Frame) (name : String)
    (arguments : List Argument) (world : World α σ sizes) : α × World α σ sizes :=
  match scene.routine? name with
  | none => (0, world)
  | some routine => scene.perform routine (arguments.map frame.bindingOf) world

/-- What an external function replies when it is called. -/
def Scene.reply (scene : Scene α σ sizes) (frame : Frame) (function : External)
    (arguments : List Argument) (world : World α σ sizes) : Reply α σ sizes :=
  scene.host function (arguments.map (frame.passedTo world.store)) world.store.memory world.state

/-- The effect of a call of an external function, with its status. -/
def Scene.callExternal (scene : Scene α σ sizes) (frame : Frame) (function : External)
    (arguments : List Argument) (world : World α σ sizes) : α × World α σ sizes :=
  let reply := scene.reply frame function arguments world
  (Scalar.ofInt reply.status,
    ⟨(arguments.zip reply.arguments).foldl
      (fun store (argument, left) => store.putBack frame argument left)
      { world.store with memory := reply.memory }, reply.state⟩)

/-- The effect of a call, with what it returns. -/
def Scene.call (scene : Scene α σ sizes) (frame : Frame) (callee : Callee)
    (arguments : List Argument) (world : World α σ sizes) : α × World α σ sizes :=
  match callee with
  | .routine name => scene.callRoutine frame name arguments world
  | .external function => scene.callExternal frame function arguments world

mutual

/-- The effect of a statement. -/
def Statement.effect (scene : Scene α σ sizes) (frame : Frame) :
    Statement α → World α σ sizes → World α σ sizes
  | .assign target op value, world =>
      world.update fun store =>
        store.combine (frame.startOf target) target op (frame.valueIn store value)
  | .clear id, world => world.update fun store => store.clear id
  | .loop name start stop body, world =>
      (List.range' start (stop - start)).foldl
        (fun world value => Statement.effects scene (frame.bind name value) body world) world
  | .call callee arguments status, world =>
      let (result, after) := scene.call frame callee arguments world
      match status with
      | some target => after.update fun store => store.write (frame.startOf target) result
      | none => after
  | .comment _, world => world

/-- The effect of statements one after the other. -/
def Statement.effects (scene : Scene α σ sizes) (frame : Frame) :
    List (Statement α) → World α σ sizes → World α σ sizes
  | [], world => world
  | statement :: rest, world =>
      Statement.effects scene frame rest (statement.effect scene frame world)

end

/-- The effect of a call of a routine with bound parameters, calls nested to at
most the given depth, and what it returns. -/
def Program.perform (program : Program α) (host : Host α σ sizes) :
    (depth : Nat) → Routine α → List Binding → World α σ sizes → α × World α σ sizes
  | 0, _, _, world => (0, world)
  | depth + 1, routine, bindings, world =>
      let height := world.store.stack.size
      let frame := Frame.ofCall routine bindings height
      let started := world.update fun store =>
        store.push (routine.locals.map fun decl => Array.replicate decl.size 0)
      let scene : Scene α σ sizes := ⟨program.routine?, host, program.perform host depth⟩
      let ended := Statement.effects scene frame routine.body started
      let result := routine.result.elim 0 fun position =>
        ended.store.read (frame.startOf (.vector (.own position) (.const 0) 1))
      (result, ended.update fun store => store.truncate height)

/-- What surrounds the statements of a routine that may nest calls to at most
the given depth. -/
abbrev Program.scene (program : Program α) (host : Host α σ sizes) (depth : Nat) :
    Scene α σ sizes :=
  ⟨program.routine?, host, program.perform host depth⟩

theorem Program.perform_succ (program : Program α) (host : Host α σ sizes) (depth : Nat)
    (routine : Routine α) (bindings : List Binding) (world : World α σ sizes) :
    program.perform host (depth + 1) routine bindings world =
      let frame := Frame.ofCall routine bindings world.store.stack.size
      let ended := Statement.effects (program.scene host depth) frame routine.body
        (world.update fun store =>
          store.push (routine.locals.map fun decl => Array.replicate decl.size 0))
      (routine.result.elim 0 fun position =>
          ended.store.read (frame.startOf (.vector (.own position) (.const 0) 1)),
        ended.update fun store => store.truncate world.store.stack.size) :=
  rfl

end Effects

end RtiAssembly
