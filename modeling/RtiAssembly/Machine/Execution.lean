import RtiAssembly.Machine.Frame
import RtiAssembly.Program.Basic

/-!
# Execution of routines

Statements run over a store.  External functions are played by a host, which
sees its arguments and the memory of the module.  An assignment evaluates its
whole right-hand side before it stores the first element.

Nothing but calls can keep a routine from returning, so the depth of calls is
the only fuel.  A fault leaves in the memory what was written before it.
-/

namespace RtiAssembly

/-! ## Hosts -/

/-- An argument as an external function receives it. -/
inductive Passed (α : Type)
  /-- The elements of a window in storage order. -/
  | array (values : Array α)
  | index (value : Nat)

/-- What an external function gives back. -/
structure Reply (α σ : Type) (sizes : List Nat) where
  status : Int
  /-- The arguments as the function leaves them. -/
  arguments : List (Passed α)
  memory : Memory α sizes
  state : σ

/-- The external functions, with a state of their own. -/
abbrev Host (α σ : Type) (sizes : List Nat) :=
  External → List (Passed α) → Memory α sizes → σ → Reply α σ sizes

/-! ## Executions -/

/-- Everything that a running program can change. -/
structure World (α σ : Type) (sizes : List Nat) where
  store : Store α sizes
  state : σ

/-- A computation that changes the world and may end in a fault. -/
abbrev Execution (α σ : Type) (sizes : List Nat) :=
  ExceptT Fault (StateM (World α σ sizes))

namespace Execution

variable {α σ : Type} {sizes : List Nat}

/-- Compute something from the store, leaving it as it is. -/
def inspect {β : Type} (query : Store α sizes → Except Fault β) : Execution α σ sizes β := do
  liftExcept (query (← get).store)
where
  /-- A result that may be a fault, as a computation. -/
  liftExcept : Except Fault β → Execution α σ sizes β
    | .ok value => pure value
    | .error fault => throw fault

/-- Change the store. -/
def change (step : Store α sizes → Store α sizes) : Execution α σ sizes Unit :=
  modify fun world => { world with store := step world.store }

end Execution

/-- What surrounds the statements of a program: its routines, the external
functions, and how a call of a routine is carried out. -/
structure Surroundings (α σ : Type) (sizes : List Nat) where
  routine? : String → Option (Routine α)
  host : Host α σ sizes
  enter : Routine α → List Binding → Execution α σ sizes α

section Statements

variable {α σ : Type} {sizes : List Nat} [Scalar α]

open Execution

/-- The content of a cell after an assignment. -/
def AssignOp.combine (op : AssignOp) (old new : α) : α :=
  match op with
  | .set => new
  | .add => old + new
  | .sub => old - new

/-- Store a matrix element by element, row by row. -/
def Frame.assign (frame : Frame) (target : Window) (op : AssignOp) (value : Matrix α) :
    Execution α σ sizes Unit :=
  sweepPositions
    (fun row col => do
      let cell ← inspect fun store => frame.locate store target (target.position row col)
      change fun store => store.write cell (op.combine (store.read cell) (value.entry row col)))
    target.shape.1 target.shape.2

/-- Store a status at the first element of a window. -/
def Frame.assignStatus (frame : Frame) (target : Window) (status : α) :
    Execution α σ sizes Unit := do
  let cell ← inspect fun store => frame.locate store target 0
  change fun store => store.write cell status

/-- What an argument binds a parameter to. -/
def Frame.binding (frame : Frame) (store : Store α sizes) : Argument → Except Fault Binding
  | .reference window => do .ok (.array (← frame.locate store window 0))
  | .index index => do .ok (.index (← frame.index index))

/-- Call a routine by name. -/
def Surroundings.callRoutine (surroundings : Surroundings α σ sizes) (frame : Frame)
    (name : String) (arguments : List Argument) : Execution α σ sizes α := do
  match surroundings.routine? name with
  | none => throw (.unknownRoutine name)
  | some routine =>
      if routine.parameters.length = arguments.length then
        let bindings ← inspect fun store => arguments.mapM (frame.binding store)
        surroundings.enter routine bindings
      else
        throw (.arity name)

/-- An argument as an external function receives it. -/
def Frame.passed (frame : Frame) (store : Store α sizes) :
    Argument → Except Fault (Passed α)
  | .reference window => do
      let cells ← frame.cells store window
      .ok (.array (cells.map store.read).toArray)
  | .index index => do .ok (.index (← frame.index index))

/-- Store what an external function left in an argument.  Elements without a
new value stay. -/
def Frame.restore (frame : Frame) (argument : Argument) (left : Passed α) :
    Execution α σ sizes Unit :=
  match argument, left with
  | .reference window, .array values => do
      let cells ← inspect fun store => frame.cells store window
      (cells.zip values.toList).forM fun (cell, value) =>
        change fun store => store.write cell value
  | _, _ => pure ()

/-- Call an external function: copy the arguments, let the host work, and store
the arguments that it changed. -/
def Surroundings.callExternal (surroundings : Surroundings α σ sizes) (frame : Frame)
    (function : External) (arguments : List Argument) : Execution α σ sizes α := do
  let passed ← inspect fun store => arguments.mapM (frame.passed store)
  let world ← get
  let reply := surroundings.host function passed world.store.memory world.state
  set (World.mk { world.store with memory := reply.memory } reply.state)
  (arguments.zip reply.arguments).forM fun (argument, left) => frame.restore argument left
  pure (Scalar.ofInt reply.status)

mutual

/-- Run a statement. -/
def Statement.execute (surroundings : Surroundings α σ sizes) (frame : Frame) :
    Statement α → Execution α σ sizes Unit
  | .assign target op value => do
      frame.assign target op (← inspect fun store => frame.evaluate store value)
  | .clear id => change fun store => store.clear id
  | .loop name start stop body =>
      sweep (fun value => Statement.executeAll surroundings (frame.bind name value) body)
        start (stop - start)
  | .call callee arguments status => do
      let result ←
        match callee with
        | .routine name => surroundings.callRoutine frame name arguments
        | .external function => surroundings.callExternal frame function arguments
      match status with
      | some target => frame.assignStatus target result
      | none => pure ()
  | .comment _ => pure ()

/-- Run statements one after the other. -/
def Statement.executeAll (surroundings : Surroundings α σ sizes) (frame : Frame) :
    List (Statement α) → Execution α σ sizes Unit
  | [] => pure ()
  | statement :: rest => do
      statement.execute surroundings frame
      Statement.executeAll surroundings frame rest

end

/-- The return value of a call: the first element of the result, or zero for a
routine without one. -/
def Routine.returned (routine : Routine α) (frame : Frame) (store : Store α sizes) :
    Except Fault α :=
  match routine.result with
  | none => .ok 0
  | some position => do
      .ok (store.read (← frame.locate store (.vector (.own position) (.const 0) 1) 0))

/-- Run a routine with bound parameters, calls nested to at most the given
depth.  Its own arrays start as zeros and last until it returns. -/
def Program.enter (program : Program α) (host : Host α σ sizes) :
    (depth : Nat) → Routine α → List Binding → Execution α σ sizes α
  | 0, routine, _ => throw (.endlessCalls routine.name)
  | depth + 1, routine, bindings => do
      let height := (← get).store.stack.size
      let frame := Frame.ofCall routine bindings height
      change fun store => store.push (routine.locals.map fun decl => Array.replicate decl.size 0)
      Statement.executeAll ⟨program.routine?, host, program.enter host depth⟩ frame routine.body
      let result ← inspect (routine.returned frame)
      change fun store => store.truncate height
      pure result

end Statements

end RtiAssembly
