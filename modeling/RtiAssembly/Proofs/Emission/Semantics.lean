import RtiAssembly.Emission.Source
import RtiAssembly.Proofs.Machine.Effect

/-!
# Running generated code

What the functions of a generated source file do when they run.  Every store
reads the memory as the stores before it have left it.  A loop counts in the one
integer variable of its name, an array argument is the address of an element,
and whoever receives the address sees the elements from there on.  The arrays
and variables of a call hold whatever was left in their storage.

A loop may count for ever and functions may call each other for ever, so running
takes fuel.  It gives nothing when the fuel does not suffice or an element lies
outside its array.
-/

namespace RtiAssembly

/-! ## States -/

/-- What is left in the storage of a call before anything is stored there. -/
structure Remains (α : Type) where
  /-- In the elements of the arrays of a call. -/
  element : (call position index : Nat) → α
  /-- In the integer variables of a call. -/
  counter : (call : Nat) → (name : String) → Nat

/-- The state of running code. -/
structure Running (α σ : Type) (sizes : List Nat) where
  world : World α σ sizes
  /-- The integer variables of the running function, its parameters among them. -/
  counters : String → Nat
  /-- Number of functions called so far. -/
  calls : Nat

namespace Running

variable {α σ : Type} {sizes : List Nat}

/-- The state with its store changed. -/
def update (running : Running α σ sizes) (change : Store α sizes → Store α sizes) :
    Running α σ sizes :=
  { running with world := running.world.update change }

/-- The state with an integer variable changed. -/
def count (running : Running α σ sizes) (name : String) (value : Nat) : Running α σ sizes :=
  { running with counters := Function.update running.counters name value }

end Running

/-- The value of an index in the integer variables of a function. -/
def AffineIndex.valueWith (index : AffineIndex) (counters : String → Nat) : Nat :=
  (index.evalIn? fun name => some (counters name)).getD 0

/-- What an element of a given kind holds after a number is stored in it. -/
def ElementKind.hold {α : Type} [Scalar α] (kind : ElementKind) (value : α) : α :=
  if kind = .real then value else Scalar.ofInt (Scalar.truncate value)

namespace Term

variable {α : Type} [Scalar α]

/-- The value of a term, if all its elements can be read. -/
@[simp]
def value? (read : Place → Option α) : Term α → Option α
  | .number value => some value
  | .element place => read place
  | .magnitude inner => (inner.value? read).map Scalar.abs
  | .negation inner => (inner.value? read).map fun value => -value
  | .sum left right => do
      let first ← left.value? read
      let second ← right.value? read
      some (first + second)
  | .difference left right => do
      let first ← left.value? read
      let second ← right.value? read
      some (first - second)
  | .product left right => do
      let first ← left.value? read
      let second ← right.value? read
      some (first * second)

/-- The number that stands for a value in the text of a store: one that goes to
a whole-number variable is written without its fraction. -/
def written (term : Term α) (isWhole : Bool) (value : α) : α :=
  if isWhole && term.number?.isSome then Scalar.ofInt (Scalar.truncate value) else value

end Term

/-! ## Elements -/

/-- A running function, and where the arrays that it sees start. -/
structure Activation (α : Type) where
  routine : Routine α
  origin? : Base → Option Cell

namespace Activation

variable {α σ : Type} {sizes : List Nat} (program : Program α) (active : Activation α)

/-- The kind of the elements of an array. -/
def kindOf (base : Base) : ElementKind :=
  Scope.kindOf ⟨program.table, active.routine.locals⟩ base

/-- The cell of a place, if the array has as many elements from there on.  A
single variable takes no index. -/
def reach? (count : Nat) (running : Running α σ sizes) (place : Place) : Option Cell := do
  let origin ← active.origin? place.base
  let isSingle := (Emission.symbols program active.routine place.base).isSingle
  let cell := if isSingle then origin else origin.plus (place.index.valueWith running.counters)
  if cell.position + count ≤ (running.world.store.content cell.buffer).size then
    some cell
  else
    none

variable [Scalar α]

/-- The value of an element. -/
def read? (running : Running α σ sizes) (place : Place) : Option α :=
  (active.reach? program 1 running place).map running.world.store.read

/-- Store a value in an element. -/
def store? (running : Running α σ sizes) (target : Place) (op : AssignOp) (value : α) :
    Option (Running α σ sizes) := do
  let cell ← active.reach? program 1 running target
  some (running.update fun store =>
    store.write cell ((active.kindOf program target.base).hold
      (op.combine (store.read cell) value)))

/-- Compute a value and store it. -/
def storeTerm? (running : Running α σ sizes) (target : Place) (op : AssignOp) (term : Term α)
    (isWhole : Bool) : Option (Running α σ sizes) := do
  let value ← term.value? (active.read? program running)
  active.store? program running target op (term.written isWhole value)

/-- Compute all values, then store them one after the other. -/
def stage? (running : Running α σ sizes) (op : AssignOp) (stores : List (Place × Term α)) :
    Option (Running α σ sizes) := do
  let values ← stores.mapM fun entry => entry.2.value? (active.read? program running)
  (stores.zip values).foldlM
    (fun running entry => active.store? program running entry.1.1 op entry.2) running

/-! ## Arguments -/

omit [Scalar α] in
/-- What an argument binds a parameter to. -/
def binding? (running : Running α σ sizes) : Operand → Option Binding
  | .address place => (active.reach? program 0 running place).map Binding.array
  | .index index => some (.index (index.valueWith running.counters))

omit [Scalar α] in
/-- What an external function finds at an argument: the elements from an address
to the end of the array. -/
def passed? (running : Running α σ sizes) : Operand → Option (Passed α)
  | .address place => do
      let cell ← active.reach? program 0 running place
      let content := running.world.store.content cell.buffer
      some (.array (content.extract cell.position content.size))
  | .index index => some (.index (index.valueWith running.counters))

omit [Scalar α] in
/-- Store what an external function left behind an address. -/
def putBack? (running : Running α σ sizes) (operand : Operand) (left : Passed α) :
    Option (Running α σ sizes) :=
  match operand, left with
  | .address place, .array values => do
      let cell ← active.reach? program 0 running place
      let count := (running.world.store.content cell.buffer).size - cell.position
      let cells := (List.range' cell.position count).map (Cell.mk cell.buffer)
      some (running.update fun store => store.writeAll (cells.zip values.toList))
  | _, _ => some running

/-- Call an external function. -/
def callExternal? (host : Host α σ sizes) (running : Running α σ sizes) (function : External)
    (operands : List Operand) : Option (α × Running α σ sizes) := do
  let passed ← operands.mapM (active.passed? program running)
  let reply := host function passed running.world.store.memory running.world.state
  let replied : Running α σ sizes :=
    { running with world := ⟨{ running.world.store with memory := reply.memory }, reply.state⟩ }
  let after ← (operands.zip reply.arguments).foldlM
    (fun running entry => active.putBack? program running entry.1 entry.2) replied
  some (Scalar.ofInt reply.status, after)

end Activation

/-! ## Instructions -/

section Instructions

variable {α σ : Type} {sizes : List Nat} [Scalar α]

/-- Run instructions one after the other. -/
def runAll (step : Instruction α → Running α σ sizes → Option (Running α σ sizes))
    (instructions : List (Instruction α)) (running : Running α σ sizes) :
    Option (Running α σ sizes) :=
  instructions.foldlM (fun running instruction => step instruction running) running

/-- Run a body as long as a counter is below a limit, and count up after each
time. -/
def countUp (body : Running α σ sizes → Option (Running α σ sizes)) (name : String)
    (stop : Nat) : (fuel : Nat) → Running α σ sizes → Option (Running α σ sizes)
  | 0, _ => none
  | fuel + 1, running =>
      if running.counters name < stop then do
        let after ← body running
        countUp body name stop fuel (after.count name (after.counters name + 1))
      else
        some running

/-- The state in which the body of a called function starts. -/
def Running.started (running : Running α σ sizes) (remains : Remains α) (routine : Routine α)
    (frame : Frame) : Running α σ sizes where
  world := running.world.update fun store =>
    store.push (routine.locals.mapIdx fun position decl =>
      Array.ofFn fun index : Fin decl.size => remains.element running.calls position index)
  counters := fun name => (frame.scope.lookup name).getD (remains.counter running.calls name)
  calls := running.calls + 1

/-- The state behind a call: what the called function had of its own is gone. -/
def Running.returned (running ended : Running α σ sizes) : Running α σ sizes :=
  { ended with
    world := ended.world.update fun store => store.truncate running.world.store.stack.size
    counters := running.counters }

/-- Call a function whose body runs instruction by instruction.  A function
without a result gives zero. -/
def Program.callFunction (program : Program α) (remains : Remains α)
    (step : Activation α → Instruction α → Running α σ sizes → Option (Running α σ sizes))
    (routine : Routine α) (bindings : List Binding) (running : Running α σ sizes) :
    Option (α × Running α σ sizes) := do
  let frame := Frame.ofCall routine bindings running.world.store.stack.size
  let active : Activation α := ⟨routine, frame.origin?⟩
  let ended ← runAll (step active) (Emission.instructions program routine)
    (running.started remains routine frame)
  let result ← routine.result.elim (some 0) fun position =>
    active.read? program ended ⟨.own position, .const 0⟩
  some (result, running.returned ended)

/-- Run an instruction. -/
def Program.executeCode (program : Program α) (host : Host α σ sizes) (remains : Remains α) :
    (fuel : Nat) → Activation α → Instruction α → Running α σ sizes →
      Option (Running α σ sizes)
  | 0, _, _, _ => none
  | fuel + 1, active, instruction, running =>
      match instruction with
      | .store target op term isWhole => active.storeTerm? program running target op term isWhole
      | .stage op stores => active.stage? program running op stores
      | .clear id => some (running.update fun store => store.clear id)
      | .loop name start stop body =>
          countUp (runAll (program.executeCode host remains fuel active) body) name stop fuel
            (running.count name start)
      | .call callee operands status => do
          let (result, after) ←
            match callee with
            | .routine name => do
                let routine ← program.routine? name
                let bindings ← operands.mapM (active.binding? program running)
                program.callFunction remains (program.executeCode host remains fuel) routine
                  bindings running
            | .external function => active.callExternal? program host running function operands
          match status with
          | some target => active.store? program after target .set result
          | none => some after
      | .comment _ => some running

/-- Run the function of a routine from outside. -/
def Program.runCode (program : Program α) (host : Host α σ program.table.sizes)
    (remains : Remains α) (fuel : Nat) (state : σ) (memory : program.Contents) (name : String)
    (arguments : List (Passed α)) : Option (program.Outcome σ) := do
  let routine ← program.routine? name
  let (bindings, arrays) ← Program.bindOutside routine.parameters arguments 0
  let (result, ended) ← program.callFunction remains (program.executeCode host remains fuel)
    routine bindings ⟨⟨⟨memory, arrays.toArray⟩, state⟩, remains.counter 0, 0⟩
  some ⟨.ok result, ended.world.store.memory, ended.world.state⟩

end Instructions

/-! ## Enough fuel -/

/-- A computation gives a value from some amount of fuel on. -/
def Settles {β : Type} (run : (fuel : Nat) → Option β) (value : β) : Prop :=
  ∃ enough, ∀ fuel, enough ≤ fuel → run fuel = some value

namespace Settles

variable {β γ : Type} {run : Nat → Option β} {value : β}

/-- More fuel does not change the value. -/
theorem unique {other : β} (first : Settles run value) (second : Settles run other) :
    value = other := by
  obtain ⟨enough, gives⟩ := first
  obtain ⟨enoughOther, givesOther⟩ := second
  have same := (gives _ (Nat.le_max_left enough enoughOther)).symm.trans
    (givesOther _ (Nat.le_max_right enough enoughOther))
  exact Option.some.inj same

theorem of_eq (gives : ∀ fuel, run fuel = some value) : Settles run value :=
  ⟨0, fun fuel _ => gives fuel⟩

theorem bind {next : Nat → β → Option γ} {result : γ} (first : Settles run value)
    (later : Settles (fun fuel => next fuel value) result) :
    Settles (fun fuel => run fuel >>= next fuel) result := by
  obtain ⟨enough, gives⟩ := first
  obtain ⟨enoughLater, givesLater⟩ := later
  refine ⟨max enough enoughLater, fun fuel most => ?_⟩
  have firstGives := gives fuel (Nat.le_trans (Nat.le_max_left _ _) most)
  have laterGives := givesLater fuel (Nat.le_trans (Nat.le_max_right _ _) most)
  simp only [firstGives, laterGives, Option.bind_eq_bind, Option.bind_some]

/-- What goes on without fuel. -/
theorem andThen (first : Settles run value) (next : β → Option γ) {result : γ}
    (gives : next value = some result) : Settles (fun fuel => run fuel >>= next) result :=
  first.bind (.of_eq fun _ => gives)

/-- One step takes one unit of fuel. -/
theorem succ {step : Nat → Option β} (settles : Settles run value)
    (step_eq : ∀ fuel, step (fuel + 1) = run fuel) : Settles step value := by
  obtain ⟨enough, gives⟩ := settles
  refine ⟨enough + 1, fun fuel most => ?_⟩
  obtain ⟨fuel, rfl⟩ := Nat.exists_eq_add_of_le' (Nat.le_trans (Nat.le_add_left 1 enough) most)
  rw [step_eq, gives fuel (by omega)]

end Settles

end RtiAssembly
