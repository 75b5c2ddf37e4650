import RtiAssembly.Machine.Execution

/-!
# Runs

A routine is run from outside with arrays and indices of its own choice.  The
memory of the module lasts from run to run.
-/

namespace RtiAssembly

namespace ArrayTable

variable {α : Type}

/-- Number of elements of every array. -/
def sizes (table : ArrayTable α) : List Nat :=
  table.arrays.map ArrayDecl.size

end ArrayTable

namespace Program

variable {α σ : Type}

/-- The memories of a program. -/
abbrev Contents (program : Program α) : Type :=
  Memory α program.table.sizes

/-- The largest number of elements of an array in sight of a routine. -/
def largestArray (program : Program α) : Nat :=
  let owned := program.routines.flatMap fun routine =>
    routine.locals.map ArrayDecl.size ++
      routine.parameters.map fun parameter =>
        match parameter.kind with
        | .array rows cols => rows * cols
        | .index _ => 0
  (program.table.sizes ++ owned).foldl max 0

/-- The largest number of parameters of a routine. -/
def mostParameters (program : Program α) : Nat :=
  (program.routines.map fun routine => routine.parameters.length).foldl max 0

/-- A number of rounds after which parameters that are only passed around are
back in their places: a multiple of every possible length of a cycle. -/
def roundTrip (program : Program α) : Nat :=
  (List.range' 1 program.mostParameters).foldl Nat.lcm 1

/-- A depth of calls that is not exceeded by any run that ends.  Which routine
is called first does not depend on any number, so that calls nested without end
repeat a cycle of routines, and each round moves the parameters in the same way.
Offsets and indices never become smaller, and after a round trip every one has
either the old value or a larger one.  If one that is used grows, it leaves the
largest array within this depth; if none grows, the run repeats itself and does
not end. -/
def callDepth (program : Program α) : Nat :=
  let count := program.routines.length
  count * program.roundTrip * (program.largestArray + 2 * program.mostParameters + 3) + count

/-- The content of the array of a given name. -/
def content? (program : Program α) (memory : program.Contents) (name : String) :
    Except Fault (Array α) :=
  match program.table.find? name with
  | some id => .ok (memory.content id)
  | none => .error (.unknownArray name)

/-- Overwrite the array of a given name. -/
def setContent (program : Program α) (memory : program.Contents) (name : String)
    (values : Array α) : Except Fault program.Contents :=
  match program.table.find? name with
  | none => .error (.unknownArray name)
  | some id =>
      let expected := (memory.content id).size
      if values.size = expected then
        .ok (memory.overwrite id values)
      else
        .error (.wrongLength name expected values.size)

/-- Match arguments from outside with parameters.  Arrays go to the stack. -/
def bindOutside : List Parameter → List (Passed α) → (height : Nat) →
    Option (List Binding × List (Array α))
  | [], [], _ => some ([], [])
  | parameter :: parameters, argument :: arguments, height =>
      match parameter.kind, argument with
      | .array rows cols, .array values =>
          if values.size = rows * cols then
            (bindOutside parameters arguments (height + 1)).map fun (bindings, arrays) =>
              (.array ⟨.stack height, 0⟩ :: bindings, values :: arrays)
          else
            none
      | .index _, .index value =>
          (bindOutside parameters arguments height).map fun (bindings, arrays) =>
            (.index value :: bindings, arrays)
      | _, _ => none
  | _, _, _ => none

/-- What a run leaves behind. -/
structure Outcome (program : Program α) (σ : Type) where
  /-- The return value, or what stopped the run. -/
  result : Except Fault α
  memory : program.Contents
  state : σ

variable [Scalar α]

/-- The memory before the first run. -/
def initialMemory (program : Program α) : program.Contents :=
  .initial program.table.arrays

/-- Run a routine. -/
def run (program : Program α) (host : Host α σ program.table.sizes) (state : σ)
    (memory : program.Contents) (name : String) (arguments : List (Passed α)) :
    program.Outcome σ :=
  match program.routine? name with
  | none => ⟨.error (.unknownRoutine name), memory, state⟩
  | some routine =>
      match bindOutside routine.parameters arguments 0 with
      | none => ⟨.error (.arity name), memory, state⟩
      | some (bindings, arrays) =>
          let (result, world) :=
            (program.enter host program.callDepth routine bindings).run.run
              ⟨⟨memory, arrays.toArray⟩, state⟩
          ⟨result, world.store.memory, world.state⟩

end Program

end RtiAssembly
