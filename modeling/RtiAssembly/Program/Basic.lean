import RtiAssembly.Assembly.Phases

/-!
# Programs

A program is a module of arrays and routines in emission order: callees before
callers.
-/

namespace RtiAssembly

/-- A module of arrays and routines. -/
structure Program (α : Type) where
  moduleName : String
  dims : Dimensions
  table : ArrayTable α
  /-- The external functions in the order of their first use. -/
  externals : List External
  /-- The routines in emission order. -/
  routines : List (Routine α)
  numQpVars : Nat
  /-- Number of affine rows of each node. -/
  rowCounts : List Nat

namespace Program

variable {α : Type}

/-- The first routine of a given name. -/
def routine? (program : Program α) (name : String) : Option (Routine α) :=
  program.routines.find? fun routine => routine.name == name

/-- Whether a routine of a given name exists. -/
def hasRoutine (program : Program α) (name : String) : Bool :=
  (program.routine? name).isSome

/-- The external functions that routines call, each once. -/
def externalsOf (routines : List (Routine α)) : List External :=
  let called := routines.flatMap fun routine =>
    routine.callees.filterMap fun
      | .external function => some function
      | .routine _ => none
  called.foldl (fun found function =>
    if found.contains function then found else found ++ [function]) []

variable [Scalar α]

/-- Put the sections together.  The initialization stands between the routines
of the objective and constraints and those of the phases. -/
def assemble (problem : Problem α) (plan : Plan α)
    (objective constraints phases : Section α) : Program α :=
  let initialization :=
    objective.initialization ++ constraints.initialization ++ phases.initialization
  let routines :=
    objective.routines ++ constraints.routines ++
      [Horizon.initializeRoutine plan initialization] ++ phases.routines
  { moduleName := problem.moduleName
    dims := problem.dims
    table := plan.table
    externals := externalsOf routines
    routines := routines
    numQpVars := problem.numQpVars
    rowCounts := problem.rowCounts }

/-- The program of a problem and its plan. -/
def ofPlan (problem : Problem α) (plan : Plan α) : Program α :=
  assemble problem plan (Objective.assemble problem plan) (Constraints.assemble problem plan)
    (Phases.assemble problem plan)

end Program

end RtiAssembly
