import RtiAssembly.Program.Basic
import RtiAssembly.Storage.Listing

/-!
# Listings of programs

The readable text of a program: its dimensions, its arrays, the external
functions and every routine.
-/

namespace RtiAssembly.Program

variable {α : Type}

/-- The text of a list of numbers. -/
def numbersText (numbers : List Nat) : String :=
  "[" ++ ", ".intercalate (numbers.map toString) ++ "]"

/-- The line of the dimensions. -/
def dimsLine (dims : Dimensions) : String :=
  "dims N=" ++ toString dims.n ++ " NX=" ++ toString dims.nx ++ " NU=" ++ toString dims.nu ++
    " NY=" ++ toString dims.ny ++ " NYN=" ++ toString dims.nyn ++ " NOD=" ++
    toString dims.nod ++ "\n"

/-- The line of an array. -/
def arrayLine (decl : ArrayDecl α) : String :=
  decl.storage.label ++ " " ++ decl.name ++ " " ++ shapeText decl.rows decl.cols ++ "\n"

/-- The listing of a program. -/
def listing [Scalar α] (program : Program α) : String :=
  let arrays := StorageClass.listed.flatMap fun storage =>
    (program.table.ofClass storage).map fun (_, decl) => arrayLine decl
  let externals := program.externals.map fun function =>
    "extern " ++ function.symbol program.moduleName ++ "\n"
  let routines := program.routines.map fun routine =>
    "\n" ++ routine.listing program.table.nameOf
  "module " ++ program.moduleName ++ "\n" ++ dimsLine program.dims ++
    "numQPvars " ++ toString program.numQpVars ++ "\n" ++
    "qpConDim " ++ numbersText program.rowCounts ++ "\n\n" ++
    String.join arrays ++ "\n" ++ String.join externals ++ String.join routines

end RtiAssembly.Program
