import RtiAssembly.Emission.Names
import RtiAssembly.Text.UpperCase

/-!
# The generated header

The header defines the dimensions and declares the memory of the solver, the
functions that it needs and the functions that it offers.
-/

namespace RtiAssembly.Emission

variable {α : Type} (program : Program α)

/-- The numbers that the header defines. -/
def definedNumbers : List (String × Nat) :=
  let dims := program.dims
  [("N", dims.n), ("NX", dims.nx), ("NU", dims.nu), ("NY", dims.ny), ("NYN", dims.nyn),
    ("NOD", dims.nod), ("QP_NV", program.numQpVars), ("QP_NCA", program.rowCounts.foldr (· + ·) 0)]

/-- The lines of a member of a memory structure. -/
def memberLines (decl : ArrayDecl α) : String :=
  let doc :=
    match decl.doc with
    | some doc =>
        "    /** " ++ doc ++ " (" ++ toString decl.rows ++ " x " ++ toString decl.cols ++
          ") */\n"
    | none => ""
  doc ++ "    " ++ elementType decl.kind ++ " " ++ decl.name ++ "[" ++ storedSize decl ++ "];\n"

/-- The lines of the structure of a storage class. -/
def memoryStructure (storage : StorageClass) : String :=
  let name := structureName program storage
  "typedef struct " ++ name ++ "_\n\x7b\n" ++
    String.join ((program.table.ofClass storage).map fun (_, decl) => memberLines decl) ++
    "\x7d " ++ name ++ ";\n\n" ++
    "extern " ++ name ++ " " ++ instanceName program storage ++ ";\n\n"

/-- The prototype of an external function. -/
def prototype (function : External) : String :=
  let result := if function.returnsStatus then "int" else "void"
  let parameters := function.signature.map fun (name, isArray) =>
    (if isArray then "real_t* const " else "int ") ++ name
  result ++ " " ++ function.symbol program.moduleName ++ "(" ++ parameterList parameters ++ ");\n"

/-- The text of the header. -/
def header [Scalar α] (provenance : String) : String :=
  let upper := UpperCase.ofText program.moduleName
  let guard := upper ++ "_SOLVER_H"
  let numbers := (definedNumbers program).map fun (name, value) =>
    "#define " ++ upper ++ "_" ++ name ++ " " ++ toString value ++ "\n"
  let routines := program.routines.map fun routine =>
    docLine routine.doc ++ signature program routine ++ ";\n"
  banner provenance ++ "#ifndef " ++ guard ++ "\n#define " ++ guard ++ "\n\n" ++
    "typedef double real_t;\n\n" ++ String.join numbers ++
    "#define " ++ upper ++ "_INFTY " ++ Scalar.text .literal (Scalar.unbounded : α) ++ "\n\n" ++
    memoryStructure program .variable ++ memoryStructure program .workspace ++
    "/* Functions supplied by the integrator, model and QP solver. */\n" ++
    String.join (program.externals.map (prototype program)) ++ "\n" ++
    String.join routines ++ "\n#endif /* " ++ guard ++ " */\n"

end RtiAssembly.Emission
