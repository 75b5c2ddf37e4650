import RtiAssembly.Emission.Lowering
import RtiAssembly.Emission.Names

/-!
# The generated source file

The source file holds the memory of the solver, the constants that are still
named after folding, and the function of every routine.
-/

namespace RtiAssembly.Emission

variable {α : Type} (program : Program α)

/-- The constant arrays that some routine names. -/
def definedConstants : List (ArrayDecl α) :=
  let named := program.routines.flatMap fun routine =>
    Statement.namedConstantsOf program.table routine.body
  ((program.table.ofClass .constant).filter fun (id, _) => named.contains id).map Prod.snd

/-- The definition of a constant array. -/
def constantLine [Scalar α] (decl : ArrayDecl α) : String :=
  "static const real_t " ++ constantName program decl ++ "[" ++ storedSize decl ++
    "] = \x7b " ++ ", ".intercalate (decl.initial.toList.map (Scalar.text .literal)) ++ " \x7d;\n"

/-- The declaration of an array of a routine's own. -/
def localLine (decl : ArrayDecl α) : String :=
  let size := if decl.size = 1 then "" else "[" ++ toString decl.size ++ "]"
  "    " ++ elementType decl.kind ++ " " ++ decl.name ++ size ++ ";\n"

/-- The body of the function of a routine. -/
def instructions [Scalar α] (routine : Routine α) : List (Instruction α) :=
  Scope.lowerAll ⟨program.table, routine.locals⟩ routine.body

/-- The definition of the function of a routine. -/
def function [Scalar α] (routine : Routine α) : String :=
  let names := symbols program routine
  let loops := routine.loopVariables
  let declarations :=
    String.join (routine.locals.map localLine) ++
      String.join (loops.map fun name => "    int " ++ name ++ ";\n")
  let gap := if routine.locals.isEmpty && loops.isEmpty then "" else "\n"
  let result :=
    match routine.result with
    | some position => "    return " ++ (names (.own position)).name ++ ";\n"
    | none => ""
  docLine routine.doc ++ signature program routine ++ "\n\x7b\n" ++ declarations ++ gap ++
    Instruction.text program.moduleName names "    " (instructions program routine) ++
    result ++ "\x7d\n\n"

/-- The text of the source file. -/
def source [Scalar α] (headerName provenance : String) : String :=
  let constants := definedConstants program
  banner provenance ++ "#include \"" ++ headerName ++ "\"\n\n" ++
    "#include <math.h>\n#include <string.h>\n\n" ++
    structureName program .variable ++ " " ++ instanceName program .variable ++ ";\n" ++
    structureName program .workspace ++ " " ++ instanceName program .workspace ++ ";\n\n" ++
    String.join (constants.map (constantLine program)) ++
    (if constants.isEmpty then "" else "\n") ++
    String.join (program.routines.map (function program))

end RtiAssembly.Emission
