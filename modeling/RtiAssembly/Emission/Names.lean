import RtiAssembly.Emission.Instruction
import RtiAssembly.Emission.Usage
import RtiAssembly.Program.Basic
import RtiAssembly.Provenance

/-!
# Names in generated code

How generated code calls arrays and functions.  Arrays of the module are
members of two memory structures; constants and functions carry the name of the
module in front.
-/

namespace RtiAssembly.Emission

/-- The text of a list of parameters. -/
def parameterList (parameters : List String) : String :=
  if parameters.isEmpty then "void" else ", ".intercalate parameters

/-- The type of an element. -/
def elementType : ElementKind → String
  | .real => "real_t"
  | .int => "int"
  | .bool => "int"

/-- Number of elements of an array in the code; none is empty. -/
def storedSize {α : Type} (decl : ArrayDecl α) : String :=
  toString (max decl.size 1)

/-- The comment at the top of both files. -/
def banner (provenance : String) : String :=
  "/* Generated by rtigen " ++ generatorVersion ++
    " (Gauss-Newton RTI solver). Do not edit.\n * provenance: " ++ provenance ++ "\n */\n"

/-- The comment in front of something documented. -/
def docLine : Option String → String
  | some doc => "/** " ++ doc ++ " */\n"
  | none => ""

section Module

variable {α : Type} (program : Program α)

/-- The name of the type of a memory structure. -/
def structureName (storage : StorageClass) : String :=
  match storage with
  | .workspace => program.moduleName ++ "Workspace"
  | _ => program.moduleName ++ "Variables"

/-- The name of a variable or workspace instance. -/
def instanceName (storage : StorageClass) : String :=
  match storage with
  | .workspace => program.moduleName ++ "Work"
  | _ => program.moduleName ++ "Vars"

/-- The name of an array that is no member of a structure. -/
def constantName (decl : ArrayDecl α) : String :=
  program.moduleName ++ "_" ++ decl.name

/-- The name of an array of the module. -/
def globalName (id : Nat) : String :=
  match program.table.get? id with
  | none => ""
  | some decl =>
      match decl.storage with
      | .variable => instanceName program .variable ++ "." ++ decl.name
      | .workspace => instanceName program .workspace ++ "." ++ decl.name
      | .constant => constantName program decl
      | .own => constantName program decl

/-- The names that the code of a routine uses. -/
def symbols (routine : Routine α) : Symbols
  | .global id => ⟨globalName program id, false⟩
  | .own position =>
      match routine.locals[position]? with
      | some decl => ⟨decl.name, decl.size == 1⟩
      | none => ⟨"", false⟩
  | .parameter position => ⟨((routine.parameters[position]?).map Parameter.name).getD "", false⟩

/-- The declaration of a parameter; arrays that are only read are constant. -/
def parameter (routine : Routine α) (position : Nat) (parameter : Parameter) : String :=
  match parameter.kind with
  | .index _ => "int " ++ parameter.name
  | .array _ _ =>
      let qualifier := if routine.writesParameter position then "" else "const "
      qualifier ++ "real_t* const " ++ parameter.name

/-- The type of the return value of a routine. -/
def resultType (routine : Routine α) : String :=
  match routine.result with
  | none => "void"
  | some position =>
      elementType ((routine.locals[position]?).elim .real ArrayDecl.kind)

/-- The name of the function of a routine. -/
def functionName (routine : Routine α) : String :=
  (Callee.routine routine.name).symbol program.moduleName

/-- The head of the function of a routine. -/
def signature (routine : Routine α) : String :=
  resultType routine ++ " " ++ functionName program routine ++ "(" ++
    parameterList (routine.parameters.mapIdx (parameter routine)) ++ ")"

end Module

end RtiAssembly.Emission
