import RtiAssembly.Emission.Term
import RtiAssembly.Routine.Basic

/-!
# Instructions

The body of a generated function: scalar stores, loops and calls.  Stores
happen one after the other, each reading what earlier ones have written, unless
their values are first collected in a temporary array.
-/

namespace RtiAssembly

/-- An argument of a call in generated code. -/
inductive Operand
  /-- The address of an element. -/
  | address (place : Place)
  | index (index : AffineIndex)
  deriving DecidableEq, Repr

/-- The text of an argument. -/
def Operand.text (symbols : Symbols) : Operand → String
  | .address place => place.address symbols
  | .index value => value.display

/-- An instruction of a generated function. -/
inductive Instruction (α : Type)
  /-- Store a value; a number goes to a whole-number variable without its
  fraction. -/
  | store (target : Place) (op : AssignOp) (value : Term α) (isWhole : Bool)
  /-- Compute all values before the first one is stored. -/
  | stage (op : AssignOp) (stores : List (Place × Term α))
  /-- Set a whole array to zero. -/
  | clear (id : Nat)
  | loop (name : String) (start stop : Nat) (body : List (Instruction α))
  | call (callee : Callee) (operands : List Operand) (status : Option Place)
  | comment (text : String)

/-- The name of a called function. -/
def Callee.symbol (moduleName : String) : Callee → String
  | .routine name => moduleName ++ "_" ++ name
  | .external function => function.symbol moduleName

namespace Instruction

variable {α : Type} [Scalar α]

/-- The text of a stored value. -/
def storedText (symbols : Symbols) (isWhole : Bool) (value : Term α) : String :=
  match isWhole, value.number? with
  | true, some number => toString (Scalar.truncate number)
  | _, _ => value.text symbols

/-- The text of a temporary. -/
def temporary (position : Nat) : String :=
  "tmp[" ++ toString position ++ "]"

/-- The lines of stores through a temporary array. -/
def stageText (symbols : Symbols) (indent : String) (op : AssignOp)
    (stores : List (Place × Term α)) : String :=
  let inner := indent ++ "    "
  let computed := stores.mapIdx fun position (_, value) =>
    inner ++ temporary position ++ " = " ++ value.text symbols ++ ";\n"
  let stored := stores.mapIdx fun position (target, _) =>
    inner ++ target.text symbols ++ " " ++ op.symbol ++ " " ++ temporary position ++ ";\n"
  indent ++ "\x7b\n" ++ inner ++ "real_t " ++ temporary stores.length ++ ";\n" ++
    String.join computed ++ String.join stored ++ indent ++ "\x7d\n"

/-- The text of a call. -/
def callText (moduleName : String) (symbols : Symbols) (callee : Callee)
    (operands : List Operand) (status : Option Place) : String :=
  let target :=
    match status with
    | some place => place.text symbols ++ " = "
    | none => ""
  target ++ callee.symbol moduleName ++ "(" ++
    ", ".intercalate (operands.map (Operand.text symbols)) ++ ")"

mutual

/-- The lines of an instruction; lines that belong together may form one text. -/
def lines (moduleName : String) (symbols : Symbols) (indent : String) :
    Instruction α → List String
  | .store target op value isWhole =>
      [indent ++ target.text symbols ++ " " ++ op.symbol ++ " " ++
        storedText symbols isWhole value ++ ";\n"]
  | .stage op stores => [stageText symbols indent op stores]
  | .clear id =>
      let name := (symbols (.global id)).name
      [indent ++ "memset(" ++ name ++ ", 0, sizeof(" ++ name ++ "));\n"]
  | .loop name start stop body =>
      (indent ++ "for (" ++ name ++ " = " ++ toString start ++ "; " ++ name ++ " < " ++
        toString stop ++ "; ++" ++ name ++ ")\n") ::
        (indent ++ "\x7b\n") ::
        (linesOf moduleName symbols (indent ++ "    ") body ++ [indent ++ "\x7d\n"])
  | .call callee operands status =>
      [indent ++ callText moduleName symbols callee operands status ++ ";\n"]
  | .comment text => [indent ++ "/* " ++ text ++ " */\n"]

/-- The lines of a list of instructions. -/
def linesOf (moduleName : String) (symbols : Symbols) (indent : String) :
    List (Instruction α) → List String
  | [] => []
  | first :: rest =>
      lines moduleName symbols indent first ++ linesOf moduleName symbols indent rest

end

/-- The text of a list of instructions. -/
def text (moduleName : String) (symbols : Symbols) (indent : String)
    (instructions : List (Instruction α)) : String :=
  String.join (linesOf moduleName symbols indent instructions)

end Instruction

end RtiAssembly
