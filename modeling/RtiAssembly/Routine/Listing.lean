import RtiAssembly.Quotation
import RtiAssembly.Routine.Basic

/-!
# Listings of routines

The readable text of a routine: its parameters and arrays, then one statement a
line, the bodies of loops indented.
-/

namespace RtiAssembly

/-- The label of an external function in listings. -/
def External.label : External → String
  | .modelSimulation => "ModelSimulation"
  | .integrate => "Integrate"
  | .stageCost => "StageCost"
  | .terminalCost => "TerminalCost"
  | .constraint name => "Constraint(" ++ Quotation.quote name ++ ")"
  | .qpSolve => "QpSolve"
  | .arrivalCostBackend => "ArrivalCostBackend"

/-- The label of a callee in listings. -/
def Callee.label : Callee → String
  | .routine name => "Routine(" ++ Quotation.quote name ++ ")"
  | .external function => "External(" ++ function.label ++ ")"

/-- The text of a shape. -/
def shapeText (rows cols : Nat) : String :=
  toString rows ++ "x" ++ toString cols

namespace Listing

variable {α : Type} [Scalar α]

/-- How bases are called in a listing. -/
abbrev Names := Base → String

/-- The names seen from inside a routine. -/
def namesIn (globalName : Nat → String) (routine : Routine α) : Names
  | .global id => globalName id
  | .parameter position =>
      ((routine.parameters[position]?).map Parameter.name).getD ""
  | .own position => ((routine.locals[position]?).map ArrayDecl.name).getD ""

/-- The text of a window; a stride is shown if rows are not contiguous. -/
def window (names : Names) (window : Window) : String :=
  let stride := if window.stride = window.cols then "" else "/" ++ toString window.stride
  let mark := if window.transposed then "^T" else ""
  names window.base ++ "[" ++ window.offset.display ++ "; " ++
    shapeText window.rows window.cols ++ stride ++ "]" ++ mark

/-- The text of an expression; a known matrix shows its number or its shape. -/
def expr (names : Names) : Expr α → String
  | .read read => window names read
  | .known value =>
      if value.size = 1 then
        Scalar.text .literal (value.entry 0 0)
      else
        "const<" ++ shapeText value.rows value.cols ++ ">"
  | .add left right => "(" ++ expr names left ++ " + " ++ expr names right ++ ")"
  | .sub left right => "(" ++ expr names left ++ " - " ++ expr names right ++ ")"
  | .mul left right => expr names left ++ " * " ++ expr names right
  | .abs inner => "|" ++ expr names inner ++ "|"

/-- The text of an argument. -/
def argument (names : Names) : Argument → String
  | .reference passed => "&" ++ window names passed
  | .index index => index.display

/-- The text of a call. -/
def call (names : Names) (callee : Callee) (arguments : List Argument)
    (status : Option Window) : String :=
  let target :=
    match status with
    | some status => window names status ++ " = "
    | none => ""
  let name :=
    match callee with
    | .routine name => name
    | .external function => "extern " ++ function.label
  target ++ "call " ++ name ++ "(" ++ ", ".intercalate (arguments.map (argument names)) ++ ")"

mutual

/-- The lines of a statement. -/
def statement (names : Names) (indent : String) : Statement α → String
  | .assign target op value =>
      indent ++ window names target ++ " " ++ op.symbol ++ " " ++ expr names value ++ "\n"
  | .clear id => indent ++ "clear " ++ names (.global id) ++ "\n"
  | .loop name start stop body =>
      indent ++ "for " ++ name ++ " in " ++ toString start ++ ".." ++ toString stop ++ "\n" ++
        statements names (indent ++ "  ") body
  | .call callee arguments status => indent ++ call names callee arguments status ++ "\n"
  | .comment text => indent ++ "// " ++ text ++ "\n"

/-- The lines of a list of statements. -/
def statements (names : Names) (indent : String) : List (Statement α) → String
  | [] => ""
  | first :: rest => statement names indent first ++ statements names indent rest

end

/-- The text of a parameter. -/
def parameter (parameter : Parameter) : String :=
  match parameter.kind with
  | .array rows cols => parameter.name ++ ": " ++ shapeText rows cols
  | .index bound => parameter.name ++ ": idx<" ++ toString bound

/-- The line of an array of the routine's own. -/
def localArray (decl : ArrayDecl α) : String :=
  "  local " ++ decl.name ++ ": " ++ shapeText decl.rows decl.cols ++ " " ++
    decl.kind.label ++ "\n"

end Listing

/-- The listing of a routine. -/
def Routine.listing {α : Type} [Scalar α] (globalName : Nat → String) (routine : Routine α) :
    String :=
  let names := Listing.namesIn globalName routine
  let result :=
    match routine.result with
    | some position => " -> " ++ names (.own position)
    | none => ""
  "routine " ++ routine.name ++ "(" ++
    ", ".intercalate (routine.parameters.map Listing.parameter) ++ ")" ++ result ++ "\n" ++
    String.join (routine.locals.map Listing.localArray) ++
    Listing.statements names "  " routine.body

end RtiAssembly
