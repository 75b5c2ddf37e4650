import RtiAssembly.Routine.Declaration
import RtiAssembly.Routine.Expr

/-!
# Routines

A routine is a list of statements over windows.  Routines call each other and
external functions, pass windows by reference and indices by value, and loop
over constant ranges; nothing else steers their course.
-/

namespace RtiAssembly

/-! ## External functions -/

/-- A function that the generated code calls but does not define. -/
inductive External
  /-- Integrate the whole horizon with its sensitivities. -/
  | modelSimulation
  /-- Simulate one interval. -/
  | integrate
  /-- Evaluate the stage residual and its derivatives. -/
  | stageCost
  /-- Evaluate the terminal residual and its derivative. -/
  | terminalCost
  /-- Evaluate a path or point constraint. -/
  | constraint (name : String)
  /-- Solve the quadratic program. -/
  | qpSolve
  /-- Advance the arrival cost. -/
  | arrivalCostBackend
  deriving DecidableEq, Repr

namespace External

/-- The symbol of an external function in a module. -/
def symbol (moduleName : String) : External → String
  | .modelSimulation => moduleName ++ "_modelSimulation"
  | .integrate => moduleName ++ "_integrate"
  | .stageCost => moduleName ++ "_evaluateStageCost"
  | .terminalCost => moduleName ++ "_evaluateTerminalCost"
  | .constraint name => name
  | .qpSolve => moduleName ++ "_solve"
  | .arrivalCostBackend => moduleName ++ "_updateArrivalCostBackend"

/-- The parameters of an external function: their names, and whether an array
is passed. -/
def signature : External → List (String × Bool)
  | .modelSimulation => []
  | .integrate => [("state", true), ("node", false)]
  | .stageCost => [("in", true), ("out", true)]
  | .terminalCost => [("in", true), ("out", true)]
  | .constraint _ => [("in", true), ("out", true)]
  | .qpSolve => []
  | .arrivalCostBackend => [("reset", false), ("WL", true), ("xAC", true), ("SAC", true)]

/-- Whether an external function returns a status. -/
def returnsStatus : External → Bool
  | .modelSimulation => true
  | .integrate => true
  | .stageCost => false
  | .terminalCost => false
  | .constraint _ => false
  | .qpSolve => true
  | .arrivalCostBackend => true

end External

/-! ## Statements -/

/-- How an assignment combines with the old content. -/
inductive AssignOp
  | set
  | add
  | sub
  deriving DecidableEq, Repr

/-- The symbol of an assignment. -/
def AssignOp.symbol : AssignOp → String
  | .set => "="
  | .add => "+="
  | .sub => "-="

/-- What a call names. -/
inductive Callee
  | routine (name : String)
  | external (external : External)
  deriving DecidableEq, Repr

/-- An argument of a call. -/
inductive Argument
  /-- The address of the first element of a window. -/
  | reference (window : Window)
  | index (index : AffineIndex)
  deriving DecidableEq, Repr

/-- The window of an argument, if it is passed by reference. -/
def Argument.window? : Argument → Option Window
  | .reference window => some window
  | .index _ => none

/-- A statement of a routine. -/
inductive Statement (α : Type)
  | assign (target : Window) (op : AssignOp) (value : Expr α)
  /-- Set a whole array of the module to zero. -/
  | clear (id : Nat)
  /-- Run the body for each value from `start` to below `stop`. -/
  | loop (name : String) (start stop : Nat) (body : List (Statement α))
  /-- Call a routine or external function; a status goes to a window. -/
  | call (callee : Callee) (arguments : List Argument) (status : Option Window)
  | comment (text : String)

namespace Statement

variable {α : Type}

/-- Assign a value. -/
def set (target : Window) (value : Expr α) : Statement α :=
  .assign target .set value

/-- Add a value. -/
def increase (target : Window) (value : Expr α) : Statement α :=
  .assign target .add value

/-- Subtract a value. -/
def decrease (target : Window) (value : Expr α) : Statement α :=
  .assign target .sub value

/-- Call a routine. -/
def run (name : String) (arguments : List Argument) : Statement α :=
  .call (.routine name) arguments none

/-- Call an external function. -/
def invoke (function : External) (arguments : List Argument) (status : Option Window) :
    Statement α :=
  .call (.external function) arguments status

end Statement

/-! ## Routines -/

/-- What a parameter takes. -/
inductive ParameterKind
  /-- The address of `rows * cols` consecutive reals. -/
  | array (rows cols : Nat)
  /-- A number below the bound. -/
  | index (bound : Nat)
  deriving DecidableEq, Repr

/-- A parameter of a routine. -/
structure Parameter where
  name : String
  kind : ParameterKind
  deriving DecidableEq, Repr

/-- A routine. -/
structure Routine (α : Type) where
  name : String
  doc : Option String
  parameters : List Parameter
  locals : List (ArrayDecl α)
  /-- Position of the local that holds the return value. -/
  result : Option Nat
  body : List (Statement α)

namespace Routine

variable {α : Type}

/-- Position of the first parameter of a given name. -/
def parameterIndex? (routine : Routine α) (name : String) : Option Nat :=
  routine.parameters.findIdx? fun parameter => parameter.name == name

end Routine

mutual

/-- The loop variables of a statement, outer before inner. -/
def Statement.loopNames {α : Type} : Statement α → List String
  | .assign _ _ _ => []
  | .clear _ => []
  | .loop name _ _ body => name :: Statement.loopNamesOf body
  | .call _ _ _ => []
  | .comment _ => []

/-- The loop variables of a list of statements. -/
def Statement.loopNamesOf {α : Type} : List (Statement α) → List String
  | [] => []
  | statement :: rest => statement.loopNames ++ Statement.loopNamesOf rest

end

mutual

/-- The calls of a statement with their arguments and status windows. -/
def Statement.calls {α : Type} :
    Statement α → List (Callee × List Argument × Option Window)
  | .assign _ _ _ => []
  | .clear _ => []
  | .loop _ _ _ body => Statement.callsOf body
  | .call callee arguments status => [(callee, arguments, status)]
  | .comment _ => []

/-- The calls of a list of statements. -/
def Statement.callsOf {α : Type} :
    List (Statement α) → List (Callee × List Argument × Option Window)
  | [] => []
  | statement :: rest => statement.calls ++ Statement.callsOf rest

end

namespace Routine

variable {α : Type}

/-- The loop variables of a routine, each once, in the order of first use. -/
def loopVariables (routine : Routine α) : List String :=
  (Statement.loopNamesOf routine.body).foldl
    (fun found name => if found.contains name then found else found ++ [name]) []

/-- What a routine calls, in the order of its statements. -/
def callees (routine : Routine α) : List Callee :=
  (Statement.callsOf routine.body).map Prod.fst

end Routine

/-- Routines assembled together, with their share of the initialization. -/
structure Section (α : Type) where
  routines : List (Routine α)
  initialization : List (Statement α)

end RtiAssembly
