import RtiAssembly.Program.Basic

/-!
# Obligations of programs

A program is fit for emission if it meets five obligations: names are unique,
references are declared, windows lie inside their arrays and assignments keep
shapes, calls go back to earlier routines or declared external functions with
matching arguments, and the arrival cost is updated exactly if it is used.

Windows are checked with every index at its largest value.  Offsets grow with
their variable, so this is the only value that matters.
-/

namespace RtiAssembly

namespace Program

variable {α : Type}

/-! ## Unique names -/

/-- Whether no name occurs twice. -/
def areDistinct : List String → Bool
  | [] => true
  | name :: rest => !rest.contains name && areDistinct rest

/-- No two arrays and no two routines share a name. -/
def hasUniqueNames (program : Program α) : Bool :=
  areDistinct (program.table.arrays.map ArrayDecl.name) &&
    areDistinct (program.routines.map Routine.name)

/-! ## Declared references -/

end Program

mutual

/-- The windows of a statement: targets, reads, references and status. -/
def Statement.windows {α : Type} : Statement α → List Window
  | .assign target _ value => target :: value.windows
  | .clear _ => []
  | .loop _ _ _ body => Statement.windowsOf body
  | .call _ arguments status => arguments.filterMap Argument.window? ++ status.toList
  | .comment _ => []

/-- The windows of a list of statements. -/
def Statement.windowsOf {α : Type} : List (Statement α) → List Window
  | [] => []
  | statement :: rest => statement.windows ++ Statement.windowsOf rest

end

mutual

/-- The arrays that a statement clears. -/
def Statement.cleared {α : Type} : Statement α → List Nat
  | .assign _ _ _ => []
  | .clear id => [id]
  | .loop _ _ _ body => Statement.clearedOf body
  | .call _ _ _ => []
  | .comment _ => []

/-- The arrays that a list of statements clears. -/
def Statement.clearedOf {α : Type} : List (Statement α) → List Nat
  | [] => []
  | statement :: rest => statement.cleared ++ Statement.clearedOf rest

end

/-- Whether a parameter takes an array. -/
def Parameter.isArray (parameter : Parameter) : Bool :=
  match parameter.kind with
  | .array _ _ => true
  | .index _ => false

namespace Program

variable {α : Type}

/-- Whether a base is declared: in the table, or in the routine. -/
def declaresBase (program : Program α) (routine : Routine α) : Base → Bool
  | .global id => program.table.contains id
  | .own position => position < routine.locals.length
  | .parameter position => (routine.parameters[position]?).any Parameter.isArray

/-- Every reference of a routine is declared. -/
def declaresReferences (program : Program α) (routine : Routine α) : Bool :=
  (Statement.clearedOf routine.body).all program.table.contains &&
    (Statement.windowsOf routine.body).all fun window =>
      program.declaresBase routine window.base

/-! ## Windows inside their arrays -/

/-- Number of elements behind a base. -/
def baseSize? (program : Program α) (routine : Routine α) : Base → Option Nat
  | .global id => (program.table.get? id).map ArrayDecl.size
  | .own position => (routine.locals[position]?).map ArrayDecl.size
  | .parameter position =>
      (routine.parameters[position]?).bind fun parameter =>
        match parameter.kind with
        | .array rows cols => some (rows * cols)
        | .index _ => none

/-- The largest value of each variable in scope, the innermost first. -/
abbrev Extremes := List (String × Nat)

/-- The largest value of a variable. -/
def Extremes.lookup (extremes : Extremes) (name : String) : Option Nat :=
  (extremes.find? fun entry => entry.1 == name).map Prod.snd

/-- The variables that the index parameters of a routine bring into scope, with
the last parameter innermost.  A parameter without values brings none. -/
def parameterExtremes (routine : Routine α) : Extremes :=
  (routine.parameters.filterMap fun parameter =>
    match parameter.kind with
    | .index bound => if 0 < bound then some (parameter.name, bound - 1) else none
    | .array _ _ => none).reverse

/-- Whether a window lies inside its array for all values in scope. -/
def fits (program : Program α) (routine : Routine α) (extremes : Extremes)
    (window : Window) : Bool :=
  match program.baseSize? routine window.base, window.offset.evalIn? extremes.lookup with
  | some size, some offset => offset + window.extent ≤ size
  | _, _ => false

/-- Whether an argument can be passed: a window that fits, or an index whose
variable is in scope. -/
def fitsArgument (program : Program α) (routine : Routine α) (extremes : Extremes) :
    Argument → Bool
  | .reference window => program.fits routine extremes window
  | .index index => index.variableName?.all fun name => (extremes.lookup name).isSome

mutual

/-- Whether all windows of a statement fit, and its assignment keeps shapes.
A loop without iterations is not looked into. -/
def fitsStatement (program : Program α) (routine : Routine α) (extremes : Extremes) :
    Statement α → Bool
  | .assign target _ value =>
      value.shape? == some target.shape && program.fits routine extremes target &&
        value.windows.all (program.fits routine extremes)
  | .clear _ => true
  | .loop name start stop body =>
      stop ≤ start || fitsStatements program routine ((name, stop - 1) :: extremes) body
  | .call _ arguments status =>
      arguments.all (program.fitsArgument routine extremes) &&
        status.all fun window => window.size == 1 && program.fits routine extremes window
  | .comment _ => true

/-- Whether all statements of a list fit. -/
def fitsStatements (program : Program α) (routine : Routine α) (extremes : Extremes) :
    List (Statement α) → Bool
  | [] => true
  | statement :: rest =>
      fitsStatement program routine extremes statement &&
        fitsStatements program routine extremes rest

end

/-- Whether all windows of a routine lie inside their arrays. -/
def fitsRoutine (program : Program α) (routine : Routine α) : Bool :=
  program.fitsStatements routine (parameterExtremes routine) routine.body

/-- The routines with a window outside its array or an assignment that does not
keep shapes. -/
def unfitRoutines (program : Program α) : List (Routine α) :=
  program.routines.filter fun routine => !program.fitsRoutine routine

/-! ## Resolved calls -/

/-- Whether an argument matches a parameter. -/
def matchesParameter (parameter : Parameter) (argument : Argument) : Bool :=
  match parameter.kind, argument with
  | .array rows cols, .reference window => window.size == rows * cols
  | .index _, .index _ => true
  | _, _ => false

/-- Whether an argument matches a parameter of an external function. -/
def matchesSignature (takesArray : Bool) (argument : Argument) : Bool :=
  match takesArray, argument with
  | true, .reference _ => true
  | false, .index _ => true
  | _, _ => false

/-- Whether two lists have one length and match entry by entry. -/
def matchAll {β γ : Type} (matching : β → γ → Bool) : List β → List γ → Bool
  | [], [] => true
  | first :: firsts, second :: seconds => matching first second && matchAll matching firsts seconds
  | _, _ => false

/-- Whether a call resolves: to one of the earlier routines, without a status,
or to a declared external function that can return its status. -/
def resolves (externals : List External) (earlier : List (Routine α)) (callee : Callee)
    (arguments : List Argument) (status : Option Window) : Bool :=
  match callee with
  | .routine name =>
      match earlier.find? fun routine => routine.name == name with
      | some target => status.isNone && matchAll matchesParameter target.parameters arguments
      | none => false
  | .external function =>
      externals.contains function &&
        matchAll (fun (_, takesArray) => matchesSignature takesArray) function.signature
          arguments &&
        (status.isNone || function.returnsStatus)

/-- Whether the calls of all routines resolve, given the routines before them. -/
def resolveAll (externals : List External) (earlier : List (Routine α)) :
    List (Routine α) → Bool
  | [] => true
  | routine :: rest =>
      ((Statement.callsOf routine.body).all fun (callee, arguments, status) =>
        resolves externals earlier callee arguments status) &&
      resolveAll externals (earlier ++ [routine]) rest

end Program

/-! ## The certificate -/

/-- Which obligations a program meets. -/
structure Certificate where
  uniqueDeclarations : Bool
  referencesDeclared : Bool
  windowsInBounds : Bool
  callsResolved : Bool
  arrivalCostConsistent : Bool
  deriving DecidableEq, Repr

namespace Certificate

/-- The obligations with their labels. -/
def obligations (certificate : Certificate) : List (String × Bool) :=
  [("A1_unique_declarations", certificate.uniqueDeclarations),
    ("A2_references_declared", certificate.referencesDeclared),
    ("A3_windows_in_bounds", certificate.windowsInBounds),
    ("A4_calls_resolved", certificate.callsResolved),
    ("A5_arrival_cost_consistent", certificate.arrivalCostConsistent)]

/-- Whether all obligations are met. -/
def isComplete (certificate : Certificate) : Bool :=
  certificate.obligations.all Prod.snd

/-- The labels of the obligations that are not met. -/
def failed (certificate : Certificate) : List String :=
  (certificate.obligations.filter fun (_, isMet) => !isMet).map Prod.fst

end Certificate

/-- Check the obligations of a program.  Windows are only looked at once all
references are declared. -/
def Program.certify {α : Type} (program : Program α) (usesArrivalCost : Bool) : Certificate :=
  let declared := program.routines.all program.declaresReferences
  { uniqueDeclarations := program.hasUniqueNames
    referencesDeclared := declared
    windowsInBounds := declared && program.unfitRoutines.isEmpty
    callsResolved := Program.resolveAll program.externals [] program.routines
    arrivalCostConsistent := program.hasRoutine Phases.arrivalCostName == usesArrivalCost }

end RtiAssembly
