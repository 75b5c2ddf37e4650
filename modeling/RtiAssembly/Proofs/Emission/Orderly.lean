import RtiAssembly.Proofs.Emission.Assignments
import RtiAssembly.Proofs.Machine.Untouched

/-!
# Obligations of generated code

A certified program keeps its windows inside their arrays.  Its code relies on
more: that no store overwrites what a later one reads, that arrays of a
routine's own are filled before they are read, that loops inside each other
count in different variables, and that what is passed by address is contiguous
and kept apart.  All of this can be read off the statements.
-/

namespace RtiAssembly

/-! ## Arrays of a routine's own -/

/-- Whether an array holds what the evaluation finds in it, when the arrays of the
routine's own at the given positions have been filled. -/
def Base.IsFilled (filled : List Nat) : Base → Prop
  | .global _ => True
  | .parameter _ => True
  | .own position => position ∈ filled

/-- The array of a routine's own that a window covers. -/
def Window.covered? {α : Type} (locals : List (ArrayDecl α)) (window : Window) : Option Nat :=
  match window.base with
  | .own position =>
      if (locals[position]?).any fun decl =>
          window == .dense (.own position) (.const 0) decl.rows decl.cols then
        some position
      else
        none
  | _ => none

/-- The arrays of a routine's own that a statement fills.  A loop may run no
round. -/
def Statement.fills {α : Type} (locals : List (ArrayDecl α)) : Statement α → List Nat
  | .assign target .set _ => (target.covered? locals).toList
  | .call _ _ status => (status.bind (Window.covered? locals)).toList
  | _ => []

/-- The arrays of a routine's own that are filled after statements, when some are
before them. -/
def Statement.filledAfter {α : Type} (locals : List (ArrayDecl α)) :
    List Nat → List (Statement α) → List Nat
  | filled, [] => filled
  | filled, statement :: rest => filledAfter locals (statement.fills locals ++ filled) rest

/-! ## Reads and stores -/

mutual

/-- The pairs of bases of which an assignment of a statement stores to the first
and reads the second. -/
def Statement.pairs {α : Type} : Statement α → List (Base × Base)
  | .assign target _ value => value.windows.map fun window => (target.base, window.base)
  | .clear _ => []
  | .loop _ _ _ body => Statement.pairsOf body
  | .call _ _ _ => []
  | .comment _ => []

/-- The pairs of bases of which an assignment stores to the first and reads the
second. -/
def Statement.pairsOf {α : Type} : List (Statement α) → List (Base × Base)
  | [] => []
  | statement :: rest => statement.pairs ++ Statement.pairsOf rest

end

/-- Whether the elements of a value depend on no cell that was stored in before
them, when different bases are different arrays: at most one element is stored,
or nothing is read from the target's array, or a part of it is copied to the
front. -/
def Expr.ReadsAhead {α : Type} (target : Window) (value : Expr α) : Prop :=
  target.size ≤ 1 ∨ (∀ window ∈ value.windows, window.base ≠ target.base) ∨
    ∃ base offset amount length, target = .vector base offset length ∧
      value = .read (.vector base (offset.plus amount) length)

namespace Program

variable {α : Type} (program : Program α)

/-- Whether code may store to an array: constants of the module are not stored
to. -/
def MayStore : Base → Prop
  | .global id => ¬program.IsConstant (.global id)
  | .parameter _ => True
  | .own _ => True

/-- What code relies on in an assignment. -/
structure AssignsInOrder [Scalar α] (routine : Routine α) (filled : List Nat) (target : Window)
    (op : AssignOp) (value : Expr α) : Prop where
  stores : program.MayStore target.base
  /-- What is stored in a whole-number array is a known whole number. -/
  whole : Scope.kindOf ⟨program.table, routine.locals⟩ target.base = .real ∨ op = .set ∧
    ∃ matrix, value = .known matrix ∧ ∀ row col, Scalar.IsWhole (matrix.entry row col)
  old_filled : op = .set ∨ target.base.IsFilled filled
  reads_filled : ∀ window ∈ value.windows, window.base.IsFilled filled
  ordered : Scope.isAliased target value = true ∨ value.ReadsAhead target

/-- The base at the caller that a base of the called routine stands for. -/
def atCall (arguments : List Argument) : Base → Base
  | .parameter position =>
      ((arguments[position]?).bind Argument.window?).elim (.parameter position) Window.base
  | base => base

/-- What a called routine relies on: it is passed arrays of the module, arrays that
it stores to are passed apart from those that it reads, and no constants for
those that it stores to. -/
structure PassesApart (callee : Routine α) (arguments : List Argument) : Prop where
  of_module : ∀ argument ∈ arguments, ∀ window ∈ argument.window?, ∃ id, window.base = .global id
  apart : ∀ pair ∈ Statement.pairsOf callee.body, pair.1 ≠ pair.2 →
    atCall arguments pair.1 ≠ atCall arguments pair.2
  stores : ∀ position ∈ Statement.writtenParametersOf callee.body,
    program.MayStore (atCall arguments (.parameter position))

/-- What an external function relies on: it is passed whole arrays of the module,
and no constants. -/
def PassesWholeArrays (arguments : List Argument) : Prop :=
  ∀ argument ∈ arguments, ∀ window ∈ argument.window?, ∃ id decl,
    program.table.get? id = some decl ∧ decl.storage ≠ .constant ∧
      window = .dense (.global id) (.const 0) decl.rows decl.cols

end Program

mutual

/-- Whether a statement meets what its code relies on, when arrays of the routine's
own have been filled and variables are in scope. -/
def Statement.IsOrderly {α : Type} [Scalar α] (program : Program α) (routine : Routine α)
    (extremes : Program.Extremes) (filled : List Nat) : Statement α → Prop
  | .assign target op value => program.AssignsInOrder routine filled target op value
  | .clear id => program.MayStore (.global id)
  | .loop name _ stop body =>
      name ∉ extremes.map Prod.fst ∧
        Statement.AreOrderly program routine ((name, stop - 1) :: extremes) filled body
  | .call (.routine name) arguments status =>
      status = none ∧ ∀ callee ∈ program.routine? name, program.PassesApart callee arguments
  | .call (.external _) arguments status =>
      program.PassesWholeArrays arguments ∧
        ∀ target ∈ status, (target.covered? routine.locals).isSome = true
  | .comment _ => True

/-- Whether statements meet what their code relies on. -/
def Statement.AreOrderly {α : Type} [Scalar α] (program : Program α) (routine : Routine α)
    (extremes : Program.Extremes) (filled : List Nat) : List (Statement α) → Prop
  | [] => True
  | statement :: rest =>
      statement.IsOrderly program routine extremes filled ∧
        Statement.AreOrderly program routine extremes (statement.fills routine.locals ++ filled)
          rest

end

/-- Whether a routine meets what its code relies on.  Its result is filled when it
returns. -/
structure Program.IsOrderly {α : Type} [Scalar α] (program : Program α) (routine : Routine α) :
    Prop where
  body : Statement.AreOrderly program routine (Program.parameterExtremes routine) [] routine.body
  result : ∀ position ∈ routine.result,
    position ∈ Statement.filledAfter routine.locals [] routine.body

end RtiAssembly
