import RtiAssembly.Routine.Basic
import RtiAssembly.Storage.Table

/-!
# What routines name

A constant array has to be defined if some statement still names it after known
elements have become numbers.  A parameter is constant unless its routine
stores to it or passes it on.
-/

namespace RtiAssembly

namespace ArrayTable

variable {α : Type}

/-- The constant array that a window looks into, if there is one. -/
def constant? (table : ArrayTable α) (window : Window) : Option (Nat × ArrayDecl α) :=
  match window.base with
  | .global id =>
      match table.get? id with
      | some decl => if decl.storage = .constant then some (id, decl) else none
      | none => none
  | _ => none

/-- The constant array that a window names as target or argument. -/
def named (table : ArrayTable α) (window : Window) : List Nat :=
  ((table.constant? window).map Prod.fst).toList

/-- The constant array that a read names; known elements at fixed positions
have become numbers. -/
def namedByRead (table : ArrayTable α) (window : Window) : List Nat :=
  match table.constant? window with
  | some (id, decl) => if decl.given.isSome && window.offset.isConst then [] else [id]
  | none => []

/-- The constant array that is cleared. -/
def namedByClear (table : ArrayTable α) (id : Nat) : List Nat :=
  match table.get? id with
  | some decl => if decl.storage = .constant then [id] else []
  | none => []

end ArrayTable

mutual

/-- The constant arrays that a statement names. -/
def Statement.namedConstants {α : Type} (table : ArrayTable α) : Statement α → List Nat
  | .assign target _ value => table.named target ++ value.windows.flatMap table.namedByRead
  | .clear id => table.namedByClear id
  | .loop _ _ _ body => Statement.namedConstantsOf table body
  | .call _ arguments status =>
      (arguments.filterMap Argument.window?).flatMap table.named ++
        status.toList.flatMap table.named
  | .comment _ => []

/-- The constant arrays that a list of statements names. -/
def Statement.namedConstantsOf {α : Type} (table : ArrayTable α) :
    List (Statement α) → List Nat
  | [] => []
  | statement :: rest =>
      statement.namedConstants table ++ Statement.namedConstantsOf table rest

end

mutual

/-- The parameters that a statement stores to or passes on by reference. -/
def Statement.writtenParameters {α : Type} : Statement α → List Nat
  | .assign target _ _ => target.base.parameter?.toList
  | .clear _ => []
  | .loop _ _ _ body => Statement.writtenParametersOf body
  | .call _ arguments status =>
      (arguments.filterMap Argument.window? ++ status.toList).filterMap fun window =>
        window.base.parameter?
  | .comment _ => []

/-- The parameters that a list of statements stores to or passes on. -/
def Statement.writtenParametersOf {α : Type} : List (Statement α) → List Nat
  | [] => []
  | statement :: rest =>
      statement.writtenParameters ++ Statement.writtenParametersOf rest

end

/-- Whether a routine may write through a parameter. -/
def Routine.writesParameter {α : Type} (routine : Routine α) (position : Nat) : Bool :=
  (Statement.writtenParametersOf routine.body).contains position

end RtiAssembly
