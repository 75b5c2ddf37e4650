/-!
# Faults

What stops the evaluation of a routine.
-/

namespace RtiAssembly

/-- A reason to stop an evaluation. -/
inductive Fault
  | unknownArray (name : String)
  | unknownRoutine (name : String)
  /-- Content of the wrong length for an array. -/
  | wrongLength (name : String) (expected found : Nat)
  /-- Arguments that do not match the parameters of a routine. -/
  | arity (routine : String)
  /-- An index whose variable is not in scope. -/
  | unboundIndex (name : String)
  /-- A position behind the end of an array. -/
  | outOfBounds (routine : String) (position length : Nat)
  /-- Calls that are nested too deeply ever to return. -/
  | endlessCalls (routine : String)
  deriving DecidableEq, Repr

/-- The text of a fault. -/
def Fault.message : Fault → String
  | .unknownArray name => "unknown array '" ++ name ++ "'"
  | .unknownRoutine name => "unknown routine '" ++ name ++ "'"
  | .wrongLength name expected found =>
      "'" ++ name ++ "' expects " ++ toString expected ++ " values, got " ++ toString found
  | .arity routine => "argument mismatch calling '" ++ routine ++ "'"
  | .unboundIndex name => "index '" ++ name ++ "' is not bound"
  | .outOfBounds routine position length =>
      routine ++ ": index " ++ toString position ++ " outside array of " ++ toString length
  | .endlessCalls routine => "calls of '" ++ routine ++ "' do not end"

end RtiAssembly
