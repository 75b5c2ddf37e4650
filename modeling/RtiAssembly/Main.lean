import RtiAssembly.CommandLine
import RtiAssembly.Number.Double

/-!
# The program

Reads the problem file and carries out the actions of an invocation.
-/

namespace RtiAssembly

/-- The number of a failed access; it can come with its sign changed. -/
def systemCode (code : UInt32) : Nat :=
  if code < 0x80000000 then code.toNat else (0 - code).toNat

/-- The words for a failed access of known number. -/
def systemReason? : Nat → Option String
  | 2 => some "No such file or directory"
  | 13 => some "Permission denied"
  | 20 => some "Not a directory"
  | 21 => some "Is a directory"
  | 26 => some "Text file busy"
  | 28 => some "No space left on device"
  | 30 => some "Read-only file system"
  | 36 => some "File name too long"
  | 40 => some "Too many levels of symbolic links"
  | _ => none

/-- The words for a failed access, with the number of the failure. -/
def systemReason (details : String) (code : UInt32) : String :=
  let code := systemCode code
  (systemReason? code).getD details ++ " (os error " ++ toString code ++ ")"

/-- The words for a failed access to a file. -/
def accessFailure : IO.Error → String
  | .noFileOrDirectory _ code details => systemReason details code
  | .permissionDenied _ code details => systemReason details code
  | .inappropriateType _ code details => systemReason details code
  | .invalidArgument _ code details => systemReason details code
  | .resourceExhausted _ code details => systemReason details code
  | .otherError code details => systemReason details code
  | .userError _ => "stream did not contain valid UTF-8"
  | other => toString other

/-- The content of a file, or why it cannot be read. -/
def readProblem (path : String) : IO (Except String String) := do
  match ← (IO.FS.readFile path).toBaseIO with
  | .ok text => return .ok text
  | .error failure => return .error (accessFailure failure)

/-- Carry out actions in order.  A file that cannot be written ends them. -/
def carryOut (exitCode : Nat) : List Action → IO UInt32
  | [] => return exitCode.toUInt32
  | .note line :: rest => do
      IO.eprintln line
      carryOut exitCode rest
  | .print text :: rest => do
      IO.print text
      carryOut exitCode rest
  | .write path text :: rest => do
      match ← (IO.FS.writeFile path text).toBaseIO with
      | .ok () => carryOut exitCode rest
      | .error failure =>
          IO.eprintln (fileError path (accessFailure failure))
          return 2

end RtiAssembly

def main (arguments : List String) : IO UInt32 := do
  match RtiAssembly.Invocation.ofArguments arguments with
  | .error stop => RtiAssembly.carryOut stop.course.exitCode stop.course.actions
  | .ok invocation =>
      let course := invocation.course Float (← RtiAssembly.readProblem invocation.problem)
      RtiAssembly.carryOut course.exitCode course.actions
