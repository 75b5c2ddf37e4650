import RtiAssembly.CommandLine

/-!
# Invocations in a directory

What an invocation leaves behind in a working directory that holds regular
files only.  A path is followed from name to name.  What lies outside the
directory can be named, but only the standard directories, the process's own
directory and a few devices are known to be there; standard input is empty.
-/

namespace RtiAssembly

/-- Why a path gives no access to a file. -/
inductive AccessFailure
  | noEntry
  | notDirectory
  | isDirectory
  | noSpace
  | nameTooLong
  deriving DecidableEq, Repr

/-- The words for a failed access. -/
def AccessFailure.message : AccessFailure → String
  | .noEntry => "No such file or directory (os error 2)"
  | .notDirectory => "Not a directory (os error 20)"
  | .isDirectory => "Is a directory (os error 21)"
  | .noSpace => "No space left on device (os error 28)"
  | .nameTooLong => "File name too long (os error 36)"

/-- A working directory: names and contents of its files. -/
structure Directory where
  files : List (String × String)
  deriving DecidableEq, Repr

/-- Where a path stands before its next name. -/
inductive Surrounding
  /-- In the working directory. -/
  | here
  /-- In a directory whose files are not known. -/
  | beyond
  | root
  /-- In a directory of the root whose files are not known. -/
  | standard
  | devices
  | processes
  /-- In the directory of the running process. -/
  | process
  /-- In the directory of the open files of the process. -/
  | descriptors
  deriving DecidableEq, Repr

/-- The directory above. -/
def Surrounding.parent : Surrounding → Surrounding
  | .here | .beyond => .beyond
  | .root | .standard | .devices | .processes => .root
  | .process => .processes
  | .descriptors => .process

/-- What is no regular file but can be read or written like one. -/
inductive Stream
  /-- Nothing comes from it, and what is written to it is lost. -/
  | empty
  | output
  | errors
  /-- Nothing can be written to it. -/
  | full
  deriving DecidableEq, Repr

/-- The device of a given name. -/
def Stream.ofDevice? : String → Option Stream
  | "null" | "stdin" => some .empty
  | "stdout" => some .output
  | "stderr" => some .errors
  | "full" => some .full
  | _ => none

/-- The open file of a given number. -/
def Stream.ofDescriptor? : String → Option Stream
  | "0" => some .empty
  | "1" => some .output
  | "2" => some .errors
  | _ => none

/-- What a path leads to. -/
inductive Location
  | file (name : String)
  /-- A name in the working directory that no file has. -/
  | absent (name : String)
  | directory
  /-- A name in some other directory. -/
  | elsewhere
  | stream (stream : Stream)
  deriving DecidableEq, Repr

namespace Directory

/-- The longest name of a file, in bytes. -/
def longestName : Nat :=
  255

/-- The longest path, in bytes. -/
def longestPath : Nat :=
  4095

/-- The directories that stand in every root and of whose files nothing is known. -/
def standardDirectories : List String :=
  ["bin", "boot", "etc", "home", "lib", "media", "mnt", "opt", "root", "run", "sbin", "srv",
    "sys", "tmp", "usr", "var"]

/-- The content of a file. -/
def content? (directory : Directory) (name : String) : Option String :=
  directory.files.lookup name

/-- The end of a path, if the path ends there. -/
def final (isLast : Bool) (otherwise : AccessFailure) (location : Location) :
    Except AccessFailure (Location ⊕ Surrounding) :=
  if isLast then .ok (.inl location) else .error otherwise

/-- Follow a name in the working directory; `isLast` tells whether the path ends
with it. -/
def enterHere (directory : Directory) (name : String) (isLast : Bool) :
    Except AccessFailure (Location ⊕ Surrounding) :=
  match directory.content? name with
  | some _ => final isLast .notDirectory (.file name)
  | none => final isLast .noEntry (.absent name)

/-- Follow a name to a stream or, failing that, outside of what is known. -/
def enterStream (stream? : Option Stream) (isLast : Bool)
    (otherwise : Except AccessFailure (Location ⊕ Surrounding)) :
    Except AccessFailure (Location ⊕ Surrounding) :=
  match stream? with
  | some stream => final isLast .notDirectory (.stream stream)
  | none => otherwise

/-- Follow one name; `isLast` tells whether the path ends with it. -/
def enter (directory : Directory) (surrounding : Surrounding) (name : String) (isLast : Bool) :
    Except AccessFailure (Location ⊕ Surrounding) :=
  if name = "." then
    .ok (.inr surrounding)
  else if name = ".." then
    .ok (.inr surrounding.parent)
  else if longestName < name.utf8ByteSize then
    .error .nameTooLong
  else
    match surrounding, name with
    | .root, "dev" => .ok (.inr .devices)
    | .root, "proc" => .ok (.inr .processes)
    | .devices, "fd" => .ok (.inr .descriptors)
    | .processes, "self" => .ok (.inr .process)
    | .process, "cwd" => .ok (.inr .here)
    | .process, "fd" => .ok (.inr .descriptors)
    | .here, name => directory.enterHere name isLast
    | .root, name =>
        if standardDirectories.contains name then .ok (.inr .standard)
        else final isLast .noEntry .elsewhere
    | .devices, name =>
        enterStream (Stream.ofDevice? name) isLast (final isLast .noEntry .elsewhere)
    | .descriptors, name => enterStream (Stream.ofDescriptor? name) isLast (.error .noEntry)
    | .processes, _ => .error .noEntry
    | .process, _ => .error .noEntry
    | .beyond, _ => final isLast .noEntry .elsewhere
    | .standard, _ => final isLast .noEntry .elsewhere

/-- Follow the names of a path. -/
def follow (directory : Directory) : Surrounding → List String → Except AccessFailure Location
  | _, [] => .ok .directory
  | surrounding, name :: rest => do
      match ← directory.enter surrounding name rest.isEmpty with
      | .inl location => .ok location
      | .inr next => follow directory next rest

/-- The names of a path; slashes only separate them. -/
def names (path : String) : List String :=
  (path.splitOn "/").filter fun name => !name.isEmpty

/-- Where a path starts. -/
def start (path : String) : Surrounding :=
  if path.startsWith "/" then .root else .here

/-- What a path leads to. -/
def locate (directory : Directory) (path : String) : Except AccessFailure Location :=
  if longestPath < path.utf8ByteSize then
    .error .nameTooLong
  else
    directory.follow (start path) (names path)

/-- Whether a path asks for a directory by its end. -/
def asksDirectory (path : String) : Bool :=
  path.endsWith "/"

/-- Read a file. -/
def read (directory : Directory) (path : String) : Except AccessFailure String := do
  match ← directory.locate path with
  | .file name =>
      if asksDirectory path then .error .notDirectory
      else .ok ((directory.content? name).getD "")
  | .stream _ => if asksDirectory path then .error .notDirectory else .ok ""
  | .directory => .error .isDirectory
  | .absent _ => .error .noEntry
  | .elsewhere => .error .noEntry

/-- The directory with a file of given content. -/
def put (directory : Directory) (name content : String) : Directory :=
  ⟨directory.files.filter (fun file => file.1 != name) ++ [(name, content)]⟩

/-- What a path leads to that is written to.  A path that asks for a directory
is refused as soon as the directories on its way are there. -/
def destination (directory : Directory) (path : String) : Except AccessFailure Location :=
  if asksDirectory path && path.utf8ByteSize ≤ longestPath then do
    match ← directory.follow (start path) (names path).dropLast with
    | .directory => .error .isDirectory
    | .absent _ => .error .noEntry
    | .elsewhere => .error .noEntry
    | _ => .error .notDirectory
  else
    directory.locate path

end Directory

/-- What an invocation leaves behind. -/
structure Trace where
  exitCode : Nat
  /-- Text on standard output. -/
  printed : String
  /-- Lines on standard error. -/
  notes : List String
  directory : Directory

namespace Trace

/-- The lines of a text in which every line is ended. -/
def lines (text : String) : List String :=
  (text.splitOn "\n").dropLast

/-- Write a text to a stream. -/
def writeStream (trace : Trace) (content : String) : Stream → Except AccessFailure Trace
  | .empty => .ok trace
  | .output => .ok { trace with printed := trace.printed ++ content }
  | .errors => .ok { trace with notes := trace.notes ++ lines content }
  | .full => .error .noSpace

/-- Write a file. -/
def write (trace : Trace) (path content : String) : Except AccessFailure Trace := do
  let put (name : String) : Trace :=
    { trace with directory := trace.directory.put name content }
  match ← trace.directory.destination path with
  | .file name => .ok (put name)
  | .absent name => .ok (put name)
  | .directory => .error .isDirectory
  | .elsewhere => .ok trace
  | .stream stream => trace.writeStream content stream

/-- Carry out actions in order.  A file that cannot be written ends them. -/
def carryOut (exitCode : Nat) : List Action → Trace → Trace
  | [], trace => { trace with exitCode := exitCode }
  | .note line :: rest, trace =>
      carryOut exitCode rest { trace with notes := trace.notes ++ [line] }
  | .print text :: rest, trace =>
      carryOut exitCode rest { trace with printed := trace.printed ++ text }
  | .write path text :: rest, trace =>
      match trace.write path text with
      | .ok written => carryOut exitCode rest written
      | .error failure =>
          { trace with
            exitCode := 2
            notes := trace.notes ++ [fileError path failure.message] }

end Trace

/-- Run the program with the given arguments. -/
def Directory.run (directory : Directory) (α : Type) [Scalar α] (arguments : List String) :
    Trace :=
  let course :=
    match Invocation.ofArguments arguments with
    | .error stop => stop.course
    | .ok invocation =>
        invocation.course α ((directory.read invocation.problem).mapError AccessFailure.message)
  Trace.carryOut course.exitCode course.actions ⟨course.exitCode, "", [], directory⟩

end RtiAssembly
