import RtiAssembly.Description.Reading
import RtiAssembly.Generation.Session
import RtiAssembly.Program.Listing

/-!
# Command line

What an invocation of the generator says, prints and writes.  The answer is a
list of actions for the content of the problem file, so that everything but the
access to files is decided here.
-/

namespace RtiAssembly

/-! ## Arguments -/

/-- What is generated. -/
inductive Product
  /-- Header and source of the solver. -/
  | code
  /-- The storage plan. -/
  | plan
  /-- The assembled routines. -/
  | routines
  /-- The provenance manifest. -/
  | buildInfo
  deriving DecidableEq, Repr

namespace Product

/-- The product of a given name. -/
def ofName? : String → Option Product
  | "c" => some .code
  | "plan" => some .plan
  | "ir" => some .routines
  | "build-info" => some .buildInfo
  | _ => none

/-- The label of a product in progress messages. -/
def label : Product → String
  | .code => "C"
  | .plan => "Plan"
  | .routines => "Ir"
  | .buildInfo => "BuildInfo"

end Product

/-- An invocation of the generator. -/
structure Invocation where
  /-- Path of the problem description. -/
  problem : String
  /-- Path of the output; absent for standard output. -/
  output : Option String
  product : Product
  verbose : Bool
  deriving DecidableEq, Repr

/-- An argument by its form. -/
inductive ArgumentForm
  /-- Everything that follows is an operand. -/
  | terminator
  | long (name : String) (value : Option String)
  | short (name : Char) (attached : List Char)
  | operand (text : String)
  deriving DecidableEq, Repr

/-- The form of an argument. -/
def ArgumentForm.ofText (text : String) : ArgumentForm :=
  match text.toList with
  | ['-', '-'] => .terminator
  | '-' :: '-' :: rest =>
      let name := String.ofList (rest.takeWhile (· != '='))
      match rest.dropWhile (· != '=') with
      | [] => .long name none
      | _ :: value => .long name (some (String.ofList value))
  | '-' :: name :: attached => .short name attached
  | _ => .operand text

/-- Why arguments describe no invocation. -/
inductive ArgumentStop
  /-- They are not understood. -/
  | malformed
  /-- The version is asked for. -/
  | version
  /-- The usage is asked for. -/
  | help
  deriving DecidableEq, Repr

/-- What the arguments read so far have said. -/
structure InvocationDraft where
  problem : Option String
  output : Option String
  product : Option Product
  verbose : Bool
  /-- The option whose value comes next. -/
  pending : Option String
  /-- Whether only operands follow. -/
  closed : Bool
  deriving DecidableEq, Repr

namespace InvocationDraft

/-- The result of reading arguments. -/
abbrev Result := Except ArgumentStop InvocationDraft

/-- Nothing said. -/
def empty : InvocationDraft :=
  ⟨none, none, none, false, none, false⟩

/-- Name the problem description; there is only one. -/
def withProblem (draft : InvocationDraft) (path : String) : Result :=
  if draft.problem.isNone && !path.isEmpty then
    .ok { draft with problem := some path }
  else
    .error .malformed

/-- Give the value of an option.  Each option has one value. -/
def withValue (draft : InvocationDraft) (name value : String) : Result :=
  match name with
  | "output" =>
      if draft.output.isNone && !value.isEmpty then
        .ok { draft with output := some value }
      else
        .error .malformed
  | "emit" =>
      match draft.product, Product.ofName? value with
      | none, some product => .ok { draft with product := some product }
      | _, _ => .error .malformed
  | _ => .error .malformed

/-- Ask for progress messages, once. -/
def withVerbose (draft : InvocationDraft) : Result :=
  if draft.verbose then .error .malformed else .ok { draft with verbose := true }

/-- The value attached to a short option; a sign of equality may stand between. -/
def attachedValue : List Char → String
  | '=' :: value => String.ofList value
  | value => String.ofList value

/-- Read an argument that is not the value of an option.  A question for the
version or the usage is answered at once. -/
def read (draft : InvocationDraft) : ArgumentForm → Result
  | .terminator => .ok { draft with closed := true }
  | .operand text => draft.withProblem text
  | .long "verbose" none => draft.withVerbose
  | .long "version" none => .error .version
  | .long "help" none => .error .help
  | .long name none => .ok { draft with pending := some name }
  | .long name (some value) => draft.withValue name value
  | .short 'V' _ => .error .version
  | .short 'h' _ => .error .help
  | .short 'o' [] => .ok { draft with pending := some "output" }
  | .short 'o' attached => draft.withValue "output" (attachedValue attached)
  | .short _ _ => .error .malformed

/-- Read the next argument. -/
def step (draft : InvocationDraft) (text : String) : Result :=
  if draft.closed then
    draft.withProblem text
  else
    match draft.pending, ArgumentForm.ofText text with
    | none, form => draft.read form
    | some name, .operand value => { draft with pending := none }.withValue name value
    | some _, _ => .error .malformed

end InvocationDraft

/-- The invocation that the arguments describe. -/
def Invocation.ofArguments (arguments : List String) : Except ArgumentStop Invocation := do
  let draft ← arguments.foldlM InvocationDraft.step .empty
  match draft.pending, draft.problem with
  | none, some problem =>
      .ok ⟨problem, draft.output, draft.product.getD .code, draft.verbose⟩
  | _, _ => .error .malformed

/-! ## Paths -/

/-- A path without slashes and dots that do not change its meaning at the end,
in reversed order. -/
def trimReversedPath : List Char → List Char
  | '/' :: rest => trimReversedPath rest
  | '.' :: '/' :: rest => trimReversedPath ('/' :: rest)
  | reversed => reversed

/-- A name behind a directory. -/
def joinPath (directory name : String) : String :=
  if directory.isEmpty || directory.endsWith "/" then
    directory ++ name
  else
    directory ++ "/" ++ name

/-- The path of a file next to another one. -/
def siblingPath (path name : String) : String :=
  let reversed := trimReversedPath path.toList.reverse
  let last := (reversed.takeWhile (· != '/')).reverse
  if last = [] ∨ last = ['.'] ∨ last = ['.', '.'] then
    joinPath path name
  else
    let above := reversed.dropWhile (· != '/')
    let directory := String.ofList (trimReversedPath above).reverse
    if directory.isEmpty && !above.isEmpty then "/" ++ name else joinPath directory name

/-! ## Actions -/

/-- A visible step of an invocation. -/
inductive Action
  /-- Write a line to standard error. -/
  | note (line : String)
  /-- Write text to standard output. -/
  | print (text : String)
  /-- Write a file; if this fails, nothing else happens. -/
  | write (path text : String)
  deriving DecidableEq, Repr

/-- The course of an invocation and its exit code. -/
structure Course where
  actions : List Action
  exitCode : Nat
  deriving DecidableEq, Repr

/-- How the program is called. -/
def usage : String :=
  "Usage: rtigen [OPTIONS] <PROBLEM>\n\n" ++
    "  -o, --output <OUTPUT>  output file; the header is written next to it\n" ++
    "      --emit <EMIT>      c, plan, ir or build-info (default: c)\n" ++
    "      --verbose          print the passes\n" ++
    "  -h, --help             print this text\n" ++
    "  -V, --version          print the version"

/-- The course of arguments that describe no invocation. -/
def ArgumentStop.course : ArgumentStop → Course
  | .malformed => ⟨[.note usage], 2⟩
  | .version => ⟨[.print ("rtigen " ++ generatorVersion ++ "\n")], 0⟩
  | .help => ⟨[.print (usage ++ "\n")], 0⟩

/-- The line about a file that cannot be read or written. -/
def fileError (path reason : String) : String :=
  "rtigen: error: " ++ path ++ ": " ++ reason

namespace Invocation

/-- The actions of a verbose invocation, and none otherwise. -/
def whenVerbose (invocation : Invocation) (lines : List String) : List Action :=
  if invocation.verbose then lines.map .note else []

/-- The opening lines of a verbose invocation. -/
def opening (invocation : Invocation) : List Action :=
  invocation.whenVerbose
    (["rtigen: problem = " ++ invocation.problem] ++
      (invocation.output.map ("rtigen: output  = " ++ ·)).toList ++
      ["rtigen: emit    = " ++ invocation.product.label])

/-- The lines of a completed pass. -/
def passLines (invocation : Invocation) (report : PassReport) : List Action :=
  report.findings.map (fun finding => .note ("rtigen: " ++ finding.display)) ++
    invocation.whenVerbose ["rtigen: " ++ report.pass.name ++ " complete"]

/-- Write a text to the output. -/
def deliver (invocation : Invocation) (text : String) : List Action :=
  match invocation.output with
  | some path => [.write path text]
  | none => [.print text]

/-- Write header and source.  With an output path the header goes next to it. -/
def deliverFiles (invocation : Invocation) (files : GeneratedFiles) : List Action :=
  match invocation.output with
  | none => [.print files.combined]
  | some path =>
      let header := siblingPath path files.headerName
      [.write header files.header, .write path files.source] ++
        invocation.whenVerbose ["rtigen: wrote " ++ header ++ " and " ++ path]

/-- The pass that makes a product; the manifest needs none. -/
def terminal? (invocation : Invocation) : Option Pass :=
  match invocation.product with
  | .code => some .codegen
  | .plan => some .plan
  | .routines => some .assemble
  | .buildInfo => none

variable {α : Type} [Scalar α]

/-- Write what was asked for, if it is there. -/
def result? (invocation : Invocation) (artifacts : Artifacts α) : Option (List Action) :=
  match invocation.product with
  | .code => artifacts.generated.map invocation.deliverFiles
  | .plan => artifacts.plan.map fun plan => invocation.deliver plan.listing
  | .routines => artifacts.program.map fun program => invocation.deliver program.listing
  | .buildInfo => none

/-- Generate from a description. -/
def generate (invocation : Invocation) (description : Description α) : Course :=
  match invocation.terminal? with
  | none => ⟨invocation.deliver (Provenance.ofDescription description).manifest, 0⟩
  | some terminal =>
      let (session, report) := (Session.ofDescription description).run terminal
      let lines := report.passes.flatMap invocation.passLines
      match report.failing with
      | some pass =>
          ⟨lines ++ invocation.whenVerbose ["rtigen: stopped at pass " ++ pass.label], 1⟩
      | none =>
          match invocation.result? session.artifacts with
          | some actions => ⟨lines ++ actions, 0⟩
          | none => ⟨lines ++ [.note "rtigen: error: no output produced"], 1⟩

/-- The course of an invocation, given the content of the problem file or the
reason why it cannot be read. -/
def course (invocation : Invocation) (α : Type) [Scalar α] (content : Except String String) :
    Course :=
  let refuse (reason : String) : Course :=
    ⟨invocation.opening ++ [.note (fileError invocation.problem reason)], 2⟩
  match content with
  | .error reason => refuse reason
  | .ok text =>
      match Description.ofText (α := α) text with
      | .error cause => refuse cause.message
      | .ok description =>
          let course := invocation.generate description
          ⟨invocation.opening ++ course.actions, course.exitCode⟩

end Invocation

end RtiAssembly
