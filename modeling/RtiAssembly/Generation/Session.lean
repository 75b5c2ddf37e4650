import RtiAssembly.Emission.Files
import RtiAssembly.Generation.Pass
import RtiAssembly.Problem.Validation
import RtiAssembly.Program.Certificate

/-!
# Sessions

A session holds what has been generated from one description.  A run executes
the passes that lead to a terminal pass and stops at the first one with an
error.
-/

namespace RtiAssembly

/-- What the passes have produced so far. -/
structure Artifacts (α : Type) where
  problem : Option (Problem α)
  plan : Option (Plan α)
  objective : Option (Section α)
  constraints : Option (Section α)
  phases : Option (Section α)
  program : Option (Program α)
  certificate : Option Certificate
  generated : Option GeneratedFiles

namespace Artifacts

variable {α : Type}

/-- Nothing produced. -/
def empty : Artifacts α :=
  ⟨none, none, none, none, none, none, none, none⟩

/-- Whether an artifact is present. -/
def has (artifacts : Artifacts α) : Artifact → Bool
  | .problem => artifacts.problem.isSome
  | .plan => artifacts.plan.isSome
  | .objectiveSection => artifacts.objective.isSome
  | .constraintSection => artifacts.constraints.isSome
  | .phaseSection => artifacts.phases.isSome
  | .program => artifacts.program.isSome
  | .certificate => artifacts.certificate.isSome
  | .generated => artifacts.generated.isSome

end Artifacts

/-- What a pass leaves behind: the artifacts and its findings, or no findings
at all if something that it needs was missing. -/
structure PassResult (α : Type) where
  artifacts : Artifacts α
  findings : Option (List Diagnostic)

/-- The findings about the obligations of a program. -/
def Program.obligationFindings {α : Type} (program : Program α) (certificate : Certificate) :
    List Diagnostic :=
  let unfit :=
    if certificate.referencesDeclared && !certificate.windowsInBounds then
      program.unfitRoutines.map fun routine =>
        .error .window ("routine " ++ routine.name) "window outside its array"
    else
      []
  if certificate.isComplete then
    unfit
  else
    unfit ++
      [⟨some DiagnosticCode.obligations.text, .error, none,
        "program verification failed: " ++ ", ".intercalate certificate.failed, none⟩]

namespace Artifacts

variable {α : Type} [Scalar α]

/-- Validate a description. -/
def validate (artifacts : Artifacts α) (description : Description α) : PassResult α :=
  let checked := description.validate
  ⟨{ artifacts with problem := checked.value }, some checked.diagnostics⟩

/-- Plan the storage of the problem. -/
def makePlan (artifacts : Artifacts α) : PassResult α :=
  match artifacts.problem with
  | none => ⟨artifacts, none⟩
  | some problem =>
      match Plan.ofProblem problem with
      | .ok plan => ⟨{ artifacts with plan := some plan }, some []⟩
      | .error finding => ⟨{ artifacts with plan := none }, some [finding]⟩

/-- Make a section of the program and keep it. -/
def makeSection (artifacts : Artifacts α) (make : Problem α → Plan α → Section α)
    (keep : Section α → Artifacts α) : PassResult α :=
  match artifacts.problem, artifacts.plan with
  | some problem, some plan => ⟨keep (make problem plan), some []⟩
  | _, _ => ⟨artifacts, none⟩

/-- Put the sections together and check the program.  The sections are used
up, even if something is missing. -/
def makeProgram (artifacts : Artifacts α) : PassResult α :=
  let rest :=
    { artifacts with objective := none, constraints := none, phases := none }
  match artifacts.problem, artifacts.plan, artifacts.objective, artifacts.constraints,
      artifacts.phases with
  | some problem, some plan, some objective, some constraints, some phases =>
      let program := Program.assemble problem plan objective constraints phases
      let certificate := program.certify problem.flags.useArrivalCost
      ⟨{ rest with program := some program, certificate := some certificate },
        some (program.obligationFindings certificate)⟩
  | _, _, _, _, _ => ⟨rest, none⟩

/-- Write the generated files. -/
def makeFiles (artifacts : Artifacts α) (digest : String) : PassResult α :=
  match artifacts.program with
  | none => ⟨artifacts, none⟩
  | some program => ⟨{ artifacts with generated := some (program.emit digest) }, some []⟩

/-- Execute a pass. -/
def perform (artifacts : Artifacts α) (description : Description α) (digest : String) :
    Pass → PassResult α
  | .validate => artifacts.validate description
  | .plan => artifacts.makePlan
  | .objective =>
      artifacts.makeSection Objective.assemble fun made =>
        { artifacts with objective := some made }
  | .constraints =>
      artifacts.makeSection Constraints.assemble fun made =>
        { artifacts with constraints := some made }
  | .phases =>
      artifacts.makeSection Phases.assemble fun made => { artifacts with phases := some made }
  | .assemble => artifacts.makeProgram
  | .codegen => artifacts.makeFiles digest

end Artifacts

/-- A generation in progress. -/
structure Session (α : Type) where
  description : Description α
  artifacts : Artifacts α
  /-- The findings of all runs. -/
  diagnostics : List Diagnostic
  /-- Whether some run has failed. -/
  hasError : Bool
  /-- Known from the first run on. -/
  provenance : Option Provenance

/-- A completed pass with its findings. -/
structure PassReport where
  pass : Pass
  findings : List Diagnostic
  deriving DecidableEq, Repr

/-- What a run reports. -/
structure RunReport where
  /-- The completed passes in the order of their execution. -/
  passes : List PassReport
  /-- The pass that stopped the run. -/
  failing : Option Pass
  deriving DecidableEq, Repr

namespace Session

variable {α : Type} [Scalar α]

/-- The session of a description before the first run. -/
def ofDescription (description : Description α) : Session α :=
  ⟨description, .empty, [], false, none⟩

/-- The provenance stamped into generated files. -/
def stamp (session : Session α) : Provenance :=
  session.provenance.getD (.ofDescription session.description)

/-- Execute passes until one fails. -/
def proceed (digest : String) : List Pass → Session α → Session α × RunReport
  | [], session => (session, ⟨[], none⟩)
  | pass :: rest, session =>
      let result := session.artifacts.perform session.description digest pass
      match result.findings with
      | none =>
          ({ session with artifacts := result.artifacts, hasError := true }, ⟨[], some pass⟩)
      | some findings =>
          let next :=
            { session with
              artifacts := result.artifacts
              diagnostics := session.diagnostics ++ findings
              hasError := session.hasError || hasErrors findings }
          if hasErrors findings then
            (next, ⟨[⟨pass, findings⟩], some pass⟩)
          else
            let (last, report) := proceed digest rest next
            (last, ⟨⟨pass, findings⟩ :: report.passes, report.failing⟩)

/-- Run the passes that lead to a terminal pass. -/
def run (session : Session α) (terminal : Pass) : Session α × RunReport :=
  let stamp := session.stamp
  proceed stamp.digest terminal.required { session with provenance := some stamp }

end Session

end RtiAssembly
