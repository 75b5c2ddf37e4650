/-!
# Passes

The generation is divided into passes.  Each pass consumes what other passes
produce, and asking for one pass runs exactly those that it needs.
-/

namespace RtiAssembly

/-- A pass of the generation. -/
inductive Pass
  | validate
  | plan
  | objective
  | constraints
  | phases
  | assemble
  | codegen
  deriving DecidableEq, Repr

/-- What a pass produces. -/
inductive Artifact
  | problem
  | plan
  | objectiveSection
  | constraintSection
  | phaseSection
  | program
  | certificate
  | generated
  deriving DecidableEq, Repr

/-- The label of an artifact. -/
def Artifact.label : Artifact → String
  | .problem => "Problem"
  | .plan => "Plan"
  | .objectiveSection => "ObjectiveSection"
  | .constraintSection => "ConstraintSection"
  | .phaseSection => "PhaseSection"
  | .program => "Program"
  | .certificate => "ProgramCert"
  | .generated => "Generated"

namespace Pass

/-- All passes. -/
def all : List Pass :=
  [.validate, .plan, .objective, .constraints, .phases, .assemble, .codegen]

/-- The label of a pass. -/
def label : Pass → String
  | .validate => "Validate"
  | .plan => "Plan"
  | .objective => "Objective"
  | .constraints => "Constraints"
  | .phases => "Phases"
  | .assemble => "Assemble"
  | .codegen => "Codegen"

/-- The name of a pass in progress messages. -/
def name : Pass → String
  | .validate => "validate"
  | .plan => "plan"
  | .objective => "objective"
  | .constraints => "constraints"
  | .phases => "phases"
  | .assemble => "assemble"
  | .codegen => "codegen"

/-- The passes whose results a pass consumes. -/
def inputs : Pass → List Pass
  | .validate => []
  | .plan => [.validate]
  | .objective => [.plan]
  | .constraints => [.plan]
  | .phases => [.plan]
  | .assemble => [.objective, .constraints, .phases]
  | .codegen => [.assemble]

/-- What a pass produces. -/
def outputs : Pass → List Artifact
  | .validate => [.problem]
  | .plan => [.plan]
  | .objective => [.objectiveSection]
  | .constraints => [.constraintSection]
  | .phases => [.phaseSection]
  | .assemble => [.program, .certificate]
  | .codegen => [.generated]

/-- What makes the result of a pass obsolete. -/
def invalidationKey : Pass → String
  | .validate => "problem description"
  | .plan => "problem"
  | .objective => "problem + plan"
  | .constraints => "problem + plan"
  | .phases => "problem + plan"
  | .assemble => "plan + sections"
  | .codegen => "program + provenance"

/-- What holds of the result of a pass. -/
def invariants : Pass → String
  | .validate => "shapes agree with dimensions, bounds stacked"
  | .plan => "every array declared once, given blocks own no storage"
  | .objective => "one setObj routine per computed block"
  | .constraints => "box and affine rows cover qpLb/qpUb and qpLbA/qpUbA"
  | .phases => "updateArrivalCost iff arrival cost is used"
  | .assemble => "A1-A5 obligations verified"
  | .codegen => "valid C emitted"

/-- Add a pass behind everything that it needs, unless it is already there.
Chains of inputs have at most `depth` passes. -/
def schedule : (depth : Nat) → List Pass → Pass → List Pass
  | 0, order, _ => order
  | depth + 1, order, pass =>
      if order.contains pass then
        order
      else
        pass.inputs.foldl (schedule depth) order ++ [pass]

/-- The passes that lead to a pass, in the order of their execution. -/
def required (terminal : Pass) : List Pass :=
  schedule all.length [] terminal

end Pass

end RtiAssembly
