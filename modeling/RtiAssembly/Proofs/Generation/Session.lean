import RtiAssembly.Generation.Session
import RtiAssembly.Proofs.Program.Calls

/-!
# Generation from accepted descriptions

A description without errors can be generated: its storage can be planned, its
program meets every obligation, and no pass behind the validation has anything
to report.  A description with errors stops in the validation.
-/

namespace RtiAssembly

/-! ## The certificate -/

namespace Problem

variable {α : Type} [Scalar α] {problem : Problem α}

/-- The arrival cost is updated exactly if it is used. -/
theorem hasRoutine_arrivalCost :
    problem.program.hasRoutine Phases.arrivalCostName = problem.flags.useArrivalCost := by
  rw [Program.hasRoutine, Program.routine?, Bool.eq_iff_iff, List.find?_isSome]
  constructor
  · rintro ⟨routine, mem, named⟩
    have used : ∀ routine ∈ problem.program.routines,
        (routine.name == Phases.arrivalCostName) = true →
          problem.flags.useArrivalCost = true := by
      apply forall_routines <;>
        first
        | exact fun used _ => used
        | exact fun same => absurd same Bool.false_ne_true
        | exact fun _ _ same => absurd same Bool.false_ne_true
    exact used routine mem named
  · intro used
    refine ⟨Phases.arrivalCostRoutine problem.plan, ?_, beq_self_eq_true _⟩
    simp [routines_program, used]

/-- The program of a well-formed problem meets all of its obligations. -/
theorem certify_program (wellFormed : problem.WellFormed) :
    problem.program.certify problem.flags.useArrivalCost = ⟨true, true, true, true, true⟩ := by
  have declared : problem.program.routines.all problem.program.declaresReferences = true :=
    List.all_eq_true.2 (declaresReferences_routines wellFormed)
  have inside : problem.program.unfitRoutines = [] := by
    rw [Program.unfitRoutines, List.filter_eq_nil_iff]
    intro routine mem
    rw [fits_routines wellFormed routine mem]
    exact Bool.false_ne_true
  rw [Program.certify, declared, inside, hasUniqueNames_program, resolveAll_program,
    hasRoutine_arrivalCost, beq_self_eq_true]
  rfl

end Problem

/-! ## Passes -/

namespace Session

variable {α : Type} [Scalar α] {description : Description α}

/-- What a run on an accepted description reports: the findings of the
validation, and nothing from the passes behind it. -/
theorem run_of_accepted {problem : Problem α}
    (accepted : description.validate.value = some problem) (terminal : Pass) :
    let outcome := (ofDescription description).run terminal
    outcome.2 = ⟨⟨.validate, description.validate.diagnostics⟩ ::
        (terminal.required.tail.map fun pass => ⟨pass, []⟩), none⟩ ∧
      outcome.1.diagnostics = description.validate.diagnostics ∧
      outcome.1.hasError = false := by
  have wellFormed := Description.wellFormed_of_validate accepted
  have clean : hasErrors description.validate.diagnostics = false :=
    Description.validate_isSome_iff.1 (by rw [accepted]; rfl)
  have planned := wellFormed.ofProblem_eq_ok
  have certified := problem.certify_program wellFormed
  unfold Problem.program Program.ofPlan at certified
  cases terminal <;>
    simp [run, ofDescription, Pass.required, Pass.schedule, Pass.all, Pass.inputs, proceed,
      Artifacts.perform, Artifacts.validate, Artifacts.makePlan, Artifacts.makeSection,
      Artifacts.makeProgram, Artifacts.makeFiles, Program.obligationFindings,
      Certificate.isComplete, Certificate.obligations, accepted, clean, planned, certified]

/-- What a run on a rejected description reports: the findings of the
validation, which stops it. -/
theorem run_of_rejected (rejected : description.validate.value = none) (terminal : Pass) :
    let outcome := (ofDescription description).run terminal
    outcome.2 = ⟨[⟨.validate, description.validate.diagnostics⟩], some .validate⟩ ∧
      outcome.1.diagnostics = description.validate.diagnostics ∧
      outcome.1.hasError = true := by
  have broken : hasErrors description.validate.diagnostics = true := by
    rw [← Bool.not_eq_false, ← Description.validate_isSome_iff, rejected]
    exact Bool.false_ne_true
  cases terminal <;>
    simp [run, ofDescription, Pass.required, Pass.schedule, Pass.all, Pass.inputs, proceed,
      Artifacts.perform, Artifacts.validate, broken]

end Session

/-- Every accepted description can be generated.  Its storage can be planned and
its program meets all obligations, so the validation alone decides about every
run: behind it no pass has a finding or misses an input. -/
theorem generation_of_validation {α : Type} [Scalar α] (description : Description α) :
    (hasErrors description.validate.diagnostics = false →
      ∃ problem plan, description.validate.value = some problem ∧
        Plan.ofProblem problem = .ok plan ∧
        (Program.ofPlan problem plan).certify problem.flags.useArrivalCost =
          ⟨true, true, true, true, true⟩) ∧
      ∀ terminal : Pass,
        let outcome := (Session.ofDescription description).run terminal
        let report := outcome.2
        (report.failing = none ↔ description.validate.value.isSome = true) ∧
          (report.failing = none ∨ report.failing = some .validate) ∧
          report.passes = ⟨.validate, description.validate.diagnostics⟩ ::
            (if report.failing.isNone then terminal.required.tail.map fun pass => ⟨pass, []⟩
              else []) ∧
          outcome.1.diagnostics = description.validate.diagnostics := by
  constructor
  · intro clean
    obtain ⟨problem, accepted⟩ :=
      Option.isSome_iff_exists.1 (Description.validate_isSome_iff.2 clean)
    have wellFormed := Description.wellFormed_of_validate accepted
    exact ⟨problem, problem.plan, accepted, wellFormed.ofProblem_eq_ok,
      problem.certify_program wellFormed⟩
  · intro terminal
    cases decision : description.validate.value with
    | none =>
        obtain ⟨report, findings, _⟩ := Session.run_of_rejected decision terminal
        simp only [report, findings]
        simp
    | some problem =>
        obtain ⟨report, findings, _⟩ := Session.run_of_accepted decision terminal
        simp only [report, findings]
        simp

end RtiAssembly
