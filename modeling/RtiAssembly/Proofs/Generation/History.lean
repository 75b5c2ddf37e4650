import RtiAssembly.Proofs.Generation.Session

/-!
# Runs in a used session

A session can be run again and again.  Every run starts with the validation and
makes anew whatever its passes read, so that nothing of an earlier run gets
into its results.  The assembly of the program uses up the sections, which are
therefore missing after it.
-/

namespace RtiAssembly

/-! ## What passes read and leave -/

namespace Pass

/-- The artifacts that a pass reads. -/
def reads : Pass → List Artifact
  | .validate => []
  | .plan => [.problem]
  | .objective | .constraints | .phases => [.problem, .plan]
  | .assemble => [.problem, .plan, .objectiveSection, .constraintSection, .phaseSection]
  | .codegen => [.program]

/-- The artifacts that a pass uses up. -/
def takes : Pass → List Artifact
  | .assemble => [.objectiveSection, .constraintSection, .phaseSection]
  | _ => []

/-- Whether an artifact is there after a pass, if it is known whether it was
there before. -/
def leaves (artifact : Artifact) (present : Bool) (pass : Pass) : Bool :=
  pass.outputs.contains artifact || (present && !pass.takes.contains artifact)

/-- Whether every pass finds what it reads. -/
def served : (Artifact → Bool) → List Pass → Bool
  | _, [] => true
  | present, pass :: rest =>
      pass.reads.all present && served (fun artifact => pass.leaves artifact (present artifact)) rest

/-- The passes that lead to a pass need nothing from earlier runs. -/
theorem served_required (terminal : Pass) :
    served (fun _ => false) terminal.required = true := by
  cases terminal <;> decide

/-- The passes that lead to a pass leave what they produce, except for the
sections if they are put together. -/
theorem leaves_required (terminal : Pass) {pass : Pass} (mem : pass ∈ terminal.required)
    {artifact : Artifact} (output : artifact ∈ pass.outputs) (present : Bool) :
    terminal.required.foldl (leaves artifact) present =
      !(terminal.required.contains .assemble && Pass.assemble.takes.contains artifact) := by
  revert pass artifact present
  cases terminal <;> decide

/-- The results of the last pass stay. -/
theorem leaves_terminal (terminal : Pass) {artifact : Artifact}
    (output : artifact ∈ terminal.outputs) :
    terminal.required.foldl (leaves artifact) false = true := by
  revert artifact
  cases terminal <;> decide

end Pass

/-! ## Refusals -/

/-- Whatever a check refuses, it refuses with an error. -/
def RefusesWithErrors {β : Type} (check : Except Diagnostic β) : Prop :=
  ∀ finding, check = .error finding → finding.isError = true

namespace RefusesWithErrors

variable {β γ : Type}

theorem ok (value : β) : RefusesWithErrors (.ok value) := by
  intro finding refused
  cases refused

theorem error (code : DiagnosticCode) (subject message : String) :
    RefusesWithErrors (β := β) (.error (.error code subject message)) := by
  intro finding refused
  cases refused
  rfl

theorem bind {check : Except Diagnostic β} {next : β → Except Diagnostic γ}
    (first : RefusesWithErrors check) (second : ∀ value, RefusesWithErrors (next value)) :
    RefusesWithErrors (check >>= next) := by
  intro finding refused
  cases checked : check with
  | error other =>
      rw [checked] at refused
      cases refused
      exact first _ checked
  | ok value =>
      rw [checked] at refused
      exact second value finding refused

end RefusesWithErrors

section Refusals

variable {α : Type}

theorem ArrayTable.refusesWithErrors_declare (table : ArrayTable α) (decl : ArrayDecl α) :
    RefusesWithErrors (table.declare decl) := by
  unfold declare
  split
  · exact .error _ _ _
  · split
    · exact .ok _
    · split
      · exact .ok _
      · exact .error _ _ _

theorem ArrayTable.refusesWithErrors_declareAll (decls : List (ArrayDecl α)) :
    ∀ table : ArrayTable α, RefusesWithErrors (table.declareAll decls) := by
  induction decls with
  | nil => exact .ok
  | cons decl rest ih =>
      intro table
      rw [declareAll, List.foldlM_cons]
      exact (table.refusesWithErrors_declare decl).bind ih

theorem ArrayTable.refusesWithErrors_expectSize (decl : ArrayDecl α) (expected : Nat) :
    RefusesWithErrors (expectSize decl expected) := by
  unfold expectSize
  split
  · exact .ok _
  · exact .error _ _ _

variable [Scalar α]

theorem Plan.refusesWithErrors_expectBounds (problem : Problem α) (quantity : Quantity)
    (expected : Nat) : RefusesWithErrors (expectBounds problem quantity expected) := by
  unfold expectBounds
  split
  · exact ArrayTable.refusesWithErrors_expectSize _ _
  · exact .ok _

/-- Storage that cannot be planned is refused with an error. -/
theorem Plan.refusesWithErrors_ofProblem (problem : Problem α) :
    RefusesWithErrors (ofProblem problem) := by
  have bounds := refusesWithErrors_expectBounds problem
  refine (ArrayTable.refusesWithErrors_declareAll _ _).bind fun table => ?_
  refine (bounds _ _).bind fun _ => (bounds _ _).bind fun _ => ?_
  exact (bounds _ _).bind fun _ => (bounds _ _).bind fun _ => .ok _

end Refusals

/-! ## One pass -/

namespace Artifacts

variable {α : Type}

/-- Two records hold the same at an artifact. -/
def Agree (first second : Artifacts α) : Artifact → Prop
  | .problem => first.problem = second.problem
  | .plan => first.plan = second.plan
  | .objectiveSection => first.objective = second.objective
  | .constraintSection => first.constraints = second.constraints
  | .phaseSection => first.phases = second.phases
  | .program => first.program = second.program
  | .certificate => first.certificate = second.certificate
  | .generated => first.generated = second.generated

namespace Agree

variable {first second third : Artifacts α} {artifact : Artifact}

theorem refl (artifacts : Artifacts α) (artifact : Artifact) :
    Agree artifacts artifacts artifact := by
  cases artifact <;> rfl

theorem symm (agree : Agree first second artifact) : Agree second first artifact := by
  cases artifact <;> exact Eq.symm agree

theorem trans (agree : Agree first second artifact) (further : Agree second third artifact) :
    Agree first third artifact := by
  cases artifact <;> exact Eq.trans agree further

theorem has_eq (agree : Agree first second artifact) : first.has artifact = second.has artifact := by
  cases artifact <;> exact congrArg Option.isSome agree

end Agree

variable [Scalar α]

/-- A pass leaves alone what it neither produces nor uses up. -/
theorem agree_perform (artifacts : Artifacts α) (description : Description α) (digest : String)
    {pass : Pass} {artifact : Artifact} (produced : artifact ∉ pass.outputs)
    (used : artifact ∉ pass.takes) :
    Agree (artifacts.perform description digest pass).artifacts artifacts artifact := by
  cases pass with
  | validate => cases artifact <;> first | rfl | exact absurd (by decide) produced
  | plan =>
      simp only [perform, makePlan]
      split
      · exact .refl _ _
      · split <;> cases artifact <;> first | rfl | exact absurd (by decide) produced
  | objective | constraints | phases =>
      simp only [perform, makeSection]
      split
      · cases artifact <;> first | rfl | exact absurd (by decide) produced
      · exact .refl _ _
  | assemble =>
      simp only [perform, makeProgram]
      split <;> cases artifact <;>
        first | rfl | exact absurd (by decide) produced | exact absurd (by decide) used
  | codegen =>
      simp only [perform, makeFiles]
      split
      · exact .refl _ _
      · cases artifact <;> first | rfl | exact absurd (by decide) produced

/-- What a pass uses up is missing behind it. -/
theorem has_perform_of_takes (artifacts : Artifacts α) (description : Description α)
    (digest : String) {pass : Pass} {artifact : Artifact} (used : artifact ∈ pass.takes) :
    (artifacts.perform description digest pass).artifacts.has artifact = false := by
  cases pass with
  | assemble =>
      simp only [perform, makeProgram]
      split <;> cases artifact <;> first | rfl | exact absurd used (by decide)
  | _ => cases used

/-- A pass adds nothing but what it produces, and keeps nothing that it uses
up. -/
theorem leaves_of_has_perform {artifacts : Artifacts α} {description : Description α}
    {digest : String} {pass : Pass} {artifact : Artifact} {present : Bool}
    (known : artifacts.has artifact = true → present = true)
    (has : (artifacts.perform description digest pass).artifacts.has artifact = true) :
    pass.leaves artifact present = true := by
  by_cases produced : artifact ∈ pass.outputs
  · simp [Pass.leaves, produced]
  · by_cases used : artifact ∈ pass.takes
    · rw [has_perform_of_takes _ _ _ used] at has
      cases has
    · rw [(artifacts.agree_perform description digest produced used).has_eq] at has
      simp [Pass.leaves, known has, used]

/-- Two records have the same at all artifacts of a set. -/
def Share (present : Artifact → Bool) (first second : Artifacts α) : Prop :=
  ∀ artifact, present artifact = true →
    first.has artifact = true ∧ Agree first second artifact

/-- What is there and the same on both sides. -/
theorem exists_value {β : Type} {first second : Option β}
    (held : first.isSome = true ∧ first = second) :
    ∃ value, first = some value ∧ second = some value := by
  obtain ⟨has, rfl⟩ := held
  obtain ⟨value, held⟩ := Option.isSome_iff_exists.1 has
  exact ⟨value, held, held⟩

namespace Share

variable {present : Artifact → Bool} {first second : Artifacts α} {pass : Pass}

/-- A pass that finds what it reads reports the same in two sessions that share
it, and it produces the same unless it reports an error. -/
theorem findings (share : Share present first second) (served : pass.reads.all present = true)
    (description : Description α) (digest : String) :
    ∃ findings, (first.perform description digest pass).findings = some findings ∧
      (second.perform description digest pass).findings = some findings ∧
      (hasErrors findings = false → ∀ artifact ∈ pass.outputs,
        (first.perform description digest pass).artifacts.has artifact = true ∧
          Agree (first.perform description digest pass).artifacts
            (second.perform description digest pass).artifacts artifact) := by
  have read : ∀ artifact ∈ pass.reads,
      first.has artifact = true ∧ Agree first second artifact :=
    fun artifact mem => share artifact (List.all_eq_true.1 served artifact mem)
  clear served share
  cases pass with
  | validate =>
      refine ⟨description.validate.diagnostics, rfl, rfl, fun clean artifact output => ?_⟩
      obtain rfl := List.mem_singleton.1 output
      exact ⟨Description.validate_isSome_iff.2 clean, rfl⟩
  | plan =>
      obtain ⟨problem, held, heldToo⟩ := exists_value (read .problem (by decide))
      simp only [perform, makePlan, held, heldToo]
      cases planned : Plan.ofProblem problem with
      | error finding =>
          refine ⟨[finding], rfl, rfl, fun clean => ?_⟩
          simp [hasErrors, Plan.refusesWithErrors_ofProblem problem finding planned] at clean
      | ok plan =>
          refine ⟨[], rfl, rfl, fun _ artifact output => ?_⟩
          obtain rfl := List.mem_singleton.1 output
          exact ⟨rfl, rfl⟩
  | objective | constraints | phases =>
      obtain ⟨problem, held, heldToo⟩ := exists_value (read .problem (by decide))
      obtain ⟨plan, planned, plannedToo⟩ := exists_value (read .plan (by decide))
      simp only [perform, makeSection, held, heldToo, planned, plannedToo]
      refine ⟨[], rfl, rfl, fun _ artifact output => ?_⟩
      obtain rfl := List.mem_singleton.1 output
      exact ⟨rfl, rfl⟩
  | assemble =>
      obtain ⟨problem, held, heldToo⟩ := exists_value (read .problem (by decide))
      obtain ⟨plan, planned, plannedToo⟩ := exists_value (read .plan (by decide))
      obtain ⟨objective, made₁, made₁Too⟩ := exists_value (read .objectiveSection (by decide))
      obtain ⟨constraints, made₂, made₂Too⟩ := exists_value (read .constraintSection (by decide))
      obtain ⟨phases, made₃, made₃Too⟩ := exists_value (read .phaseSection (by decide))
      simp only [perform, makeProgram, held, heldToo, planned, plannedToo, made₁, made₁Too, made₂,
        made₂Too, made₃, made₃Too]
      refine ⟨_, rfl, rfl, fun _ artifact output => ?_⟩
      rcases List.mem_pair.1 output with rfl | rfl <;> exact ⟨rfl, rfl⟩
  | codegen =>
      obtain ⟨program, held, heldToo⟩ := exists_value (read .program (by decide))
      simp only [perform, makeFiles, held, heldToo]
      refine ⟨[], rfl, rfl, fun _ artifact output => ?_⟩
      obtain rfl := List.mem_singleton.1 output
      exact ⟨rfl, rfl⟩

/-- What two sessions share grows by what a pass produces without an error. -/
theorem perform (share : Share present first second) {description : Description α}
    {digest : String}
    (produced : ∀ artifact ∈ pass.outputs,
      (first.perform description digest pass).artifacts.has artifact = true ∧
        Agree (first.perform description digest pass).artifacts
          (second.perform description digest pass).artifacts artifact) :
    Share (fun artifact => pass.leaves artifact (present artifact))
      (first.perform description digest pass).artifacts
      (second.perform description digest pass).artifacts := by
  intro artifact left
  by_cases output : artifact ∈ pass.outputs
  · exact produced artifact output
  · obtain ⟨before, used⟩ : present artifact = true ∧ artifact ∉ pass.takes := by
      simpa [Pass.leaves, output] using left
    have kept := first.agree_perform description digest output used
    have keptToo := second.agree_perform description digest output used
    obtain ⟨has, agree⟩ := share artifact before
    exact ⟨kept.has_eq.trans has, (kept.trans agree).trans keptToo.symm⟩

end Share

end Artifacts

/-! ## One run -/

namespace RunReport

/-- All findings of a run, in the order in which they were reported. -/
def findings (report : RunReport) : List Diagnostic :=
  report.passes.flatMap PassReport.findings

/-- The completed passes are the first ones of a list.  A run fails with the
first of them that reports an error, and otherwise it completes all. -/
def StopsAtError (report : RunReport) (passes : List Pass) : Prop :=
  report.passes.map PassReport.pass <+: passes ∧
    match report.failing with
    | none =>
        report.passes.map PassReport.pass = passes ∧
          ∀ done ∈ report.passes, hasErrors done.findings = false
    | some failed =>
        ∃ before findings, report.passes = before ++ [⟨failed, findings⟩] ∧
          hasErrors findings = true ∧ ∀ done ∈ before, hasErrors done.findings = false

/-- A pass with an error is the last one. -/
theorem stopsAtError_of_hasErrors {pass : Pass} {rest : List Pass} {findings : List Diagnostic}
    (broken : hasErrors findings = true) :
    StopsAtError ⟨[⟨pass, findings⟩], some pass⟩ (pass :: rest) :=
  ⟨⟨rest, rfl⟩, [], findings, rfl, broken, fun _ mem => absurd mem List.not_mem_nil⟩

/-- A pass without errors is followed by the next ones. -/
theorem StopsAtError.cons {report : RunReport} {pass : Pass} {rest : List Pass}
    {findings : List Diagnostic} (stops : report.StopsAtError rest)
    (clean : hasErrors findings = false) :
    StopsAtError ⟨⟨pass, findings⟩ :: report.passes, report.failing⟩ (pass :: rest) := by
  obtain ⟨first, stops⟩ := stops
  refine ⟨by simpa using first, ?_⟩
  cases failing : report.failing with
  | none =>
      rw [failing] at stops
      exact ⟨congrArg (pass :: ·) stops.1, List.forall_mem_cons.2 ⟨clean, stops.2⟩⟩
  | some failed =>
      rw [failing] at stops
      obtain ⟨before, last, split, broken, others⟩ := stops
      exact ⟨⟨pass, findings⟩ :: before, last, congrArg (_ :: ·) split, broken,
        List.forall_mem_cons.2 ⟨clean, others⟩⟩

end RunReport

namespace Session

variable {α : Type} [Scalar α]

/-- The session after a completed pass. -/
def completed (session : Session α) (digest : String) (pass : Pass)
    (findings : List Diagnostic) : Session α :=
  { session with
    artifacts := (session.artifacts.perform session.description digest pass).artifacts
    diagnostics := session.diagnostics ++ findings
    hasError := session.hasError || hasErrors findings }

section Steps

variable {session : Session α} {digest : String} {pass : Pass} {findings : List Diagnostic}

theorem proceed_cons_of_missing (rest : List Pass)
    (missing : (session.artifacts.perform session.description digest pass).findings = none) :
    session.proceed digest (pass :: rest) =
      ({ session with
          artifacts := (session.artifacts.perform session.description digest pass).artifacts
          hasError := true },
        ⟨[], some pass⟩) := by
  simp only [proceed, missing]

theorem proceed_cons_of_broken (rest : List Pass)
    (found : (session.artifacts.perform session.description digest pass).findings = some findings)
    (broken : hasErrors findings = true) :
    session.proceed digest (pass :: rest) =
      (session.completed digest pass findings, ⟨[⟨pass, findings⟩], some pass⟩) := by
  simp only [proceed, found, broken, completed, if_true]

theorem proceed_cons_of_clean (rest : List Pass)
    (found : (session.artifacts.perform session.description digest pass).findings = some findings)
    (clean : hasErrors findings = false) :
    session.proceed digest (pass :: rest) =
      let next := (session.completed digest pass findings).proceed digest rest
      (next.1, ⟨⟨pass, findings⟩ :: next.2.passes, next.2.failing⟩) := by
  simp only [proceed, found, clean, completed, Bool.false_eq_true, if_false]

end Steps

/-- What a run does to the rest of a session: it adds its findings, and
remembers whether it failed. -/
theorem proceed_session (digest : String) (passes : List Pass) :
    ∀ session : Session α,
      let outcome := session.proceed digest passes
      outcome.1.description = session.description ∧
        outcome.1.provenance = session.provenance ∧
        outcome.1.diagnostics = session.diagnostics ++ outcome.2.findings ∧
        outcome.1.hasError = (session.hasError || outcome.2.failing.isSome) := by
  induction passes with
  | nil =>
      intro session
      exact ⟨rfl, rfl, (List.append_nil _).symm, (Bool.or_false _).symm⟩
  | cons pass rest ih =>
      intro session
      cases found : (session.artifacts.perform session.description digest pass).findings with
      | none =>
          rw [proceed_cons_of_missing rest found]
          exact ⟨rfl, rfl, (List.append_nil _).symm, (Bool.or_true _).symm⟩
      | some findings =>
          cases broken : hasErrors findings with
          | true =>
              rw [proceed_cons_of_broken rest found broken]
              refine ⟨rfl, rfl, ?_, ?_⟩
              · simp [completed, RunReport.findings]
              · simp [completed, broken]
          | false =>
              rw [proceed_cons_of_clean rest found broken]
              obtain ⟨description, provenance, diagnostics, hasError⟩ :=
                ih (session.completed digest pass findings)
              refine ⟨description, provenance, ?_, ?_⟩
              · rw [diagnostics]
                simp [completed, RunReport.findings]
              · rw [hasError]
                simp [completed, broken]

/-- A run that completes its passes leaves nothing but what they leave. -/
theorem leaves_of_has_proceed (digest : String) (artifact : Artifact) (passes : List Pass) :
    ∀ {session : Session α} {present : Bool},
      (session.artifacts.has artifact = true → present = true) →
      (session.proceed digest passes).2.failing = none →
      (session.proceed digest passes).1.artifacts.has artifact = true →
      passes.foldl (Pass.leaves artifact) present = true := by
  induction passes with
  | nil => exact fun known _ has => known has
  | cons pass rest ih =>
      intro session present known completes has
      cases found : (session.artifacts.perform session.description digest pass).findings with
      | none =>
          rw [proceed_cons_of_missing rest found] at completes
          cases completes
      | some findings =>
          cases broken : hasErrors findings with
          | true =>
              rw [proceed_cons_of_broken rest found broken] at completes
              cases completes
          | false =>
              rw [proceed_cons_of_clean rest found broken] at completes has
              exact ih (Artifacts.leaves_of_has_perform known) completes has

/-- Two sessions of one description with the same at all artifacts of a set. -/
structure Alike (present : Artifact → Bool) (first second : Session α) : Prop where
  description : first.description = second.description
  share : first.artifacts.Share present second.artifacts

/-- Sessions that share what a run reads report the same, and share what it
leaves. -/
theorem Alike.proceed (digest : String) (passes : List Pass) :
    ∀ {present : Artifact → Bool} {first second : Session α}, Alike present first second →
      Pass.served present passes = true →
      let outcome := first.proceed digest passes
      let other := second.proceed digest passes
      outcome.2 = other.2 ∧ outcome.2.StopsAtError passes ∧
        (outcome.2.failing = none →
          Alike (fun artifact => passes.foldl (Pass.leaves artifact) (present artifact))
            outcome.1 other.1) := by
  induction passes with
  | nil =>
      intro present first second alike _
      exact ⟨rfl, ⟨List.nil_prefix, rfl, fun _ mem => absurd mem List.not_mem_nil⟩, fun _ => alike⟩
  | cons pass rest ih =>
      intro present first second alike served
      obtain ⟨here, later⟩ := Bool.and_eq_true_iff.1 served
      obtain ⟨findings, found, foundToo, produced⟩ :=
        alike.share.findings here first.description digest
      have foundToo : (second.artifacts.perform second.description digest pass).findings =
          some findings := by
        rw [← alike.description]
        exact foundToo
      cases broken : hasErrors findings with
      | true =>
          rw [proceed_cons_of_broken rest found broken, proceed_cons_of_broken rest foundToo broken]
          exact ⟨rfl, RunReport.stopsAtError_of_hasErrors broken, fun clean => nomatch clean⟩
      | false =>
          have next : Alike (fun artifact => pass.leaves artifact (present artifact))
              (first.completed digest pass findings) (second.completed digest pass findings) := by
            refine ⟨alike.description, ?_⟩
            rw [completed, completed, ← alike.description]
            exact alike.share.perform (produced broken)
          obtain ⟨same, stops, leaves⟩ := ih next later
          rw [proceed_cons_of_clean rest found broken, proceed_cons_of_clean rest foundToo broken]
          exact ⟨by simp only [same], stops.cons broken, leaves⟩

/-- The digest that a session stamps into generated files is that of its
description. -/
def IsStamped (session : Session α) : Prop :=
  session.stamp = .ofDescription session.description

/-- The session in which a run starts. -/
def stamped (session : Session α) : Session α :=
  { session with provenance := some session.stamp }

theorem run_eq (session : Session α) (terminal : Pass) :
    session.run terminal = session.stamped.proceed session.stamp.digest terminal.required :=
  rfl

/-- A run in a used session reports what it reports in a new one, and leaves
the same. -/
theorem alike_run {session : Session α} (stamped : session.IsStamped) (terminal : Pass) :
    let outcome := session.run terminal
    let fresh := (ofDescription session.description).run terminal
    outcome.2 = fresh.2 ∧ outcome.2.StopsAtError terminal.required ∧
      (outcome.2.failing = none →
        Alike (fun artifact => terminal.required.foldl (Pass.leaves artifact) false)
          outcome.1 fresh.1) := by
  have same : session.stamp = (ofDescription session.description).stamp := stamped
  rw [run_eq, run_eq, ← same]
  exact Alike.proceed session.stamp.digest terminal.required ⟨rfl, fun _ present => nomatch present⟩
    (Pass.served_required terminal)

/-- What a run does to a session, apart from artifacts. -/
theorem run_session (session : Session α) (terminal : Pass) :
    let outcome := session.run terminal
    outcome.1.description = session.description ∧
      outcome.1.provenance = some session.stamp ∧
      outcome.1.diagnostics = session.diagnostics ++ outcome.2.findings ∧
      outcome.1.hasError = (session.hasError || outcome.2.failing.isSome) :=
  proceed_session session.stamp.digest terminal.required session.stamped

theorem IsStamped.run {session : Session α} (stamped : session.IsStamped) (terminal : Pass) :
    (session.run terminal).1.IsStamped := by
  obtain ⟨description, provenance, _, _⟩ := session.run_session terminal
  rw [IsStamped, stamp, provenance, description]
  exact stamped

/-- The artifacts that a run leaves. -/
theorem has_run {session : Session α} (stamped : session.IsStamped) {terminal : Pass}
    (completes : (session.run terminal).2.failing = none) {pass : Pass}
    (mem : pass ∈ terminal.required) {artifact : Artifact} (output : artifact ∈ pass.outputs) :
    (session.run terminal).1.artifacts.has artifact =
      !(terminal.required.contains .assemble && Pass.assemble.takes.contains artifact) := by
  rw [Bool.eq_iff_iff]
  constructor
  · intro has
    rw [← Pass.leaves_required terminal mem output true]
    exact leaves_of_has_proceed session.stamp.digest artifact terminal.required (fun _ => rfl)
      completes has
  · intro left
    rw [← Pass.leaves_required terminal mem output false] at left
    exact (((alike_run stamped terminal).2.2 completes).share artifact left).1

/-- A run on a rejected description leaves nothing if nothing was there. -/
theorem artifacts_run_of_rejected {session : Session α}
    (rejected : hasErrors session.description.validate.diagnostics = true)
    (nothing : session.artifacts = .empty) (terminal : Pass) :
    (session.run terminal).1.artifacts = .empty := by
  have first : terminal.required = .validate :: terminal.required.tail := by
    cases terminal <;> rfl
  have value : session.description.validate.value = none := by
    rw [← Option.not_isSome_iff_eq_none, Description.validate_isSome_iff, rejected]
    exact Bool.noConfusion
  rw [run_eq, first, proceed_cons_of_broken _ rfl rejected]
  simp [completed, Session.stamped, Artifacts.perform, Artifacts.validate, nothing, value,
    Artifacts.empty]

/-! ## Runs after other runs -/

/-- Runs that follow one another, with what they report. -/
def runAll : List Pass → Session α → Session α × List RunReport
  | [], session => (session, [])
  | terminal :: rest, session =>
      let outcome := session.run terminal
      let later := runAll rest outcome.1
      (later.1, outcome.2 :: later.2)

/-- What earlier runs leave in a session, apart from artifacts. -/
theorem session_runAll (history : List Pass) :
    ∀ {session : Session α}, session.IsStamped →
      let past := session.runAll history
      past.1.description = session.description ∧ past.1.IsStamped ∧
        past.2 = history.map (fun terminal =>
          ((ofDescription session.description).run terminal).2) ∧
        past.1.diagnostics = session.diagnostics ++ past.2.flatMap RunReport.findings ∧
        past.1.hasError =
          (session.hasError || past.2.any fun report => report.failing.isSome) := by
  induction history with
  | nil =>
      intro session stamped
      exact ⟨rfl, stamped, rfl, (List.append_nil _).symm, (Bool.or_false _).symm⟩
  | cons terminal rest ih =>
      intro session stamped
      obtain ⟨keeps, _, added, failed⟩ := session.run_session terminal
      obtain ⟨description, later, reports, diagnostics, hasError⟩ := ih (stamped.run terminal)
      refine ⟨description.trans keeps, later, ?_, ?_, ?_⟩
      · rw [keeps] at reports
        exact congrArg₂ List.cons (alike_run stamped terminal).1 reports
      · rw [added, List.append_assoc] at diagnostics
        exact diagnostics
      · rw [failed, Bool.or_assoc] at hasError
        exact hasError

/-- A rejected description never leaves an artifact. -/
theorem artifacts_runAll_of_rejected (history : List Pass) :
    ∀ {session : Session α}, hasErrors session.description.validate.diagnostics = true →
      session.artifacts = .empty → (session.runAll history).1.artifacts = .empty := by
  induction history with
  | nil => exact fun _ nothing => nothing
  | cons terminal rest ih =>
      intro session rejected nothing
      apply ih
      · rw [(session.run_session terminal).1]
        exact rejected
      · exact artifacts_run_of_rejected rejected nothing terminal

theorem isStamped_ofDescription (description : Description α) :
    (ofDescription description).IsStamped :=
  rfl

/-- Every run on an accepted description completes. -/
theorem completes_of_accepted {description : Description α} {problem : Problem α}
    (accepted : description.validate.value = some problem) (history : List Pass)
    (terminal : Pass) :
    (((ofDescription description).runAll history).1.run terminal).2.failing = none := by
  obtain ⟨same, stamped, _⟩ := session_runAll history (isStamped_ofDescription description)
  rw [(alike_run stamped terminal).1, same]
  exact congrArg RunReport.failing (run_of_accepted accepted terminal).1

end Session

/-- Runs do not depend on earlier ones.  In a session in which any runs have
taken place, each of them reports what it reports in a new session, and so does
the next one, which also leaves the provenance and, unless it fails, the results
of its terminal pass as in a new session.  A run visits the passes that it
requires up to the first one with an error.  The session has collected all
findings, remembers whether a run has failed, and holds no artifact of a
rejected description. -/
theorem runs_independent_of_history {α : Type} [Scalar α] (description : Description α)
    (history : List Pass) :
    let fresh := fun terminal => (Session.ofDescription description).run terminal
    let past := (Session.ofDescription description).runAll history
    past.2 = history.map (fun terminal => (fresh terminal).2) ∧
      past.1.diagnostics = past.2.flatMap RunReport.findings ∧
      (past.1.hasError = true ↔ ∃ report ∈ past.2, report.failing ≠ none) ∧
      (hasErrors description.validate.diagnostics = true → past.1.artifacts = .empty) ∧
      ∀ terminal : Pass,
        let next := past.1.run terminal
        next.2 = (fresh terminal).2 ∧ next.2.StopsAtError terminal.required ∧
          next.1.provenance = (fresh terminal).1.provenance ∧
          (next.2.failing = none → ∀ artifact ∈ terminal.outputs,
            next.1.artifacts.has artifact = true ∧
              next.1.artifacts.Agree (fresh terminal).1.artifacts artifact) := by
  have new := Session.isStamped_ofDescription description
  obtain ⟨same, stamped, reports, diagnostics, hasError⟩ := Session.session_runAll history new
  refine ⟨reports, diagnostics, ?_, ?_, ?_⟩
  · rw [hasError, show (Session.ofDescription description).hasError = false from rfl,
      Bool.false_or, List.any_eq_true]
    simp only [Option.isSome_iff_ne_none]
  · exact fun rejected => Session.artifacts_runAll_of_rejected history rejected rfl
  · intro terminal
    obtain ⟨report, stops, leaves⟩ := Session.alike_run stamped terminal
    rw [same] at report leaves
    refine ⟨report, stops, ?_, fun completes artifact output => ?_⟩
    · rw [(Session.run_session _ terminal).2.1, (Session.run_session _ terminal).2.1, stamped, same]
      rfl
    · exact (leaves completes).share artifact (Pass.leaves_terminal terminal output)

/-! ## What a run leaves -/

/-- Behind a run that does not fail, in a session in which any runs have taken
place, there is all that the required passes produce, except for the sections
if they were put together. -/
theorem required_artifacts_of_run {α : Type} [Scalar α] (description : Description α)
    (history : List Pass) (terminal : Pass) :
    let past := (Session.ofDescription description).runAll history
    let next := past.1.run terminal
    next.2.failing = none → ∀ pass ∈ terminal.required, ∀ artifact ∈ pass.outputs,
      (next.1.artifacts.has artifact = true ↔
        ¬(Pass.assemble ∈ terminal.required ∧ artifact ∈ Pass.assemble.takes)) := by
  intro past next completes pass mem artifact output
  have stamped :=
    (Session.session_runAll history (Session.isStamped_ofDescription description)).2.1
  rw [Session.has_run stamped completes mem output]
  simp [imp_iff_not_or]

/-- In a small problem, the sections are missing after a code generation that
follows other runs, and the plan is there. -/
theorem artifacts_twoIntervals :
    let past := (Session.ofDescription Description.twoIntervals).runAll [.codegen, .phases]
    let next := past.1.run .codegen
    next.2.failing = none ∧ next.1.artifacts.has .plan = true ∧
      next.1.artifacts.has .phaseSection = false := by
  have completes := Session.completes_of_accepted Description.validate_twoIntervals
    [.codegen, .phases] .codegen
  have left := required_artifacts_of_run Description.twoIntervals [.codegen, .phases] .codegen
    completes
  have plan := left .plan (by decide) .plan (by decide)
  have phases := left .phases (by decide) .phaseSection (by decide)
  refine ⟨completes, plan.2 (by decide), ?_⟩
  rw [Bool.eq_false_iff, ne_eq, phases, not_not]
  decide

/-- Putting the program of a small problem together fails nowhere, although one
of the sections that it requires is missing behind it. -/
theorem objectiveSection_twoIntervals :
    let outcome := (Session.ofDescription Description.twoIntervals).run .assemble
    outcome.2.failing = none ∧ Pass.objective ∈ Pass.assemble.required ∧
      Artifact.objectiveSection ∈ Pass.objective.outputs ∧
      outcome.1.artifacts.has .objectiveSection = false := by
  have completes := congrArg RunReport.failing
    (Session.run_of_accepted Description.validate_twoIntervals .assemble).1
  have required : Pass.objective ∈ Pass.assemble.required := by decide
  have output : Artifact.objectiveSection ∈ Pass.objective.outputs := by decide
  have present := Session.has_run (Session.isStamped_ofDescription Description.twoIntervals)
    completes required output
  exact ⟨completes, required, output, present.trans (by decide)⟩

end RtiAssembly
