import RtiAssembly.Proofs.Problem.Given
import RtiAssembly.Proofs.Program.Ownership

/-!
# What the control loop can rely on

Whatever routines a control loop runs, and in whatever order, its inputs and the
constants of the module stay as they are, and its other arrays only change by
runs of their writers.  The host may write to what is passed to it and to the
workspace.
-/

namespace RtiAssembly

/-! ## Runs one after the other -/

namespace Program

variable {α σ : Type}

/-- A host that leaves the arrays of the module alone, apart from the workspace
and what is passed to it. -/
def Confines (program : Program α) (host : Host α σ program.table.sizes) : Prop :=
  ∀ id, ∀ decl ∈ program.table.get? id, decl.storage ≠ .workspace →
    ∀ function passed memory state,
      (host function passed memory state).memory.content id = memory.content id

variable [Scalar α] {program : Program α} {host : Host α σ program.table.sizes}

/-- The control loop supplies no constants. -/
theorem HoldsConstants.of_supplies {before after : program.Contents}
    (holds : program.HoldsConstants before) (supplies : program.Supplies before after) :
    program.HoldsConstants after := by
  intro id decl found constant
  have other : decl.storage ≠ .variable := constant ▸ StorageClass.noConfusion
  exact (supplies id decl found other).trans (holds id decl found constant)

/-- Run routines one after the other, whether they return or fault. -/
def runAll (program : Program α) (host : Host α σ program.table.sizes) :
    List (String × List (Passed α)) → program.Contents × σ → program.Contents × σ
  | [], reached => reached
  | (name, arguments) :: rest, (memory, state) =>
      let outcome := program.run host state memory name arguments
      runAll program host rest (outcome.memory, outcome.state)

/-- Runs leave an array alone that each of their routines preserves. -/
theorem runAll_of_preserves {id : Nat}
    (content : ∀ function passed memory state,
      (host function passed memory state).memory.content id = memory.content id)
    {orders : List (String × List (Passed α))}
    (preserves : ∀ order ∈ orders, ∀ routine ∈ program.routine? order.1,
      program.Preserves (.global id) (fun _ => False) routine)
    (reached : program.Contents × σ) :
    (program.runAll host orders reached).1.content id = reached.1.content id := by
  induction orders generalizing reached with
  | nil => rfl
  | cons order rest ih =>
      obtain ⟨name, arguments⟩ := order
      obtain ⟨memory, state⟩ := reached
      have first := run_of_preserves (Host.respects_of_content content)
        (preserves _ List.mem_cons_self) state memory arguments
      have others := ih fun other listed => preserves other (List.mem_cons_of_mem _ listed)
      exact (others _).trans first.1

end Program

namespace Problem

variable {α σ : Type} [Scalar α] {problem : Problem α}

/-- Runs leave a quantity of the control loop alone if none of them is a run of
one of its writers. -/
theorem content_runAll {host : Host α σ problem.program.table.sizes}
    (confined : problem.program.Confines host) {quantity : Quantity} {decl : ArrayDecl α}
    (described : quantity.describe problem = some decl) (other : decl.storage ≠ .workspace)
    {orders : List (String × List (Passed α))}
    (unowned : ∀ order ∈ orders,
      order.1 ∉ quantity.writers problem.flags.hardcodeConstraints)
    (reached : problem.Contents × σ) :
    (problem.program.runAll host orders reached).1.content (problem.plan.id quantity) =
      reached.1.content (problem.plan.id quantity) := by
  have present : problem.plan.has quantity = true := by
    rw [problem.has_plan, described, Option.isSome_some]
  refine Program.runAll_of_preserves
    (confined _ decl ((problem.get?_id_plan quantity).trans described) other) ?_ reached
  intro order listed routine known
  have named : routine.name = order.1 := by simpa using List.find?_some known
  have only := writesOnly_routines routine (List.mem_of_find?_eq_some known)
  refine only.preserves present (fun permitted => unowned order listed ?_) fun _ _ => id
  exact named ▸ permitted ((Quantity.mem_ofControlLoop_iff described).2 other)

end Problem

/-- Inputs and constants are never clobbered.  The routines of the program of an
accepted description are run in any order, whatever is passed to them and however
the runs end, with any host that writes only to what is passed to it and to the
workspace.  Constants keep their given content, an array of the control loop
changes only if one of its writers is run, and what the control loop supplies is
never written. -/
theorem ownership_of_accepted {α σ : Type} [Scalar α] {description : Description α}
    {problem : Problem α} {plan : Plan α}
    (accepted : description.validate.value = some problem)
    (planned : Plan.ofProblem problem = .ok plan)
    {host : Host α σ (Program.ofPlan problem plan).table.sizes}
    (confined : (Program.ofPlan problem plan).Confines host)
    (orders : List (String × List (Passed α)))
    (memory : (Program.ofPlan problem plan).Contents) (state : σ) :
    let program := Program.ofPlan problem plan
    let hardcoded := description.flags.hardcodeConstraints
    let after := (program.runAll host orders (memory, state)).1
    (program.HoldsConstants memory → program.HoldsConstants after) ∧
      (∀ id, ∀ decl ∈ program.table.get? id, decl.storage = .constant →
        after.content id = memory.content id) ∧
      (∀ id, ∀ decl ∈ program.table.get? id, decl.storage = .variable →
        ∃ quantity : Quantity, decl.name = quantity.name ∧
          ((∀ order ∈ orders, order.1 ∉ quantity.writers hardcoded) →
            after.content id = memory.content id)) ∧
      ∀ id, ∀ decl ∈ program.table.get? id,
        decl.name ∈ ["y", "yN", "od", "x0", "W", "WN", "Wlx", "Wlu", "sigmaN"] →
          after.content id = memory.content id := by
  have wellFormed := Description.wellFormed_of_validate accepted
  have flags : problem.flags = description.flags :=
    (Description.keeps_of_validate accepted).flags
  obtain rfl : problem.plan = plan :=
    Except.ok.inj (wellFormed.ofProblem_eq_ok.symm.trans planned)
  intro program hardcoded after
  have constants : ∀ id, ∀ decl ∈ program.table.get? id, decl.storage = .constant →
      after.content id = memory.content id := by
    intro id decl found constant
    obtain ⟨quantity, described, rfl⟩ := problem.exists_quantity found
    refine Problem.content_runAll confined described ?_ ?_ (memory, state)
    · rw [constant]
      exact StorageClass.noConfusion
    · rw [Quantity.writers_of_constant described constant]
      exact fun _ _ => List.not_mem_nil
  refine ⟨fun holds id decl found constant => ?_, constants, ?_, ?_⟩
  · exact (constants id decl found constant).trans (holds id decl found constant)
  · intro id decl found isVariable
    obtain ⟨quantity, described, rfl⟩ := problem.exists_quantity found
    refine ⟨quantity, (Quantity.heldBy_of_describe described).1, fun unowned => ?_⟩
    refine Problem.content_runAll confined described ?_ (flags ▸ unowned) (memory, state)
    rw [isVariable]
    exact StorageClass.noConfusion
  · intro id decl found supplied
    obtain ⟨quantity, described, rfl⟩ := problem.exists_quantity found
    rw [(Quantity.heldBy_of_describe described).1] at supplied
    obtain ⟨loop, unwritten⟩ :=
      Quantity.writers_of_input supplied problem.flags.hardcodeConstraints
    refine Problem.content_runAll confined described
      ((Quantity.mem_ofControlLoop_iff described).1 loop) ?_ (memory, state)
    rw [unwritten]
    exact fun _ _ => List.not_mem_nil

/-! ## A cycle of a small problem -/

/-- The small description with hardcoded bounds. -/
def Description.hardcoding : Description ℚ :=
  { Description.twoIntervals with
    flags := { Flags.default with hardcodeConstraints := true } }

/-- The problem of that description. -/
def Problem.hardcoding : Problem ℚ :=
  (Validation.checkContent Description.hardcoding).value

theorem Description.validate_hardcoding :
    Description.hardcoding.validate.value = some Problem.hardcoding := rfl

/-- The host that fills all of its arguments with ones, and leaves a step of ones in
the workspace. -/
def Host.stepping : Host ℚ Unit Problem.hardcoding.program.table.sizes :=
  let fill : Passed ℚ → Passed ℚ
    | .array values => .array (values.map fun _ => 1)
    | .index value => .index value
  fun _ passed memory state =>
    ⟨0, passed.map fill, memory.overwrite (Problem.hardcoding.plan.id .qpx) #[1, 1, 1], state⟩

theorem Host.confined_stepping : Problem.hardcoding.program.Confines Host.stepping := by
  intro id decl found other function passed memory state
  have apart : Problem.hardcoding.plan.id .qpx ≠ id := by
    rintro rfl
    cases (Problem.hardcoding.get?_id_plan .qpx).symm.trans found
    exact other rfl
  exact memory.content_overwrite_of_ne apart #[1, 1, 1]

/-- A cycle of a small problem keeps its references, although the solver of the
quadratic program moves the trajectory, and keeps its bounds. -/
theorem ownership_hardcoding :
    let problem := Problem.hardcoding
    let program := problem.program
    let orders : List (String × List (Passed ℚ)) :=
      [(Horizon.initializeName, []), (Phases.preparationName, []), (Phases.feedbackName, []),
        (Horizon.shiftControlsName, [.array #[3]])]
    let start := program.initialMemory.overwrite (problem.plan.id .y) #[5, 7]
    let after := (program.runAll Host.stepping orders (start, ())).1
    Description.hardcoding.validate.value = some problem ∧ program.Confines Host.stepping ∧
      program.HoldsConstants after ∧ after.content (problem.plan.id .y) = #[5, 7] := by
  intro problem program orders start after
  have wellFormed := Description.wellFormed_of_validate Description.validate_hardcoding
  obtain ⟨constants, _, _, inputs⟩ := ownership_of_accepted Description.validate_hardcoding
    wellFormed.ofProblem_eq_ok Host.confined_stepping orders start ()
  have supplies : program.Supplies program.initialMemory start := by
    refine Program.Supplies.of_overwrite (fun decl known => ?_) program.initialMemory #[5, 7]
    cases (problem.get?_id_plan .y).symm.trans known
    rfl
  refine ⟨Description.validate_hardcoding, Host.confined_stepping,
    constants (program.holdsConstants_initialMemory.of_supplies supplies), ?_⟩
  exact (inputs _ _ (problem.get?_id_plan .y) (by decide)).trans rfl

end RtiAssembly
