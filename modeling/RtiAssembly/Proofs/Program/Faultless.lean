import RtiAssembly.Proofs.Machine.Correctness
import RtiAssembly.Proofs.Program.Safe

/-!
# Generated solvers never fault

Every routine of an assembled program is safe, not only the two phases.  A run
from outside puts its array arguments on the stack, where the parameters find
them with their sizes; so whatever the memory holds, whatever the host does, and
whichever routine is run, the run returns.
-/

namespace RtiAssembly

/-! ## Arguments from outside -/

/-- Whether a parameter takes what is passed from outside: an array with as many
values as the parameter has elements, or an index below its bound. -/
def Parameter.Takes {α : Type} (parameter : Parameter) (argument : Passed α) : Prop :=
  match parameter.kind, argument with
  | .array rows cols, .array values => values.size = rows * cols
  | .index bound, .index value => value < bound
  | _, _ => False

namespace Program

variable {α σ : Type} {program : Program α}

/-- Arguments that the parameters take are bound, each array at its own place on
the stack. -/
theorem bindOutside_of_takes {parameters : List Parameter} {arguments : List (Passed α)}
    (takes : List.Forall₂ Parameter.Takes parameters arguments) (memory : program.Contents)
    (below : List (Array α)) :
    ∃ bindings arrays,
      bindOutside parameters arguments below.length = some (bindings, arrays) ∧
        ∀ above, List.Forall₂ (Frame.Accepts ⟨memory, (below ++ arrays ++ above).toArray⟩)
          parameters bindings := by
  induction takes generalizing below with
  | nil => exact ⟨[], [], rfl, fun _ => .nil⟩
  | @cons parameter argument parameters arguments first _ ih =>
      unfold Parameter.Takes at first
      cases kind : parameter.kind <;> cases argument <;> rw [kind] at first
      · rename_i rows cols values
        obtain ⟨bindings, arrays, bound, accepts⟩ := ih (below ++ [values])
        rw [List.length_append, List.length_singleton] at bound
        refine ⟨.array ⟨.stack below.length, 0⟩ :: bindings, values :: arrays, ?_, fun above => ?_⟩
        · simp only [bindOutside, kind, if_pos first, bound, Option.map_some]
        · have stack_eq :
              below ++ values :: arrays ++ above = below ++ [values] ++ arrays ++ above := by
            simp
          refine .cons ?_ (stack_eq ▸ accepts above)
          simp [Frame.Accepts, kind, Store.content, first]
      · exact first.elim
      · exact first.elim
      · rename_i bound value
        obtain ⟨bindings, arrays, matched, accepts⟩ := ih below
        refine ⟨.index value :: bindings, arrays, ?_, fun above => .cons ?_ (accepts above)⟩
        · simp only [bindOutside, kind, matched, Option.map_some]
        · simpa [Frame.Accepts, kind] using first

variable [Scalar α]

/-- A run of a safe routine on arguments that its parameters take is its
effect. -/
theorem run_of_takes {routine : Routine α} {name : String}
    (known : program.routine? name = some routine) {depth : Nat}
    (safe : program.Safe depth routine) (depth_le : depth ≤ program.callDepth)
    {arguments : List (Passed α)}
    (takes : List.Forall₂ Parameter.Takes routine.parameters arguments)
    (host : Host α σ program.table.sizes) (state : σ) (memory : program.Contents) :
    ∃ bindings arrays,
      bindOutside routine.parameters arguments 0 = some (bindings, arrays) ∧
        List.Forall₂ (Frame.Accepts ⟨memory, arrays.toArray⟩) routine.parameters bindings ∧
        let performed := program.perform host program.callDepth routine bindings
          ⟨⟨memory, arrays.toArray⟩, state⟩
        program.run host state memory name arguments =
          ⟨.ok performed.1, performed.2.store.memory, performed.2.state⟩ := by
  obtain ⟨bindings, arrays, bound, accepts⟩ := bindOutside_of_takes takes memory []
  have accepted := accepts []
  rw [List.nil_append, List.append_nil] at accepted
  have enters : program.Enters host program.callDepth routine :=
    enters_of_safe (safe.mono depth_le)
  have returns := (enters bindings ⟨⟨memory, arrays.toArray⟩, state⟩ accepted).1
  unfold Execution.Returns at returns
  refine ⟨bindings, arrays, bound, accepted, ?_⟩
  rw [List.length_nil] at bound
  simp only [run, known, bound, returns]

end Program

/-! ## All routines -/

namespace Problem

variable {α σ : Type} [Scalar α] {problem : Problem α}

/-- The routines around the iteration call external functions at most. -/
theorem calls_horizon {routine : Routine α}
    (kind : routine = Horizon.simulateRoutine problem problem.plan ∨
      routine = Horizon.objectiveRoutine problem problem.plan ∨
      routine = Phases.arrivalCostRoutine problem.plan) :
    ∀ call ∈ Statement.callsOf routine.body, ∃ function, call.1 = .external function := by
  intro call called
  rcases kind with rfl | rfl | rfl
  · simp only [Horizon.simulateRoutine, Statement.callsOf_append, Statement.callsOf,
      Statement.calls, Statement.callsOf_loadNodeInput, Statement.calls_invoke,
      Statement.calls_copy, List.append_nil, List.nil_append, List.mem_singleton] at called
    exact ⟨_, congrArg Prod.fst called⟩
  · simp only [Horizon.objectiveRoutine, Statement.callsOf_append, Statement.callsOf,
      Statement.calls, Statement.callsOf_loadNodeInput, Statement.calls_evaluate,
      Statement.calls_set, Statement.calls_increase, List.append_nil, List.nil_append,
      List.mem_append, List.mem_singleton] at called
    rcases called with rfl | rfl
    · exact ⟨_, rfl⟩
    · exact ⟨_, rfl⟩
  · simp only [Phases.arrivalCostRoutine, Statement.callsOf, Statement.calls_invoke,
      List.append_nil, List.mem_singleton] at called
    exact ⟨_, congrArg Prod.fst called⟩

/-- Every routine of the program is safe. -/
theorem safe_routines (wellFormed : problem.WellFormed) :
    ∀ routine ∈ problem.program.routines, problem.program.Safe 3 routine := by
  have quiet {routine : Routine α} (none : Statement.callsOf routine.body = [])
      (mem : routine ∈ problem.program.routines) : problem.program.Safe 3 routine :=
    (safe_of_quiet wellFormed mem none).mono (by omega)
  have external {routine : Routine α}
      (kind : routine = Horizon.simulateRoutine problem problem.plan ∨
        routine = Horizon.objectiveRoutine problem problem.plan ∨
        routine = Phases.arrivalCostRoutine problem.plan)
      (mem : routine ∈ problem.program.routines) : problem.program.Safe 3 routine :=
    (safe_of_calls wellFormed mem (calls_horizon kind)).mono (by omega)
  suffices listed : ∀ routine ∈ problem.program.routines,
      routine ∈ problem.program.routines → problem.program.Safe 3 routine from
    fun routine mem => listed routine mem mem
  apply forall_routines
  · rw [Objective.blockRoutine_eq]; exact quiet rfl
  · rw [Objective.blockRoutine_eq]; exact quiet rfl
  · rw [Objective.crossRoutine_eq]; exact quiet rfl
  · rw [Objective.blockRoutine_eq]; exact quiet rfl
  · exact fun _ => (safe_objective wellFormed).mono (by omega)
  · exact quiet rfl
  · exact fun _ _ => quiet rfl
  · exact fun _ => (safe_constraints wellFormed).mono (by omega)
  · exact fun _ => (safe_initializeRoutine wellFormed).mono (by omega)
  · exact external (.inl rfl)
  · exact quiet rfl
  · exact quiet callsOf_shiftControlsRoutine
  · exact external (.inr (.inl rfl))
  · exact fun _ => safe_preparation wellFormed
  · exact fun _ => (safe_feedback wellFormed).mono (by omega)
  · exact quiet callsOf_optimalityRoutine
  · exact fun _ => external (.inr (.inr rfl))

end Problem

/-- Generated solvers never fault.  Every routine of the program of an accepted
description returns, whatever it is passed by arguments that its parameters
take, whatever the memory holds and whatever the host replies.  The memory is
any memory of the program, so in particular one that assignments and other runs
have led to. -/
theorem run_of_accepted_returns {α σ : Type} [Scalar α] {description : Description α}
    {problem : Problem α} {plan : Plan α}
    (accepted : description.validate.value = some problem)
    (planned : Plan.ofProblem problem = .ok plan)
    (host : Host α σ (Program.ofPlan problem plan).table.sizes) (state : σ)
    (memory : (Program.ofPlan problem plan).Contents) {routine : Routine α}
    (mem : routine ∈ (Program.ofPlan problem plan).routines) {arguments : List (Passed α)}
    (takes : List.Forall₂ Parameter.Takes routine.parameters arguments) :
    ∃ value, ((Program.ofPlan problem plan).run host state memory routine.name
      arguments).result = .ok value := by
  have wellFormed := Description.wellFormed_of_validate accepted
  obtain rfl : problem.plan = plan :=
    Except.ok.inj (wellFormed.ofProblem_eq_ok.symm.trans planned)
  obtain ⟨bindings, arrays, _, _, run_eq⟩ :=
    Program.run_of_takes (problem.routine?_eq mem) (problem.safe_routines wellFormed routine mem)
      problem.three_le_callDepth takes host state memory
  exact ⟨_, congrArg Program.Outcome.result run_eq⟩

/-- The gradient of the last interval of a small problem is formed without a
fault, in the memory before the first run. -/
theorem gradient_twoIntervals_returns :
    ∃ value, (Problem.twoIntervals.program.run Host.idle ()
      Problem.twoIntervals.program.initialMemory Objective.gradientName
      [.array #[1], .array #[2], .array #[3], .array #[4], .index 1]).result = .ok value := by
  let arguments : List (Passed ℚ) :=
    [.array #[1], .array #[2], .array #[3], .array #[4], .index 1]
  have takes : List.Forall₂ Parameter.Takes
      (Objective.gradientRoutine Problem.twoIntervals Problem.twoIntervals.plan).parameters
      arguments :=
    .cons rfl (.cons rfl (.cons rfl (.cons rfl (.cons (by decide : 1 < 2) .nil))))
  exact run_of_accepted_returns Description.validate_twoIntervals
    Problem.wellFormed_twoIntervals.ofProblem_eq_ok Host.idle ()
    Problem.twoIntervals.program.initialMemory Problem.mem_routines.2.2.1 takes

end RtiAssembly
