import RtiAssembly.Proofs.Assembly.Constraints
import RtiAssembly.Proofs.Assembly.Phases

/-!
# Certified programs

The program of a well-formed problem meets all of its obligations: names are
unique, references are declared, windows lie inside their arrays, calls go back
to earlier routines with matching arguments, and the arrival cost is updated
exactly if it is used.
-/

namespace RtiAssembly

/-! ## The routines of a program -/

namespace Problem

variable {α : Type} [Scalar α] {problem : Problem α}

/-- The statements that fill the workspace before the first iteration. -/
def initialization (problem : Problem α) : List (Statement α) :=
  Objective.initialization problem problem.plan ++
    Constraints.initialization problem problem.plan

/-- The routines in emission order. -/
theorem routines_program :
    problem.program.routines =
      Objective.blockRoutines problem problem.plan ++
        [Objective.evaluateRoutine problem problem.plan,
          Objective.gradientRoutine problem problem.plan] ++
        ((problem.path.map (Constraints.pathBoundsRoutine problem problem.plan)).toList ++
          [Constraints.evaluateRoutine problem problem.plan]) ++
        [Horizon.initializeRoutine problem.plan problem.initialization] ++
        ([Horizon.simulateRoutine problem problem.plan,
            Horizon.shiftStatesRoutine problem problem.plan,
            Horizon.shiftControlsRoutine problem problem.plan,
            Horizon.objectiveRoutine problem problem.plan, Phases.preparationRoutine,
            Phases.feedbackRoutine problem problem.plan,
            Phases.optimalityRoutine problem problem.plan] ++
          if problem.flags.useArrivalCost then [Phases.arrivalCostRoutine problem.plan]
          else []) := by
  simp [program, Program.ofPlan, Program.assemble, Objective.assemble, Constraints.assemble,
    Phases.assemble, initialization]

/-- The block routines that a problem has are among the four kinds. -/
theorem mem_blockRoutines {routine : Routine α}
    (mem : routine ∈ Objective.blockRoutines problem problem.plan) :
    let dims := problem.dims
    let damping := problem.flags.levenbergMarquardt
    routine = Objective.blockRoutine Objective.stateNames damping dims.ny dims.nx problem.jacX
        problem.weight ∨
      routine = Objective.blockRoutine Objective.controlNames damping dims.ny dims.nu
        problem.jacU problem.weight ∨
      routine = Objective.crossRoutine problem ∨
      routine = Objective.blockRoutine Objective.terminalNames damping dims.nyn dims.nx
        problem.jacXEnd problem.terminalWeight := by
  simp only [Objective.blockRoutines, List.mem_append, List.mem_ite_nil_left,
    List.mem_singleton] at mem
  tauto

/-- What holds of each routine that a problem can have holds of every routine
of its program. -/
theorem forall_routines {property : Routine α → Prop}
    (stateBlock : property (Objective.blockRoutine Objective.stateNames
      problem.flags.levenbergMarquardt problem.dims.ny problem.dims.nx problem.jacX
      problem.weight))
    (controlBlock : property (Objective.blockRoutine Objective.controlNames
      problem.flags.levenbergMarquardt problem.dims.ny problem.dims.nu problem.jacU
      problem.weight))
    (crossBlock : property (Objective.crossRoutine problem))
    (terminalBlock : property (Objective.blockRoutine Objective.terminalNames
      problem.flags.levenbergMarquardt problem.dims.nyn problem.dims.nx problem.jacXEnd
      problem.terminalWeight))
    (objective : property (Objective.evaluateRoutine problem problem.plan))
    (gradient : property (Objective.gradientRoutine problem problem.plan))
    (pathBounds : ∀ path, problem.path = some path →
      property (Constraints.pathBoundsRoutine problem problem.plan path))
    (constraints : property (Constraints.evaluateRoutine problem problem.plan))
    (initializing : property (Horizon.initializeRoutine problem.plan problem.initialization))
    (simulate : property (Horizon.simulateRoutine problem problem.plan))
    (shiftStates : property (Horizon.shiftStatesRoutine problem problem.plan))
    (shiftControls : property (Horizon.shiftControlsRoutine problem problem.plan))
    (value : property (Horizon.objectiveRoutine problem problem.plan))
    (preparation : property Phases.preparationRoutine)
    (feedback : property (Phases.feedbackRoutine problem problem.plan))
    (optimality : property (Phases.optimalityRoutine problem problem.plan))
    (arrivalCost : problem.flags.useArrivalCost = true →
      property (Phases.arrivalCostRoutine problem.plan)) :
    ∀ routine ∈ problem.program.routines, property routine := by
  intro routine mem
  simp only [routines_program, List.mem_append, List.mem_cons, List.not_mem_nil, or_false,
    List.mem_ite_nil_right, Option.mem_toList,
    Option.map_eq_some_iff] at mem
  rcases mem with (((block | rfl | rfl) | ⟨path, known, rfl⟩ | rfl) | rfl) |
    (rfl | rfl | rfl | rfl | rfl | rfl | rfl) | ⟨used, rfl⟩
  · rcases mem_blockRoutines block with rfl | rfl | rfl | rfl <;> assumption
  all_goals first | assumption | exact pathBounds _ known | exact arrivalCost used

end Problem

/-! ## Unique names -/

namespace Program

variable {α : Type}

theorem areDistinct_eq_true_iff (names : List String) :
    areDistinct names = true ↔ names.Nodup := by
  induction names with
  | nil => simp [areDistinct]
  | cons name rest ih => simp [areDistinct, ih]

/-- A routine is found under its name if no other has the name. -/
theorem routine?_of_nodup {program : Program α}
    (unique : (program.routines.map Routine.name).Nodup)
    {routine : Routine α} (mem : routine ∈ program.routines) :
    program.routine? routine.name = some routine := by
  unfold routine?
  cases first : program.routines.find? fun other => other.name == routine.name with
  | none => simpa using List.find?_eq_none.1 first routine mem
  | some other =>
      have same : other.name = routine.name := by simpa using List.find?_some first
      rw [List.inj_on_of_nodup_map unique (List.mem_of_find?_eq_some first) mem same]

end Program

namespace Problem

variable {α : Type} [Scalar α] {problem : Problem α}

/-- The names of the block routines that a problem can have. -/
def blockNames : List String :=
  [Objective.stateNames.routine] ++ [Objective.controlNames.routine] ++ [Objective.crossName] ++
    [Objective.terminalNames.routine]

/-- The names of all routines that a problem can have, in emission order. -/
def routineNames : List String :=
  blockNames ++ [Objective.evaluateName, Objective.gradientName] ++
    ([Constraints.pathBoundsName] ++ [Constraints.evaluateName]) ++ [Horizon.initializeName] ++
    ([Horizon.simulateName, Horizon.shiftStatesName, Horizon.shiftControlsName,
        Horizon.objectiveName, Phases.preparationName, Phases.feedbackName,
        Phases.optimalityName] ++
      [Phases.arrivalCostName])

theorem nodup_routineNames : routineNames.Nodup := by decide

omit [Scalar α] in
theorem sublist_ite {condition : Bool} {routine : Routine α} :
    ((if condition then [] else [routine]).map Routine.name).Sublist [routine.name] := by
  cases condition
  · exact List.Sublist.refl _
  · exact List.nil_sublist _

theorem names_blockRoutines :
    ((Objective.blockRoutines problem problem.plan).map Routine.name).Sublist blockNames := by
  simp only [Objective.blockRoutines, List.map_append]
  exact ((sublist_ite.append sublist_ite).append sublist_ite).append sublist_ite

/-- The routines of a program keep the order of all routines. -/
theorem names_routines :
    (problem.program.routines.map Routine.name).Sublist routineNames := by
  have pathBounds : ((problem.path.map
      (Constraints.pathBoundsRoutine problem problem.plan)).toList.map Routine.name).Sublist
        [Constraints.pathBoundsName] := by
    cases problem.path
    · exact List.nil_sublist _
    · exact List.Sublist.refl _
  have arrivalCost : ((if problem.flags.useArrivalCost then
      [Phases.arrivalCostRoutine problem.plan] else []).map Routine.name).Sublist
        [Phases.arrivalCostName] := by
    split
    · exact List.Sublist.refl _
    · exact List.nil_sublist _
  simp only [routines_program, List.map_append]
  exact (((names_blockRoutines.append (List.Sublist.refl _)).append
    (pathBounds.append (List.Sublist.refl _))).append (List.Sublist.refl _)).append
      ((List.Sublist.refl _).append arrivalCost)

theorem hasUniqueNames_program : problem.program.hasUniqueNames = true := by
  rw [Program.hasUniqueNames, Bool.and_eq_true, Program.areDistinct_eq_true_iff,
    Program.areDistinct_eq_true_iff]
  exact ⟨problem.nodup_names_plan, nodup_routineNames.sublist names_routines⟩

end Problem

/-! ## Plain routines -/

namespace Statement

variable {α : Type}

@[simp]
theorem isPlain_set (target : Window) (value : Expr α) : (set target value).isPlain = true := rfl

@[simp]
theorem isPlain_increase (target : Window) (value : Expr α) :
    (increase target value).isPlain = true := rfl

@[simp]
theorem isPlain_decrease (target : Window) (value : Expr α) :
    (decrease target value).isPlain = true := rfl

@[simp]
theorem isPlain_run (name : String) (arguments : List Argument) :
    (run name arguments : Statement α).isPlain = true := rfl

@[simp]
theorem isPlain_invoke (function : External) (arguments : List Argument)
    (status : Option Window) : (invoke function arguments status : Statement α).isPlain = true :=
  rfl

end Statement

section Plain

open Statement

variable {α : Type} [Scalar α] {problem : Problem α}

omit [Scalar α] in
@[simp]
theorem Plan.plain_loadNodeInput (plan : Plan α) (dims : Dimensions) (buffer : Quantity)
    (node : AffineIndex) (withControl : Bool) :
    arePlain (plan.loadNodeInput dims buffer node withControl) = true := by
  rw [arePlain_eq_true_iff]
  intro statement mem
  simp only [loadNodeInput, List.mem_append, List.mem_singleton, List.mem_ite_nil_right] at mem
  rcases mem with (rfl | ⟨_, rfl⟩) | ⟨_, rfl⟩ <;> rfl

omit [Scalar α] in
@[simp]
theorem Plan.plain_copy (plan : Plan α) (target source : Quantity)
    (targetOffset sourceOffset : AffineIndex) (length : Nat) :
    (plan.copy target targetOffset source sourceOffset length).isPlain = true := rfl

omit [Scalar α] in
@[simp]
theorem Plan.plain_evaluate (plan : Plan α) (function : External) (input output : Quantity) :
    (plan.evaluate function input output).isPlain = true := rfl

theorem Objective.plain_blockRoutine (names : BlockNames) (damping : α) (rows cols : Nat)
    (jacobian weight : Option (Matrix α)) :
    arePlain (blockRoutine names damping rows cols jacobian weight).body = true := by
  rw [blockRoutine_eq]
  rfl

theorem Objective.plain_crossRoutine : arePlain (crossRoutine problem).body = true := by
  rw [crossRoutine_eq]
  rfl

theorem Objective.plain_evaluateRoutine (wellFormed : problem.WellFormed) :
    arePlain (evaluateRoutine problem problem.plan).body = true := by
  have stage : arePlain (stageCalls problem problem.plan (.var nodeName)) = true := by
    simp only [stageCalls, arePlain_append, Bool.and_eq_true]
    refine ⟨⟨?_, ?_⟩, ?_⟩ <;> split <;> rfl
  have terminal : arePlain (terminalCall problem problem.plan) = true := by
    unfold terminalCall
    split <;> rfl
  simp [evaluateRoutine, arePlain, isPlain, wellFormed.n_pos, stage, terminal]

theorem Objective.plain_initialization (wellFormed : problem.WellFormed) :
    arePlain (initialization problem problem.plan) = true := by
  unfold initialization
  rw [arePlain_append, Bool.and_eq_true]
  constructor
  · split
    · rfl
    · simp only [arePlain, isPlain, arePlain_append, wellFormed.n_pos, decide_true,
        Bool.true_and, Bool.and_true, Bool.and_eq_true]
      refine ⟨⟨?_, ?_⟩, ?_⟩ <;> split <;> rfl
  · split <;> rfl

theorem Constraints.plain_initialization :
    arePlain (initialization problem problem.plan) = true := by
  unfold initialization
  split
  · rfl
  · rw [arePlain_eq_true_iff]
    intro statement mem
    obtain ⟨_, _, rfl⟩ := List.mem_map.1 mem
    rfl

theorem Constraints.plain_pathPart (wellFormed : problem.WellFormed) (path : PathConstraint α) :
    arePlain (pathPart problem problem.plan path) = true := by
  have calls : arePlain ((List.range problem.dims.n).map
      (pathBoundsCall problem problem.plan path)) = true := by
    rw [arePlain_eq_true_iff]
    intro statement mem
    obtain ⟨_, _, rfl⟩ := List.mem_map.1 mem
    rfl
  have stage : arePlain (pathStage problem problem.plan path (.var nodeName)) = true := by
    simp only [pathStage, arePlain_append, Plan.plain_loadNodeInput, Bool.true_and,
      Bool.and_eq_true]
    refine ⟨⟨rfl, ?_⟩, ?_⟩ <;> split <;> rfl
  rw [pathPart, arePlain_append, Bool.and_eq_true]
  constructor
  · simp [arePlain, isPlain, wellFormed.n_pos, stage]
  · split
    · exact calls
    · rfl

theorem Constraints.plain_pointParts (entries : List (Nat × PointConstraint α)) (row : Nat) :
    arePlain (pointParts problem problem.plan row entries) = true := by
  induction entries generalizing row with
  | nil => rfl
  | cons entry rest ih =>
      obtain ⟨node, point⟩ := entry
      rw [pointParts, arePlain_append, ih, Bool.and_true]
      simp only [pointPart, arePlain_append, Plan.plain_loadNodeInput, Bool.and_eq_true]
      refine ⟨⟨⟨⟨rfl, trivial⟩, rfl⟩, ?_⟩, rfl⟩
      split <;> rfl

theorem Constraints.plain_evaluateRoutine (wellFormed : problem.WellFormed) :
    arePlain (evaluateRoutine problem problem.plan).body = true := by
  simp only [evaluateRoutine, arePlain_append, plain_pointParts, Bool.and_true, Bool.and_eq_true]
  refine ⟨⟨rfl, rfl⟩, ?_⟩
  cases problem.path with
  | none => rfl
  | some path => exact plain_pathPart wellFormed path

theorem Horizon.plain_shiftControlsRoutine :
    arePlain (shiftControlsRoutine problem problem.plan).body = true := by
  by_cases moves : 1 < problem.dims.n
  · simp [shiftControlsRoutine, moveBack, appendBlock, arePlain, isPlain, moves]
  · simp [shiftControlsRoutine, appendBlock, arePlain, moves]

theorem Horizon.plain_simulateRoutine (wellFormed : problem.WellFormed) :
    arePlain (simulateRoutine problem problem.plan).body = true := by
  simp [simulateRoutine, arePlain, isPlain, wellFormed.n_pos]

theorem Horizon.plain_objectiveRoutine (wellFormed : problem.WellFormed) :
    arePlain (objectiveRoutine problem problem.plan).body = true := by
  simp [objectiveRoutine, arePlain, isPlain, wellFormed.n_pos]

theorem Phases.plain_feedbackRoutine (wellFormed : problem.WellFormed) :
    arePlain (feedbackRoutine problem problem.plan).body = true := by
  have deviation : arePlain (initialDeviation problem problem.plan) = true := by
    unfold initialDeviation
    split <;> rfl
  have arrival : arePlain (arrivalCost problem problem.plan) = true := by
    unfold arrivalCost
    cases problem.plan.blocks.q1.given? <;> cases problem.plan.has .dxAC <;> rfl
  simp [feedbackRoutine, arePlain, isPlain, wellFormed.n_pos, deviation, arrival]

theorem Phases.plain_optimalityRoutine (wellFormed : problem.WellFormed) :
    arePlain (optimalityRoutine problem problem.plan).body = true := by
  have boxes_pos : 0 < problem.dims.nu + problem.dims.nx :=
    Nat.add_pos_left wellFormed.nu_pos _
  have boxes : 0 < problem.dims.n * (problem.dims.nu + problem.dims.nx) :=
    Nat.mul_pos wellFormed.n_pos boxes_pos
  have states : 0 < problem.dims.n * problem.dims.nx :=
    Nat.mul_pos wellFormed.n_pos wellFormed.nx_pos
  by_cases affine : 0 < problem.affineDim <;>
    cases fixed : problem.flags.initialStateFixed <;>
    simp [optimalityRoutine, arePlain, isPlain, boxes, states, affine, fixed]

end Plain

/-! ## Windows and references of all routines -/

namespace Problem

variable {α : Type} [Scalar α] {problem : Problem α}

theorem fits_initialization (wellFormed : problem.WellFormed) (routine : Routine α) :
    problem.program.fitsStatements routine [] problem.initialization = true := by
  rw [initialization, Program.fitsStatements_append, Objective.fits_initialization wellFormed,
    Constraints.fits_initialization, Bool.and_true]

/-- All windows of the program lie inside their arrays. -/
theorem fits_routines (wellFormed : problem.WellFormed) :
    ∀ routine ∈ problem.program.routines, problem.program.fitsRoutine routine = true := by
  apply forall_routines
  · exact Objective.fits_blockRoutine wellFormed.shape_jacX wellFormed.shape_weight
  · exact Objective.fits_blockRoutine wellFormed.shape_jacU wellFormed.shape_weight
  · exact Objective.fits_crossRoutine wellFormed
  · exact Objective.fits_blockRoutine wellFormed.shape_jacXEnd wellFormed.shape_terminalWeight
  · exact Objective.fits_evaluateRoutine wellFormed
  · exact Objective.fits_gradientRoutine wellFormed
  · exact fun path known => Constraints.fits_pathBoundsRoutine wellFormed known
  · exact Constraints.fits_evaluateRoutine wellFormed
  · exact Horizon.fits_initializeRoutine (fits_initialization wellFormed)
  · exact Horizon.fits_simulateRoutine wellFormed
  · exact Horizon.fits_shiftStatesRoutine
  · exact Horizon.fits_shiftControlsRoutine wellFormed
  · exact Horizon.fits_objectiveRoutine wellFormed
  · exact Phases.fits_preparationRoutine
  · exact Phases.fits_feedbackRoutine wellFormed
  · exact Phases.fits_optimalityRoutine
  · exact Phases.fits_arrivalCostRoutine wellFormed

theorem declaresReferences_of_plain {routine : Routine α}
    (plain : Statement.arePlain routine.body = true)
    (fitting : problem.program.fitsRoutine routine = true) :
    problem.program.declaresReferences routine = true := by
  rw [Program.declaresReferences, Statement.clearedOf_of_arePlain _ plain, List.all_nil,
    Bool.true_and, List.all_eq_true]
  exact Program.declared_of_fitsStatements _ plain fitting

omit [Scalar α] in
/-- Clearing names the cleared arrays and has no window. -/
theorem clearedOf_clears (ids : List (Nat × ArrayDecl α)) :
    Statement.clearedOf (ids.map fun (id, _) => (.clear id : Statement α)) = ids.map Prod.fst ∧
      Statement.windowsOf (ids.map fun (id, _) => (.clear id : Statement α)) = [] := by
  induction ids with
  | nil => exact ⟨rfl, rfl⟩
  | cons entry rest ih =>
      simp only [List.map_cons, Statement.clearedOf, Statement.windowsOf, ih]
      exact ⟨rfl, rfl⟩

omit [Scalar α] in
theorem contains_of_mem_ofClass {table : ArrayTable α} {storage : StorageClass}
    {entry : Nat × ArrayDecl α} (mem : entry ∈ table.ofClass storage) :
    table.contains entry.1 = true := by
  obtain ⟨found, _⟩ := ArrayTable.mem_ofClass.1 mem
  exact decide_eq_true (List.getElem?_eq_some_iff.1 found).1

/-- The initialization clears arrays of the table before it fills them. -/
theorem declaresReferences_initializeRoutine (wellFormed : problem.WellFormed) :
    problem.program.declaresReferences
      (Horizon.initializeRoutine problem.plan problem.initialization) = true := by
  let filling := problem.initialization ++
    [.set (.dense (.own 0) (.const 0) 1 1) Horizon.zero]
  let routine := Horizon.initializeRoutine problem.plan problem.initialization
  have plain : Statement.arePlain filling = true := by
    simp [filling, initialization, Objective.plain_initialization wellFormed,
      Constraints.plain_initialization, Statement.arePlain]
  have fitting : problem.program.fitsStatements routine [] filling = true := by
    simp [filling, fits_initialization wellFormed, routine, Horizon.initializeRoutine,
      Program.fitsStatements, Program.fitsStatement, Statement.set, Program.fits_own,
      ArrayDecl.own, ArrayDecl.size, Horizon.zero, Expr.shape?, Expr.windows]
  obtain ⟨clearedIds, noWindows⟩ := clearedOf_clears (problem.plan.table.ofClass .workspace)
  simp only [Program.declaresReferences, Horizon.initializeRoutine, List.append_assoc,
    Statement.clearedOf_append, Statement.windowsOf_append, clearedIds, noWindows, List.nil_append,
    Bool.and_eq_true, List.all_eq_true]
  constructor
  · have rest := Statement.clearedOf_of_arePlain filling plain
    simp only [filling, Statement.clearedOf_append] at rest
    rw [rest, List.append_nil]
    intro id mem
    obtain ⟨entry, listed, rfl⟩ := List.mem_map.1 mem
    exact contains_of_mem_ofClass listed
  · have declared := Program.declared_of_fitsStatements filling plain fitting
    simp only [filling, Statement.windowsOf_append] at declared
    exact declared

/-- All references of the program are declared. -/
theorem declaresReferences_routines (wellFormed : problem.WellFormed) :
    ∀ routine ∈ problem.program.routines,
      problem.program.declaresReferences routine = true := by
  have references : ∀ routine ∈ problem.program.routines,
      problem.program.fitsRoutine routine = true →
        problem.program.declaresReferences routine = true := by
    apply forall_routines
    · exact declaresReferences_of_plain (Objective.plain_blockRoutine _ _ _ _ _ _)
    · exact declaresReferences_of_plain (Objective.plain_blockRoutine _ _ _ _ _ _)
    · exact declaresReferences_of_plain Objective.plain_crossRoutine
    · exact declaresReferences_of_plain (Objective.plain_blockRoutine _ _ _ _ _ _)
    · exact declaresReferences_of_plain (Objective.plain_evaluateRoutine wellFormed)
    · exact declaresReferences_of_plain rfl
    · exact fun _ _ => declaresReferences_of_plain rfl
    · exact declaresReferences_of_plain (Constraints.plain_evaluateRoutine wellFormed)
    · exact fun _ => declaresReferences_initializeRoutine wellFormed
    · exact declaresReferences_of_plain (Horizon.plain_simulateRoutine wellFormed)
    · refine declaresReferences_of_plain ?_
      simp [Horizon.shiftStatesRoutine, Horizon.moveBack, Horizon.appendBlock,
        Statement.arePlain, Statement.isPlain, wellFormed.n_pos]
    · exact declaresReferences_of_plain Horizon.plain_shiftControlsRoutine
    · exact declaresReferences_of_plain (Horizon.plain_objectiveRoutine wellFormed)
    · exact declaresReferences_of_plain rfl
    · exact declaresReferences_of_plain (Phases.plain_feedbackRoutine wellFormed)
    · exact declaresReferences_of_plain (Phases.plain_optimalityRoutine wellFormed)
    · exact fun _ => declaresReferences_of_plain rfl
  exact fun routine mem => references routine mem (fits_routines wellFormed routine mem)

end Problem

end RtiAssembly
