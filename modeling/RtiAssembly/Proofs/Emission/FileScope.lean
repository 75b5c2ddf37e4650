import RtiAssembly.Emission.Files
import RtiAssembly.Proofs.Program.Calls

/-!
# Names at file scope

The generated files declare types, memory, constants and functions at file
scope.  What the module names itself carries the name of the module in front
and never clashes.  Constraint functions are called what the description calls
them, so that they clash exactly if a description takes a name of the module.
-/

namespace RtiAssembly

/-! ## The names -/

/-- Whether the description names an external function. -/
def External.isConstraint : External → Bool
  | .constraint _ => true
  | _ => false

namespace Emission

variable {α : Type} (program : Program α)

/-- The names of the two memory structures and of their instances. -/
def memoryNames : List String :=
  [structureName program .variable, structureName program .workspace,
    instanceName program .variable, instanceName program .workspace]

/-- All names that the generated files declare at file scope: memory, constants,
external functions and the functions of the module. -/
def fileScopeNames : List String :=
  memoryNames program ++ (definedConstants program).map (constantName program) ++
    program.externals.map (External.symbol program.moduleName) ++
    program.routines.map (functionName program)

/-- The names among them that the module chooses itself. -/
def ownNames : List String :=
  memoryNames program ++ (definedConstants program).map (constantName program) ++
    (program.externals.filter fun function => !function.isConstraint).map
      (External.symbol program.moduleName) ++
    program.routines.map (functionName program)

end Emission

/-! ## External functions -/

namespace External

/-- What follows the name of the module in the symbol of an external function. -/
def word : External → String
  | .modelSimulation => "modelSimulation"
  | .integrate => "integrate"
  | .stageCost => "evaluateStageCost"
  | .terminalCost => "evaluateTerminalCost"
  | .constraint name => name
  | .qpSolve => "solve"
  | .arrivalCostBackend => "updateArrivalCostBackend"

/-- The words of the external functions that the module names. -/
def words : List String :=
  ["modelSimulation", "integrate", "evaluateStageCost", "evaluateTerminalCost", "solve",
    "updateArrivalCostBackend"]

theorem word_mem {function : External} (own : function.isConstraint = false) :
    function.word ∈ words := by
  cases function with
  | constraint name => cases own
  | _ => decide

/-- A function that the module names has its word behind the name of the module. -/
theorem symbol_eq {function : External} (own : function.isConstraint = false)
    (moduleName : String) : function.symbol moduleName = moduleName ++ "_" ++ function.word := by
  rw [String.append_assoc]
  cases function with
  | constraint name => cases own
  | _ => rfl

theorem words_subset (functions : List External) :
    (functions.filter fun function => !function.isConstraint).map word ⊆ words := by
  intro word mem
  obtain ⟨function, own, rfl⟩ := List.mem_map.1 mem
  exact word_mem (by simpa using (List.mem_filter.1 own).2)

theorem word_inj {first second : External} (own : first.isConstraint = second.isConstraint)
    (same : first.word = second.word) : first = second := by
  cases first <;> cases second <;> simp_all [isConstraint, word]

end External

/-- External functions are collected once each. -/
theorem Program.nodup_externalsOf {α : Type} (routines : List (Routine α)) :
    (externalsOf routines).Nodup := by
  have kept (functions found : List External) (distinct : found.Nodup) :
      (functions.foldl (fun found function =>
        if found.contains function then found else found ++ [function]) found).Nodup := by
    induction functions generalizing found with
    | nil => exact distinct
    | cons function rest ih =>
        rw [List.foldl_cons]
        apply ih
        split
        · exact distinct
        · rename_i new
          rw [List.contains_iff_mem] at new
          rw [← List.concat_eq_append]
          exact distinct.concat new
  exact kept _ [] List.nodup_nil

/-! ## Distinct names -/

/-- Lists drawn from two lists without a common name have none either. -/
theorem nodup_append_of_subset {first second firstAll secondAll : List String}
    (distinct : (firstAll ++ secondAll).Nodup) (firstDistinct : first.Nodup)
    (secondDistinct : second.Nodup) (firstSubset : first ⊆ firstAll)
    (secondSubset : second ⊆ secondAll) : (first ++ second).Nodup := by
  rw [List.nodup_append]
  refine ⟨firstDistinct, secondDistinct, ?_⟩
  intro name mem other otherMem
  exact (List.nodup_append.1 distinct).2.2 name (firstSubset mem) other (secondSubset otherMem)

namespace Emission

variable {α : Type} {program : Program α}

/-- Defined constants stand in the order of their declaration. -/
theorem definedConstants_sublist (program : Program α) :
    (definedConstants program).Sublist program.table.arrays := by
  have listed : (program.table.arrays.zipIdx.map Prod.swap).map Prod.snd =
      program.table.arrays := by
    rw [List.map_map]
    exact List.zipIdx_map_fst ..
  rw [← listed]
  exact (List.filter_sublist.trans List.filter_sublist).map Prod.snd

/-- What follows the name of the module and an underscore in the names that are
neither types nor instances. -/
def ownWords (program : Program α) : List String :=
  (definedConstants program).map ArrayDecl.name ++
    (program.externals.filter fun function => !function.isConstraint).map External.word ++
    program.routines.map Routine.name

/-- The names of the module are made from words. -/
theorem ownNames_eq (program : Program α) :
    ownNames program =
      memoryNames program ++
        (ownWords program).map fun word => program.moduleName ++ "_" ++ word := by
  have externals : (program.externals.filter fun function => !function.isConstraint).map
        (External.symbol program.moduleName) =
      ((program.externals.filter fun function => !function.isConstraint).map External.word).map
        fun word => program.moduleName ++ "_" ++ word := by
    rw [List.map_map]
    apply List.map_congr_left
    intro function mem
    exact External.symbol_eq (by simpa using (List.mem_filter.1 mem).2) _
  simp only [ownNames, ownWords, externals, List.map_append, List.map_map, List.append_assoc]
  rfl

/-- What follows the name of the module in the names of the memory structures
and their instances. -/
def memoryWords : List String :=
  ["Variables", "Workspace", "Vars", "Work"]

theorem memoryNames_eq (program : Program α) :
    memoryNames program = memoryWords.map (program.moduleName ++ ·) :=
  rfl

/-- No word behind an underscore is the name of a memory structure. -/
theorem ne_of_mem_memoryWords {memory : String} (mem : memory ∈ memoryWords) (word : String) :
    memory ≠ "_" ++ word := by
  intro same
  have first : memory.toList.head? = some '_' := by
    rw [same, String.toList_append]
    rfl
  simp only [memoryWords, List.mem_cons, List.not_mem_nil, or_false] at mem
  rcases mem with rfl | rfl | rfl | rfl <;> revert first <;> decide

/-- The names of the module are as distinct as their words. -/
theorem nodup_ownNames (distinct : (ownWords program).Nodup) : (ownNames program).Nodup := by
  rw [ownNames_eq, memoryNames_eq, List.nodup_append]
  refine ⟨?_, ?_, ?_⟩
  · apply List.Nodup.map
    · intro first second same
      exact (String.append_right_inj _).1 same
    · decide
  · apply List.Nodup.map
    · intro first second same
      exact (String.append_right_inj _).1 same
    · exact distinct
  · intro name memory other own same
    obtain ⟨first, mem, rfl⟩ := List.mem_map.1 memory
    obtain ⟨second, _, rfl⟩ := List.mem_map.1 own
    rw [String.append_assoc, String.append_right_inj] at same
    exact ne_of_mem_memoryWords mem second same

/-- The names of the module begin with its name. -/
theorem prefix_of_mem_ownNames {name : String} (own : name ∈ ownNames program) :
    program.moduleName.toList <+: name.toList := by
  rw [ownNames_eq, memoryNames_eq, List.mem_append, List.mem_map, List.mem_map] at own
  rcases own with ⟨word, _, rfl⟩ | ⟨word, _, rfl⟩
  · rw [String.toList_append]
    exact List.prefix_append _ _
  · rw [String.append_assoc, String.toList_append]
    exact List.prefix_append _ _

/-- The names of constraint functions. -/
def constraintNames (program : Program α) : List String :=
  (program.externals.filter External.isConstraint).map (External.symbol program.moduleName)

theorem mem_constraintNames {name : String} :
    name ∈ constraintNames program ↔ External.constraint name ∈ program.externals := by
  rw [constraintNames, List.mem_map]
  constructor
  · rintro ⟨function, mem, rfl⟩
    obtain ⟨mem, named⟩ := List.mem_filter.1 mem
    cases function with
    | constraint name => exact mem
    | _ => cases named
  · intro mem
    exact ⟨.constraint name, List.mem_filter.2 ⟨mem, rfl⟩, rfl⟩

theorem nodup_constraintNames (distinct : program.externals.Nodup) :
    (constraintNames program).Nodup := by
  apply (distinct.filter _).map_on
  intro first firstMem second secondMem same
  have firstNamed := (List.mem_filter.1 firstMem).2
  have secondNamed := (List.mem_filter.1 secondMem).2
  cases first with
  | constraint name =>
      cases second with
      | constraint other => exact congrArg External.constraint same
      | _ => cases secondNamed
  | _ => cases firstNamed

/-- All names together are those of the module and those of constraint
functions. -/
theorem fileScopeNames_perm (program : Program α) :
    (fileScopeNames program).Perm (ownNames program ++ constraintNames program) := by
  have split := ((List.filter_append_perm External.isConstraint program.externals).map
    (External.symbol program.moduleName)).symm
  rw [List.map_append] at split
  simp only [fileScopeNames, ownNames, List.append_assoc]
  apply List.Perm.append_left
  apply List.Perm.append_left
  apply (split.append_right _).trans
  rw [List.append_assoc, ← List.append_assoc _ _ (constraintNames program)]
  exact List.perm_append_comm

end Emission

/-- The names at file scope are distinct exactly if no constraint function has a
name of the module. -/
theorem Emission.nodup_fileScopeNames_iff {α : Type} {program : Program α}
    (externals : program.externals.Nodup) (words : (Emission.ownWords program).Nodup) :
    (Emission.fileScopeNames program).Nodup ↔
      ∀ name, External.constraint name ∈ program.externals →
        name ∉ Emission.ownNames program := by
  rw [(fileScopeNames_perm program).nodup_iff, List.nodup_append]
  constructor
  · rintro ⟨_, _, apart⟩ name declared own
    exact apart name own name (mem_constraintNames.2 declared) rfl
  · intro apart
    refine ⟨nodup_ownNames words, nodup_constraintNames externals, ?_⟩
    rintro name own other declared rfl
    exact apart name (mem_constraintNames.1 declared) own

/-! ## Programs of problems -/

namespace Problem

open Emission

variable {α : Type} [Scalar α] {problem : Problem α}

/-- Quantities, external functions and routines have distinct words. -/
theorem nodup_words :
    (Quantity.all.map Quantity.name ++ External.words ++ routineNames).Nodup := by
  decide

/-- The names of constants are names of quantities. -/
theorem names_definedConstants :
    ((definedConstants problem.program).map ArrayDecl.name).Sublist
      (Quantity.all.map Quantity.name) := by
  apply ((definedConstants_sublist problem.program).map ArrayDecl.name).trans
  change (problem.plan.table.arrays.map ArrayDecl.name).Sublist _
  rw [problem.names_plan]
  exact List.filter_sublist.map _

theorem nodup_externalWords :
    ((problem.program.externals.filter fun function => !function.isConstraint).map
      External.word).Nodup := by
  apply ((Program.nodup_externalsOf _).filter _).map_on
  intro first firstMem second secondMem same
  have firstOwn := (List.mem_filter.1 firstMem).2
  have secondOwn := (List.mem_filter.1 secondMem).2
  rw [Bool.not_eq_true'] at firstOwn secondOwn
  exact External.word_inj (firstOwn.trans secondOwn.symm) same

/-- The words of a program are distinct. -/
theorem nodup_ownWords : (ownWords problem.program).Nodup := by
  have constants := problem.names_definedConstants
  apply nodup_append_of_subset nodup_words
  · apply nodup_append_of_subset (List.nodup_append.1 nodup_words).1
    · exact Quantity.nodup_map_name_all.sublist constants
    · exact nodup_externalWords
    · exact constants.subset
    · exact External.words_subset _
  · exact nodup_routineNames.sublist names_routines
  · apply List.append_subset.2
    constructor
    · exact List.subset_append_of_subset_left _ constants.subset
    · exact List.subset_append_of_subset_right _ (External.words_subset _)
  · exact names_routines.subset

/-- The names at file scope are distinct exactly if no constraint function has a
name of the module. -/
theorem nodup_fileScopeNames :
    (fileScopeNames problem.program).Nodup ↔
      ∀ name, External.constraint name ∈ problem.program.externals →
        name ∉ ownNames problem.program :=
  nodup_fileScopeNames_iff (Program.nodup_externalsOf _) nodup_ownWords

/-- Constraint functions whose names do not begin with that of the module clash
with nothing. -/
theorem nodup_fileScopeNames_of_unprefixed
    (apart : ∀ name, External.constraint name ∈ problem.program.externals →
      ¬problem.moduleName.toList <+: name.toList) :
    (fileScopeNames problem.program).Nodup := by
  apply nodup_fileScopeNames.2
  intro name declared own
  exact apart name declared (prefix_of_mem_ownNames own)

/-- The function of a path constraint is an external function of the program. -/
theorem mem_externals_of_path {path : PathConstraint α} (known : problem.path = some path) :
    External.constraint path.name ∈ problem.program.externals := by
  have mem : Constraints.evaluateRoutine problem problem.plan ∈ problem.program.routines := by
    simp [routines_program]
  apply Program.mem_externalsOf mem
  simp [Routine.callees, Constraints.evaluateRoutine, known, Constraints.pathPart,
    Statement.callsOf_append, Statement.callsOf, Statement.calls, Constraints.callsOf_pathStage]

end Problem

/-! ## Accepted descriptions -/

/-- The code of an accepted description declares every name at file scope once,
exactly if no constraint function has a name that the module chooses itself. -/
theorem fileScope_of_accepted {α : Type} [Scalar α] {description : Description α}
    {problem : Problem α} {plan : Plan α}
    (accepted : description.validate.value = some problem)
    (planned : Plan.ofProblem problem = .ok plan) :
    let program := Program.ofPlan problem plan
    (Emission.fileScopeNames program).Nodup ↔
      ∀ name, External.constraint name ∈ program.externals →
        name ∉ Emission.ownNames program := by
  have wellFormed := Description.wellFormed_of_validate accepted
  obtain rfl : problem.plan = plan :=
    Except.ok.inj (wellFormed.ofProblem_eq_ok.symm.trans planned)
  exact problem.nodup_fileScopeNames

/-- A small problem with functions called otherwise than the module. -/
theorem fileScope_twoIntervals :
    (Emission.fileScopeNames Problem.twoIntervals.program).Nodup := by
  apply (fileScope_of_accepted Description.validate_twoIntervals
    Problem.wellFormed_twoIntervals.ofProblem_eq_ok).2
  intro name declared own
  have listed : Problem.twoIntervals.program.externals.filter External.isConstraint =
      [.constraint "path", .constraint "inner", .constraint "terminal"] := by
    decide
  have named : External.constraint name ∈
      Problem.twoIntervals.program.externals.filter External.isConstraint :=
    List.mem_filter.2 ⟨declared, rfl⟩
  have begins : "ocp".toList <+: name.toList := Emission.prefix_of_mem_ownNames own
  rw [listed] at named
  simp only [List.mem_cons, External.constraint.injEq, List.not_mem_nil, or_false] at named
  rcases named with rfl | rfl | rfl <;> revert begins <;> decide

/-- The small description with a path constraint that is called like a phase of
the module. -/
def Description.clashing : Description ℚ :=
  { Description.twoIntervals with
    pathConstraint := some ⟨"ocp_preparation", 1, [0], [1], none, none⟩ }

/-- The problem of the clashing description. -/
def Problem.clashing : Problem ℚ :=
  (Validation.checkContent Description.clashing).value

theorem Description.validate_clashing :
    Description.clashing.validate.value = some Problem.clashing := rfl

/-- The clashing description is accepted, and its program is planned and meets
all obligations, but its code declares a name twice. -/
theorem fileScope_clashing :
    Description.clashing.validate.value = some Problem.clashing ∧
      Plan.ofProblem Problem.clashing = .ok Problem.clashing.plan ∧
      ¬(Emission.fileScopeNames (Program.ofPlan Problem.clashing Problem.clashing.plan)).Nodup := by
  have wellFormed := Description.wellFormed_of_validate Description.validate_clashing
  refine ⟨Description.validate_clashing, wellFormed.ofProblem_eq_ok, ?_⟩
  intro distinct
  have declared : External.constraint "ocp_preparation" ∈ Problem.clashing.program.externals := by
    obtain ⟨path, known, named⟩ : ∃ path, Problem.clashing.path = some path ∧
        path.name = "ocp_preparation" := ⟨_, rfl, rfl⟩
    rw [← named]
    exact Problem.mem_externals_of_path known
  apply Problem.nodup_fileScopeNames.1 distinct _ declared
  have routine : Phases.preparationRoutine ∈ Problem.clashing.program.routines := by
    simp [Problem.routines_program]
  exact List.mem_append_right _ (List.mem_map.2 ⟨_, routine, rfl⟩)

end RtiAssembly
