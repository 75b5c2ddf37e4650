import RtiAssembly.Proofs.Program.Faultless

/-!
# What a certificate promises

The certificate checks every routine against the bounds and sizes that it
declares; it does not compare the indices that a call passes with the bounds of
the callee, nor the extent of a passed window with the elements that the callee
relies on.  A certified program whose calls do pass what is relied on never
faults; without that condition a certified program can.
-/

namespace RtiAssembly

namespace Statement

variable {α : Type} {program : Program α} {enters : Routine α → Prop}

mutual

theorem isSafe_of_enters {extremes : Program.Extremes} : (statement : Statement α) →
    statement.IsSafe program (fun _ => True) extremes →
    (∀ call ∈ statement.calls, ∀ callee, call.1 = .routine callee.name →
      program.routine? callee.name = some callee → enters callee) →
    statement.IsSafe program enters extremes
  | .assign _ _ _, _, _ => trivial
  | .clear _, _, _ => trivial
  | .loop _ _ _ body, safe, enter => fun running => areSafe_of_enters body (safe running) enter
  | .call (.routine name) arguments status, safe, enter => by
      obtain ⟨callee, known, _, passes⟩ := safe
      have name_eq : callee.name = name := by
        simpa using List.find?_some known
      subst name_eq
      exact ⟨callee, known, enter _ (List.mem_singleton_self _) callee rfl known, passes⟩
  | .call (.external _) _ _, _, _ => trivial
  | .comment _, _, _ => trivial

/-- Statements whose calls pass what is relied on are safe if every routine that
they call may be entered. -/
theorem areSafe_of_enters {extremes : Program.Extremes} : (statements : List (Statement α)) →
    AreSafe program (fun _ => True) extremes statements →
    (∀ call ∈ callsOf statements, ∀ callee, call.1 = .routine callee.name →
      program.routine? callee.name = some callee → enters callee) →
    AreSafe program enters extremes statements
  | [], _, _ => trivial
  | statement :: rest, safe, enter =>
      ⟨isSafe_of_enters statement safe.1 fun call mem => enter call (List.mem_append_left _ mem),
        areSafe_of_enters rest safe.2 fun call mem => enter call (List.mem_append_right _ mem)⟩

end

end Statement

namespace Program

variable {α σ : Type} {program : Program α}

/-- Whether every result is a scalar of the routine's own. -/
def ReturnsScalars (program : Program α) : Prop :=
  ∀ routine ∈ program.routines, ∀ position ∈ routine.result,
    ∃ decl, routine.locals[position]? = some decl ∧ decl.rows = 1 ∧ decl.cols = 1

/-- Whether every call of a routine passes indices below the bounds of the callee
and windows that stretch over as many elements as the callee relies on. -/
def PassesWithinBounds (program : Program α) : Prop :=
  ∀ routine ∈ program.routines,
    Statement.AreSafe program (fun _ => True) (parameterExtremes routine) routine.body

/-- What a complete certificate says about the routines. -/
theorem checks_of_complete {uses : Bool} (complete : (program.certify uses).isComplete = true) :
    (program.routines.map Routine.name).Nodup ∧
      (∀ routine ∈ program.routines, program.fitsRoutine routine = true) ∧
      resolveAll program.externals [] program.routines = true := by
  simp only [Certificate.isComplete, Certificate.obligations, List.all_cons, List.all_nil,
    Bool.and_true, Bool.and_eq_true] at complete
  obtain ⟨unique, _, inBounds, resolved, _⟩ := complete
  simp only [certify, hasUniqueNames, Bool.and_eq_true, areDistinct_eq_true_iff] at unique
  exact ⟨unique.2, fitsRoutine_of_inBounds inBounds, resolved⟩

/-- Routines behind safe ones are safe, each one call deeper. -/
theorem safe_of_resolveAll (unique : (program.routines.map Routine.name).Nodup)
    (fitting : ∀ routine ∈ program.routines, program.fitsRoutine routine = true)
    (returns : program.ReturnsScalars) (passes : program.PassesWithinBounds)
    {earlier rest : List (Routine α)} (split : program.routines = earlier ++ rest)
    (resolved : resolveAll program.externals earlier rest = true)
    (safe : ∀ routine ∈ earlier, program.Safe earlier.length routine) :
    ∀ routine ∈ program.routines, program.Safe program.routines.length routine := by
  induction rest generalizing earlier with
  | nil =>
      rw [List.append_nil] at split
      rw [split]
      exact safe
  | cons routine rest ih =>
      rw [resolveAll_cons, Bool.and_eq_true, resolvesCalls, List.all_eq_true] at resolved
      have mem : routine ∈ program.routines := by
        rw [split]
        exact List.mem_append_right _ List.mem_cons_self
      have calls : Statement.AreSafe program (program.Safe earlier.length)
          (parameterExtremes routine) routine.body := by
        refine Statement.areSafe_of_enters routine.body (passes routine mem) ?_
        rintro ⟨_, arguments, status⟩ called callee rfl known
        have resolves_call := resolved.1 _ called
        simp only [resolves] at resolves_call
        split at resolves_call
        · rename_i target found
          have target_mem := List.mem_of_find?_eq_some found
          have target_name : target.name = callee.name := by simpa using List.find?_some found
          have target_known := routine?_of_nodup unique
            (split ▸ List.mem_append_left (routine :: rest) target_mem)
          rw [target_name, known, Option.some.injEq] at target_known
          rw [target_known]
          exact safe target target_mem
        · contradiction
      have routine_safe : program.Safe (earlier.length + 1) routine := by
        refine ⟨fitting routine mem, fun position result => ?_, calls⟩
        obtain ⟨decl, found, rows, cols⟩ := returns routine mem position result
        exact ⟨decl, found, by simp [ArrayDecl.size, rows, cols]⟩
      apply @ih (earlier ++ [routine])
      · rw [split, List.append_assoc]
        rfl
      · exact resolved.2
      · intro other other_mem
        rw [List.length_append, List.length_singleton]
        rcases List.mem_append.1 other_mem with before | here
        · exact (safe other before).succ
        · rw [List.mem_singleton.1 here]
          exact routine_safe

end Program

/-- A certified program never faults if its calls pass what the called routines
rely on.  Its results are scalars of the routines' own; every routine then
returns, whatever the memory holds, whatever it is passed by arguments that its
parameters take, and whatever the host replies. -/
theorem run_of_certified_returns {α σ : Type} [Scalar α] {program : Program α} {uses : Bool}
    (complete : (program.certify uses).isComplete = true) (scalars : program.ReturnsScalars)
    (passes : program.PassesWithinBounds) (host : Host α σ program.table.sizes) (state : σ)
    (memory : program.Contents) {routine : Routine α} (mem : routine ∈ program.routines)
    {arguments : List (Passed α)}
    (takes : List.Forall₂ Parameter.Takes routine.parameters arguments) :
    ∃ value, (program.run host state memory routine.name arguments).result = .ok value := by
  obtain ⟨unique, fitting, resolved⟩ := Program.checks_of_complete complete
  have safe := Program.safe_of_resolveAll unique fitting scalars passes
    (List.nil_append program.routines).symm resolved (List.forall_mem_nil _) routine mem
  have depth_le : program.routines.length ≤ program.callDepth := Nat.le_add_left _ _
  obtain ⟨bindings, arrays, _, _, run_eq⟩ :=
    Program.run_of_takes (Program.routine?_of_nodup unique mem) safe depth_le takes host state
      memory
  exact ⟨_, congrArg Program.Outcome.result run_eq⟩

/-! ## An index beyond its bound -/

/-- A routine that sets an element of an array, and one that calls it with a
fixed index. -/
def Program.passing (index : Nat) : Program ℚ where
  moduleName := "ocp"
  dims := ⟨1, 1, 1, 1, 1, 0⟩
  table := ⟨[.real .workspace "g" 1 1 ""]⟩
  externals := []
  routines :=
    [{ name := "inner"
       doc := none
       parameters := [⟨"i", .index 1⟩]
       locals := []
       result := none
       body := [.set (.dense (.global 0) (.var "i") 1 1) (.known (.scalar 1))] },
      { name := "outer"
        doc := none
        parameters := []
        locals := []
        result := none
        body := [.run "inner" [.index (.const index)]] }]
  numQpVars := 0
  rowCounts := []

theorem Program.returnsScalars_passing (index : Nat) : (passing index).ReturnsScalars := by
  intro routine mem position result
  simp only [passing, List.mem_cons, List.not_mem_nil, or_false] at mem
  rcases mem with rfl | rfl <;> contradiction

/-- An index below the bound can be passed. -/
theorem run_passing_zero :
    let program := Program.passing 0
    (program.certify false).isComplete = true ∧ program.ReturnsScalars ∧
      program.PassesWithinBounds ∧
      ∃ value, (program.run Host.idle () program.initialMemory "outer" []).result =
        .ok value := by
  intro program
  have complete : (program.certify false).isComplete = true := by decide
  have scalars := Program.returnsScalars_passing 0
  have passes : program.PassesWithinBounds := by
    intro routine mem
    simp only [program, Program.passing, List.mem_cons, List.not_mem_nil, or_false] at mem
    rcases mem with rfl | rfl
    · exact ⟨trivial, trivial⟩
    · exact ⟨⟨_, rfl, trivial, .cons ⟨0, rfl, Nat.one_pos⟩ .nil⟩, trivial⟩
  have outer : program.routines[1] ∈ program.routines := List.getElem_mem _
  exact ⟨complete, scalars, passes,
    run_of_certified_returns complete scalars passes Host.idle () program.initialMemory outer
      .nil⟩

/-- The certificate does not look at the index: a program that passes one beyond
the bound is certified as well, and its run leaves the array. -/
theorem run_passing_five :
    let program := Program.passing 5
    (program.certify false).isComplete = true ∧ program.ReturnsScalars ∧
      (program.run Host.idle () program.initialMemory "outer" []).result =
        .error (.outOfBounds "inner" 5 1) :=
  ⟨by decide, Program.returnsScalars_passing 5, rfl⟩

end RtiAssembly
