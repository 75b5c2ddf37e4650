import RtiAssembly.Proofs.Machine.Safety
import RtiAssembly.Proofs.Program.Calls

/-!
# Assembled programs are safe

Resolved calls pass arrays of the right size and indices below their bounds, so
the routines of both phases and of the initialization never fault.
-/

namespace RtiAssembly

namespace Statement

variable {α : Type} {program : Program α} {enters : Routine α → Prop}

mutual

theorem isSafe_of_passes {extremes : Program.Extremes} : (statement : Statement α) →
    (∀ call ∈ statement.calls, ∀ name, call.1 = .routine name →
      ∃ callee, program.routine? name = some callee ∧ enters callee ∧
        ∀ extremes, List.Forall₂ (Frame.Passes extremes) callee.parameters call.2.1) →
    statement.IsSafe program enters extremes
  | .assign _ _ _, _ => trivial
  | .clear _, _ => trivial
  | .loop _ _ _ body, passing => fun _ => areSafe_of_passes body passing
  | .call (.routine name) arguments status, passing => by
      obtain ⟨callee, known, enter, passes⟩ := passing _ (List.mem_singleton_self _) name rfl
      exact ⟨callee, known, enter, passes extremes⟩
  | .call (.external _) _ _, _ => trivial
  | .comment _, _ => trivial

/-- Statements are safe if all of their calls pass what is relied on, whatever
is in scope. -/
theorem areSafe_of_passes {extremes : Program.Extremes} : (statements : List (Statement α)) →
    (∀ call ∈ callsOf statements, ∀ name, call.1 = .routine name →
      ∃ callee, program.routine? name = some callee ∧ enters callee ∧
        ∀ extremes, List.Forall₂ (Frame.Passes extremes) callee.parameters call.2.1) →
    AreSafe program enters extremes statements
  | [], _ => trivial
  | statement :: rest, passing =>
      ⟨isSafe_of_passes statement fun call mem => passing call (List.mem_append_left _ mem),
        areSafe_of_passes rest fun call mem => passing call (List.mem_append_right _ mem)⟩

end

end Statement

namespace Program

variable {α : Type}

/-- A whole array, passed by reference. -/
def PassesWhole (argument : Argument) : Prop :=
  ∃ window, argument = .reference window ∧ window.extent = window.size ∧ 0 < window.size

/-- Whole arrays of the right sizes pass what a resolved call relies on. -/
theorem passes_of_matches {parameters : List Parameter} {arguments : List Argument}
    (matching : matchAll matchesParameter parameters arguments = true)
    (whole : ∀ argument ∈ arguments, PassesWhole argument) (extremes : Extremes) :
    List.Forall₂ (Frame.Passes extremes) parameters arguments := by
  induction parameters generalizing arguments with
  | nil =>
      cases arguments with
      | nil => exact .nil
      | cons _ _ => contradiction
  | cons parameter rest ih =>
      cases arguments with
      | nil => contradiction
      | cons argument others =>
          rw [matchAll, Bool.and_eq_true] at matching
          refine .cons ?_ (ih matching.2 fun other mem => whole other (List.mem_cons_of_mem _ mem))
          obtain ⟨window, rfl, extent_eq, size_pos⟩ := whole argument List.mem_cons_self
          have size_eq := matching.1
          unfold matchesParameter at size_eq
          unfold Frame.Passes
          cases kind : parameter.kind with
          | index _ => rw [kind] at size_eq; contradiction
          | array rows cols =>
              rw [kind] at size_eq
              have same : window.size = rows * cols := by simpa using size_eq
              exact ⟨by omega, by omega⟩

/-- A resolved call of whole arrays goes to an earlier routine and passes what
it relies on. -/
theorem passes_of_resolves {externals : List External} {earlier : List (Routine α)}
    {name : String} {arguments : List Argument} {status : Option Window}
    (resolved : resolves externals earlier (.routine name) arguments status = true)
    (whole : ∀ argument ∈ arguments, PassesWhole argument) :
    ∃ callee ∈ earlier, callee.name = name ∧
      ∀ extremes, List.Forall₂ (Frame.Passes extremes) callee.parameters arguments := by
  unfold resolves at resolved
  simp only at resolved
  split at resolved
  · rename_i callee found
    rw [Bool.and_eq_true] at resolved
    exact ⟨callee, List.mem_of_find?_eq_some found, by simpa using List.find?_some found,
      passes_of_matches resolved.2 whole⟩
  · contradiction

end Program

namespace Problem

open Program

variable {α : Type} [Scalar α] {problem : Problem α}

/-- Every routine of the program is found under its name. -/
theorem routine?_eq {routine : Routine α} (mem : routine ∈ problem.program.routines) :
    problem.program.routine? routine.name = some routine :=
  routine?_of_nodup (nodup_routineNames.sublist names_routines) mem

/-- Routines of one name are one routine. -/
theorem routine_eq_of_name {first second : Routine α} (firstMem : first ∈ problem.program.routines)
    (secondMem : second ∈ problem.program.routines) (same : first.name = second.name) :
    first = second :=
  Option.some.inj ((routine?_eq firstMem).symm.trans (same ▸ routine?_eq secondMem))

/-- The result of every routine is an array of its own with an element. -/
theorem returns_routines :
    ∀ routine ∈ problem.program.routines, ∀ position ∈ routine.result,
      ∃ decl, routine.locals[position]? = some decl ∧ 0 < decl.size := by
  have first {routine : Routine α} {decl : ArrayDecl α} {rest : List (ArrayDecl α)}
      (result : routine.result = some 0) (locals : routine.locals = decl :: rest)
      (size_pos : 0 < decl.size) : ∀ position ∈ routine.result,
        ∃ decl, routine.locals[position]? = some decl ∧ 0 < decl.size := by
    rw [result, locals]
    rintro _ ⟨⟩
    exact ⟨decl, rfl, size_pos⟩
  apply forall_routines
  · rw [Objective.blockRoutine_eq]; exact nofun
  · rw [Objective.blockRoutine_eq]; exact nofun
  · rw [Objective.crossRoutine_eq]; exact nofun
  · rw [Objective.blockRoutine_eq]; exact nofun
  · exact nofun
  · exact nofun
  · exact fun _ _ => nofun
  · exact nofun
  · exact first rfl rfl Nat.one_pos
  · exact nofun
  · exact nofun
  · exact nofun
  · exact first rfl rfl Nat.one_pos
  · exact first rfl rfl Nat.one_pos
  · exact first rfl rfl Nat.one_pos
  · exact first rfl rfl Nat.one_pos
  · exact fun _ => first rfl rfl Nat.one_pos

/-- A routine is safe if its calls are. -/
theorem safe_of_mem (wellFormed : problem.WellFormed) {depth : Nat} {routine : Routine α}
    (mem : routine ∈ problem.program.routines)
    (calls : Statement.AreSafe problem.program (problem.program.Safe depth)
      (parameterExtremes routine) routine.body) :
    problem.program.Safe (depth + 1) routine :=
  ⟨fits_routines wellFormed routine mem, returns_routines routine mem, calls⟩

/-- A routine that calls no other routine is safe. -/
theorem safe_of_calls (wellFormed : problem.WellFormed) {routine : Routine α}
    (mem : routine ∈ problem.program.routines)
    (external : ∀ call ∈ Statement.callsOf routine.body, ∃ function,
      call.1 = .external function) :
    problem.program.Safe 1 routine :=
  safe_of_mem wellFormed mem (Statement.areSafe_of_calls _ external)

/-- A routine that calls nothing is safe. -/
theorem safe_of_quiet (wellFormed : problem.WellFormed) {routine : Routine α}
    (mem : routine ∈ problem.program.routines)
    (quiet : Statement.callsOf routine.body = []) : problem.program.Safe 1 routine :=
  safe_of_mem wellFormed mem (Statement.areSafe_of_quiet quiet)

/-! ## Callers -/

/-- The routines that stand where the program has them. -/
theorem mem_routines :
    (∀ routine ∈ Objective.blockRoutines problem problem.plan,
        routine ∈ problem.program.routines) ∧
      Objective.evaluateRoutine problem problem.plan ∈ problem.program.routines ∧
      Objective.gradientRoutine problem problem.plan ∈ problem.program.routines ∧
      (∀ path ∈ problem.path, Constraints.pathBoundsRoutine problem problem.plan path ∈
        problem.program.routines) ∧
      Constraints.evaluateRoutine problem problem.plan ∈ problem.program.routines ∧
      Horizon.initializeRoutine problem.plan problem.initialization ∈
        problem.program.routines ∧
      Phases.preparationRoutine ∈ problem.program.routines ∧
      Phases.feedbackRoutine problem problem.plan ∈ problem.program.routines := by
  rw [routines_program]
  refine ⟨fun routine mem => ?_, ?_, ?_, fun path known => ?_, ?_, ?_, ?_, ?_⟩
  · simp [mem]
  · simp
  · simp
  · have known : problem.path = some path := known
    simp [known]
  · simp
  · simp
  · simp
  · simp

/-- The block routines are safe. -/
theorem safe_blockRoutines (wellFormed : problem.WellFormed) {routine : Routine α}
    (mem : routine ∈ Objective.blockRoutines problem problem.plan) :
    problem.program.Safe 1 routine := by
  refine safe_of_quiet wellFormed (mem_routines.1 routine mem) ?_
  rcases mem_blockRoutines mem with rfl | rfl | rfl | rfl
  · rw [Objective.blockRoutine_eq]; rfl
  · rw [Objective.blockRoutine_eq]; rfl
  · rw [Objective.crossRoutine_eq]; rfl
  · rw [Objective.blockRoutine_eq]; rfl

omit [Scalar α] in
theorem whole_dense {base : Base} {offset : AffineIndex} {rows cols : Nat}
    (size_pos : 0 < rows * cols) :
    PassesWhole (.reference (.dense base offset rows cols)) :=
  ⟨_, rfl, Window.extent_dense _ _ _ _, size_pos⟩

omit [Scalar α] in
theorem whole_passFlat (plan : Plan α) {quantity : Quantity} {offset : AffineIndex}
    {length : Nat} (length_pos : 0 < length) :
    PassesWhole (plan.passFlat quantity offset length) :=
  whole_dense (Nat.mul_pos length_pos Nat.one_pos)

theorem whole_passRows {quantity : Quantity} {first : AffineIndex} {count : Nat}
    {shape : Nat × Nat} (known : problem.shapeOf? quantity = some shape)
    (size_pos : 0 < count * shape.2) :
    PassesWhole (problem.plan.passRows quantity first count) := by
  refine whole_dense ?_
  rwa [colsOf_eq, known]

theorem whole_passWhole {quantity : Quantity} {shape : Nat × Nat}
    (known : problem.shapeOf? quantity = some shape) (size_pos : 0 < shape.1 * shape.2) :
    PassesWhole (problem.plan.passWhole quantity) := by
  refine whole_dense ?_
  rwa [rowsOf_eq, colsOf_eq, known]

theorem whole_weightWindow? (wellFormed : problem.WellFormed) (node : AffineIndex) :
    ∀ window ∈ problem.plan.weightWindow? problem.dims problem.flags node,
      PassesWhole (.reference window) := by
  have size_pos := Nat.mul_pos wellFormed.ny_pos wellFormed.ny_pos
  intro window passed
  obtain ⟨_, size_eq⟩ := @Objective.passes_weightWindow? α _ problem node
  refine ⟨window, rfl, ?_, by rw [size_eq window passed]; exact size_pos⟩
  unfold Plan.weightWindow? at passed
  split at passed
  · split at passed <;> cases passed <;> exact Window.extent_dense _ _ _ _
  · contradiction

/-- The arguments of the block routines are whole arrays. -/
theorem whole_blockArguments (wellFormed : problem.WellFormed) (node : AffineIndex) :
    (∀ call ∈ Statement.callsOf (Objective.stageCalls problem problem.plan node),
        ∀ argument ∈ call.2.1, PassesWhole argument) ∧
      ∀ call ∈ Statement.callsOf (Objective.terminalCall problem problem.plan),
        ∀ argument ∈ call.2.1, PassesWhole argument := by
  have nx_pos := wellFormed.nx_pos
  have nu_pos := wellFormed.nu_pos
  have ny_pos := wellFormed.ny_pos
  have nyn_pos := wellFormed.nyn_pos
  have weight := whole_weightWindow? wellFormed node
  constructor
  · simp only [Objective.stageCalls, Statement.callsOf_append, List.mem_append]
    rintro call ((mem | mem) | mem)
    · cases states : (KnownBlocks.ofProblem problem).states <;>
        simp [Problem.blocks_plan, states, Statement.callsOf] at mem
      subst mem
      simp only [List.mem_append, Option.mem_toList, Option.map_eq_some_iff, List.mem_cons,
        List.not_mem_nil, or_false]
      rintro argument (⟨_, _, rfl⟩ | ⟨window, passed, rfl⟩ | rfl | rfl)
      · exact whole_passFlat _ (Nat.mul_pos ny_pos nx_pos)
      · exact weight window passed
      · exact whole_passRows shapeOf?_blocks.1 (Nat.mul_pos nx_pos nx_pos)
      · exact whole_passRows (by simp [states]; rfl) (Nat.mul_pos nx_pos ny_pos)
    · cases controls : (KnownBlocks.ofProblem problem).controls <;>
        simp [Problem.blocks_plan, controls, Statement.callsOf] at mem
      subst mem
      simp only [List.mem_append, Option.mem_toList, Option.map_eq_some_iff, List.mem_cons,
        List.not_mem_nil, or_false]
      rintro argument (⟨_, _, rfl⟩ | ⟨window, passed, rfl⟩ | rfl | rfl)
      · exact whole_passFlat _ (Nat.mul_pos ny_pos nu_pos)
      · exact weight window passed
      · exact whole_passRows shapeOf?_blocks.2.1 (Nat.mul_pos nu_pos nu_pos)
      · exact whole_passRows (by simp [controls]; rfl) (Nat.mul_pos nu_pos ny_pos)
    · cases cross : (KnownBlocks.ofProblem problem).cross <;>
        simp [Problem.blocks_plan, cross, Statement.callsOf] at mem
      subst mem
      simp only [List.mem_append, Option.mem_toList, Option.map_eq_some_iff, List.mem_singleton]
      rintro argument (⟨_, _, rfl⟩ | ⟨_, _, rfl⟩ | ⟨window, passed, rfl⟩ | rfl)
      · exact whole_passFlat _ (Nat.mul_pos ny_pos nx_pos)
      · exact whole_passFlat _ (Nat.mul_pos ny_pos nu_pos)
      · exact weight window passed
      · exact whole_passRows shapeOf?_blocks.2.2.1 (Nat.mul_pos nx_pos nu_pos)
  · intro call mem
    cases terminal : (KnownBlocks.ofProblem problem).terminal <;>
      simp [Objective.terminalCall, Problem.blocks_plan, terminal, Statement.callsOf] at mem
    subst mem
    simp only [List.mem_append, Option.mem_toList, Option.map_eq_some_iff, List.mem_cons,
      List.not_mem_nil, or_false, List.mem_ite_nil_right]
    rintro argument (⟨_, _, rfl⟩ | ⟨runtime, rfl⟩ | rfl | rfl)
    · exact whole_passFlat _ (Nat.mul_pos nyn_pos nx_pos)
    · exact whole_passWhole (by simp [runtime]; rfl) (Nat.mul_pos nyn_pos nyn_pos)
    · exact whole_passWhole shapeOf?_blocks.2.2.2.1 (Nat.mul_pos nx_pos nx_pos)
    · exact whole_passWhole (by simp [terminal]; rfl) (Nat.mul_pos nx_pos nyn_pos)

theorem safe_objective (wellFormed : problem.WellFormed) :
    problem.program.Safe 2 (Objective.evaluateRoutine problem problem.plan) := by
  obtain ⟨blocks, objective, _⟩ := @mem_routines α _ problem
  obtain ⟨stageWhole, terminalWhole⟩ := whole_blockArguments wellFormed
    (.var Objective.nodeName)
  have enter {call : Callee × List Argument × Option Window} {name : String}
      (callee : call.1 = .routine name)
      (resolved : resolves [] (Objective.blockRoutines problem problem.plan) call.1 call.2.1
        call.2.2 = true)
      (whole : ∀ argument ∈ call.2.1, PassesWhole argument) :
      ∃ callee, problem.program.routine? name = some callee ∧ problem.program.Safe 1 callee ∧
        ∀ extremes, List.Forall₂ (Frame.Passes extremes) callee.parameters call.2.1 := by
    rw [callee] at resolved
    obtain ⟨target, mem, rfl, passes⟩ := passes_of_resolves resolved whole
    exact ⟨target, routine?_eq (blocks target mem), safe_blockRoutines wellFormed mem, passes⟩
  have unique : ∀ first ∈ Objective.blockRoutines problem problem.plan,
      ∀ second ∈ Objective.blockRoutines problem problem.plan,
        second.name = first.name → second = first :=
    fun first firstMem second secondMem =>
      eq_of_name_eq (blocks first firstMem) (blocks second secondMem)
  refine safe_of_mem wellFormed objective (Statement.areSafe_of_passes _ ?_)
  intro call called name callee
  simp only [Objective.evaluateRoutine, Statement.callsOf_append, Statement.callsOf,
    Statement.calls, Statement.calls_evaluate, Statement.calls_copy, Statement.calls_set,
    Statement.callsOf_loadNodeInput, List.mem_append, List.mem_singleton, List.nil_append,
    List.append_nil] at called
  rcases called with (rfl | stage) | rfl | terminal
  · contradiction
  · exact enter callee
      (Objective.resolves_stageCalls unique (fun _ mem => mem) _ call stage)
      (stageWhole call stage)
  · contradiction
  · exact enter callee (Objective.resolves_terminalCall unique (fun _ mem => mem) call terminal)
      (terminalWhole call terminal)

/-- The bounds routine is called with an interval and the place of its rows. -/
theorem isSafe_pathBoundsCall (wellFormed : problem.WellFormed) {path : PathConstraint α}
    (known : problem.path = some path) {node : Nat} (inside : node < problem.dims.n)
    {extremes : Extremes} :
    (Constraints.pathBoundsCall problem problem.plan path node).IsSafe problem.program
      (problem.program.Safe 1) extremes := by
  have mem := mem_routines.2.2.2.1 path known
  have rows := Constraints.pathRows_le wellFormed inside
  obtain ⟨_, dim_pos⟩ := Constraints.affineDim_pos_of_path wellFormed known
  rw [Constraints.pathDim_of_path known] at rows
  have whole (quantity : Quantity) : Frame.Passes extremes ⟨"", .array path.dim 1⟩
      (problem.plan.passFlat quantity (.const (problem.affineOffset node)) path.dim) := by
    refine ⟨Nat.le_of_eq (Window.extent_dense _ _ _ _).symm, ?_⟩
    rw [Plan.flat, ArrayTable.flat, Window.vector, Window.extent_dense, Nat.mul_one]
    exact dim_pos
  have offset_lt : problem.affineOffset node < problem.affineDim - path.dim + 1 := by omega
  refine ⟨_, routine?_eq mem, safe_of_quiet wellFormed mem rfl, ?_⟩
  exact .cons ⟨_, rfl, offset_lt⟩ (.cons ⟨node, rfl, inside⟩
    (.cons (whole .lbAValues) (.cons (whole .ubAValues) .nil)))

theorem safe_constraints (wellFormed : problem.WellFormed) :
    problem.program.Safe 2 (Constraints.evaluateRoutine problem problem.plan) := by
  obtain ⟨_, _, _, pathBounds, constraints, _⟩ := @mem_routines α _ problem
  refine safe_of_mem wellFormed constraints ?_
  simp only [Constraints.evaluateRoutine, Statement.areSafe_append]
  refine ⟨⟨⟨⟨trivial, trivial, trivial⟩, trivial, trivial, trivial⟩, ?_⟩, ?_⟩
  · cases known : problem.path with
    | none => trivial
    | some path =>
        rw [Option.elim_some, Constraints.pathPart, Statement.areSafe_append]
        refine ⟨⟨fun _ => ?_, trivial⟩, ?_⟩
        · refine Statement.areSafe_of_calls _ ?_
          rw [Constraints.callsOf_pathStage]
          rintro _ (_ | ⟨_, ⟨⟩⟩)
          exact ⟨_, rfl⟩
        · split
          · rw [Statement.areSafe_iff]
            intro statement mem
            obtain ⟨node, inside, rfl⟩ := List.mem_map.1 mem
            exact isSafe_pathBoundsCall wellFormed known (List.mem_range.1 inside)
          · trivial
  · refine Statement.areSafe_of_calls _ fun call mem => ?_
    obtain ⟨name, rfl⟩ := Constraints.calls_pointParts _ _ call mem
    exact ⟨_, rfl⟩

theorem safe_initializeRoutine (wellFormed : problem.WellFormed) :
    problem.program.Safe 1
      (Horizon.initializeRoutine problem.plan problem.initialization) :=
  safe_of_quiet wellFormed mem_routines.2.2.2.2.2.1 callsOf_initializeRoutine

theorem safe_preparation (wellFormed : problem.WellFormed) :
    problem.program.Safe 3 (Phases.preparationRoutine : Routine α) := by
  refine safe_of_mem wellFormed mem_routines.2.2.2.2.2.2.1 ⟨trivial, ?_, ?_, trivial⟩
  · exact ⟨_, routine?_eq mem_routines.2.1, safe_objective wellFormed, .nil⟩
  · exact ⟨_, routine?_eq mem_routines.2.2.2.2.1, safe_constraints wellFormed, .nil⟩

/-- The gradient routine is called with the rows of an interval and the interval
itself. -/
theorem isSafe_gradientCall (wellFormed : problem.WellFormed) :
    (Statement.run Objective.gradientName
      ([problem.plan.passFlat .gradientQ
            ((AffineIndex.var Objective.nodeName).scaled problem.dims.nx) problem.dims.nx,
          problem.plan.passFlat .gradientR
            ((AffineIndex.var Objective.nodeName).scaled problem.dims.nu) problem.dims.nu] ++
        Phases.linearArguments problem problem.plan (.var Objective.nodeName) ++
        [.index (.var Objective.nodeName)])).IsSafe problem.program (problem.program.Safe 1)
      [(Objective.nodeName, problem.dims.n - 1)] := by
  have n_pos := wellFormed.n_pos
  have nx_pos := wellFormed.nx_pos
  have nu_pos := wellFormed.nu_pos
  have mem := (@mem_routines α _ problem).2.2.1
  have flat (name : String) {quantity : Quantity} {offset : AffineIndex} {length : Nat}
      (length_pos : 0 < length) :
      Frame.Passes [(Objective.nodeName, problem.dims.n - 1)] ⟨name, .array length 1⟩
        (problem.plan.passFlat quantity offset length) := by
    refine ⟨Nat.le_of_eq (Window.extent_dense _ _ _ _).symm, ?_⟩
    rw [Plan.flat, ArrayTable.flat, Window.vector, Window.extent_dense, Nat.mul_one]
    exact length_pos
  have whole (name : String) {quantity : Quantity} {length : Nat}
      (known : problem.shapeOf? quantity = some (length, 1)) (length_pos : 0 < length) :
      Frame.Passes [(Objective.nodeName, problem.dims.n - 1)] ⟨name, .array length 1⟩
        (problem.plan.passWhole quantity) := by
    have extent_eq : (problem.plan.whole quantity).extent = length * 1 := by
      rw [Plan.whole, ArrayTable.whole, Window.extent_dense, rowsOf_eq, colsOf_eq, known]
      rfl
    exact ⟨Nat.le_of_eq extent_eq.symm, by omega⟩
  have index : Frame.Passes [(Objective.nodeName, problem.dims.n - 1)]
      ⟨"index", .index problem.dims.n⟩ (.index (.var Objective.nodeName)) :=
    ⟨problem.dims.n - 1, by simp, by omega⟩
  refine ⟨_, routine?_eq mem, safe_of_quiet wellFormed mem rfl, ?_⟩
  refine .cons (flat _ nx_pos) (.cons (flat _ nu_pos) ?_)
  unfold Phases.linearArguments
  cases terms : problem.linearTerms with
  | none | given x u =>
      simp only [LinearStorage.ofProblem, terms, Objective.passesLinear, linear_plan]
      exact .cons index .nil
  | runtime =>
      cases perNode : Quantity.hasLinearTermsPerNode problem
      · simp only [LinearStorage.ofProblem, terms, perNode, Objective.passesLinear, linear_plan]
        exact .cons (whole _ (by simp [Quantity.hasRuntimeLinearTerms, terms, perNode]) nx_pos)
          (.cons (whole _ (by simp [Quantity.hasRuntimeLinearTerms, terms, perNode]) nu_pos)
            (.cons index .nil))
      · simp only [LinearStorage.ofProblem, terms, perNode, Objective.passesLinear, linear_plan]
        exact .cons (flat _ nx_pos) (.cons (flat _ nu_pos) (.cons index .nil))

theorem safe_feedback (wellFormed : problem.WellFormed) :
    problem.program.Safe 2 (Phases.feedbackRoutine problem problem.plan) := by
  refine safe_of_mem wellFormed mem_routines.2.2.2.2.2.2.2 ?_
  simp only [Phases.feedbackRoutine, Statement.areSafe_append]
  refine ⟨⟨⟨Statement.areSafe_of_quiet ?_, trivial, trivial,
      fun _ => ⟨isSafe_gradientCall wellFormed, trivial⟩,
    trivial, trivial⟩, Statement.areSafe_of_quiet ?_⟩, trivial, trivial, trivial, trivial⟩
  · unfold Phases.initialDeviation
    split <;> rfl
  · unfold Phases.arrivalCost
    cases problem.plan.blocks.q1.given? <;> cases problem.plan.has .dxAC <;> rfl

/-- Calls can be nested as deeply as both phases need. -/
theorem three_le_callDepth : 3 ≤ problem.program.callDepth := by
  have count : 3 ≤ problem.program.routines.length := by
    rw [routines_program]
    simp only [List.length_append, List.length_cons, List.length_nil]
    omega
  exact Nat.le_trans count (Nat.le_add_left _ _)

end Problem

end RtiAssembly
