import RtiAssembly.Emission.Names
import RtiAssembly.Proofs.Machine.Untouched
import RtiAssembly.Proofs.Number.Laws

/-!
# Constant parameters

The code of a routine declares an array parameter as constant if the routine
itself neither stores to it nor passes it on.  That is enough: what is not passed
on cannot be reached by anything that is called, at whatever depth.
-/

namespace RtiAssembly

/-! ## Which parameters are written -/

theorem Base.parameter?_eq_some {base : Base} {position : Nat} :
    base.parameter? = some position ↔ base = .parameter position := by
  cases base <;> simp [parameter?]

namespace Statement

variable {α : Type}

/-- A statement that stands among others, directly or in the body of a loop. -/
inductive StandsIn (statement : Statement α) : List (Statement α) → Prop
  | here {statements : List (Statement α)} (mem : statement ∈ statements) :
      StandsIn statement statements
  | inLoop {statements body : List (Statement α)} {name : String} {start stop : Nat}
      (mem : .loop name start stop body ∈ statements) (stands : StandsIn statement body) :
      StandsIn statement statements

/-- Whether a statement stores to a parameter or passes it on by reference.  A status is
stored as well. -/
def WritesThrough (position : Nat) : Statement α → Prop
  | .assign target _ _ => target.base = .parameter position
  | .call _ arguments status =>
      (∃ window, .reference window ∈ arguments ∧ window.base = .parameter position) ∨
        ∃ window ∈ status, window.base = .parameter position
  | .clear _ => False
  | .loop _ _ _ _ => False
  | .comment _ => False

theorem StandsIn.mono {statement : Statement α} {statements more : List (Statement α)}
    (stands : statement.StandsIn statements) (subset : statements ⊆ more) :
    statement.StandsIn more := by
  cases stands with
  | here mem => exact .here (subset mem)
  | inLoop mem stands => exact .inLoop (subset mem) stands

mutual

theorem writtenParameters_eq : (statement : Statement α) →
    statement.writtenParameters = statement.targets.filterMap Base.parameter?
  | .assign target _ _ => by
      rw [writtenParameters, targets]
      cases target.base <;> rfl
  | .clear _ => rfl
  | .loop _ _ _ body => writtenParametersOf_eq body
  | .call _ _ _ => by
      rw [writtenParameters, targets, List.filterMap_map]
      rfl
  | .comment _ => rfl

/-- The written parameters are those among the targets. -/
theorem writtenParametersOf_eq : (statements : List (Statement α)) →
    writtenParametersOf statements = (targetsOf statements).filterMap Base.parameter?
  | [] => rfl
  | statement :: rest => by
      rw [writtenParametersOf, targetsOf, List.filterMap_append, writtenParameters_eq statement,
        writtenParametersOf_eq rest]

end

mutual

theorem exists_of_target {position : Nat} : (statement : Statement α) →
    .parameter position ∈ statement.targets →
      ∃ writer : Statement α, writer.StandsIn [statement] ∧ writer.WritesThrough position
  | .assign target op value, mem =>
      ⟨_, .here List.mem_cons_self, (List.mem_singleton.1 mem).symm⟩
  | .clear _, mem => by simp [targets] at mem
  | .loop name start stop body, mem => by
      obtain ⟨writer, stands, writes⟩ := exists_of_targetsOf body mem
      exact ⟨writer, .inLoop List.mem_cons_self stands, writes⟩
  | .call callee arguments status, mem => by
      obtain ⟨window, listed, base_eq⟩ := List.mem_map.1 mem
      refine ⟨_, .here List.mem_cons_self, ?_⟩
      rcases List.mem_append.1 listed with passed | returned
      · obtain ⟨argument, argument_mem, isWindow⟩ := List.mem_filterMap.1 passed
        cases argument with
        | index _ => cases isWindow
        | reference _ =>
            cases isWindow
            exact .inl ⟨window, argument_mem, base_eq⟩
      · exact .inr ⟨window, Option.mem_toList.1 returned, base_eq⟩
  | .comment _, mem => by simp [targets] at mem

theorem exists_of_targetsOf {position : Nat} : (statements : List (Statement α)) →
    .parameter position ∈ targetsOf statements →
      ∃ writer : Statement α, writer.StandsIn statements ∧ writer.WritesThrough position
  | [], mem => by simp [targetsOf] at mem
  | statement :: rest, mem => by
      rcases List.mem_append.1 mem with here | later
      · obtain ⟨writer, stands, writes⟩ := exists_of_target statement here
        exact ⟨writer, stands.mono (by simp), writes⟩
      · obtain ⟨writer, stands, writes⟩ := exists_of_targetsOf rest later
        exact ⟨writer, stands.mono (List.subset_cons_self _ _), writes⟩

end

/-- What a statement writes through is one of its targets. -/
theorem WritesThrough.target {position : Nat} {statement : Statement α}
    (writes : statement.WritesThrough position) : .parameter position ∈ statement.targets := by
  cases statement with
  | assign target _ _ => exact List.mem_singleton.2 (Eq.symm writes)
  | call callee arguments status =>
      refine List.mem_map.2 ?_
      rcases writes with ⟨window, mem, base_eq⟩ | ⟨window, mem, base_eq⟩
      · exact ⟨window, List.mem_append_left _ (List.mem_filterMap.2 ⟨_, mem, rfl⟩), base_eq⟩
      · exact ⟨window, List.mem_append_right _ (Option.mem_toList.2 mem), base_eq⟩
  | clear _ => exact writes.elim
  | loop _ _ _ _ => exact writes.elim
  | comment _ => exact writes.elim

theorem subset_targetsOf {statement : Statement α} {statements : List (Statement α)}
    (mem : statement ∈ statements) : statement.targets ⊆ targetsOf statements := by
  induction statements with
  | nil => cases mem
  | cons first rest ih =>
      rw [targetsOf]
      rcases List.mem_cons.1 mem with rfl | later
      · exact List.subset_append_left _ _
      · exact List.subset_append_of_subset_right _ (ih later)

theorem StandsIn.subset_targetsOf {statement : Statement α} {statements : List (Statement α)}
    (stands : statement.StandsIn statements) : statement.targets ⊆ targetsOf statements := by
  induction stands with
  | here mem => exact Statement.subset_targetsOf mem
  | inLoop mem _ ih => exact List.Subset.trans ih (Statement.subset_targetsOf mem)

end Statement

/-- The written parameters are the targets of the body. -/
theorem Routine.writesParameter_iff_target {α : Type} {routine : Routine α} {position : Nat} :
    routine.writesParameter position = true ↔
      .parameter position ∈ Statement.targetsOf routine.body := by
  rw [writesParameter, List.contains_iff_mem, Statement.writtenParametersOf_eq,
    List.mem_filterMap]
  constructor
  · rintro ⟨base, mem, isParameter⟩
    exact Base.parameter?_eq_some.1 isParameter ▸ mem
  · exact fun mem => ⟨_, mem, rfl⟩

/-- The written parameters are those that some statement stores to or passes on. -/
theorem Routine.writesParameter_iff {α : Type} {routine : Routine α} {position : Nat} :
    routine.writesParameter position = true ↔
      ∃ statement : Statement α, statement.StandsIn routine.body ∧
        statement.WritesThrough position := by
  rw [writesParameter_iff_target]
  constructor
  · exact Statement.exists_of_targetsOf routine.body
  · rintro ⟨statement, stands, writes⟩
    exact stands.subset_targetsOf writes.target

/-! ## Parameters that are not written -/

section Executions

variable {α σ : Type} [Scalar α] {program : Program α} {host : Host α σ program.table.sizes}
  {routine : Routine α} {bindings : List Binding} {position : Nat} {buffer : Buffer}

/-- Run the body of a routine with bound parameters.  The arrays of its own are zeros at the
start and still stand at the end. -/
def Program.runBody (program : Program α) (host : Host α σ program.table.sizes) (depth : Nat)
    (routine : Routine α) (bindings : List Binding) (world : World α σ program.table.sizes) :
    Except Fault Unit × World α σ program.table.sizes :=
  let started := world.update fun store =>
    store.push (routine.locals.map fun decl => Array.replicate decl.size 0)
  (Statement.executeAll ⟨program.routine?, host, program.enter host depth⟩
    (Frame.ofCall routine bindings world.store.stack.size) routine.body).run.run started

/-- A buffer that a routine can only reach through one of its parameters: no other parameter
stands for it, and if it is an array of the module, neither the routine nor anything that it
calls names it as a target, and the host leaves it alone. -/
structure Program.ReachesOnlyThrough (program : Program α) (host : Host α σ program.table.sizes)
    (routine : Routine α) (bindings : List Binding) (position : Nat) (buffer : Buffer) : Prop where
  others : ∀ other, other ≠ position → ∀ binding ∈ bindings[other]?,
    ∀ start ∈ binding.start?, start.buffer ≠ buffer
  globals : ∀ id, buffer = .global id → program.Avoids buffer routine ∧
    ∀ function passed memory state,
      (host function passed memory state).memory.content id = memory.content id

omit [Scalar α] in
theorem Program.ReachesOnlyThrough.respects
    (reaches : program.ReachesOnlyThrough host routine bindings position buffer) :
    host.Respects buffer fun _ _ => True where
  refl _ := trivial
  trans _ _ := trivial
  state _ _ _ _ := trivial
  content id isGlobal := (reaches.globals id isGlobal).2

omit [Scalar α] in
/-- In the frame of the routine, no target stands for the buffer. -/
theorem Program.ReachesOnlyThrough.spares
    (reaches : program.ReachesOnlyThrough host routine bindings position buffer)
    (unwritten : routine.writesParameter position = false) {height : Nat}
    (below : buffer.LiesBelow height) {base : Base}
    (mem : base ∈ Statement.targetsOf routine.body) (scope : List (String × Nat)) :
    ((Frame.ofCall routine bindings height).inScope scope).Spares buffer base := by
  intro origin found
  cases base with
  | global id =>
      cases found
      rintro rfl
      obtain ⟨targets, _⟩ := (reaches.globals id rfl).1
      exact targets id rfl mem
  | own own =>
      cases found
      rintro rfl
      exact absurd (below : height + own < height) (Nat.not_lt.2 (Nat.le_add_right _ _))
  | parameter other =>
      have different : other ≠ position := by
        rintro rfl
        rw [Routine.writesParameter_iff_target.2 mem] at unwritten
        contradiction
      obtain ⟨binding, bound, isStart⟩ := Option.bind_eq_some_iff.1 found
      exact reaches.others other different binding bound origin isStart

/-- A routine that does not write one of its parameters leaves the array behind it alone,
together with everything that it calls. -/
theorem Program.ReachesOnlyThrough.leavesAlone_body
    (reaches : program.ReachesOnlyThrough host routine bindings position buffer)
    (unwritten : routine.writesParameter position = false) (depth : Nat) {height : Nat}
    (below : buffer.LiesBelow height) :
    Execution.LeavesAlone buffer (fun _ _ => True)
      (Statement.executeAll ⟨program.routine?, host, program.enter host depth⟩
        (Frame.ofCall routine bindings height) routine.body) := by
  have spares {base : Base} (mem : base ∈ Statement.targetsOf routine.body) :=
    reaches.spares unwritten below mem
  let surroundings : Surroundings α σ program.table.sizes :=
    ⟨program.routine?, host, program.enter host depth⟩
  have respects : surroundings.host.Respects buffer fun _ _ => True := reaches.respects
  refine Statement.leavesAlone_executeAll respects routine.body
    ⟨fun base mem => spares (Statement.storesOf_subset _ mem) _, ?_⟩
  intro call mem name isCall callee known scope store passed bound
  -- what is passed on is located through a target, so it is not the buffer
  have elsewhere : ∀ binding ∈ passed, ∀ start ∈ binding.start?, start.buffer ≠ buffer := by
    intro binding listed
    obtain ⟨argument, argument_mem, found⟩ := exists_of_mem_mapM bound binding listed
    refine Frame.Spares.binding (fun window isWindow => spares ?_ scope) found
    cases argument with
    | index _ => cases isWindow
    | reference _ =>
        cases isWindow
        exact Statement.target_of_arguments argument_mem _ mem
  cases buffer with
  | stack _ => exact Program.leavesAlone_enter_stack reaches.respects elsewhere
  | global id =>
      obtain ⟨_, calls⟩ := (reaches.globals id rfl).1
      exact (calls call mem name isCall callee known).leavesAlone_enter reaches.respects elsewhere

/-! ## How routines are entered -/

omit [Scalar α] in
/-- What is located is an element of an array that exists. -/
theorem Frame.liesBelow_locate {sizes : List Nat} {frame : Frame} {store : Store α sizes}
    {window : Window} {distance : Nat} {cell : Cell}
    (found : frame.locate store window distance = .ok cell) :
    cell.buffer.LiesBelow store.stack.size := by
  unfold locate at found
  cases base : frame.origin? window.base with
  | none =>
      rw [base] at found
      contradiction
  | some origin =>
      rw [base] at found
      obtain ⟨offset, _, located⟩ := exists_of_bind_eq_ok found
      dsimp only at located
      split at located
      · rename_i inside
        cases located
        cases buffer : origin.buffer with
        | global _ => trivial
        | stack position =>
            rw [buffer, Store.content, Array.getD_eq_getD_getElem?] at inside
            by_contra above
            rw [Array.getElem?_eq_none (Nat.le_of_not_lt above)] at inside
            exact Nat.not_lt_zero _ inside
      · contradiction

omit [Scalar α] in
/-- Arrays from outside stand on the stack where they were put. -/
theorem Program.liesBelow_bindOutside {parameters : List Parameter} {arguments : List (Passed α)}
    {height : Nat} {bound : List Binding × List (Array α)}
    (binds : bindOutside parameters arguments height = some bound) :
    ∀ binding ∈ bound.1, ∀ start ∈ binding.start?,
      start.buffer.LiesBelow (height + bound.2.length) := by
  induction parameters generalizing arguments height bound with
  | nil =>
      cases arguments with
      | nil =>
          cases binds
          exact List.forall_mem_nil _
      | cons _ _ => contradiction
  | cons parameter parameters ih =>
      cases arguments with
      | nil => contradiction
      | cons argument arguments =>
          simp only [bindOutside] at binds
          split at binds
          · split at binds
            · obtain ⟨rest, restBinds, rfl⟩ := Option.map_eq_some_iff.1 binds
              rw [List.length_cons, ← Nat.add_assoc, Nat.add_right_comm]
              refine List.forall_mem_cons.2 ⟨fun start isStart => ?_, ih restBinds⟩
              cases isStart
              exact Nat.lt_of_lt_of_le height.lt_succ_self (Nat.le_add_right _ _)
            · contradiction
          · obtain ⟨rest, restBinds, rfl⟩ := Option.map_eq_some_iff.1 binds
            refine List.forall_mem_cons.2 ⟨fun start isStart => ?_, ih restBinds⟩
            cases isStart
          · contradiction

/-- How a routine is entered: from outside, with its arrays on a stack that is empty
otherwise, or by a call, with what the frame of the caller locates. -/
inductive Program.IsEntered (program : Program α) (routine : Routine α) :
    List Binding → World α σ program.table.sizes → Prop
  | fromOutside {arguments : List (Passed α)} {bound : List Binding × List (Array α)}
      {memory : program.Contents} {state : σ}
      (binds : bindOutside routine.parameters arguments 0 = some bound) :
      IsEntered program routine bound.1 ⟨⟨memory, bound.2.toArray⟩, state⟩
  | byCall {frame : Frame} {arguments : List Argument} {bindings : List Binding}
      {world : World α σ program.table.sizes}
      (counts : routine.parameters.length = arguments.length)
      (binds : arguments.mapM (frame.binding world.store) = .ok bindings) :
      IsEntered program routine bindings world

omit [Scalar α] in
/-- A routine is only passed arrays below its own. -/
theorem Program.IsEntered.liesBelow {world : World α σ program.table.sizes}
    (entered : program.IsEntered routine bindings world) :
    ∀ binding ∈ bindings, ∀ start ∈ binding.start?,
      start.buffer.LiesBelow world.store.stack.size := by
  cases entered with
  | fromOutside binds =>
      intro binding mem start isStart
      have below := liesBelow_bindOutside binds binding mem start isStart
      rwa [Nat.zero_add] at below
  | byCall counts binds =>
      intro binding mem start isStart
      obtain ⟨argument, _, found⟩ := exists_of_mem_mapM binds binding mem
      cases argument with
      | index _ =>
          obtain ⟨_, _, bound⟩ := exists_of_bind_eq_ok found
          cases bound
          cases isStart
      | reference window =>
          obtain ⟨cell, located, bound⟩ := exists_of_bind_eq_ok found
          cases bound
          cases isStart
          exact Frame.liesBelow_locate located

end Executions

/-- Constant parameters are constant.  If a routine does not write an array parameter, its code
declares the parameter as constant, and however the routine is entered, whatever it calls, and
however its body ends, the array behind the parameter is at the end what it was at the start,
unless it can be reached in another way.  Conversely, a parameter is written as soon as one
statement of the body stores to it or passes it on. -/
theorem constant_unless_written {α σ : Type} [Scalar α] {program : Program α}
    (host : Host α σ program.table.sizes) {routine : Routine α} {position : Nat}
    {parameter : Parameter} (listed : routine.parameters[position]? = some parameter)
    {rows cols : Nat} (isArray : parameter.kind = .array rows cols) :
    (routine.writesParameter position = false →
      (routine.parameters.mapIdx (Emission.parameter routine))[position]? =
          some ("const real_t* const " ++ parameter.name) ∧
        ∀ bindings start, bindings[position]? = some (.array start) →
          program.ReachesOnlyThrough host routine bindings position start.buffer →
          ∀ world : World α σ program.table.sizes, program.IsEntered routine bindings world →
          ∀ depth,
            (program.runBody host depth routine bindings world).2.store.content start.buffer =
              world.store.content start.buffer) ∧
      ∀ statement : Statement α, statement.StandsIn routine.body →
        statement.WritesThrough position → routine.writesParameter position = true := by
  refine ⟨fun unwritten => ⟨?_, ?_⟩, fun statement stands writes =>
    Routine.writesParameter_iff.2 ⟨statement, stands, writes⟩⟩
  · simp only [List.getElem?_mapIdx, listed, Option.map_some, Emission.parameter, isArray,
      unwritten]
    rfl
  · intro bindings start bound reaches world entered depth
    have below := entered.liesBelow _ (List.mem_of_getElem? bound) start rfl
    have alone := reaches.leavesAlone_body unwritten depth below
    exact (alone _ (below.push _)).content.trans (world.store.content_push below _)

/-! ## A small program -/

/-- A routine that copies its first array to the second, lends the second one, and then
stores behind its end. -/
def Program.lending : Program ℚ where
  moduleName := "ocp"
  dims := ⟨1, 1, 1, 1, 1, 0⟩
  table := ⟨[]⟩
  externals := []
  routines :=
    [{ name := "fill"
       doc := none
       parameters := [⟨"dst", .array 2 1⟩]
       locals := []
       result := none
       body := [.set (.dense (.parameter 0) (.const 0) 2 1) (.known (.zeros 2 1))] },
      { name := "copy"
        doc := none
        parameters := [⟨"src", .array 2 1⟩, ⟨"dst", .array 2 1⟩]
        locals := []
        result := none
        body := [.set (.dense (.parameter 1) (.const 0) 2 1)
            (.read (.dense (.parameter 0) (.const 0) 2 1)),
          .run "fill" [.reference (.dense (.parameter 1) (.const 0) 2 1)],
          .set (.dense (.parameter 1) (.const 7) 1 1) (.known (.zeros 1 1))] }]
  numQpVars := 0
  rowCounts := []

/-- The first array survives a run that ends in a fault; the second one is filled with
zeros. -/
theorem constant_unless_written_lending :
    let program := Program.lending
    let routine := program.routines[1]
    let bindings : List Binding := [.array ⟨.stack 0, 0⟩, .array ⟨.stack 1, 0⟩]
    let world : World ℚ Unit program.table.sizes :=
      ⟨⟨program.initialMemory, #[#[3, 4], #[5, 6]]⟩, ()⟩
    let outcome := program.runBody Host.idle 1 routine bindings world
    routine.writesParameter 0 = false ∧ routine.writesParameter 1 = true ∧
      outcome.1 = .error (.outOfBounds "copy" 7 2) ∧
      outcome.2.store.content (.stack 0) = #[3, 4] ∧
      outcome.2.store.content (.stack 1) = #[0, 0] := by
  intro program routine bindings world outcome
  have unwritten : routine.writesParameter 0 = false := by decide
  have reaches : program.ReachesOnlyThrough Host.idle routine bindings 0 (.stack 0) := by
    refine ⟨fun other different binding mem start isStart => ?_, fun id isGlobal => ?_⟩
    · match other, different with
      | 1, _ =>
          cases mem
          cases isStart
          decide
      | _ + 2, _ => cases mem
    · exact Buffer.noConfusion isGlobal
  have binds : Program.bindOutside routine.parameters [.array #[3, 4], .array #[5, 6]] 0 =
      some (bindings, [(#[3, 4] : Array ℚ), #[5, 6]]) := rfl
  have entered : program.IsEntered routine bindings world := .fromOutside binds
  obtain ⟨constant, _⟩ := @constant_unless_written ℚ Unit _ program Host.idle routine 0
    ⟨"src", .array 2 1⟩ rfl 2 1 rfl
  obtain ⟨_, written⟩ := @constant_unless_written ℚ Unit _ program Host.idle routine 1
    ⟨"dst", .array 2 1⟩ rfl 2 1 rfl
  obtain ⟨_, kept⟩ := constant unwritten
  have bound : bindings[0]? = some (.array ⟨.stack 0, 0⟩) := rfl
  have same := kept bindings ⟨.stack 0, 0⟩ bound reaches world entered 1
  have stored := written (.set (.dense (.parameter 1) (.const 0) 2 1)
    (.read (.dense (.parameter 0) (.const 0) 2 1))) (.here List.mem_cons_self) rfl
  simp only [outcome]
  refine ⟨unwritten, stored, ?_, same.trans ?_, ?_⟩
  · decide +kernel
  · decide +kernel
  · decide +kernel

end RtiAssembly
