import RtiAssembly.Proofs.Emission.Assignments
import RtiAssembly.Proofs.Program.Extremes
import RtiAssembly.Proofs.Program.Soundness

/-!
# Assignments of certified programs

What the code of an assignment leaves, for every assignment that a routine of a
certified program reaches.  With a temporary array it is what the assignment
leaves.  Without one, each element is computed from what the stores before it
left; the two agree if no element depends on a cell that was stored in before
it.  The code takes a temporary array for products only, and the certificate does
not ask whether windows overlap, so that a copy within an array can go wrong.
-/

namespace RtiAssembly

/-! ## Statements that are reached -/

section Reached

variable {α : Type} {program : Program α} {routine : Routine α} {scope : Valuation}
  {target : Window} {op : AssignOp} {value : Expr α}

theorem Program.fitsStatement_assign_iff :
    program.fitsStatement routine scope (.assign target op value) = true ↔
      (Statement.assign target op value).IsInBounds program routine scope := by
  simp only [fitsStatement, Statement.IsInBounds, Bool.and_eq_true, List.all_eq_true, beq_iff_eq,
    fits_iff, List.forall_mem_cons, and_assoc]

/-- An assignment that a routine of a certified program reaches fits with the values
that the variables have there. -/
theorem Program.fits_of_certified {uses : Bool}
    (complete : (program.certify uses).isComplete = true) (mem : routine ∈ program.routines)
    {valuation : Valuation} (admits : routine.Admits valuation)
    (reached : Statement.Reached valuation routine.body scope (.assign target op value)) :
    program.fitsStatement routine scope (.assign target op value) = true := by
  obtain ⟨_, fitting, _⟩ := checks_of_complete complete
  exact fitsStatement_assign_iff.2
    (isInBounds_of_reached reached admits.below (fitting routine mem))

end Reached

/-! ## One element after the other -/

section InOrder

variable {α σ : Type} [Scalar α]

namespace Frame

variable {sizes : List Nat} (frame : Frame) (target : Window) (op : AssignOp) (value : Expr α)

/-- The store after an element has been computed and stored. -/
def storing (store : Store α sizes) (element : Nat × Nat) : Store α sizes :=
  let cell := frame.cellAt target element.1 element.2
  let number := (frame.valueIn store value).entry element.1 element.2
  store.write cell (op.combine (store.read cell) number)

theorem alike_storing (store : Store α sizes) (element : Nat × Nat) :
    (frame.storing target op value store element).Alike store :=
  Store.alike_write store _ _

theorem content_storing (store : Store α sizes) (element : Nat × Nat) {buffer : Buffer}
    (elsewhere : buffer ≠ (frame.startOf target).buffer) :
    (frame.storing target op value store element).content buffer = store.content buffer :=
  (Store.content_write store _ _ buffer).trans (if_neg elsewhere)

/-- What the code of an assignment leaves: without a temporary array, each element
is computed from what the ones before it left. -/
def assigned (store : Store α sizes) : Store α sizes :=
  if Scope.isAliased target value then
    store.combine (frame.startOf target) target op (frame.valueIn store value)
  else
    target.elements.foldl (frame.storing target op value) store

/-- What an assignment stores can be stored as it is, whatever the arrays hold. -/
def StoresWhole (program : Program α) (routine : Routine α) : Prop :=
  ∀ store : Store α program.table.sizes,
    HoldsWhole ((frame.activation routine).kindOf program target.base) op
      (frame.valueIn store value)

end Frame

variable [ExactScalar α] {program : Program α} {routine : Routine α}
  {extremes : Program.Extremes} {frame : Frame} {target : Window} {op : AssignOp}
  {value : Expr α} {running : Running α σ program.table.sizes}
  (shapes : program.GivesShapes)
  (fitting : program.fitsStatement routine extremes (.assign target op value) = true)
  (suits : frame.Suits program routine extremes running.world.store)
  (counted : frame.CountedBy running.counters)
  (keeps : program.KeepsConstants running.world.store.memory)
  (variable_target : ¬program.IsConstant (frame.startOf target).buffer)
  (whole : frame.StoresWhole target op value program routine)

include shapes fitting suits counted keeps variable_target whole in
/-- One element: the code computes it from the store that it finds. -/
theorem visit?_eq {element : Nat × Nat} (mem : element ∈ target.elements) :
    (frame.activation routine).visit? program target op value running element =
      some (running.update fun store => frame.storing target op value store element) := by
  have inStep : frame.InStep program routine extremes (fun _ => False) running.world running :=
    ⟨suits, keeps, counted, .refl _ _, rfl⟩
  have assigns : frame.Assigns program routine (fun _ => False) running.world.store target op
      value :=
    ⟨variable_target, whole _, .inr fun _ _ => id, fun _ _ _ _ _ _ => id⟩
  -- no element is stored before it, so that it depends on none of them
  obtain ⟨after, visited, synced⟩ := visit?_synced inStep fitting assigns mem
    (synced_start frame target op value inStep.synced) shapes (List.forall_mem_nil _)
  have after_eq : after = frame.storing target op value running.world.store element :=
    (synced.mono fun _ notSet => notSet.1).eq
  rw [after_eq] at visited
  exact visited.trans (congrArg some (Running.update_congr rfl))

include shapes fitting suits counted keeps variable_target whole in
/-- All elements, by induction: storing one of them keeps the sizes of the arrays
and what the constants hold. -/
theorem foldlM_visit? {elements : List (Nat × Nat)} (listed : elements ⊆ target.elements) :
    elements.foldlM ((frame.activation routine).visit? program target op value) running =
      some (running.update fun store =>
        elements.foldl (frame.storing target op value) store) := by
  induction elements generalizing running with
  | nil => rfl
  | cons element rest ih =>
      have visited := visit?_eq shapes fitting suits counted keeps variable_target whole
        (listed List.mem_cons_self)
      let next := running.update fun store => frame.storing target op value store element
      have alike := frame.alike_storing target op value running.world.store element
      have next_keeps : program.KeepsConstants next.world.store.memory := by
        refine keeps.congr fun id constant => ?_
        have elsewhere : Buffer.global id ≠ (frame.startOf target).buffer := fun same =>
          variable_target (same ▸ constant)
        exact frame.content_storing target op value running.world.store element elsewhere
      rw [List.foldlM_cons, visited]
      exact ih (suits.of_alike alike.symm) counted next_keeps
        fun other mem => listed (List.mem_cons_of_mem element mem)

include shapes fitting suits counted keeps variable_target whole in
/-- The code of an assignment leaves what is computed and stored element by element,
unless it goes through a temporary array. -/
theorem settles_assigned (host : Host α σ program.table.sizes) (remains : Remains α) :
    Settles
      (fun fuel =>
        runAll (program.executeCode host remains fuel (frame.activation routine))
          ((Scope.mk program.table routine.locals).lower (.assign target op value)) running)
      (running.update (frame.assigned target op value)) := by
  by_cases aliased : Scope.isAliased target value = true
  · have staged := code_of_assignment shapes fitting suits counted keeps variable_target (whole _)
      (.inl aliased) (program.scene host 0) host remains
    rw [Statement.effect_assign] at staged
    have same : running.update (frame.assigned target op value) =
        running.update fun store =>
          store.combine (frame.startOf target) target op (frame.valueIn store value) :=
      Running.update_congr (if_pos aliased)
    rw [same]
    exact staged
  · have visited := foldlM_visit? shapes fitting suits counted keeps variable_target whole
      (List.Subset.refl target.elements)
    have same : running.update (frame.assigned target op value) =
        running.update fun store =>
          target.elements.foldl (frame.storing target op value) store :=
      Running.update_congr (if_neg aliased)
    rw [same, Scope.lower_assign]
    exact settles_direct aliased visited host remains

end InOrder

/-- The code of an assignment of a certified program.  Whichever assignment a routine
reaches, with whatever values of its indices, and whatever the memory holds beside
the constants of the module: the evaluation returns, the code ends, and both leave
the same if the code takes a temporary array or no element depends on a cell that
an element before it was stored in.  The target is no constant of the module, and
what is stored in an array of whole numbers is whole. -/
theorem code_of_certified_assignment {α σ : Type} [Scalar α] [ExactScalar α]
    {program : Program α} {uses : Bool}
    (complete : (program.certify uses).isComplete = true) (shapes : program.GivesShapes)
    {routine : Routine α} (mem : routine ∈ program.routines) {valuation : Valuation}
    (admits : routine.Admits valuation) {frame : Frame} {target : Window} {op : AssignOp}
    {value : Expr α}
    (reached : Statement.Reached valuation routine.body frame.scope (.assign target op value))
    {running : Running α σ program.table.sizes}
    (suits : frame.Suits program routine frame.scope running.world.store)
    (counted : frame.CountedBy running.counters)
    (keeps : program.KeepsConstants running.world.store.memory)
    (variable_target : ¬program.IsConstant (frame.startOf target).buffer)
    (whole : frame.StoresWhole target op value program routine)
    (host : Host α σ program.table.sizes) (depth : Nat) (remains : Remains α) :
    ∃ evaluated,
      Execution.Returns
          ((Statement.assign target op value).execute (program.surroundings host depth) frame)
          running.world () evaluated ∧
      Settles
        (fun fuel =>
          runAll (program.executeCode host remains fuel (frame.activation routine))
            ((Scope.mk program.table routine.locals).lower (.assign target op value)) running)
        (running.update (frame.assigned target op value)) ∧
      (Scope.isAliased target value = true ∨ frame.ReadsFirst target value →
        running.world.update (frame.assigned target op value) = evaluated) := by
  have fitting := Program.fits_of_certified complete mem admits reached
  have returns : Execution.Returns
      ((Statement.assign target op value).execute (program.surroundings host depth) frame)
      running.world ()
      ((Statement.assign target op value).effect (program.scene host depth) frame running.world) :=
    (Statement.returns_execute _ fitting trivial suits).1
  have settles :=
    settles_assigned shapes fitting suits counted keeps variable_target whole host remains
  refine ⟨_, returns, settles, fun ordered => ?_⟩
  have ends := code_of_assignment shapes fitting suits counted keeps variable_target (whole _)
    ordered (program.scene host depth) host remains
  exact congrArg Running.world (settles.unique ends)

/-- A routine that copies two elements of an array of three within the array. -/
def Program.copying (target source : Nat) : Program ℚ where
  moduleName := "ocp"
  dims := ⟨1, 1, 1, 1, 1, 0⟩
  table := ⟨[.real .workspace "g" 3 1 ""]⟩
  externals := []
  routines :=
    [{ name := "copy"
       doc := none
       parameters := []
       locals := []
       result := none
       body :=
        [.set (.vector (.global 0) (.const target) 2)
          (.read (.vector (.global 0) (.const source) 2))] }]
  numQpVars := 0
  rowCounts := []

/-- Copying to the front reads every element before it is overwritten. -/
theorem code_copying_front :
    let program := Program.copying 0 1
    let frame : Frame := ⟨"copy", [], 0, []⟩
    let target := Window.vector (.global 0) (.const 0) 2
    let value : Expr ℚ := .read (.vector (.global 0) (.const 1) 2)
    let running : Running ℚ Unit program.table.sizes :=
      ⟨⟨⟨program.initialMemory.overwrite 0 #[1, 2, 3], #[]⟩, ()⟩, fun _ => 0, 0⟩
    (program.certify false).isComplete = true ∧ frame.ReadsFirst target value ∧
      ∃ evaluated,
        Execution.Returns
            ((Statement.assign target .set value).execute (program.surroundings Host.idle 0) frame)
            running.world () evaluated ∧
          Settles
            (fun fuel =>
              runAll
                (program.executeCode Host.idle ⟨fun _ _ _ => 7, fun _ _ => 7⟩ fuel
                  (frame.activation program.routines[0]))
                ((Scope.mk program.table []).lower (.assign target .set value)) running)
            { running with world := evaluated } := by
  intro program frame target value running
  have complete : (program.certify false).isComplete = true := by decide
  have readsFirst : frame.ReadsFirst target value := by
    unfold Frame.ReadsFirst
    decide
  have shapes : program.GivesShapes := by
    intro id decl found content given
    cases id with
    | zero =>
        cases found
        contradiction
    | succ id => contradiction
  have variable_table :
      ∀ id decl, program.table.get? id = some decl → decl.storage ≠ .constant := by
    intro id decl found
    cases id with
    | zero =>
        cases found
        decide
    | succ id => contradiction
  have suits : frame.Suits program program.routines[0] [] running.world.store := by
    refine ⟨.nil, fun base size sized => ?_⟩
    cases base with
    | global id =>
        cases id with
        | zero =>
            cases sized
            exact ⟨⟨.global 0, 0⟩, rfl, by decide⟩
        | succ id => contradiction
    | parameter position => contradiction
    | own position => contradiction
  have counted : frame.CountedBy running.counters := by
    intro name value found
    contradiction
  have keeps : program.KeepsConstants running.world.store.memory := by
    intro id decl found constant
    exact absurd constant (variable_table id decl found)
  have variable_target : ¬program.IsConstant (frame.startOf target).buffer := by
    rintro ⟨id, decl, _, found, constant⟩
    exact variable_table id decl found constant
  have mem : program.routines[0] ∈ program.routines := List.getElem_mem _
  have reached : Statement.Reached [] program.routines[0].body frame.scope
      (.assign target .set value) := .here List.mem_cons_self
  obtain ⟨evaluated, returns, settles, agrees⟩ :=
    code_of_certified_assignment complete shapes mem .nil reached suits counted keeps
      variable_target (fun _ => .inl rfl) Host.idle 0 ⟨fun _ _ _ => 7, fun _ _ => 7⟩
  have same : running.update (frame.assigned target .set value) =
      { running with world := evaluated } := by
    rw [← agrees (.inr readsFirst)]
    rfl
  exact ⟨complete, readsFirst, evaluated, returns, same ▸ settles⟩

/-- Copying to the back overwrites an element that is read later, in a certified
program all the same: the code repeats the first element, the evaluation does
not. -/
theorem code_copying_back :
    let program := Program.copying 1 0
    let memory := program.initialMemory.overwrite 0 #[1, 2, 3]
    (program.certify false).isComplete = true ∧
      (program.run Host.idle () memory "copy" []).memory.content 0 = #[1, 1, 2] ∧
      Settles
        (fun fuel =>
          (program.runCode Host.idle ⟨fun _ _ _ => 7, fun _ _ => 7⟩ fuel () memory "copy" []).map
            fun outcome => outcome.memory.content 0)
        #[1, 1, 1] :=
  ⟨by decide, rfl, 1, fun fuel enough => by
    obtain ⟨fuel, rfl⟩ := Nat.exists_eq_add_of_le' enough
    rfl⟩

end RtiAssembly
