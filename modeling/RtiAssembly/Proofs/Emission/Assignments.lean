import RtiAssembly.Proofs.Emission.Stores

/-!
# Assignments element by element

An evaluation computes the whole right-hand side before it stores the first
element; generated code stores one element after the other.  Both leave the same
memory if no element depends on a cell that an element before it was stored in,
or if the code collects all values in a temporary array first.
-/

namespace RtiAssembly

/-! ## One element after the other -/

namespace Store

variable {α : Type} {sizes : List Nat} [Scalar α]

theorem read_write_of_ne (store : Store α sizes) {cell other : Cell} (elsewhere : other ≠ cell)
    (value : α) : (store.write cell value).read other = store.read other := by
  obtain ⟨buffer, position⟩ := cell
  obtain ⟨otherBuffer, otherPosition⟩ := other
  simp only [read, content_write]
  by_cases sameBuffer : otherBuffer = buffer
  · subst sameBuffer
    have position_ne : position ≠ otherPosition := fun same => elsewhere (by rw [same])
    simp [Array.getD_eq_getD_getElem?, Array.getElem?_setIfInBounds_ne position_ne]
  · simp [sameBuffer]

/-- Combine some elements of a window with those of a matrix. -/
def combineEach (store : Store α sizes) (start : Cell) (window : Window) (op : AssignOp)
    (value : Matrix α) (elements : List (Nat × Nat)) : Store α sizes :=
  elements.foldl
    (fun store element =>
      let cell := start.plus (window.position element.1 element.2)
      store.write cell (op.combine (store.read cell) (value.entry element.1 element.2)))
    store

theorem combineEach_elements (store : Store α sizes) (start : Cell) (window : Window)
    (op : AssignOp) (value : Matrix α) :
    store.combineEach start window op value window.elements =
      store.combine start window op value := rfl

theorem combineEach_concat (store : Store α sizes) (start : Cell) (window : Window)
    (op : AssignOp) (value : Matrix α) (elements : List (Nat × Nat)) (element : Nat × Nat) :
    store.combineEach start window op value (elements ++ [element]) =
      let before := store.combineEach start window op value elements
      let cell := start.plus (window.position element.1 element.2)
      before.write cell (op.combine (before.read cell) (value.entry element.1 element.2)) := by
  simp only [combineEach, List.foldl_append, List.foldl_cons, List.foldl_nil]

variable {store : Store α sizes} {start : Cell} {window : Window} {op : AssignOp}
  {value : Matrix α} {elements : List (Nat × Nat)}

theorem alike_combineEach (store : Store α sizes) (start : Cell) (window : Window) (op : AssignOp)
    (value : Matrix α) (elements : List (Nat × Nat)) :
    (store.combineEach start window op value elements).Alike store := by
  induction elements generalizing store with
  | nil => exact .refl store
  | cons element rest ih => exact (ih _).trans (alike_write store _ _)

theorem read_combineEach {cell : Cell}
    (elsewhere : ∀ element ∈ elements, cell ≠ start.plus (window.position element.1 element.2)) :
    (store.combineEach start window op value elements).read cell = store.read cell := by
  induction elements generalizing store with
  | nil => rfl
  | cons element rest ih =>
      have here := elsewhere element List.mem_cons_self
      refine Eq.trans (ih fun other mem => elsewhere other (List.mem_cons_of_mem element mem)) ?_
      exact read_write_of_ne store here _

theorem content_combineEach {buffer : Buffer} (elsewhere : buffer ≠ start.buffer)
    (elements : List (Nat × Nat)) :
    (store.combineEach start window op value elements).content buffer = store.content buffer := by
  induction elements generalizing store with
  | nil => rfl
  | cons element rest ih =>
      refine ih.trans ?_
      rw [content_write, if_neg]
      exact elsewhere

end Store

/-! ## Frames in step -/

namespace Frame

variable {α σ : Type}

/-- The cells of a window. -/
def Covers (frame : Frame) (target : Window) (cell : Cell) : Prop :=
  ∃ element ∈ target.elements, cell = frame.cellAt target element.1 element.2

/-- No element of an assignment depends on a cell that an element before it is
stored in. -/
def ReadsFirst (frame : Frame) (target : Window) (value : Expr α) : Prop :=
  target.elements.Pairwise fun earlier later =>
    ∀ read ∈ value.readsAt later.1 later.2,
      frame.cellAt read.1 read.2.1 read.2.2 ≠ frame.cellAt target earlier.1 earlier.2

variable [Scalar α]

/-- Running code is in step with an evaluation: the frame suits the routine, the
integer variables have the values of the indices, and the stores agree. -/
structure InStep (program : Program α) (routine : Routine α) (extremes : Program.Extremes)
    (frame : Frame) (unset : Cell → Prop) (world : World α σ program.table.sizes)
    (running : Running α σ program.table.sizes) : Prop where
  suits : frame.Suits program routine extremes world.store
  keeps : program.KeepsConstants world.store.memory
  counted : frame.CountedBy running.counters
  synced : world.store.Synced unset running.world.store
  state_eq : running.world.state = world.state

/-- A value that an array holds as it is: the array has real elements, or the
value is set and has no fraction. -/
def HoldsWhole (kind : ElementKind) (op : AssignOp) (value : Matrix α) : Prop :=
  kind = .real ∨ op = .set ∧ ∀ row col, Scalar.IsWhole (value.entry row col)

theorem HoldsWhole.hold_eq {kind : ElementKind} {op : AssignOp} {value : Matrix α}
    (holds : HoldsWhole kind op value) (old : α) (row col : Nat) :
    kind.hold (op.combine old (value.entry row col)) = op.combine old (value.entry row col) := by
  unfold ElementKind.hold
  rcases holds with real | ⟨rfl, whole⟩
  · rw [if_pos real]
  · split
    · rfl
    · exact whole row col

theorem HoldsWhole.written_eq {kind : ElementKind} {op : AssignOp} {value : Matrix α}
    (holds : HoldsWhole kind op value) (term : Term α) (row col : Nat) :
    term.written (kind != .real) (value.entry row col) = value.entry row col := by
  unfold Term.written
  rcases holds with rfl | ⟨rfl, whole⟩
  · rfl
  · split
    · exact whole row col
    · rfl

end Frame

/-! ## Assignments -/

/-- Adding or subtracting zero leaves what was there. -/
theorem AssignOp.combine_zero {α : Type} [Scalar α] [ExactScalar α] {op : AssignOp}
    (op_ne : op ≠ .set) (old : α) : op.combine old 0 = old := by
  cases op with
  | set => exact absurd rfl op_ne
  | add => exact ExactScalar.add_zero old
  | sub => exact ExactScalar.sub_zero old

/-- What the code does for an element of an assignment without a temporary array. -/
def Activation.visit? {α σ : Type} [Scalar α] (active : Activation α) (program : Program α)
    (target : Window) (op : AssignOp) (value : Expr α)
    (running : Running α σ program.table.sizes) (element : Nat × Nat) :
    Option (Running α σ program.table.sizes) :=
  let term := (Scope.mk program.table active.routine.locals).element value element.1 element.2
  if op == .set || !term.isZero then
    active.storeTerm? program running (target.place element.1 element.2) op term
      (active.kindOf program target.base != .real)
  else
    some running

theorem Activation.storeTerm?_of_value? {α σ : Type} [Scalar α] {program : Program α}
    {active : Activation α} {running : Running α σ program.table.sizes} {target : Place}
    {op : AssignOp} {term : Term α} {isWhole : Bool} {number : α}
    (computed : term.value? (active.read? program running) = some number) :
    active.storeTerm? program running target op term isWhole =
      active.store? program running target op (term.written isWhole number) := by
  rw [storeTerm?, computed]
  rfl

section Assignments

variable {α σ : Type} [Scalar α] {program : Program α} {routine : Routine α}
  {extremes : Program.Extremes} {frame : Frame} {unset : Cell → Prop}
  {world : World α σ program.table.sizes} {running : Running α σ program.table.sizes}
  {target : Window} {op : AssignOp} {value : Expr α}

/-- The store after some elements have been stored. -/
def Frame.partly (frame : Frame) (store : Store α program.table.sizes) (target : Window)
    (op : AssignOp) (value : Expr α) (done : List (Nat × Nat)) : Store α program.table.sizes :=
  store.combineEach (frame.startOf target) target op (frame.valueIn store value) done

theorem Frame.alike_partly (frame : Frame) (store : Store α program.table.sizes)
    (target : Window) (op : AssignOp) (value : Expr α) (done : List (Nat × Nat)) :
    (frame.partly store target op value done).Alike store :=
  Store.alike_combineEach _ _ _ _ _ _

/-- The cells that are unset after some elements have been stored. -/
def Frame.stillUnset (frame : Frame) (unset : Cell → Prop) (target : Window)
    (done : List (Nat × Nat)) (cell : Cell) : Prop :=
  unset cell ∧ ∀ element ∈ done, cell ≠ frame.cellAt target element.1 element.2

theorem Frame.stillUnset_concat {done : List (Nat × Nat)} {element : Nat × Nat} {cell : Cell}
    (notSet : frame.stillUnset unset target done cell)
    (ne : cell ≠ frame.cellAt target element.1 element.2) :
    frame.stillUnset unset target (done ++ [element]) cell := by
  refine ⟨notSet.1, fun other mem => ?_⟩
  rcases List.mem_append.1 mem with before | here
  · exact notSet.2 other before
  · rw [List.mem_singleton.1 here]
    exact ne

/-- Before the first element is stored. -/
theorem synced_start (frame : Frame) {store code : Store α program.table.sizes}
    (target : Window) (op : AssignOp) (value : Expr α) (synced : store.Synced unset code) :
    (frame.partly store target op value []).Synced (frame.stillUnset unset target []) code :=
  synced.mono fun _ notSet => ⟨notSet, List.forall_mem_nil _⟩

/-- Visiting all elements keeps the code in step if visiting each of them does. -/
theorem foldlM_synced
    (visit : Running α σ program.table.sizes → Nat × Nat →
      Option (Running α σ program.table.sizes))
    (each : ∀ done element later, target.elements = done ++ element :: later → ∀ code,
      (frame.partly world.store target op value done).Synced
          (frame.stillUnset unset target done) code →
        ∃ after, visit (running.update fun _ => code) element =
            some (running.update fun _ => after) ∧
          (frame.partly world.store target op value (done ++ [element])).Synced
            (frame.stillUnset unset target (done ++ [element])) after)
    (synced : world.store.Synced unset running.world.store) :
    ∃ after, target.elements.foldlM visit running = some (running.update fun _ => after) ∧
      (world.store.combine (frame.startOf target) target op
          (frame.valueIn world.store value)).Synced
        (fun cell => unset cell ∧ ¬frame.Covers target cell) after := by
  -- From any point of the list on, in the store that the elements before it leave.
  have from_point (later : List (Nat × Nat)) : ∀ done, target.elements = done ++ later →
      ∀ code, (frame.partly world.store target op value done).Synced
          (frame.stillUnset unset target done) code →
        ∃ after, later.foldlM visit (running.update fun _ => code) =
            some (running.update fun _ => after) ∧
          (frame.partly world.store target op value target.elements).Synced
            (frame.stillUnset unset target target.elements) after := by
    induction later with
    | nil =>
        intro done split code codeSynced
        rw [List.append_nil] at split
        rw [split]
        exact ⟨code, rfl, codeSynced⟩
    | cons element later ih =>
        intro done split code codeSynced
        obtain ⟨after, visited, afterSynced⟩ := each done element later split code codeSynced
        obtain ⟨last, rest, lastSynced⟩ :=
          ih (done ++ [element]) (by rw [split, List.append_assoc]; rfl) after afterSynced
        refine ⟨last, ?_, lastSynced⟩
        rw [List.foldlM_cons, visited]
        exact rest
  obtain ⟨after, visited, afterSynced⟩ :=
    from_point target.elements [] rfl _ (synced_start frame target op value synced)
  refine ⟨after, visited, ?_⟩
  rw [Frame.partly, Store.combineEach_elements] at afterSynced
  refine afterSynced.mono ?_
  rintro cell ⟨notSet, elsewhere⟩
  refine ⟨notSet, ?_⟩
  rintro ⟨element, mem, same⟩
  exact elsewhere element mem same

/-- What an assignment relies on beside its windows: its target is no constant
array and holds the value, old content that matters is set, and so is all that
the value depends on. -/
structure Frame.Assigns (program : Program α) (routine : Routine α) (frame : Frame)
    (unset : Cell → Prop) (store : Store α program.table.sizes) (target : Window)
    (op : AssignOp) (value : Expr α) : Prop where
  variable_target : ¬program.IsConstant (frame.startOf target).buffer
  holds : HoldsWhole ((frame.activation routine).kindOf program target.base) op
    (frame.valueIn store value)
  old_set : op = .set ∨ ∀ cell, frame.Covers target cell → ¬unset cell
  reads_set : ∀ window ∈ value.windows, ∀ row < window.shape.1, ∀ col < window.shape.2,
    ¬unset (frame.cellAt window row col)

section Elements

variable (inStep : frame.InStep program routine extremes unset world running)
  (fitting : program.fitsStatement routine extremes (.assign target op value) = true)
  (assigns : frame.Assigns program routine unset world.store target op value)
  {done : List (Nat × Nat)} {element : Nat × Nat} (mem : element ∈ target.elements)
  {code : Store α program.table.sizes}
  (synced : (frame.partly world.store target op value done).Synced
    (frame.stillUnset unset target done) code)

include inStep fitting mem synced in
/-- The cell of an element, in the store that the elements before it leave. -/
theorem element_inside :
    (frame.activation routine).reach? program 1 (running.update fun _ => code)
        (target.place element.1 element.2) = some (frame.cellAt target element.1 element.2) ∧
      (frame.cellAt target element.1 element.2).position <
        ((frame.partly world.store target op value done).content
          (frame.cellAt target element.1 element.2).buffer).size := by
  simp only [Program.fitsStatement, Bool.and_eq_true] at fitting
  obtain ⟨row_lt, col_lt⟩ := Window.mem_positions.1 mem
  have suits := inStep.suits.of_alike (frame.alike_partly world.store target op value done).symm
  have counted : frame.CountedBy (running.update fun _ => code).counters := inStep.counted
  exact ⟨Frame.reach?_place suits fitting.1.2 counted synced.alike row_lt col_lt,
    Frame.inside_of_fits suits fitting.1.2 row_lt col_lt⟩

include inStep fitting assigns mem synced in
/-- Storing an element keeps the code in step. -/
theorem store?_synced {number : α}
    (written_eq : number =
      (frame.valueIn world.store value).entry element.1 element.2) :
    ∃ after, (frame.activation routine).store? program (running.update fun _ => code)
        (target.place element.1 element.2) op number =
          some (running.update fun _ => after) ∧
      (frame.partly world.store target op value (done ++ [element])).Synced
        (frame.stillUnset unset target (done ++ [element])) after := by
  obtain ⟨reached, inside⟩ := element_inside inStep fitting mem synced
  have known : op = .set ∨
      ¬frame.stillUnset unset target done (frame.cellAt target element.1 element.2) := by
    refine assigns.old_set.imp_right fun set notSet => ?_
    exact set _ ⟨element, mem, rfl⟩ notSet.1
  have combined := synced.combine inside known
    ((frame.valueIn world.store value).entry element.1 element.2)
  let cell := frame.cellAt target element.1 element.2
  refine ⟨code.write cell (op.combine (code.read cell) number), ?_, ?_⟩
  · have hold_eq := assigns.holds.hold_eq (code.read cell) element.1 element.2
    rw [← written_eq] at hold_eq
    simp only [Activation.store?, reached, Option.bind_eq_bind, Option.bind_some]
    exact congrArg (fun held => some (running.update fun _ => code.write cell held)) hold_eq
  · rw [Frame.partly, Store.combineEach_concat, written_eq]
    exact combined.mono fun cell ⟨notSet, ne⟩ => Frame.stillUnset_concat notSet ne

variable [ExactScalar α] (shapes : program.GivesShapes)
  (untouched : ∀ earlier ∈ done, ∀ read ∈ value.readsAt element.1 element.2,
    frame.cellAt read.1 read.2.1 read.2.2 ≠ frame.cellAt target earlier.1 earlier.2)

include inStep fitting assigns mem synced in
/-- Adding or subtracting zero stores what was there. -/
theorem synced_skip (op_ne : op ≠ .set)
    (zero : (frame.valueIn world.store value).entry element.1 element.2 = 0) :
    (frame.partly world.store target op value (done ++ [element])).Synced
      (frame.stillUnset unset target (done ++ [element])) code := by
  obtain ⟨_, inside⟩ := element_inside inStep fitting mem synced
  have same : frame.partly world.store target op value (done ++ [element]) =
      frame.partly world.store target op value done := by
    rw [Frame.partly, Store.combineEach_concat, zero]
    simp only [AssignOp.combine_zero op_ne]
    exact Store.write_read inside
  rw [same]
  refine synced.mono fun cell notSet => Frame.stillUnset_concat notSet ?_
  rintro rfl
  exact assigns.old_set.resolve_left op_ne _ ⟨element, mem, rfl⟩ notSet.1

include inStep fitting assigns mem synced shapes untouched in
/-- The term of an element has the value that the element had before the first
one was stored. -/
theorem value?_element_synced :
    ((Scope.mk program.table routine.locals).element value element.1 element.2).value?
        ((frame.activation routine).read? program (running.update fun _ => code)) =
      some ((frame.valueIn world.store value).entry element.1 element.2) := by
  obtain ⟨row_lt, col_lt⟩ := Window.mem_positions.1 mem
  simp only [Program.fitsStatement, Bool.and_eq_true, beq_iff_eq, List.all_eq_true] at fitting
  obtain ⟨⟨shaped, _⟩, fits⟩ := fitting
  have suits := inStep.suits.of_alike (frame.alike_partly world.store target op value done).symm
  have keeps : program.KeepsConstants (frame.partly world.store target op value done).memory := by
    refine inStep.keeps.congr fun id constant => ?_
    have elsewhere : Buffer.global id ≠ (frame.startOf target).buffer := fun same =>
      assigns.variable_target (same ▸ constant)
    exact Store.content_combineEach elsewhere done
  have counted : frame.CountedBy (running.update fun _ => code).counters := inStep.counted
  refine Scope.value?_element shaped (fun window => rfl) row_lt col_lt fun window i j isRead => ?_
  obtain ⟨listed, i_lt, j_lt⟩ := Expr.inside_of_readsAt shaped row_lt col_lt isRead
  have set : ¬frame.stillUnset unset target done (frame.cellAt window i j) := fun notSet =>
    assigns.reads_set window listed i i_lt j j_lt notSet.1
  have read_eq := Frame.value?_read shapes suits (fits window listed) keeps counted synced i_lt
    j_lt set
  have kept : (frame.partly world.store target op value done).read (frame.cellAt window i j) =
      world.store.read (frame.cellAt window i j) :=
    Store.read_combineEach fun earlier before => untouched earlier before _ isRead
  have shown_eq : (frame.shown world.store window).entry i j =
      world.store.read (frame.cellAt window i j) :=
    Matrix.entry_ofFn (fun row col => world.store.read (frame.cellAt window row col)) i_lt j_lt
  rw [read_eq, kept, shown_eq]

include inStep fitting assigns mem synced shapes untouched in
/-- An element that is computed when it is stored keeps the code in step. -/
theorem visit?_synced :
    ∃ after, (frame.activation routine).visit? program target op value
        (running.update fun _ => code) element = some (running.update fun _ => after) ∧
      (frame.partly world.store target op value (done ++ [element])).Synced
        (frame.stillUnset unset target (done ++ [element])) after := by
  have computed := value?_element_synced inStep fitting assigns mem synced shapes untouched
  let term := (Scope.mk program.table routine.locals).element value element.1 element.2
  by_cases stored : (op == .set || !term.isZero) = true
  · have written_eq := assigns.holds.written_eq term element.1 element.2
    obtain ⟨after, stores, afterSynced⟩ :=
      store?_synced inStep fitting assigns mem synced written_eq
    refine ⟨after, (if_pos stored).trans ?_, afterSynced⟩
    exact (Activation.storeTerm?_of_value? computed).trans stores
  · have skipped := stored
    rw [Bool.not_eq_true, Bool.or_eq_false_iff, Bool.not_eq_false'] at skipped
    have op_ne : op ≠ .set := by
      rintro rfl
      exact Bool.noConfusion skipped.1
    exact ⟨code, if_neg stored, synced_skip inStep fitting assigns mem synced op_ne
      (Term.value_of_isZero skipped.2 computed)⟩

end Elements

variable [ExactScalar α]

/-- Without a temporary array: each element is computed when it is stored. -/
theorem direct_synced (shapes : program.GivesShapes)
    (inStep : frame.InStep program routine extremes unset world running)
    (fitting : program.fitsStatement routine extremes (.assign target op value) = true)
    (assigns : frame.Assigns program routine unset world.store target op value)
    (readsFirst : frame.ReadsFirst target value) :
    ∃ after,
      target.elements.foldlM ((frame.activation routine).visit? program target op value) running =
          some (running.update fun _ => after) ∧
      (world.store.combine (frame.startOf target) target op
          (frame.valueIn world.store value)).Synced
        (fun cell => unset cell ∧ ¬frame.Covers target cell) after := by
  refine foldlM_synced _ (fun done element later split code synced => ?_) inStep.synced
  have mem : element ∈ target.elements := by
    rw [split]
    exact List.mem_append_right _ List.mem_cons_self
  refine visit?_synced inStep fitting assigns mem synced shapes fun earlier before => ?_
  rw [Frame.ReadsFirst, split] at readsFirst
  exact (List.pairwise_append.1 readsFirst).2.2 earlier before element List.mem_cons_self

/-- With a temporary array: all elements are computed before the first is
stored. -/
theorem staged_synced (shapes : program.GivesShapes)
    (inStep : frame.InStep program routine extremes unset world running)
    (fitting : program.fitsStatement routine extremes (.assign target op value) = true)
    (assigns : frame.Assigns program routine unset world.store target op value) :
    ∃ after,
      (frame.activation routine).stage? program running op
          ((Scope.mk program.table routine.locals).stores target value) =
        some (running.update fun _ => after) ∧
      (world.store.combine (frame.startOf target) target op
          (frame.valueIn world.store value)).Synced
        (fun cell => unset cell ∧ ¬frame.Covers target cell) after := by
  let active := frame.activation routine
  let scope := Scope.mk program.table routine.locals
  let entry (element : Nat × Nat) : α :=
    (frame.valueIn world.store value).entry element.1 element.2
  have started : (frame.partly world.store target op value []).Synced
      (frame.stillUnset unset target []) running.world.store :=
    synced_start frame target op value inStep.synced
  have computed : (scope.stores target value).mapM
      (fun entry => entry.2.value? (active.read? program running)) =
        some (target.elements.map entry) := by
    have each (elements : List (Nat × Nat)) : elements ⊆ target.elements →
        elements.mapM (fun element =>
          (scope.element value element.1 element.2).value? (active.read? program running)) =
            some (elements.map entry) := by
      induction elements with
      | nil => exact fun _ => rfl
      | cons element rest ih =>
          intro listed
          have value_eq : (scope.element value element.1 element.2).value?
              (active.read? program running) = some (entry element) :=
            value?_element_synced inStep fitting assigns (listed List.mem_cons_self) started
              shapes (List.forall_mem_nil _)
          rw [List.mapM_cons, value_eq, ih fun other mem => listed (List.mem_cons_of_mem _ mem)]
          rfl
    rw [Scope.stores, List.mapM_map]
    exact each target.elements (List.Subset.refl _)
  obtain ⟨after, stores, synced⟩ := foldlM_synced
    (fun running element =>
      active.store? program running (target.place element.1 element.2) op (entry element))
    (fun done element later split code synced =>
      store?_synced inStep fitting assigns
        (split ▸ List.mem_append_right done List.mem_cons_self) synced rfl) inStep.synced
  refine ⟨after, ?_, synced⟩
  simp only [Activation.stage?]
  rw [computed]
  simp only [Scope.stores, Option.bind_eq_bind, Option.bind_some, List.zip_map', List.foldlM_map]
  exact stores

omit [Scalar α] [ExactScalar α] in
theorem Running.update_congr {sizes : List Nat} {running : Running α σ sizes}
    {first second : Store α sizes → Store α sizes}
    (same : first running.world.store = second running.world.store) :
    running.update first = running.update second := by
  simp only [update, World.update, same]

omit [ExactScalar α] in
theorem Statement.effect_assign {sizes : List Nat} (scene : Scene α σ sizes) (frame : Frame)
    (target : Window) (op : AssignOp) (value : Expr α) (world : World α σ sizes) :
    (Statement.assign target op value).effect scene frame world =
      world.update fun store =>
        store.combine (frame.startOf target) target op (frame.valueIn store value) := by
  rw [Statement.effect]

omit [ExactScalar α] in
theorem Scope.lower_assign (scope : Scope α) (target : Window) (op : AssignOp)
    (value : Expr α) :
    scope.lower (.assign target op value) = scope.assign target op value := by
  rw [Scope.lower]

omit [ExactScalar α] in
/-- Without a temporary array, the code of an assignment is done when all elements
have been visited. -/
theorem settles_direct (direct : ¬Scope.isAliased target value = true) {active : Activation α}
    {after : Running α σ program.table.sizes}
    (visits : target.elements.foldlM (active.visit? program target op value) running = some after)
    (host : Host α σ program.table.sizes) (remains : Remains α) :
    Settles
      (fun fuel =>
        runAll (program.executeCode host remains fuel active)
          ((Scope.mk program.table active.routine.locals).assign target op value) running)
      after := by
  refine (Settles.of_eq fun _ => visits).succ fun fuel => ?_
  simp only [Scope.assign, if_neg direct, runAll, List.foldlM_map, List.foldlM_filter,
    Scope.stores, Program.executeCode]
  rfl

/-- The code of an assignment leaves what the assignment leaves. -/
theorem assign_synced (shapes : program.GivesShapes)
    (inStep : frame.InStep program routine extremes unset world running)
    (fitting : program.fitsStatement routine extremes (.assign target op value) = true)
    (assigns : frame.Assigns program routine unset world.store target op value)
    (ordered : Scope.isAliased target value = true ∨ frame.ReadsFirst target value)
    (host : Host α σ program.table.sizes) (remains : Remains α) :
    ∃ after,
      Settles
          (fun fuel =>
            runAll (program.executeCode host remains fuel (frame.activation routine))
              ((Scope.mk program.table routine.locals).assign target op value) running)
          (running.update fun _ => after) ∧
        (world.store.combine (frame.startOf target) target op
            (frame.valueIn world.store value)).Synced
          (fun cell => unset cell ∧ ¬frame.Covers target cell) after := by
  by_cases aliased : Scope.isAliased target value = true
  · obtain ⟨after, stage, synced⟩ := staged_synced shapes inStep fitting assigns
    refine ⟨after, ?_, synced⟩
    refine (Settles.of_eq fun _ => stage).succ fun fuel => ?_
    simp only [Scope.assign, if_pos aliased, runAll, List.foldlM_cons, List.foldlM_nil,
      Program.executeCode, bind_pure]
  · have readsFirst := ordered.resolve_left aliased
    obtain ⟨after, visits, synced⟩ := direct_synced shapes inStep fitting assigns readsFirst
    exact ⟨after, settles_direct aliased visits host remains, synced⟩

end Assignments

/-- The code of an assignment that the certificate accepts does what the
assignment does, if it goes through a temporary array or no element depends on a
cell that an element before it was stored in.  The constant arrays hold what
they were declared with, the target is none of them, and what is stored in an
array of whole numbers is whole. -/
theorem code_of_assignment {α σ : Type} [Scalar α] [ExactScalar α] {program : Program α}
    (shapes : program.GivesShapes) {routine : Routine α} {extremes : Program.Extremes}
    {target : Window} {op : AssignOp} {value : Expr α}
    (fitting : program.fitsStatement routine extremes (.assign target op value) = true)
    {frame : Frame} {running : Running α σ program.table.sizes}
    (suits : frame.Suits program routine extremes running.world.store)
    (counted : frame.CountedBy running.counters)
    (keeps : program.KeepsConstants running.world.store.memory)
    (variable_target : ¬program.IsConstant (frame.startOf target).buffer)
    (holds : Frame.HoldsWhole ((frame.activation routine).kindOf program target.base) op
      (frame.valueIn running.world.store value))
    (ordered : Scope.isAliased target value = true ∨ frame.ReadsFirst target value)
    (scene : Scene α σ program.table.sizes) (host : Host α σ program.table.sizes)
    (remains : Remains α) :
    Settles
      (fun fuel =>
        runAll (program.executeCode host remains fuel (frame.activation routine))
          ((Scope.mk program.table routine.locals).lower (.assign target op value)) running)
      { running with
        world := (Statement.assign target op value).effect scene frame running.world } := by
  have inStep : frame.InStep program routine extremes (fun _ => False) running.world running :=
    ⟨suits, keeps, counted, .refl _ _, rfl⟩
  have assigns : frame.Assigns program routine (fun _ => False) running.world.store target op
      value :=
    ⟨variable_target, holds, .inr fun _ _ => id, fun _ _ _ _ _ _ => id⟩
  obtain ⟨after, settles, synced⟩ :=
    assign_synced shapes inStep fitting assigns ordered host remains
  have after_eq := (synced.mono fun _ unset => unset.1).eq
  have updated : (running.update fun _ => after) =
      running.update fun store =>
        store.combine (frame.startOf target) target op (frame.valueIn store value) :=
    Running.update_congr after_eq
  rw [updated] at settles
  simp only [Statement.effect_assign, Scope.lower_assign]
  exact settles

end RtiAssembly
