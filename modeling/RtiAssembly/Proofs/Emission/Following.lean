import RtiAssembly.Proofs.Emission.Orderly
import RtiAssembly.Proofs.Machine.Correctness

/-!
# Statements and their code

The code of statements that meet their obligations leaves what the statements
leave.  Beside the stores and the indices in scope, the two sides agree on which
arrays have been filled: an array of a routine's own holds arbitrary values in
the code until it has been stored to.
-/

namespace RtiAssembly

/-! ## Stores that agree -/

namespace Store.Synced

variable {α : Type} {sizes : List Nat} [Scalar α] {unset other : Cell → Prop}
  {store code : Store α sizes}

theorem size_stack (synced : store.Synced unset code) : code.stack.size = store.stack.size :=
  synced.alike.size_stack

/-- Nothing is read from cells outside their buffers. -/
theorem of_inside (synced : store.Synced unset code)
    (fewer : ∀ cell, cell.position < (store.content cell.buffer).size → unset cell → other cell) :
    store.Synced other code := by
  refine ⟨synced.memory_eq, synced.alike, fun cell set => ?_⟩
  by_cases inside : cell.position < (store.content cell.buffer).size
  · exact synced.read_eq cell fun here => set (fewer cell inside here)
  · have outside : ¬cell.position < (code.content cell.buffer).size := by
      rwa [synced.alike.size_content]
    simp only [read, Array.getD_eq_getD_getElem?, Array.getElem?_eq_none (Nat.le_of_not_lt inside),
      Array.getElem?_eq_none (Nat.le_of_not_lt outside)]

/-- Writing the same values on both sides keeps stores in agreement. -/
theorem writeAll {entries : List (Cell × α)} (synced : store.Synced unset code)
    (inside : ∀ entry ∈ entries, entry.1.position < (store.content entry.1.buffer).size) :
    (store.writeAll entries).Synced unset (code.writeAll entries) := by
  induction entries generalizing store code with
  | nil => exact synced
  | cons entry rest ih =>
      refine ih ((synced.write (inside entry List.mem_cons_self) entry.2).mono fun _ => And.left) ?_
      intro later mem
      rw [size_content_write]
      exact inside later (List.mem_cons_of_mem _ mem)

theorem clear (synced : store.Synced unset code) (id : Nat) :
    (store.clear id).Synced unset (code.clear id) := by
  refine ⟨?_, synced.alike, fun cell set => ?_⟩
  · simp only [Store.clear, synced.memory_eq]
  · obtain ⟨buffer, position⟩ := cell
    cases buffer with
    | global _ => simp only [read, content, Store.clear, synced.memory_eq]
    | stack _ => exact synced.read_eq _ set

end Store.Synced

theorem Store.content_writeAll {α : Type} {sizes : List Nat} {store : Store α sizes}
    {entries : List (Cell × α)} {buffer : Buffer}
    (elsewhere : ∀ entry ∈ entries, entry.1.buffer ≠ buffer) :
    (store.writeAll entries).content buffer = store.content buffer := by
  induction entries generalizing store with
  | nil => rfl
  | cons entry rest ih =>
      refine (ih fun later mem => elsewhere later (List.mem_cons_of_mem _ mem)).trans ?_
      rw [content_write, if_neg (elsewhere entry List.mem_cons_self).symm]

/-! ## Frames -/

namespace Frame

variable {α : Type}

/-- The cells that the code may find other values in: those of arrays that the
callers have not filled, and of the routine's own that it has not. -/
def Unfilled (frame : Frame) (locals : List (ArrayDecl α)) (outer : Cell → Prop)
    (filled : List Nat) (cell : Cell) : Prop :=
  outer cell ∨ ∃ position decl, position ∉ filled ∧ locals[position]? = some decl ∧
    cell.buffer = .stack (frame.height + position) ∧ cell.position < decl.size

/-- What the code of statements relies on in the arrays that it sees: those of the
callers that are not filled are out of reach, what is passed lies below the
routine's own arrays, different bases of one assignment are different arrays, and
no parameter that is stored to is a constant. -/
structure Serves (program : Program α) (pairs : List (Base × Base)) (stored : List Nat)
    (outer : Cell → Prop) (frame : Frame) : Prop where
  outer_own : ∀ cell, outer cell → ∃ position < frame.height, cell.buffer = .stack position
  parameter : ∀ position origin, frame.origin? (.parameter position) = some origin →
    origin.buffer.LiesBelow frame.height ∧ ∀ index, ¬outer ⟨origin.buffer, index⟩
  apart : ∀ pair ∈ pairs, pair.1 ≠ pair.2 → ∀ first second,
    frame.origin? pair.1 = some first → frame.origin? pair.2 = some second →
      first.buffer ≠ second.buffer
  stores : ∀ position ∈ stored, ∀ origin,
    frame.origin? (.parameter position) = some origin → ¬program.IsConstant origin.buffer

variable {program : Program α} {pairs : List (Base × Base)} {stored : List Nat}
  {outer : Cell → Prop} {frame : Frame}

theorem origin?_bind (name : String) (value : Nat) (base : Base) :
    (frame.bind name value).origin? base = frame.origin? base := by
  cases base <;> rfl

theorem Serves.bind (serves : frame.Serves program pairs stored outer) (name : String)
    (value : Nat) : (frame.bind name value).Serves program pairs stored outer where
  outer_own := serves.outer_own
  parameter position origin := by
    rw [origin?_bind]
    exact serves.parameter position origin
  apart pair mem ne first second := by
    rw [origin?_bind, origin?_bind]
    exact serves.apart pair mem ne first second
  stores position mem origin := by
    rw [origin?_bind]
    exact serves.stores position mem origin

/-- Filled arrays hold the same on both sides. -/
theorem Serves.not_unfilled (serves : frame.Serves program pairs stored outer)
    (locals : List (ArrayDecl α)) {filled : List Nat} {base : Base}
    (isFilled : base.IsFilled filled) {origin : Cell}
    (starts : frame.origin? base = some origin) (position : Nat) :
    ¬frame.Unfilled locals outer filled ⟨origin.buffer, position⟩ := by
  rintro (isOuter | ⟨own, decl, notFilled, _, same, _⟩)
  · obtain ⟨below, below_lt, buffer_eq⟩ := serves.outer_own _ isOuter
    cases base with
    | global id => cases starts; contradiction
    | parameter number => exact (serves.parameter number origin starts).2 _ isOuter
    | own number =>
        cases starts
        have same := Buffer.stack.inj buffer_eq
        omega
  · cases base with
    | global id => cases starts; contradiction
    | parameter number =>
        have below := (serves.parameter number origin starts).1
        simp only at same
        rw [same] at below
        simp only [Buffer.LiesBelow] at below
        omega
    | own number =>
        cases starts
        have number_eq : own = number := by
          have positions := Buffer.stack.inj same
          omega
        exact notFilled (number_eq ▸ isFilled)

end Frame

/-! ## Assignments -/

section Assignments

variable {α σ : Type} {program : Program α} {routine : Routine α} {extremes : Program.Extremes}
  {pairs : List (Base × Base)} {stored : List Nat} {outer : Cell → Prop} {frame : Frame}
  {store : Store α program.table.sizes} {target : Window} {value : Expr α}

/-- The cells of a window that fits lie in the buffer of its base. -/
theorem Frame.buffer_startOf (suits : frame.Suits program routine extremes store)
    {window : Window} (fitting : program.fits routine extremes window = true) :
    ∃ origin, frame.origin? window.base = some origin ∧
      (frame.startOf window).buffer = origin.buffer := by
  obtain ⟨origin, _, offset, base, _, index, _⟩ := suits.room fitting
  refine ⟨origin, base, ?_⟩
  rw [startOf_eq base index]
  rfl

/-- An element that is copied to the front lies behind those that are stored before
it. -/
theorem Frame.readsFirst_of_front (suits : frame.Suits program routine extremes store)
    {base : Base} {offset : AffineIndex} {amount length : Nat}
    (fitting : program.fits routine extremes (.vector base offset length) = true) :
    frame.ReadsFirst (.vector base offset length)
      (.read (.vector base (offset.plus amount) length) : Expr α) := by
  obtain ⟨origin, size, start, starts, _, index, _⟩ := suits.room fitting
  have index_plus : ((offset.plus amount).evalIn? fun name => frame.scope.lookup name) =
      some (start + amount) := by
    rw [AffineIndex.evalIn?_plus]
    exact congrArg (Option.map (· + amount)) index
  have target_eq : frame.startOf (.vector base offset length) = origin.plus start :=
    startOf_eq starts index
  have source_eq : frame.startOf (.vector base (offset.plus amount) length) =
      origin.plus (start + amount) := startOf_eq starts index_plus
  have elements_eq : (Window.vector base offset length).elements =
      (List.range length).map fun row => (row, 0) := by
    rw [Window.elements, Window.positions_eq_map]
    simp [Window.vector, Window.dense, Window.shape, Nat.mod_one]
  unfold ReadsFirst
  rw [elements_eq, List.pairwise_map]
  refine List.pairwise_lt_range.imp fun {earlier later} earlier_lt read mem => ?_
  rw [Expr.readsAt, List.mem_singleton] at mem
  subst mem
  intro same
  rw [cellAt, cellAt, source_eq, target_eq] at same
  have positions := congrArg Cell.position same
  simp only [Cell.plus, Window.position, Window.storedPosition, Window.vector, Window.dense,
    Bool.false_eq_true, if_false] at positions
  omega

/-- Different bases are different arrays, so that an assignment that reads ahead
does so in the store. -/
theorem Frame.readsFirst_of_readsAhead (suits : frame.Suits program routine extremes store)
    (serves : frame.Serves program pairs stored outer) {op : AssignOp}
    (listed : (Statement.assign target op value).pairs ⊆ pairs)
    (fitting : program.fitsStatement routine extremes (.assign target op value) = true)
    (ahead : value.ReadsAhead target) : frame.ReadsFirst target value := by
  simp only [Program.fitsStatement, Bool.and_eq_true, beq_iff_eq, List.all_eq_true] at fitting
  obtain ⟨⟨shaped, targetFits⟩, reads⟩ := fitting
  rcases ahead with single | elsewhere | ⟨base, offset, amount, length, rfl, rfl⟩
  · have length_le : target.elements.length ≤ 1 := by
      refine Nat.le_trans (Nat.le_of_eq ?_) single
      rw [Window.elements, Window.positions_eq_map, List.length_map, List.length_range]
      unfold Window.shape Window.size
      split
      · exact Nat.mul_comm _ _
      · rfl
    unfold ReadsFirst
    rcases elements : target.elements with _ | ⟨element, _ | ⟨_, _⟩⟩
    · exact .nil
    · exact List.pairwise_singleton _ _
    · rw [elements] at length_le
      simp at length_le
  · refine List.pairwise_of_forall_mem_list fun earlier _ later mem read depends same => ?_
    obtain ⟨row_lt, col_lt⟩ := Window.mem_positions.1 mem
    obtain ⟨window_mem, _⟩ := Expr.inside_of_readsAt shaped row_lt col_lt depends
    obtain ⟨first, firstStarts, first_eq⟩ := Frame.buffer_startOf suits targetFits
    obtain ⟨second, secondStarts, second_eq⟩ :=
      Frame.buffer_startOf suits (reads read.1 window_mem)
    refine serves.apart (target.base, read.1.base) (listed ?_) (elsewhere _ window_mem).symm
      first second firstStarts secondStarts ?_
    · rw [Statement.pairs]
      exact List.mem_map_of_mem window_mem
    · rw [← first_eq, ← second_eq]
      exact (congrArg Cell.buffer same).symm
  · exact Frame.readsFirst_of_front suits targetFits

theorem Frame.not_unfilled_cellAt (suits : frame.Suits program routine extremes store)
    (serves : frame.Serves program pairs stored outer) {window : Window}
    (fitting : program.fits routine extremes window = true) {filled : List Nat}
    (isFilled : window.base.IsFilled filled) (row col : Nat) :
    ¬frame.Unfilled routine.locals outer filled (frame.cellAt window row col) := by
  obtain ⟨origin, starts, buffer_eq⟩ := buffer_startOf suits fitting
  have notUnfilled := serves.not_unfilled routine.locals isFilled starts
    (frame.cellAt window row col).position
  rw [← buffer_eq] at notUnfilled
  exact notUnfilled

theorem Window.covered?_eq_some {locals : List (ArrayDecl α)} {window : Window} {position : Nat} :
    window.covered? locals = some position ↔ ∃ decl, locals[position]? = some decl ∧
      window = .dense (.own position) (.const 0) decl.rows decl.cols := by
  unfold covered?
  constructor
  · intro covered
    split at covered
    · split at covered
      · rename_i own _ same
        cases covered
        obtain ⟨decl, found, window_eq⟩ := (Option.any_eq_true _ _).1 same
        exact ⟨decl, found, eq_of_beq window_eq⟩
      · contradiction
    · contradiction
  · rintro ⟨decl, found, rfl⟩
    simp [dense, found]

/-- A window that covers an array of the routine's own has a cell for each of its
elements. -/
theorem Frame.covers_own {position : Nat} {decl : ArrayDecl α} {cell : Cell}
    (buffer_eq : cell.buffer = .stack (frame.height + position))
    (inside : cell.position < decl.size) :
    frame.Covers (.dense (.own position) (.const 0) decl.rows decl.cols) cell := by
  refine ⟨(cell.position / decl.cols, cell.position % decl.cols), ?_, ?_⟩
  · rw [Window.elements, Window.shape_dense, Window.positions_eq_map]
    exact List.mem_map_of_mem (List.mem_range.2 inside)
  · obtain ⟨buffer, number⟩ := cell
    simp only at buffer_eq
    have number_eq : number / decl.cols * decl.cols + number % decl.cols = number :=
      Nat.div_add_mod' _ _
    simp [cellAt, startOf, origin?, Window.dense, valueOf, AffineIndex.evalIn?, AffineIndex.const,
      Cell.plus, Window.position, Window.storedPosition, number_eq, buffer_eq]

/-- The array that a window covers is filled when all elements of the window are
stored to. -/
theorem Frame.unfilled_of_covered {locals : List (ArrayDecl α)} {filled : List Nat} {cell : Cell}
    (before : frame.Unfilled locals outer filled cell) (elsewhere : ¬frame.Covers target cell) :
    frame.Unfilled locals outer ((target.covered? locals).toList ++ filled) cell := by
  rcases before with isOuter | ⟨position, decl, notFilled, found, buffer_eq, inside⟩
  · exact .inl isOuter
  · refine .inr ⟨position, decl, fun mem => ?_, found, buffer_eq, inside⟩
    rcases List.mem_append.1 mem with here | earlier
    · obtain ⟨other, otherFound, rfl⟩ := Window.covered?_eq_some.1 (Option.mem_toList.1 here)
      obtain rfl := Option.some.inj (found.symm.trans otherFound)
      exact elsewhere (covers_own buffer_eq inside)
    · exact notFilled earlier

/-- What an assignment stores to is filled. -/
theorem Frame.unfilled_of_fills {locals : List (ArrayDecl α)} {filled : List Nat} {op : AssignOp}
    {cell : Cell} (before : frame.Unfilled locals outer filled cell)
    (elsewhere : ¬frame.Covers target cell) :
    frame.Unfilled locals outer ((Statement.assign target op value).fills locals ++ filled)
      cell := by
  cases op with
  | set => exact unfilled_of_covered before elsewhere
  | add => exact before
  | sub => exact before

variable {filled : List Nat} {world : World α σ program.table.sizes}
  {running : Running α σ program.table.sizes} {op : AssignOp} [Scalar α]

/-- What the code of an orderly assignment relies on holds in a frame that serves
it. -/
theorem Frame.assigns_of_orderly
    (inStep : frame.InStep program routine extremes (frame.Unfilled routine.locals outer filled)
      world running)
    (serves : frame.Serves program pairs stored outer)
    (listed : (Statement.assign target op value).writtenParameters ⊆ stored)
    (fitting : program.fitsStatement routine extremes (.assign target op value) = true)
    (orderly : program.AssignsInOrder routine filled target op value) :
    frame.Assigns program routine (frame.Unfilled routine.locals outer filled) world.store target
      op value := by
  simp only [Program.fitsStatement, Bool.and_eq_true, List.all_eq_true] at fitting
  obtain ⟨⟨_, targetFits⟩, reads⟩ := fitting
  refine ⟨?_, ?_, ?_, ?_⟩
  · obtain ⟨origin, starts, buffer_eq⟩ := buffer_startOf inStep.suits targetFits
    rw [buffer_eq]
    have mayStore := orderly.stores
    cases base : target.base with
    | global id =>
        rw [base] at starts mayStore
        cases starts
        exact mayStore
    | parameter position =>
        rw [base] at starts
        refine serves.stores position (listed ?_) origin starts
        simp [Statement.writtenParameters, base, Base.parameter?]
    | own position =>
        rw [base] at starts
        cases starts
        rintro ⟨_, _, isGlobal, _⟩
        cases isGlobal
  · refine orderly.whole.imp id ?_
    rintro ⟨isSet, matrix, rfl, whole⟩
    exact ⟨isSet, whole⟩
  · refine orderly.old_filled.imp_right fun isFilled cell => ?_
    rintro ⟨element, _, rfl⟩
    exact not_unfilled_cellAt inStep.suits serves targetFits isFilled _ _
  · intro window mem row _ col _
    exact not_unfilled_cellAt inStep.suits serves (reads window mem)
      (orderly.reads_filled window mem) row col

end Assignments

/-! ## Code that follows -/

section Following

variable {α σ : Type} [Scalar α] {program : Program α} {routine : Routine α}
  {extremes : Program.Extremes} {frame : Frame} {outer : Cell → Prop} {filled : List Nat}
  {world : World α σ program.table.sizes} {running : Running α σ program.table.sizes}
  {host : Host α σ program.table.sizes} {remains : Remains α}

/-- Running code is in step with an evaluation, but for arrays that the callers have
not filled and those of the routine's own that it has not. -/
def Frame.Accompanies (program : Program α) (routine : Routine α) (extremes : Program.Extremes)
    (frame : Frame) (outer : Cell → Prop) (filled : List Nat)
    (world : World α σ program.table.sizes) (running : Running α σ program.table.sizes) : Prop :=
  frame.InStep program routine extremes (frame.Unfilled routine.locals outer filled) world running

/-- Code that starts in a state ends in one that is in step with a world. -/
def Frame.Leads (program : Program α) (host : Host α σ program.table.sizes) (remains : Remains α)
    (routine : Routine α) (extremes : Program.Extremes) (frame : Frame) (outer : Cell → Prop)
    (code : List (Instruction α)) (running : Running α σ program.table.sizes) (filled : List Nat)
    (world : World α σ program.table.sizes) : Prop :=
  ∃ after,
    Settles
      (fun fuel =>
        runAll (program.executeCode host remains fuel (frame.activation routine)) code running)
      after ∧
    frame.Accompanies program routine extremes outer filled world after

theorem Frame.leads_nil
    (inStep : frame.Accompanies program routine extremes outer filled world running) :
    frame.Leads program host remains routine extremes outer [] running filled world :=
  ⟨running, .of_eq fun _ => rfl, inStep⟩

/-- Code one after the other. -/
theorem Frame.Leads.append {first second : List (Instruction α)} {filledLater : List Nat}
    {later : World α σ program.table.sizes}
    (leads : frame.Leads program host remains routine extremes outer first running filled world)
    (next : ∀ running, frame.Accompanies program routine extremes outer filled world running →
      frame.Leads program host remains routine extremes outer second running filledLater later) :
    frame.Leads program host remains routine extremes outer (first ++ second) running filledLater
      later := by
  obtain ⟨between, settles, inStep⟩ := leads
  obtain ⟨after, settlesLater, inStepLater⟩ := next between inStep
  refine ⟨after, ?_, inStepLater⟩
  simp only [runAll, List.foldlM_append]
  exact settles.bind settlesLater

/-- An instruction that needs no fuel. -/
theorem Frame.leads_single {instruction : Instruction α}
    {after : Running α σ program.table.sizes}
    (executes : ∀ fuel, program.executeCode host remains (fuel + 1) (frame.activation routine)
      instruction running = some after)
    (inStep : frame.Accompanies program routine extremes outer filled world after) :
    frame.Leads program host remains routine extremes outer [instruction] running filled world := by
  refine ⟨after, ?_, inStep⟩
  refine (Settles.of_eq fun fuel => executes fuel).succ fun fuel => ?_
  simp only [runAll, List.foldlM_cons, List.foldlM_nil, bind_pure]

variable {pairs : List (Base × Base)} {stored : List Nat} {target : Window} {op : AssignOp}
  {value : Expr α}

/-- The code of an orderly assignment follows it. -/
theorem Frame.leads_assign [ExactScalar α] (shapes : program.GivesShapes)
    (scene : Scene α σ program.table.sizes)
    (inStep : frame.Accompanies program routine extremes outer filled world running)
    (serves : frame.Serves program pairs stored outer)
    (pairs_sub : (Statement.assign target op value).pairs ⊆ pairs)
    (stored_sub : (Statement.assign target op value).writtenParameters ⊆ stored)
    (fitting : program.fitsStatement routine extremes (.assign target op value) = true)
    (orderly : program.AssignsInOrder routine filled target op value) :
    frame.Leads program host remains routine extremes outer
      ((Scope.mk program.table routine.locals).lower (.assign target op value)) running
      ((Statement.assign target op value).fills routine.locals ++ filled)
      ((Statement.assign target op value).effect scene frame world) := by
  have assigns := assigns_of_orderly inStep serves stored_sub fitting orderly
  have ordered := orderly.ordered.imp_right fun ahead =>
    readsFirst_of_readsAhead inStep.suits serves pairs_sub fitting ahead
  obtain ⟨after, settles, synced⟩ :=
    assign_synced shapes inStep fitting assigns ordered host remains
  rw [Scope.lower_assign, Statement.effect_assign]
  refine ⟨_, settles, ?_, ?_, inStep.counted, ?_, inStep.state_eq⟩
  · exact inStep.suits.of_alike (Store.alike_combine _ _ _ _ _).symm
  · refine inStep.keeps.congr fun id constant => ?_
    have elsewhere : Buffer.global id ≠ (frame.startOf target).buffer := fun same =>
      assigns.variable_target (same ▸ constant)
    exact Store.content_combineEach elsewhere target.elements
  · exact synced.mono fun cell unset => unfilled_of_fills unset.1 unset.2

/-- Clearing an array of the module. -/
theorem Frame.leads_clear (scene : Scene α σ program.table.sizes) {id : Nat}
    (inStep : frame.Accompanies program routine extremes outer filled world running)
    (mayStore : program.MayStore (.global id)) :
    frame.Leads program host remains routine extremes outer
      ((Scope.mk program.table routine.locals).lower (.clear id)) running filled
      ((Statement.clear id).effect scene frame world) := by
  rw [Scope.lower, Statement.effect]
  refine leads_single (fun _ => rfl) ⟨?_, ?_, inStep.counted, ?_, inStep.state_eq⟩
  · exact inStep.suits.of_alike (Store.alike_clear _ _).symm
  · refine inStep.keeps.congr fun other constant => ?_
    have elsewhere : Buffer.global id ≠ .global other := fun same => mayStore (same ▸ constant)
    exact world.store.content_clear elsewhere
  · exact inStep.synced.clear id

/-- A comment does nothing. -/
theorem Frame.leads_comment (scene : Scene α σ program.table.sizes) (text : String)
    (inStep : frame.Accompanies program routine extremes outer filled world running) :
    frame.Leads program host remains routine extremes outer
      ((Scope.mk program.table routine.locals).lower (.comment text)) running filled
      ((Statement.comment text).effect scene frame world) := by
  rw [Scope.lower, Statement.effect]
  exact leads_single (fun _ => rfl) inStep

/-! ## Loops -/

omit [Scalar α] in
theorem Running.count_self (running : Running α σ program.table.sizes) (name : String)
    (value : Nat) : (running.count name value).counters name = value := by
  simp [count]

omit [Scalar α] in
theorem Running.count_of_ne (running : Running α σ program.table.sizes) {name other : String}
    (ne : other ≠ name) (value : Nat) :
    (running.count name value).counters other = running.counters other := by
  simp [count, ne]

omit [Scalar α] in
theorem Frame.activation_bind (routine : Routine α) (name : String) (value : Nat) :
    (frame.bind name value).activation routine = frame.activation routine := by
  unfold activation
  rw [funext (origin?_bind name value)]

omit [Scalar α] in
/-- The variables in scope are those of the largest values. -/
theorem Frame.Within.names_eq (within : frame.Within extremes) :
    frame.scope.map Prod.fst = extremes.map Prod.fst := by
  refine List.forall₂_eq_eq_eq ▸ List.forall₂_map_left_iff.2 (List.forall₂_map_right_iff.2 ?_)
  exact within.imp fun _ _ => And.left

omit [Scalar α] in
theorem Frame.ne_of_lookup (within : frame.Within extremes) {name other : String}
    (fresh : name ∉ extremes.map Prod.fst) {value : Nat}
    (found : frame.scope.lookup other = some value) : other ≠ name := by
  rintro rfl
  obtain ⟨before, after, split, _⟩ := List.lookup_eq_some_iff.1 found
  rw [← within.names_eq, split] at fresh
  simp at fresh

/-- Fewer arrays count as filled. -/
theorem Frame.Accompanies.weaken {more : List Nat}
    (inStep : frame.Accompanies program routine extremes outer more world running)
    (sub : filled ⊆ more) :
    frame.Accompanies program routine extremes outer filled world running where
  suits := inStep.suits
  keeps := inStep.keeps
  counted := inStep.counted
  synced := inStep.synced.mono fun _ => Or.imp_right fun ⟨position, decl, notFilled, rest⟩ =>
    ⟨position, decl, fun mem => notFilled (sub mem), rest⟩
  state_eq := inStep.state_eq

/-- In the body of a loop the counter is one more variable in scope. -/
theorem Frame.Accompanies.bind
    (inStep : frame.Accompanies program routine extremes outer filled world running)
    {name : String} {value largest : Nat} (counts : running.counters name = value)
    (value_le : value ≤ largest) :
    (frame.bind name value).Accompanies program routine ((name, largest) :: extremes) outer filled
      world running where
  suits := inStep.suits.bind value_le
  keeps := inStep.keeps
  counted other found lookup_eq := by
    rw [Frame.bind, List.lookup_cons] at lookup_eq
    split at lookup_eq
    · rename_i same
      rw [eq_of_beq same, counts, ← Option.some.inj lookup_eq]
    · exact inStep.counted other found lookup_eq
  synced := inStep.synced
  state_eq := inStep.state_eq

/-- Behind the body of a loop the counter is counted up, which no variable in scope
notices. -/
theorem Frame.Accompanies.unbind {name : String} {value largest : Nat}
    {later : World α σ program.table.sizes} {after : Running α σ program.table.sizes}
    (inStep : frame.Accompanies program routine extremes outer filled world running)
    (alike : later.store.Alike world.store) (fresh : name ∉ extremes.map Prod.fst)
    (inBody : (frame.bind name value).Accompanies program routine ((name, largest) :: extremes)
      outer filled later after) (next : Nat) :
    frame.Accompanies program routine extremes outer filled later (after.count name next) where
  suits := inStep.suits.of_alike alike.symm
  keeps := inBody.keeps
  counted other found lookup_eq := by
    have ne := ne_of_lookup inStep.suits.within fresh lookup_eq
    have unbound : (frame.bind name value).scope.lookup other = some found := by
      rw [Frame.bind, List.lookup_cons, beq_false_of_ne ne]
      exact lookup_eq
    rw [Running.count_of_ne _ ne]
    exact inBody.counted other found unbound
  synced := inBody.synced
  state_eq := inBody.state_eq

section Loops

variable (scene : Scene α σ program.table.sizes) (keepsSizes : scene.KeepsSizes) {name : String}
  {start stop : Nat} {body : List (Statement α)}
  (fresh : name ∉ extremes.map Prod.fst)
  (rounds : ∀ value < stop, ∀ world running,
    (frame.bind name value).Accompanies program routine ((name, stop - 1) :: extremes) outer filled
        world running →
      (frame.bind name value).Leads program host remains routine ((name, stop - 1) :: extremes)
        outer ((Scope.mk program.table routine.locals).lowerAll body) running filled
        (Statement.effects scene (frame.bind name value) body world))

include keepsSizes fresh rounds in
/-- The induction is on the rounds that are left; the fuel of the body and that of
the loop are counted apart. -/
theorem Frame.countUp_leads {left : Nat} : ∀ {first : Nat}
    {world : World α σ program.table.sizes} {running : Running α σ program.table.sizes},
    first + left = stop →
    frame.Accompanies program routine extremes outer filled world running →
    running.counters name = first →
    ∃ after enough, (∀ bodyFuel, enough ≤ bodyFuel → ∀ fuel, enough ≤ fuel →
      countUp (runAll (program.executeCode host remains bodyFuel (frame.activation routine))
        ((Scope.mk program.table routine.locals).lowerAll body)) name stop fuel running =
          some after) ∧
      frame.Accompanies program routine extremes outer filled
        ((List.range' first left).foldl
          (fun world value => Statement.effects scene (frame.bind name value) body world) world)
        after := by
  induction left with
  | zero =>
      intro first world running stops inStep counts
      refine ⟨running, 1, fun _ _ fuel most => ?_, inStep⟩
      obtain ⟨fuel, rfl⟩ := Nat.exists_eq_add_of_le' most
      rw [countUp, if_neg (by omega)]
  | succ left ih =>
      intro first world running stops inStep counts
      obtain ⟨between, ⟨enough, settles⟩, inBody⟩ :=
        rounds first (by omega) world running (inStep.bind counts (by omega))
      rw [activation_bind] at settles
      have counted : between.counters name = first := inBody.counted name first (by
        rw [Frame.bind, List.lookup_cons, beq_self_eq_true])
      have alike : (Statement.effects scene (frame.bind name first) body world).store.Alike
          world.store := Statement.alike_effects keepsSizes body world
      obtain ⟨after, enoughLater, later, inStepLater⟩ := ih
        (by omega : first + 1 + left = stop) (inStep.unbind alike fresh inBody (first + 1))
        (Running.count_self _ _ _)
      refine ⟨after, max enough enoughLater + 1, fun bodyFuel bodyMost fuel most => ?_, ?_⟩
      · obtain ⟨fuel, rfl⟩ := Nat.exists_eq_add_of_le' (Nat.le_trans (Nat.le_add_left 1 _) most)
        have bodyRuns := settles bodyFuel (by omega)
        simp only at bodyRuns
        rw [countUp, if_pos (by omega), bodyRuns]
        simp only [Option.bind_eq_bind, Option.bind_some, counted]
        exact later bodyFuel (by omega) fuel (by omega)
      · rw [List.range'_succ]
        exact inStepLater

include keepsSizes fresh rounds in
/-- The code of a loop goes through the rounds of the loop; a loop without rounds
has no code. -/
theorem Frame.leads_loop
    (inStep : frame.Accompanies program routine extremes outer filled world running) :
    frame.Leads program host remains routine extremes outer
      ((Scope.mk program.table routine.locals).lower (.loop name start stop body)) running filled
      ((Statement.loop name start stop body).effect scene frame world) := by
  rw [Scope.lower, Statement.effect]
  split
  · rename_i none
    rw [Nat.sub_eq_zero_of_le none]
    exact leads_nil inStep
  · rename_i some
    have started : frame.Accompanies program routine extremes outer filled world
        (running.count name start) := by
      refine ⟨inStep.suits, inStep.keeps, fun other found lookup_eq => ?_, inStep.synced,
        inStep.state_eq⟩
      have ne := ne_of_lookup inStep.suits.within fresh lookup_eq
      rw [Running.count_of_ne _ ne]
      exact inStep.counted other found lookup_eq
    obtain ⟨after, enough, settles, inStepAfter⟩ :=
      countUp_leads scene keepsSizes fresh rounds (by omega : start + (stop - start) = stop) started
        (Running.count_self _ _ _)
    refine ⟨after, ?_, inStepAfter⟩
    have loops : Settles (fun fuel =>
        countUp (runAll (program.executeCode host remains fuel (frame.activation routine))
          ((Scope.mk program.table routine.locals).lowerAll body)) name stop fuel
            (running.count name start)) after :=
      ⟨enough, fun fuel most => settles fuel most fuel most⟩
    refine loops.succ fun fuel => ?_
    simp only [runAll, List.foldlM_cons, List.foldlM_nil, bind_pure, Program.executeCode]

end Loops

end Following

end RtiAssembly
