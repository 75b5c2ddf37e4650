import RtiAssembly.Proofs.Emission.Following
import RtiAssembly.Proofs.Storage.Contents

/-!
# Calls and their code

A called function sees an array argument as the address of an element, and an
external function as whatever lies behind the address.  When arguments are passed
as the obligations of the code demand, both find there what the evaluation binds
or copies.
-/

namespace RtiAssembly

theorem mapM_eq_some {β γ : Type} {items : List β} {visit : β → Option γ} {value : β → γ}
    (each : ∀ item ∈ items, visit item = some (value item)) :
    items.mapM visit = some (items.map value) := by
  induction items with
  | nil => rfl
  | cons item rest ih =>
      rw [List.mapM_cons, each item List.mem_cons_self,
        ih fun other mem => each other (List.mem_cons_of_mem item mem)]
      rfl

theorem Store.size_content_global {α : Type} {program : Program α}
    (store : Store α program.table.sizes) {id : Nat} {decl : ArrayDecl α}
    (found : program.table.get? id = some decl) :
    (store.content (.global id)).size = decl.size := by
  have listed : program.table.arrays[id]? = some decl := found
  rw [Store.content, Memory.size_content, ArrayTable.sizes, List.getD_eq_getElem?_getD,
    List.getElem?_map, listed]
  rfl

section Arguments

variable {α σ : Type} {program : Program α} {routine : Routine α} {extremes : Program.Extremes}
  {frame : Frame} {store : Store α program.table.sizes}
  {running : Running α σ program.table.sizes} {argument : Argument}

theorem Frame.valueWith_of_fits (suits : frame.Suits program routine extremes store)
    (counted : frame.CountedBy running.counters) {index : AffineIndex}
    (fitting : program.fitsArgument routine extremes (.index index) = true) :
    index.valueWith running.counters = frame.valueOf index := by
  rw [Program.fits_index, Option.isSome_iff_exists] at fitting
  obtain ⟨largest, known⟩ := fitting
  obtain ⟨value, value_eq, _⟩ := suits.within.exists_evalIn? known
  rw [counted.valueWith value_eq, valueOf, value_eq]
  rfl

/-- The code binds parameters to what the evaluation binds them to. -/
theorem Frame.binding?_operand (suits : frame.Suits program routine extremes store)
    (counted : frame.CountedBy running.counters) (alike : running.world.store.Alike store)
    (fitting : program.fitsArgument routine extremes argument = true)
    (of_module : ∀ window ∈ argument.window?, ∃ id, window.base = .global id) :
    (frame.activation routine).binding? program running (Scope.operand argument) =
      some (frame.bindingOf argument) := by
  cases argument with
  | index index =>
      have value_eq := valueWith_of_fits suits counted fitting
      simp only [Scope.operand, Activation.binding?, bindingOf, value_eq]
  | reference window =>
      obtain ⟨id, isGlobal⟩ := of_module window rfl
      obtain ⟨origin, size, offset, starts, _, index, fits, room⟩ := suits.room fitting
      have reached : (frame.activation routine).reach? program 0 running
          ⟨window.base, window.offset⟩ = some (frame.startOf window) := by
        refine Activation.reach?_eq starts ?_ ?_
        · simp only [isGlobal, Emission.symbols]
          rw [counted.valueWith index, startOf_eq starts index]
          rfl
        · rw [startOf_eq starts index, alike.size_content]
          simp only [Cell.plus]
          omega
      simp only [Scope.operand, Activation.binding?, reached, Option.map_some, bindingOf]

/-- The address of a whole array of the module, and the cells behind it. -/
theorem Frame.reach?_whole (frame : Frame) (routine : Routine α)
    (running : Running α σ program.table.sizes) (id : Nat) (decl : ArrayDecl α) :
    let window := Window.dense (.global id) (.const 0) decl.rows decl.cols
    (frame.activation routine).reach? program 0 running ⟨window.base, window.offset⟩ =
        some ⟨.global id, 0⟩ ∧
      frame.cellsOf window = (List.range' 0 decl.size).map (Cell.mk (.global id)) :=
  ⟨Activation.reach?_eq rfl rfl (Nat.zero_le _), cellsOf_dense rfl⟩

variable [Scalar α]

/-- An external function finds behind the address of a whole array what the
evaluation copies. -/
theorem Frame.passed?_operand (suits : frame.Suits program routine extremes store)
    (counted : frame.CountedBy running.counters)
    (memory_eq : running.world.store.memory = store.memory)
    (fitting : program.fitsArgument routine extremes argument = true)
    (whole : program.PassesWholeArrays [argument]) :
    (frame.activation routine).passed? program running (Scope.operand argument) =
      some (frame.passedTo store argument) := by
  cases argument with
  | index index =>
      have value_eq := valueWith_of_fits suits counted fitting
      simp only [Scope.operand, Activation.passed?, passedTo, value_eq]
  | reference window =>
      obtain ⟨id, decl, found, _, rfl⟩ := whole _ List.mem_cons_self window rfl
      obtain ⟨reached, cells_eq⟩ := frame.reach?_whole routine running id decl
      have size_eq : (store.memory.content id).size = decl.size := store.size_content_global found
      have content_eq : running.world.store.content (.global id) = store.memory.content id :=
        congrArg (Memory.content · id) memory_eq
      have read_eq : (List.range' 0 decl.size).map (store.read ∘ Cell.mk (.global id)) =
          (store.memory.content id).toList := by
        apply List.ext_getElem
        · simp [size_eq]
        · intro position _ inside
          rw [Array.length_toList] at inside
          simp [Store.read, Store.content, Array.getD_eq_getD_getElem?, inside]
      simp only [Scope.operand, Activation.passed?, reached, Option.bind_eq_bind, Option.bind_some,
        passedTo, cells_eq, List.map_map, content_eq]
      rw [read_eq, Array.extract_size]

/-- What an external function leaves behind the address of a whole array goes back
to its elements. -/
theorem Frame.putBack?_operand (frame : Frame) (routine : Routine α)
    (running : Running α σ program.table.sizes) {unset : Cell → Prop}
    {code : Store α program.table.sizes} (synced : store.Synced unset code)
    (whole : program.PassesWholeArrays [argument]) (left : Passed α) :
    (∃ after, (frame.activation routine).putBack? program (running.update fun _ => code)
          (Scope.operand argument) left = some (running.update fun _ => after) ∧
        (store.putBack frame argument left).Synced unset after) ∧
      ∀ id, program.IsConstant (.global id) →
        (store.putBack frame argument left).content (.global id) = store.content (.global id) := by
  cases argument with
  | index _ => exact ⟨⟨code, by cases left <;> rfl, synced⟩, fun _ _ => rfl⟩
  | reference window =>
      cases left with
      | index _ => exact ⟨⟨code, rfl, synced⟩, fun _ _ => rfl⟩
      | array values =>
          obtain ⟨id, decl, found, variable_decl, rfl⟩ := whole _ List.mem_cons_self window rfl
          obtain ⟨reached, cells_eq⟩ := frame.reach?_whole routine
            (running.update fun _ => code) id decl
          have size_eq : (code.content (.global id)).size = decl.size :=
            code.size_content_global found
          let entries := ((List.range' 0 decl.size).map (Cell.mk (.global id))).zip values.toList
          have left_eq : store.putBack frame
              (.reference (.dense (.global id) (.const 0) decl.rows decl.cols)) (.array values) =
                store.writeAll entries := by
            simp only [Store.putBack, cells_eq, entries]
          have listed : ∀ entry ∈ entries,
              entry.1.buffer = .global id ∧ entry.1.position < decl.size := by
            intro entry mem
            obtain ⟨position, inside, cell_eq⟩ := List.mem_map.1 (List.of_mem_zip mem).1
            rw [← cell_eq]
            exact ⟨rfl, by simpa using inside⟩
          rw [left_eq]
          refine ⟨⟨code.writeAll entries, ?_, synced.writeAll fun entry mem => ?_⟩,
            fun constant isConstant => Store.content_writeAll fun entry mem same => ?_⟩
          · have size_running : ((running.update fun _ => code).world.store.content
                (.global id)).size = decl.size := size_eq
            simp only [Scope.operand, Activation.putBack?, reached, Option.bind_eq_bind,
              Option.bind_some, size_running]
            rfl
          · rw [(listed entry mem).1, store.size_content_global found]
            exact (listed entry mem).2
          · rw [(listed entry mem).1] at same
            obtain rfl := Buffer.global.inj same
            obtain ⟨other, constantDecl, isGlobal, foundConstant, isConst⟩ := isConstant
            obtain rfl := Buffer.global.inj isGlobal
            obtain rfl := Option.some.inj (found.symm.trans foundConstant)
            exact variable_decl isConst

end Arguments

/-! ## External functions -/

/-- What external functions do to the constant arrays of a program: they leave them
as they were declared.  Constants are declared `static const`, and orderly
routines pass none of them outside. -/
def Program.SparesConstants {α σ : Type} [Scalar α] (program : Program α)
    (host : Host α σ program.table.sizes) : Prop :=
  ∀ function passed memory state, program.KeepsConstants memory →
    program.KeepsConstants (host function passed memory state).memory

section Externals

variable {α σ : Type} [Scalar α] {program : Program α} {routine : Routine α}
  {extremes : Program.Extremes} {frame : Frame} {outer : Cell → Prop} {filled : List Nat}
  {world : World α σ program.table.sizes} {running : Running α σ program.table.sizes}
  {host : Host α σ program.table.sizes}

/-- All arguments go back, one after the other. -/
theorem Frame.putBacks (frame : Frame) (routine : Routine α)
    (running : Running α σ program.table.sizes) {unset : Cell → Prop}
    {items : List (Argument × Passed α)}
    (whole : ∀ item ∈ items, program.PassesWholeArrays [item.1]) :
    ∀ {store code : Store α program.table.sizes}, store.Synced unset code →
      (∃ after, (items.map fun item => (Scope.operand item.1, item.2)).foldlM
            (fun running entry =>
              (frame.activation routine).putBack? program running entry.1 entry.2)
            (running.update fun _ => code) = some (running.update fun _ => after) ∧
          (items.foldl (fun store item => store.putBack frame item.1 item.2) store).Synced unset
            after) ∧
        ∀ id, program.IsConstant (.global id) →
          (items.foldl (fun store item => store.putBack frame item.1 item.2) store).content
            (.global id) = store.content (.global id) := by
  induction items with
  | nil => exact fun synced => ⟨⟨_, rfl, synced⟩, fun _ _ => rfl⟩
  | cons item rest ih =>
      intro store code synced
      obtain ⟨⟨between, first, firstSynced⟩, firstKeeps⟩ :=
        frame.putBack?_operand routine running synced (whole item List.mem_cons_self) item.2
      obtain ⟨⟨after, later, laterSynced⟩, laterKeeps⟩ :=
        ih (fun other mem => whole other (List.mem_cons_of_mem _ mem)) firstSynced
      refine ⟨⟨after, ?_, laterSynced⟩, fun id constant => ?_⟩
      · rw [List.map_cons, List.foldlM_cons, first]
        exact later
      · exact (laterKeeps id constant).trans (firstKeeps id constant)

/-- An external function that is passed whole arrays does the same for the code. -/
theorem Frame.callExternal?_operands (spares : program.SparesConstants host)
    {scene : Scene α σ program.table.sizes} (keepsSizes : scene.KeepsSizes)
    (sameHost : scene.host = host)
    (inStep : frame.Accompanies program routine extremes outer filled world running)
    (function : External) {arguments : List Argument}
    (fitting : ∀ argument ∈ arguments, program.fitsArgument routine extremes argument = true)
    (whole : program.PassesWholeArrays arguments) :
    let called := scene.callExternal frame function arguments world
    ∃ after, (frame.activation routine).callExternal? program host running function
        (arguments.map Scope.operand) = some (called.1, after) ∧
      frame.Accompanies program routine extremes outer filled called.2 after := by
  intro called
  have wholeEach : ∀ argument ∈ arguments, program.PassesWholeArrays [argument] := by
    intro argument mem other listed
    obtain rfl := List.mem_singleton.1 listed
    exact whole other mem
  have passed : (arguments.map Scope.operand).mapM
      ((frame.activation routine).passed? program running) =
        some (arguments.map (frame.passedTo world.store)) := by
    rw [List.mapM_map]
    exact mapM_eq_some fun argument mem => passed?_operand inStep.suits inStep.counted
      inStep.synced.memory_eq (fitting argument mem) (wholeEach argument mem)
  let reply := scene.reply frame function arguments world
  let replied : Running α σ program.table.sizes :=
    { running with
      world := ⟨{ running.world.store with memory := reply.memory }, reply.state⟩ }
  have replies : host function (arguments.map (frame.passedTo world.store))
      running.world.store.memory running.world.state = reply := by
    rw [inStep.synced.memory_eq, inStep.state_eq, ← sameHost]
    rfl
  have synced : Store.Synced (frame.Unfilled routine.locals outer filled)
      { world.store with memory := reply.memory }
      { running.world.store with memory := reply.memory } := by
    refine ⟨rfl, inStep.synced.alike, fun cell set => ?_⟩
    obtain ⟨buffer, position⟩ := cell
    cases buffer with
    | global _ => rfl
    | stack _ => exact inStep.synced.read_eq _ set
  obtain ⟨⟨after, putBack, afterSynced⟩, keeps⟩ :=
    frame.putBacks routine replied
      (fun item mem => wholeEach item.1 (List.of_mem_zip mem).1 : ∀ item ∈
        arguments.zip reply.arguments, program.PassesWholeArrays [item.1]) synced
  refine ⟨replied.update fun _ => after, ?_, ?_, ?_, inStep.counted, afterSynced, rfl⟩
  · have zip_eq : (arguments.map Scope.operand).zip reply.arguments =
        (arguments.zip reply.arguments).map fun item => (Scope.operand item.1, item.2) :=
      List.zip_map_left
    simp only [Activation.callExternal?, passed, Option.bind_eq_bind, Option.bind_some, replies,
      zip_eq]
    exact congrArg (Option.bind · fun after => some ((Scalar.ofInt reply.status : α), after))
      putBack
  · exact inStep.suits.of_alike
      (keepsSizes.call frame (.external function) arguments world).symm
  · have replyKeeps : program.KeepsConstants reply.memory := by
      rw [← replies, inStep.synced.memory_eq]
      exact spares _ _ _ _ inStep.keeps
    exact replyKeeps.congr keeps

/-- A status fills the whole-number variable that it goes to. -/
theorem Frame.store?_status [ExactScalar α] {target : Window}
    (inStep : frame.Accompanies program routine extremes outer filled world running)
    (single : target.size = 1) (fitting : program.fits routine extremes target = true)
    (covers : (target.covered? routine.locals).isSome = true) (status : Int) :
    ∃ after, (frame.activation routine).store? program running (target.place 0 0) .set
        (Scalar.ofInt status) = some after ∧
      frame.Accompanies program routine extremes outer
        ((target.covered? routine.locals).toList ++ filled)
        (world.update fun store => store.write (frame.startOf target) (Scalar.ofInt status))
        after := by
  obtain ⟨position, covered⟩ := Option.isSome_iff_exists.1 covers
  obtain ⟨decl, found, target_eq⟩ := Window.covered?_eq_some.1 covered
  have rows_eq : target.shape.1 = 1 ∧ target.shape.2 = 1 := by
    rw [target_eq, Window.size_dense] at single
    rw [target_eq, Window.shape_dense]
    exact ⟨Nat.eq_one_of_mul_eq_one_right single, Nat.eq_one_of_mul_eq_one_left single⟩
  have row_lt : 0 < target.shape.1 := by omega
  have col_lt : 0 < target.shape.2 := by omega
  have cell_eq : frame.cellAt target 0 0 = frame.startOf target := by
    rw [target_eq]
    simp [cellAt, Window.position, Window.storedPosition, Window.dense, Cell.plus]
  have reached := reach?_place inStep.suits fitting inStep.counted inStep.synced.alike row_lt col_lt
  have inside := inside_of_fits inStep.suits fitting row_lt col_lt
  rw [cell_eq] at reached inside
  have held (kind : ElementKind) : kind.hold (Scalar.ofInt status : α) = Scalar.ofInt status := by
    unfold ElementKind.hold
    split
    · rfl
    · exact Scalar.isWhole_ofInt status
  refine ⟨running.update fun store => store.write (frame.startOf target) (Scalar.ofInt status),
    ?_, ?_, ?_, inStep.counted, ?_, inStep.state_eq⟩
  · simp only [Activation.store?, reached, Option.bind_eq_bind, Option.bind_some, AssignOp.combine,
      held]
  · exact inStep.suits.of_alike (Store.alike_write _ _ _).symm
  · have base_eq : (frame.startOf target).buffer = .stack (frame.height + position) := by
      rw [target_eq]
      rfl
    refine inStep.keeps.congr fun id _ => ?_
    have kept := world.store.content_write (frame.startOf target) (Scalar.ofInt status : α)
      (.global id)
    rw [base_eq, if_neg Buffer.noConfusion] at kept
    exact kept
  · refine (inStep.synced.write inside _).mono ?_
    rintro cell ⟨unfilled, ne⟩
    have elsewhere : ¬frame.Covers target cell := by
      rintro ⟨⟨row, col⟩, mem, rfl⟩
      obtain ⟨row_lt, col_lt⟩ := Window.mem_positions.1 mem
      obtain rfl : row = 0 := by omega
      obtain rfl : col = 0 := by omega
      exact ne cell_eq
    exact unfilled_of_covered unfilled elsewhere

/-- The code of a call of an external function follows the call. -/
theorem Frame.leads_external [ExactScalar α] {remains : Remains α}
    (spares : program.SparesConstants host) {scene : Scene α σ program.table.sizes}
    (keepsSizes : scene.KeepsSizes) (sameHost : scene.host = host)
    (inStep : frame.Accompanies program routine extremes outer filled world running)
    {function : External} {arguments : List Argument} {status : Option Window}
    (fitting : program.fitsStatement routine extremes
      (.call (.external function) arguments status) = true)
    (orderly : Statement.IsOrderly program routine extremes filled
      (.call (.external function) arguments status)) :
    frame.Leads program host remains routine extremes outer
      ((Scope.mk program.table routine.locals).lower
        (.call (.external function) arguments status)) running
      ((Statement.call (.external function) arguments status : Statement α).fills routine.locals ++
        filled)
      ((Statement.call (.external function) arguments status).effect scene frame world) := by
  simp only [Program.fitsStatement, Bool.and_eq_true, List.all_eq_true] at fitting
  obtain ⟨called, calls, inStepCalled⟩ := callExternal?_operands spares keepsSizes sameHost inStep
    function fitting.1 orderly.1
  rw [Statement.effect_call, Scope.lower]
  cases status with
  | none =>
      refine leads_single (fun fuel => ?_) inStepCalled
      simp only [Program.executeCode, calls, Option.map_none, Option.bind_eq_bind, Option.bind_some]
  | some target =>
      have targetFits := fitting.2
      simp only [Option.all_some, Bool.and_eq_true, beq_iff_eq] at targetFits
      obtain ⟨after, stores, inStepAfter⟩ := store?_status inStepCalled targetFits.1 targetFits.2
        (orderly.2 target rfl) (scene.reply frame function arguments world).status
      refine leads_single (fun fuel => ?_) inStepAfter
      simp only [Program.executeCode, calls, Option.map_some, Option.bind_eq_bind, Option.bind_some]
      exact stores

end Externals

/-! ## Routines -/

section Routines

variable {α σ : Type} [Scalar α] {program : Program α} {routine callee : Routine α}
  {extremes : Program.Extremes} {frame : Frame} {outer : Cell → Prop} {filled : List Nat}
  {world : World α σ program.table.sizes} {running : Running α σ program.table.sizes}
  {arguments : List Argument}

/-- Running code and an evaluation agree, but for some cells. -/
structure Running.Agrees (program : Program α) (unset : Cell → Prop)
    (world : World α σ program.table.sizes) (running : Running α σ program.table.sizes) :
    Prop where
  keeps : program.KeepsConstants world.store.memory
  synced : world.store.Synced unset running.world.store
  state_eq : running.world.state = world.state

/-- What it means that the function of a routine follows the routine: with bindings
that the routine accepts and arrays that serve it, it ends in agreement with what
the routine leaves, and with its result. -/
def Program.Follows (program : Program α) (host : Host α σ program.table.sizes)
    (remains : Remains α) (depth : Nat) (routine : Routine α) : Prop :=
  ∀ bindings outer, ∀ world : World α σ program.table.sizes,
    ∀ running : Running α σ program.table.sizes,
      List.Forall₂ (Frame.Accepts world.store) routine.parameters bindings →
      (Frame.ofCall routine bindings world.store.stack.size).Serves program
        (Statement.pairsOf routine.body) (Statement.writtenParametersOf routine.body) outer →
      running.Agrees program outer world →
      let performed := program.perform host depth routine bindings world
      ∃ after,
        Settles (fun fuel => program.callFunction remains (program.executeCode host remains fuel)
          routine bindings running) (performed.1, after) ∧
        after.Agrees program outer performed.2 ∧ after.counters = running.counters

omit [Scalar α] in
/-- A base of a called routine is an array of the module or one of its own. -/
theorem Frame.buffer_ofCall
    (of_module : ∀ argument ∈ arguments, ∀ window ∈ argument.window?, ∃ id,
      window.base = .global id) {height : Nat} {base : Base} {origin : Cell}
    (starts : (Frame.ofCall callee (arguments.map frame.bindingOf) height).origin? base =
      some origin) :
    (∃ id, Program.atCall arguments base = .global id ∧ origin.buffer = .global id) ∨
      ∃ position, base = .own position ∧ origin.buffer = .stack (height + position) := by
  cases base with
  | global id =>
      cases starts
      exact .inl ⟨id, rfl, rfl⟩
  | own position =>
      cases starts
      exact .inr ⟨position, rfl, rfl⟩
  | parameter position =>
      left
      simp only [origin?, ofCall, List.getElem?_map] at starts
      obtain ⟨binding, found, isArray⟩ := Option.bind_eq_some_iff.1 starts
      obtain ⟨argument, listed, rfl⟩ := Option.map_eq_some_iff.1 found
      cases argument with
      | index _ => cases isArray
      | reference window =>
          cases isArray
          obtain ⟨id, isGlobal⟩ := of_module _ (List.mem_of_getElem? listed) window rfl
          refine ⟨id, ?_, ?_⟩
          · simp only [Program.atCall, listed, Option.bind_some, Argument.window?, Option.elim_some,
              isGlobal]
          · rw [startOf, isGlobal]
            rfl

omit [Scalar α] in
/-- Arrays that are passed apart serve the called routine. -/
theorem Frame.serves_ofCall {unset : Cell → Prop} {height : Nat}
    (passes : program.PassesApart callee arguments)
    (unset_own : ∀ cell, unset cell → ∃ position < height, cell.buffer = .stack position) :
    (Frame.ofCall callee (arguments.map frame.bindingOf) height).Serves program
      (Statement.pairsOf callee.body) (Statement.writtenParametersOf callee.body) unset where
  outer_own := unset_own
  parameter position origin starts := by
    rcases buffer_ofCall passes.of_module starts with ⟨id, _, isGlobal⟩ | ⟨_, isOwn, _⟩
    · rw [isGlobal]
      refine ⟨trivial, fun index isUnset => ?_⟩
      obtain ⟨_, _, isStack⟩ := unset_own _ isUnset
      cases isStack
    · cases isOwn
  apart pair mem ne first second firstStarts secondStarts same := by
    have apart := passes.apart pair mem ne
    rcases buffer_ofCall passes.of_module firstStarts with ⟨id, first_eq, isGlobal⟩ |
        ⟨position, first_eq, isOwn⟩ <;>
      rcases buffer_ofCall passes.of_module secondStarts with ⟨other, second_eq, otherGlobal⟩ |
        ⟨other, second_eq, otherOwn⟩
    · rw [isGlobal, otherGlobal, Buffer.global.injEq] at same
      exact apart (by rw [first_eq, second_eq, same])
    · rw [isGlobal, otherOwn] at same
      cases same
    · rw [isOwn, otherGlobal] at same
      cases same
    · rw [isOwn, otherOwn, Buffer.stack.injEq] at same
      exact ne (by rw [first_eq, second_eq, Nat.add_left_cancel same])
  stores position mem origin starts := by
    rcases buffer_ofCall passes.of_module starts with ⟨id, base_eq, isGlobal⟩ | ⟨_, isOwn, _⟩
    · have mayStore := passes.stores position mem
      rw [base_eq] at mayStore
      rw [isGlobal]
      exact mayStore
    · cases isOwn

variable {host : Host α σ program.table.sizes} {remains : Remains α} {depth : Nat}
  {pairs : List (Base × Base)} {stored : List Nat}

omit [Scalar α] in
theorem Store.lt_of_inside {sizes : List Nat} {store : Store α sizes} {cell : Cell} {position : Nat}
    (isStack : cell.buffer = .stack position)
    (inside : cell.position < (store.content cell.buffer).size) : position < store.stack.size := by
  rw [isStack] at inside
  by_contra outside
  simp only [content, Array.getD_eq_getD_getElem?,
    Array.getElem?_eq_none (Nat.le_of_not_lt outside), Option.getD_none] at inside
  exact Nat.not_lt_zero _ inside

/-- The code of a call of a routine follows the call. -/
theorem Frame.leads_call {name : String} (follows : program.Follows host remains depth callee)
    (known : program.routine? name = some callee)
    (inStep : frame.Accompanies program routine extremes outer filled world running)
    (serves : frame.Serves program pairs stored outer)
    (passing : List.Forall₂ (Frame.Passes extremes) callee.parameters arguments)
    (fitting : ∀ argument ∈ arguments, program.fitsArgument routine extremes argument = true)
    (passes : program.PassesApart callee arguments) :
    frame.Leads program host remains routine extremes outer
      ((Scope.mk program.table routine.locals).lower (.call (.routine name) arguments none)) running
      filled ((Statement.call (.routine name) arguments none).effect (program.scene host depth)
        frame world) := by
  -- Only cells inside their buffers matter, and those lie below the callee's own arrays.
  let unset (cell : Cell) : Prop :=
    frame.Unfilled routine.locals outer filled cell ∧
      cell.position < (world.store.content cell.buffer).size
  have unset_own : ∀ cell, unset cell → ∃ position < world.store.stack.size,
      cell.buffer = .stack position := by
    rintro cell ⟨isOuter | ⟨position, _, _, _, isStack, _⟩, inside⟩
    · obtain ⟨position, _, isStack⟩ := serves.outer_own cell isOuter
      exact ⟨position, Store.lt_of_inside isStack inside, isStack⟩
    · exact ⟨_, Store.lt_of_inside isStack inside, isStack⟩
  have agrees : running.Agrees program unset world :=
    ⟨inStep.keeps, inStep.synced.of_inside fun _ inside unfilled => ⟨unfilled, inside⟩,
      inStep.state_eq⟩
  have accepted := (accepts_arguments inStep.suits passing fitting).2
  obtain ⟨after, settles, agreesAfter, counters_eq⟩ := follows (arguments.map frame.bindingOf)
    unset world running accepted (serves_ofCall passes unset_own) agrees
  have bindings : (arguments.map Scope.operand).mapM
      ((frame.activation routine).binding? program running) =
        some (arguments.map frame.bindingOf) := by
    rw [List.mapM_map]
    exact mapM_eq_some fun argument mem => binding?_operand inStep.suits inStep.counted
      inStep.synced.alike (fitting argument mem) (passes.of_module argument mem)
  have effect_eq : (Statement.call (.routine name) arguments none).effect
      (program.scene host depth) frame world =
        (program.perform host depth callee (arguments.map frame.bindingOf) world).2 := by
    rw [Statement.effect_call]
    simp only [Option.elim_none, Scene.call, Scene.callRoutine, known]
  rw [effect_eq, Scope.lower]
  refine ⟨after, ?_, ?_, agreesAfter.keeps, ?_, ?_, agreesAfter.state_eq⟩
  · refine (settles.andThen (fun called => some called.2) rfl).succ fun fuel => ?_
    simp only [runAll, List.foldlM_cons, List.foldlM_nil, bind_pure, Program.executeCode, known,
      bindings, Option.map_none, Option.bind_eq_bind, Option.bind_some]
  · exact inStep.suits.of_alike (Program.keepsSizes_scene depth callee _ world).symm
  · rw [counters_eq]
    exact inStep.counted
  · exact agreesAfter.synced.mono fun _ => And.left

/-! ## Statements -/

omit [Scalar α] in
theorem Statement.subset_filledAfter (locals : List (ArrayDecl α)) :
    ∀ (statements : List (Statement α)) (filled : List Nat),
      filled ⊆ Statement.filledAfter locals filled statements
  | [], _ => List.Subset.refl _
  | _ :: rest, _ => fun _ mem => subset_filledAfter locals rest _ (List.mem_append_right _ mem)

mutual

/-- The code of an orderly statement follows it. -/
theorem Statement.leads [ExactScalar α] (shapes : program.GivesShapes)
    (spares : program.SparesConstants host)
    (follows : ∀ callee ∈ program.routines, program.Safe depth callee →
      program.Follows host remains depth callee)
    {pairs : List (Base × Base)} {stored : List Nat} {routine : Routine α}
    {extremes : Program.Extremes} {frame : Frame} {filled : List Nat}
    {world : World α σ program.table.sizes}
    {running : Running α σ program.table.sizes} : (statement : Statement α) →
    program.fitsStatement routine extremes statement = true →
    statement.IsSafe program (program.Safe depth) extremes →
    statement.IsOrderly program routine extremes filled →
    frame.Serves program pairs stored outer →
    statement.pairs ⊆ pairs → statement.writtenParameters ⊆ stored →
    frame.Accompanies program routine extremes outer filled world running →
    frame.Leads program host remains routine extremes outer
      ((Scope.mk program.table routine.locals).lower statement) running
      (statement.fills routine.locals ++ filled)
      (statement.effect (program.scene host depth) frame world)
  | .assign target op value, fitting, _, orderly, serves, pairs_sub, stored_sub, inStep =>
      Frame.leads_assign shapes _ inStep serves pairs_sub stored_sub fitting orderly
  | .clear id, _, _, orderly, _, _, _, inStep => Frame.leads_clear _ inStep orderly
  | .loop name start stop body, fitting, safe, orderly, serves, pairs_sub, stored_sub, inStep => by
      simp only [Program.fitsStatement, Bool.or_eq_true, decide_eq_true_eq] at fitting
      by_cases runs : start < stop
      · refine Frame.leads_loop _ (Program.keepsSizes_scene depth) orderly.1 ?_ inStep
        intro value value_lt world running inStep
        obtain ⟨after, settles, inStepAfter⟩ := Statement.leadsAll shapes spares follows body
          (fitting.resolve_left (Nat.not_le.2 runs)) (safe runs) orderly.2
          (serves.bind name value) (by rwa [Statement.pairs] at pairs_sub)
          (by rwa [Statement.writtenParameters] at stored_sub) inStep
        exact ⟨after, settles, inStepAfter.weaken (Statement.subset_filledAfter _ _ _)⟩
      · rw [Scope.lower, Statement.effect, if_pos (Nat.not_lt.1 runs),
          Nat.sub_eq_zero_of_le (Nat.not_lt.1 runs)]
        exact Frame.leads_nil inStep
  | .call (.routine name) arguments status, fitting, safe, orderly, serves, _, _, inStep => by
      obtain ⟨callee, known, calleeSafe, passing⟩ := safe
      obtain ⟨rfl, passes⟩ := orderly
      simp only [Program.fitsStatement, Bool.and_eq_true, List.all_eq_true] at fitting
      have calleeFollows := follows callee (List.mem_of_find?_eq_some known) calleeSafe
      exact Frame.leads_call calleeFollows known inStep serves passing fitting.1
        (passes callee known)
  | .call (.external function) arguments status, fitting, _, orderly, _, _, _, inStep =>
      Frame.leads_external spares (Program.keepsSizes_scene depth) rfl inStep fitting orderly
  | .comment text, _, _, _, _, _, _, inStep => Frame.leads_comment _ text inStep

/-- The code of orderly statements follows them, one after the other. -/
theorem Statement.leadsAll [ExactScalar α] (shapes : program.GivesShapes)
    (spares : program.SparesConstants host)
    (follows : ∀ callee ∈ program.routines, program.Safe depth callee →
      program.Follows host remains depth callee)
    {pairs : List (Base × Base)} {stored : List Nat} {routine : Routine α}
    {extremes : Program.Extremes} {frame : Frame} {filled : List Nat}
    {world : World α σ program.table.sizes}
    {running : Running α σ program.table.sizes} : (statements : List (Statement α)) →
    program.fitsStatements routine extremes statements = true →
    Statement.AreSafe program (program.Safe depth) extremes statements →
    Statement.AreOrderly program routine extremes filled statements →
    frame.Serves program pairs stored outer →
    Statement.pairsOf statements ⊆ pairs → Statement.writtenParametersOf statements ⊆ stored →
    frame.Accompanies program routine extremes outer filled world running →
    frame.Leads program host remains routine extremes outer
      ((Scope.mk program.table routine.locals).lowerAll statements) running
      (Statement.filledAfter routine.locals filled statements)
      (Statement.effects (program.scene host depth) frame statements world)
  | [], _, _, _, _, _, _, inStep => by
      rw [Scope.lowerAll, Statement.effects]
      exact Frame.leads_nil inStep
  | statement :: rest, fitting, safe, orderly, serves, pairs_sub, stored_sub, inStep => by
      simp only [Program.fitsStatements, Bool.and_eq_true] at fitting
      rw [Statement.pairsOf, List.append_subset] at pairs_sub
      rw [Statement.writtenParametersOf, List.append_subset] at stored_sub
      rw [Scope.lowerAll, Statement.effects]
      refine (Statement.leads shapes spares follows statement fitting.1 safe.1 orderly.1 serves
        pairs_sub.1 stored_sub.1 inStep).append fun running inStep => ?_
      exact Statement.leadsAll shapes spares follows rest fitting.2 safe.2 orderly.2 serves
        pairs_sub.2 stored_sub.2 inStep

end

end Routines

end RtiAssembly
