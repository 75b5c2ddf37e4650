import RtiAssembly.Proofs.Machine.Untouched

/-!
# What routines do not read

Two memories may differ in some arrays of the module.  A routine that reads none of
them, and calls only functions and routines that read none of them, does the same
on both: it returns the same or ends in the same fault, and afterwards the memories
still differ in these arrays only.  A routine may store to such an array or clear
it.

The two runs are compared step by step.  Whether a look-up succeeds depends on the
sizes of the arrays alone, so that the runs cannot drift apart by a fault.
-/

namespace RtiAssembly

/-! ## What statements read -/

mutual

/-- The bases that a statement reads from or passes on by reference. -/
def Statement.reads {α : Type} : Statement α → List Base
  | .assign _ _ value => value.windows.map Window.base
  | .clear _ => []
  | .loop _ _ _ body => Statement.readsOf body
  | .call _ arguments _ => (arguments.filterMap Argument.window?).map Window.base
  | .comment _ => []

/-- The bases that a list of statements reads from or passes on. -/
def Statement.readsOf {α : Type} : List (Statement α) → List Base
  | [] => []
  | statement :: rest => statement.reads ++ Statement.readsOf rest

end

mutual

/-- An array that is passed to a call is read. -/
theorem Statement.read_of_argument {α : Type} {call : Callee × List Argument × Option Window}
    {window : Window} (passed : .reference window ∈ call.2.1) :
    (statement : Statement α) → call ∈ statement.calls → window.base ∈ statement.reads
  | .assign _ _ _, mem => nomatch mem
  | .clear _, mem => nomatch mem
  | .loop _ _ _ body, mem => Statement.read_of_arguments passed body mem
  | .call _ _ _, mem => by
      obtain rfl := List.mem_singleton.1 mem
      exact List.mem_map_of_mem (List.mem_filterMap.2 ⟨_, passed, rfl⟩)
  | .comment _, mem => nomatch mem

theorem Statement.read_of_arguments {α : Type} {call : Callee × List Argument × Option Window}
    {window : Window} (passed : .reference window ∈ call.2.1) :
    (statements : List (Statement α)) → call ∈ callsOf statements →
      window.base ∈ readsOf statements
  | [], mem => nomatch mem
  | statement :: rest, mem =>
      (List.mem_append.1 mem).elim
        (fun here => List.mem_append_left _ (Statement.read_of_argument passed statement here))
        fun later => List.mem_append_right _ (Statement.read_of_arguments passed rest later)

end

/-! ## Worlds that differ in unread arrays -/

/-- Memories that hold the same in all arrays but the unread ones. -/
def Memory.Matches {α : Type} {sizes : List Nat} (unread : Nat → Prop)
    (first second : Memory α sizes) : Prop :=
  ∀ id, ¬unread id → first.content id = second.content id

/-- Whether a buffer is an array of the module that is not read. -/
def Buffer.IsUnread (unread : Nat → Prop) : Buffer → Prop
  | .global id => unread id
  | .stack _ => False

/-- Stores with the same arrays on the stack, and with memories that match. -/
structure Store.Matches {α : Type} {sizes : List Nat} (unread : Nat → Prop)
    (first second : Store α sizes) : Prop where
  stack : first.stack = second.stack
  memory : first.memory.Matches unread second.memory

/-- Worlds whose stores match, with the same host. -/
structure World.Matches {α σ : Type} {sizes : List Nat} (unread : Nat → Prop)
    (first second : World α σ sizes) : Prop where
  store : first.store.Matches unread second.store
  state : first.state = second.state

/-- An external function that does not look into the unread arrays: on memories that
match it replies the same and leaves memories that match. -/
def Host.Overlooks {α σ : Type} {sizes : List Nat} (host : Host α σ sizes) (unread : Nat → Prop)
    (function : External) : Prop :=
  ∀ passed (first second : Memory α sizes) state, first.Matches unread second →
    let reply := host function passed first state
    let other := host function passed second state
    reply.status = other.status ∧ reply.arguments = other.arguments ∧
      reply.state = other.state ∧ reply.memory.Matches unread other.memory

namespace Memory

variable {α : Type} {sizes : List Nat} {unread : Nat → Prop} {first second third : Memory α sizes}

theorem Matches.refl (memory : Memory α sizes) : memory.Matches unread memory :=
  fun _ _ => rfl

theorem Matches.symm (same : first.Matches unread second) : second.Matches unread first :=
  fun id read => (same id read).symm

theorem Matches.trans (same : first.Matches unread second) (later : second.Matches unread third) :
    first.Matches unread third :=
  fun id read => (same id read).trans (later id read)

end Memory

namespace Store.Matches

variable {α : Type} {sizes : List Nat} {unread : Nat → Prop} {first second : Store α sizes}

theorem content_eq (same : first.Matches unread second) {buffer : Buffer}
    (read : ¬buffer.IsUnread unread) : first.content buffer = second.content buffer := by
  cases buffer with
  | global id => exact same.memory id read
  | stack position => simp only [content, same.stack]

/-- Unread arrays have the same sizes nevertheless. -/
theorem alike (same : first.Matches unread second) : first.Alike second := by
  rw [Alike, same.stack]

theorem read_eq [Scalar α] (same : first.Matches unread second) {cell : Cell}
    (read : ¬cell.buffer.IsUnread unread) : first.read cell = second.read cell := by
  simp only [Store.read, same.content_eq read]

/-- The same value is written, unless the cell is not read anyway. -/
theorem write (same : first.Matches unread second) {cell : Cell} {value other : α}
    (agree : ¬cell.buffer.IsUnread unread → value = other) :
    (first.write cell value).Matches unread (second.write cell other) := by
  obtain ⟨buffer, position⟩ := cell
  cases buffer with
  | stack place =>
      obtain rfl := agree not_false
      refine ⟨?_, same.memory⟩
      simp only [Store.write, same.stack]
  | global target =>
      refine ⟨same.stack, fun id read => ?_⟩
      have contents := Store.content_write first ⟨.global target, position⟩ value (.global id)
      have others := Store.content_write second ⟨.global target, position⟩ other (.global id)
      refine contents.trans (Eq.trans ?_ others.symm)
      have content_eq : first.content (.global id) = second.content (.global id) :=
        same.memory id read
      rw [content_eq]
      split
      · rename_i here
        rw [agree (Buffer.global.inj here ▸ read)]
      · rfl

theorem clear [Scalar α] (same : first.Matches unread second) (id : Nat) :
    (first.clear id).Matches unread (second.clear id) := by
  refine ⟨same.stack, fun other read => ?_⟩
  by_cases here : id = other
  · subst here
    have cleared (memory : Memory α sizes) :
        (memory.clear id).content id = (memory.content id).map fun _ => 0 := by
      simp only [Memory.clear, Memory.modify, Memory.content, Array.getD_eq_getD_getElem?,
        Array.getElem?_modify, if_true]
      cases memory.arrays[id]? <;> simp
    exact (cleared _).trans ((congrArg _ (same.memory id read)).trans (cleared _).symm)
  · have elsewhere : Buffer.global id ≠ .global other := fun equal => here (Buffer.global.inj equal)
    exact (first.content_clear elsewhere).trans
      ((same.memory other read).trans (second.content_clear elsewhere).symm)

theorem push (same : first.Matches unread second) (contents : List (Array α)) :
    (first.push contents).Matches unread (second.push contents) :=
  ⟨by simp only [Store.push, same.stack], same.memory⟩

theorem truncate (same : first.Matches unread second) (height : Nat) :
    (first.truncate height).Matches unread (second.truncate height) :=
  ⟨by simp only [Store.truncate, same.stack], same.memory⟩

end Store.Matches

/-! ## Look-ups -/

namespace Frame

variable {α : Type} {sizes : List Nat} {unread : Nat → Prop} {first second : Store α sizes}

/-- A base under which a frame does not show the unread arrays. -/
def Hides (frame : Frame) (unread : Nat → Prop) (base : Base) : Prop :=
  ∀ origin, frame.origin? base = some origin → ¬origin.buffer.IsUnread unread

variable {frame : Frame}

/-- Whether and where a cell is found does not depend on what stands in the arrays. -/
theorem locate_congr (alike : first.Alike second) (window : Window) :
    frame.locate first window = frame.locate second window := by
  funext distance
  simp only [locate, alike.size_content]

theorem check_congr (alike : first.Alike second) (window : Window) :
    frame.check first window = frame.check second window := by
  simp only [check, locate_congr alike]

theorem cells_congr (alike : first.Alike second) (window : Window) :
    frame.cells first window = frame.cells second window := by
  simp only [cells, checkStored, locate_congr alike]

theorem binding_congr (alike : first.Alike second) (argument : Argument) :
    frame.binding first argument = frame.binding second argument := by
  cases argument with
  | reference window => simp only [binding, locate_congr alike]
  | index index => rfl

/-- Every cell that is found through a hiding base lies elsewhere. -/
theorem Hides.locate {window : Window} (hides : frame.Hides unread window.base)
    {store : Store α sizes} {distance : Nat} {cell : Cell}
    (found : frame.locate store window distance = .ok cell) : ¬cell.buffer.IsUnread unread := by
  intro hidden
  obtain ⟨buffer, position⟩ := cell
  cases buffer with
  | stack _ => exact hidden
  | global id =>
      have spares : frame.Spares (.global id) window.base := fun origin isOrigin same =>
        hides origin isOrigin (same ▸ hidden)
      exact spares.locate found rfl

theorem Hides.binding {argument : Argument}
    (hides : ∀ window ∈ argument.window?, frame.Hides unread window.base)
    {store : Store α sizes} {binding : Binding}
    (found : frame.binding store argument = .ok binding) :
    ∀ start ∈ binding.start?, ¬start.buffer.IsUnread unread := by
  cases argument with
  | index index =>
      obtain ⟨_, _, bound⟩ := exists_of_bind_eq_ok found
      cases bound
      nofun
  | reference window =>
      obtain ⟨cell, located, bound⟩ := exists_of_bind_eq_ok found
      cases bound
      intro start isStart
      cases isStart
      exact (hides window rfl).locate located

variable [Scalar α]

theorem view_congr (same : first.Matches unread second) {window : Window}
    (hides : frame.Hides unread window.base) :
    frame.view first window = frame.view second window := by
  refine Matrix.ofFn_congr fun row _ col _ => ?_
  rw [locate_congr same.alike]
  cases found : frame.locate second window (window.position row col) with
  | ok cell => exact same.read_eq (hides.locate found)
  | error _ => rfl

theorem evaluate_congr (same : first.Matches unread second) {expr : Expr α}
    (hides : ∀ window ∈ expr.windows, frame.Hides unread window.base) :
    frame.evaluate first expr = frame.evaluate second expr := by
  have checks : frame.check first = frame.check second := funext (check_congr same.alike)
  have value_eq : expr.value (frame.view first) = expr.value (frame.view second) :=
    value_congr fun window mem => view_congr same (hides window mem)
  simp only [evaluate, checks, value_eq]

theorem passed_congr (same : first.Matches unread second) {argument : Argument}
    (hides : ∀ window ∈ argument.window?, frame.Hides unread window.base) :
    frame.passed first argument = frame.passed second argument := by
  cases argument with
  | index index => rfl
  | reference window =>
      simp only [passed, cells_congr same.alike]
      cases found : frame.cells second window with
      | error fault => rfl
      | ok cells =>
          have values_eq : cells.map first.read = cells.map second.read := by
            refine List.map_congr_left fun cell mem => same.read_eq ?_
            obtain ⟨_, _, listed⟩ := exists_of_bind_eq_ok found
            obtain ⟨_, _, located⟩ := exists_of_mem_mapM listed cell mem
            exact (hides window rfl).locate located
          exact congrArg (fun values => Except.ok (Passed.array values.toArray)) values_eq

end Frame

/-! ## Computations that run alike -/

namespace Execution

variable {α σ β γ : Type} {sizes : List Nat} {unread : Nat → Prop}

/-- Two computations that end alike on matching worlds, by a result or by a fault, and
leave worlds that match. -/
def Agree (unread : Nat → Prop) (first second : Execution α σ sizes β) : Prop :=
  ∀ world other : World α σ sizes, world.Matches unread other →
    (first.run.run world).1 = (second.run.run other).1 ∧
      (first.run.run world).2.Matches unread (second.run.run other).2

/-- A computation that does the same on matching worlds. -/
def Ignores (unread : Nat → Prop) (execution : Execution α σ sizes β) : Prop :=
  Agree unread execution execution

theorem ignores_pure (value : β) : Ignores unread (pure value : Execution α σ sizes β) :=
  fun _ _ same => ⟨rfl, same⟩

theorem ignores_throw (fault : Fault) : Ignores unread (throw fault : Execution α σ sizes β) :=
  fun _ _ same => ⟨rfl, same⟩

theorem Ignores.bind {first : Execution α σ sizes β} {next : β → Execution α σ sizes γ}
    (firstIgnores : Ignores unread first) (nextIgnores : ∀ value, Ignores unread (next value)) :
    Ignores unread (first >>= next) := by
  intro world other same
  obtain ⟨result_eq, middle⟩ := firstIgnores world other same
  rw [ExceptT.run_bind, StateT.run_bind, StateT.run_bind]
  generalize first.run.run world = outcome at result_eq middle ⊢
  generalize first.run.run other = otherOutcome at result_eq middle ⊢
  obtain ⟨result, between⟩ := outcome
  obtain ⟨otherResult, otherBetween⟩ := otherOutcome
  obtain rfl : result = otherResult := result_eq
  cases result with
  | error fault => exact ⟨rfl, middle⟩
  | ok value => exact nextIgnores value between otherBetween middle

/-- What is computed from the store must not depend on the unread arrays. -/
theorem ignores_inspect_bind {query : Store α sizes → Except Fault β}
    {next : β → Execution α σ sizes γ}
    (congr : ∀ {store other : Store α sizes}, store.Matches unread other →
      query store = query other)
    (nextIgnores : ∀ store value, query store = .ok value → Ignores unread (next value)) :
    Ignores unread (inspect query >>= next) := by
  intro world other same
  have query_eq := congr same.store
  cases found : query world.store with
  | ok value =>
      have inspected := @returns_inspect α σ β sizes query world value found
      have otherInspected := @returns_inspect α σ β sizes query other value (query_eq ▸ found)
      unfold Returns at inspected otherInspected
      rw [ExceptT.run_bind, StateT.run_bind, inspected, StateT.run_bind, otherInspected]
      exact nextIgnores _ value found world other same
  | error fault =>
      rw [ExceptT.run_bind, StateT.run_bind, run_inspect_of_error found, StateT.run_bind,
        run_inspect_of_error (query_eq ▸ found)]
      exact ⟨rfl, same⟩

theorem ignores_inspect {query : Store α sizes → Except Fault β}
    (congr : ∀ {store other : Store α sizes}, store.Matches unread other →
      query store = query other) :
    Ignores unread (inspect query : Execution α σ sizes β) := by
  have ignores := @ignores_inspect_bind α σ β β sizes unread query pure congr
    fun _ value _ => ignores_pure value
  rwa [bind_pure] at ignores

theorem ignores_change {step : Store α sizes → Store α sizes}
    (congr : ∀ {store other : Store α sizes}, store.Matches unread other →
      (step store).Matches unread (step other)) :
    Ignores unread (change step : Execution α σ sizes Unit) :=
  fun _ _ same => ⟨rfl, congr same.store, same.state⟩

theorem ignores_forM {items : List β} {visit : β → Execution α σ sizes PUnit}
    (each : ∀ item ∈ items, Ignores unread (visit item)) : Ignores unread (items.forM visit) := by
  induction items with
  | nil => exact ignores_pure ()
  | cons item rest ih =>
      rw [List.forM_eq_forM, List.forM_cons]
      exact (each item List.mem_cons_self).bind fun _ =>
        ih fun other mem => each other (List.mem_cons_of_mem item mem)

end Execution

open Execution

/-! ## Statements -/

section Statements

variable {α σ : Type} [Scalar α] {sizes : List Nat} {unread : Nat → Prop} {frame : Frame}

/-- An assignment may go to an unread array, whose old content it then combines. -/
theorem Frame.ignores_assign (window : Window) (op : AssignOp) (value : Matrix α) :
    Ignores unread (frame.assign window op value : Execution α σ sizes Unit) := by
  rw [assign, sweepPositions_eq_forM]
  refine ignores_forM fun _ _ => ignores_inspect_bind
    (fun same => congrFun (locate_congr same.alike window) _) fun _ cell _ => ?_
  exact ignores_change fun same => same.write fun read => by rw [same.read_eq read]

omit [Scalar α] in
theorem Frame.ignores_assignStatus (window : Window) (status : α) :
    Ignores unread (frame.assignStatus window status : Execution α σ sizes Unit) :=
  ignores_inspect_bind (fun same => congrFun (locate_congr same.alike window) _)
    fun _ _ _ => ignores_change fun same => same.write fun _ => rfl

omit [Scalar α] in
theorem Frame.ignores_restore (argument : Argument) (left : Passed α) :
    Ignores unread (frame.restore argument left : Execution α σ sizes Unit) := by
  cases argument with
  | index _ => exact ignores_pure ()
  | reference window =>
      cases left with
      | index _ => exact ignores_pure ()
      | array values =>
          refine ignores_inspect_bind (fun same => cells_congr same.alike window)
            fun _ cells _ => ?_
          exact ignores_forM fun _ _ => ignores_change fun same => same.write fun _ => rfl

theorem mapM_congr {β γ : Type} {items : List β} {visit other : β → Except Fault γ}
    (same : ∀ item ∈ items, visit item = other item) : items.mapM visit = items.mapM other := by
  induction items with
  | nil => rfl
  | cons item rest ih =>
      rw [List.mapM_cons, List.mapM_cons, same item List.mem_cons_self,
        ih fun later mem => same later (List.mem_cons_of_mem item mem)]

theorem Surroundings.ignores_callExternal {surroundings : Surroundings α σ sizes}
    {function : External} (overlooks : surroundings.host.Overlooks unread function)
    {arguments : List Argument}
    (hides : ∀ argument ∈ arguments, ∀ window ∈ argument.window?,
      frame.Hides unread window.base) :
    Ignores unread (surroundings.callExternal frame function arguments) := by
  refine ignores_inspect_bind (fun same => mapM_congr fun argument mem =>
    Frame.passed_congr same (hides argument mem)) fun _ passed _ => ?_
  -- what is copied back depends on the reply only
  let restores (status : Int) (left : List (Passed α)) : Execution α σ sizes α := do
    (arguments.zip left).forM fun entry => frame.restore entry.1 entry.2
    pure (Scalar.ofInt status)
  have restored (status : Int) (left : List (Passed α)) : Ignores unread (restores status left) :=
    (ignores_forM fun item _ => Frame.ignores_restore item.1 item.2).bind
      fun _ => ignores_pure _
  intro world other same
  let reply := surroundings.host function passed world.store.memory world.state
  let otherReply := surroundings.host function passed other.store.memory other.state
  obtain ⟨status_eq, arguments_eq, state_eq, memory⟩ : reply.status = otherReply.status ∧
      reply.arguments = otherReply.arguments ∧ reply.state = otherReply.state ∧
        reply.memory.Matches unread otherReply.memory := by
    simp only [otherReply, ← same.state]
    exact overlooks passed _ _ world.state same.store.memory
  have replied : (⟨{ world.store with memory := reply.memory }, reply.state⟩ :
      World α σ sizes).Matches unread
        ⟨{ other.store with memory := otherReply.memory }, otherReply.state⟩ :=
    ⟨⟨same.store.stack, memory⟩, state_eq⟩
  have restores_eq : restores reply.status reply.arguments =
      restores otherReply.status otherReply.arguments :=
    congrArg₂ restores status_eq arguments_eq
  have ends : Agree unread (restores reply.status reply.arguments)
      (restores otherReply.status otherReply.arguments) := by
    rw [restores_eq]
    exact restored _ _
  exact ends _ _ replied

omit [Scalar α] in
theorem Surroundings.ignores_callRoutine {surroundings : Surroundings α σ sizes} {name : String}
    {arguments : List Argument}
    (enters : ∀ routine ∈ surroundings.routine? name, ∀ (store : Store α sizes) bindings,
      arguments.mapM (frame.binding store) = .ok bindings →
        Ignores unread (surroundings.enter routine bindings)) :
    Ignores unread (surroundings.callRoutine frame name arguments) := by
  unfold callRoutine
  cases known : surroundings.routine? name with
  | none => exact ignores_throw _
  | some routine =>
      simp only
      split
      · exact ignores_inspect_bind
          (fun same => mapM_congr fun argument _ => Frame.binding_congr same.alike argument)
          fun store bindings bound => enters routine known store bindings bound
      · exact ignores_throw _

/-- What a statement relies on to do the same on worlds that match: what it reads lies
elsewhere, the functions that it calls overlook the unread arrays, and the routines
ignore them, whatever the indices in scope are. -/
structure Surroundings.Overlooks (surroundings : Surroundings α σ sizes) (unread : Nat → Prop)
    (frame : Frame) (reads : List Base) (calls : List (Callee × List Argument × Option Window)) :
    Prop where
  reads : ∀ base ∈ reads, frame.Hides unread base
  functions : ∀ call ∈ calls, ∀ function, call.1 = .external function →
    surroundings.host.Overlooks unread function
  routines : ∀ call ∈ calls, ∀ name, call.1 = .routine name →
    ∀ routine ∈ surroundings.routine? name, ∀ scope (store : Store α sizes) bindings,
      call.2.1.mapM ((frame.inScope scope).binding store) = .ok bindings →
        Ignores unread (surroundings.enter routine bindings)

omit [Scalar α] in
theorem Surroundings.Overlooks.mono {surroundings : Surroundings α σ sizes}
    {reads fewer : List Base} {calls less : List (Callee × List Argument × Option Window)}
    (overlooks : surroundings.Overlooks unread frame reads calls)
    (reads_subset : fewer ⊆ reads) (calls_subset : less ⊆ calls) :
    surroundings.Overlooks unread frame fewer less :=
  ⟨fun base mem => overlooks.reads base (reads_subset mem),
    fun call mem => overlooks.functions call (calls_subset mem),
    fun call mem => overlooks.routines call (calls_subset mem)⟩

omit [Scalar α] in
/-- The status of a call goes to its window. -/
theorem Statement.ignores_status {called : Execution α σ sizes α}
    (ignores : Ignores unread called) (status : Option Window) :
    Ignores unread (do
      let result ← called
      match status with
      | some target => frame.assignStatus target result
      | none => pure ()) := by
  refine ignores.bind fun result => ?_
  cases status with
  | none => exact ignores_pure ()
  | some target => exact Frame.ignores_assignStatus target result

mutual

theorem Statement.ignores_execute {surroundings : Surroundings α σ sizes} {frame : Frame} :
    (statement : Statement α) →
    surroundings.Overlooks unread frame statement.reads statement.calls →
    Ignores unread (statement.execute surroundings frame)
  | .assign target op value, overlooks => by
      rw [execute]
      refine ignores_inspect_bind (fun same => Frame.evaluate_congr same fun window mem => ?_)
        fun _ _ _ => Frame.ignores_assign target op _
      exact overlooks.reads _ (List.mem_map_of_mem mem)
  | .clear id, _ => by
      rw [execute]
      exact ignores_change fun same => same.clear id
  | .loop name start stop body, overlooks => by
      rw [execute, sweep_eq_forM]
      refine ignores_forM fun value _ => ?_
      exact Statement.ignores_executeAll body
        ⟨overlooks.reads, overlooks.functions, overlooks.routines⟩
  | .call (.routine name) arguments status, overlooks => by
      rw [execute]
      refine Statement.ignores_status (Surroundings.ignores_callRoutine
        fun routine known store bindings bound => ?_) status
      exact overlooks.routines _ (List.mem_singleton_self _) name rfl routine known frame.scope store
        bindings bound
  | .call (.external function) arguments status, overlooks => by
      rw [execute]
      refine Statement.ignores_status (Surroundings.ignores_callExternal
        (overlooks.functions _ (List.mem_singleton_self _) function rfl)
        fun argument mem window isWindow => overlooks.reads _ ?_) status
      exact List.mem_map_of_mem (List.mem_filterMap.2 ⟨argument, mem, isWindow⟩)
  | .comment _, _ => by
      rw [execute]
      exact ignores_pure ()

/-- Statements do the same on worlds that match if none of them reads an unread array,
and no function or routine that they call does. -/
theorem Statement.ignores_executeAll {surroundings : Surroundings α σ sizes} {frame : Frame} :
    (statements : List (Statement α)) →
    surroundings.Overlooks unread frame (Statement.readsOf statements)
      (Statement.callsOf statements) →
    Ignores unread (Statement.executeAll surroundings frame statements)
  | [], _ => by
      rw [executeAll]
      exact ignores_pure ()
  | statement :: rest, overlooks => by
      rw [executeAll]
      refine (Statement.ignores_execute statement (overlooks.mono ?_ ?_)).bind
        fun _ => Statement.ignores_executeAll rest (overlooks.mono ?_ ?_)
      · exact List.subset_append_left _ _
      · exact List.subset_append_left _ _
      · exact List.subset_append_right _ _
      · exact List.subset_append_right _ _

end

end Statements

/-! ## Routines -/

section Routines

variable {α σ : Type} [Scalar α] {program : Program α} {host : Host α σ program.table.sizes}
  {unread : Nat → Prop}

/-- Neither a routine nor any routine that it calls, directly or through others, reads an
unread array, and all functions that they call overlook these arrays. -/
inductive Program.Overlooks (program : Program α) (host : Host α σ program.table.sizes)
    (unread : Nat → Prop) : Routine α → Prop
  | intro {routine : Routine α}
      (reads : ∀ id, unread id → Base.global id ∉ Statement.readsOf routine.body)
      (functions : ∀ call ∈ Statement.callsOf routine.body, ∀ function,
        call.1 = .external function → host.Overlooks unread function)
      (routines : ∀ call ∈ Statement.callsOf routine.body, ∀ name, call.1 = .routine name →
        ∀ callee ∈ program.routine? name, program.Overlooks host unread callee) :
      program.Overlooks host unread routine

omit [Scalar α] in
/-- A frame hides unread arrays that are neither named nor passed. -/
theorem Frame.hides_ofCall {routine : Routine α} {bindings : List Binding} {base : Base}
    (unnamed : ∀ id, unread id → base ≠ .global id)
    (elsewhere : ∀ binding ∈ bindings, ∀ start ∈ binding.start?, ¬start.buffer.IsUnread unread)
    (height : Nat) (scope : List (String × Nat)) :
    ((Frame.ofCall routine bindings height).inScope scope).Hides unread base := by
  intro origin found
  cases base with
  | global id =>
      cases found
      exact fun hidden => unnamed id hidden rfl
  | own position =>
      cases found
      exact not_false
  | parameter position =>
      obtain ⟨binding, bound, isStart⟩ := Option.bind_eq_some_iff.1 found
      exact elsewhere binding (List.mem_of_getElem? bound) origin isStart

/-- What a routine returns is read from an array of its own. -/
theorem Routine.returned_congr {routine : Routine α} (frame : Frame)
    {store other : Store α program.table.sizes} (same : store.Matches unread other) :
    routine.returned frame store = routine.returned frame other := by
  unfold returned
  cases routine.result with
  | none => rfl
  | some position =>
      let window := Window.vector (.own position) (.const 0) 1
      have hides : frame.Hides unread window.base := by
        intro origin found
        cases found
        exact not_false
      simp only [Frame.locate_congr same.alike]
      cases found : frame.locate other window 0 with
      | error fault => rfl
      | ok cell => exact congrArg Except.ok (same.read_eq (hides.locate found))

/-- A routine ignores unread arrays if its statements do. -/
theorem Program.ignores_enter_succ {depth : Nat} {routine : Routine α} {bindings : List Binding}
    (overlooks : ∀ height,
      (⟨program.routine?, host, program.enter host depth⟩ : Surroundings α σ _).Overlooks unread
        (Frame.ofCall routine bindings height) (Statement.readsOf routine.body)
        (Statement.callsOf routine.body)) :
    Ignores unread (program.enter host (depth + 1) routine bindings) := by
  intro world other same
  -- all that follows the look at the height of the stack, which is the same in both worlds
  let rest (height : Nat) : Execution α σ program.table.sizes α := do
    let frame := Frame.ofCall routine bindings height
    change fun store => store.push (routine.locals.map fun decl => Array.replicate decl.size 0)
    Statement.executeAll ⟨program.routine?, host, program.enter host depth⟩ frame routine.body
    let result ← inspect (routine.returned frame)
    change fun store => store.truncate height
    pure result
  have ignores (height : Nat) : Ignores unread (rest height) := by
    refine (ignores_change fun same => same.push _).bind fun _ => ?_
    refine (Statement.ignores_executeAll routine.body (overlooks height)).bind fun _ => ?_
    exact (ignores_inspect (Routine.returned_congr _)).bind fun result =>
      (ignores_change fun same => same.truncate height).bind fun _ => ignores_pure result
  have height_eq : other.store.stack.size = world.store.stack.size :=
    congrArg Array.size same.store.stack.symm
  have ends : Agree unread (rest world.store.stack.size) (rest other.store.stack.size) := by
    rw [height_eq]
    exact ignores _
  exact ends world other same

/-- A routine that overlooks unread arrays ignores them, if it is not passed any. -/
theorem Program.Overlooks.ignores_enter {depth : Nat} {routine : Routine α}
    (overlooks : program.Overlooks host unread routine) {bindings : List Binding}
    (elsewhere : ∀ binding ∈ bindings, ∀ start ∈ binding.start?,
      ¬start.buffer.IsUnread unread) :
    Ignores unread (program.enter host depth routine bindings) := by
  induction depth generalizing routine bindings with
  | zero => exact ignores_throw _
  | succ depth ih =>
      obtain ⟨reads, functions, routines⟩ := overlooks
      have hides : ∀ base ∈ Statement.readsOf routine.body, ∀ height scope,
          ((Frame.ofCall routine bindings height).inScope scope).Hides unread base :=
        fun base mem => Frame.hides_ofCall (fun id hidden same => reads id hidden (same ▸ mem))
          elsewhere
      refine ignores_enter_succ fun height => ⟨fun base mem => hides base mem height _,
        functions, ?_⟩
      intro call mem name isCall callee known scope store passed bound
      refine ih (routines call mem name isCall callee known) fun binding listed => ?_
      obtain ⟨argument, given, found⟩ := exists_of_mem_mapM bound binding listed
      refine Frame.Hides.binding (fun window isWindow => hides _ ?_ height scope) found
      cases argument with
      | index _ => cases isWindow
      | reference _ =>
          cases isWindow
          exact Statement.read_of_arguments given _ mem

/-! ## Runs -/

/-- Runs of a routine that ignores unread arrays end alike on memories that match, whatever
is passed to it, and leave memories that match. -/
theorem Program.run_of_ignores {name : String}
    (ignores : ∀ routine ∈ program.routine? name, ∀ arguments : List (Passed α),
      ∀ bound ∈ bindOutside routine.parameters arguments 0,
        Ignores unread (program.enter host program.callDepth routine bound.1))
    (state : σ) {memory other : program.Contents} (same : memory.Matches unread other)
    (arguments : List (Passed α)) :
    let outcome := program.run host state memory name arguments
    let otherOutcome := program.run host state other name arguments
    outcome.result = otherOutcome.result ∧ outcome.state = otherOutcome.state ∧
      outcome.memory.Matches unread otherOutcome.memory := by
  unfold run
  cases known : program.routine? name with
  | none => exact ⟨rfl, rfl, same⟩
  | some routine =>
      cases binds : bindOutside routine.parameters arguments 0 with
      | none =>
          simp only [binds]
          exact ⟨trivial, trivial, same⟩
      | some bound =>
          obtain ⟨result_eq, matching⟩ := ignores routine known arguments bound binds
            ⟨⟨memory, bound.2.toArray⟩, state⟩ ⟨⟨other, bound.2.toArray⟩, state⟩
            ⟨⟨rfl, same⟩, rfl⟩
          simp only [binds]
          exact ⟨result_eq, matching.state, matching.store.memory⟩

/-- A routine that overlooks unread arrays ignores them whatever it is passed from outside. -/
theorem Program.Overlooks.ignores_outside {routine : Routine α}
    (overlooks : program.Overlooks host unread routine) {arguments : List (Passed α)}
    {bound : List Binding × List (Array α)}
    (binds : bindOutside routine.parameters arguments 0 = some bound) (depth : Nat) :
    Ignores unread (program.enter host depth routine bound.1) := by
  refine overlooks.ignores_enter fun binding mem start isStart => ?_
  obtain ⟨buffer, position⟩ := start
  cases buffer with
  | stack _ => exact not_false
  | global id => exact absurd rfl (elsewhere_bindOutside binds id binding mem _ isStart)

end Routines

end RtiAssembly
