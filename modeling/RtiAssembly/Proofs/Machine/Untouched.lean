import RtiAssembly.Proofs.Machine.Cells
import RtiAssembly.Proofs.Machine.Writes

/-!
# What routines leave alone

A routine writes to a buffer only if one of its statements stores to it, hands it
to an external function or lends it to a routine that writes to it, or if the
host writes to it.  All other buffers keep their contents, whatever is passed to
the routine and even if a fault ends the run halfway.

The induction carries along what happens to the state of the host, so that a
record of its calls can be followed at the same time.
-/

namespace RtiAssembly

/-! ## Worlds in which a buffer is kept -/

/-- Whether a buffer stands below a height of the stack; those of the module always
do. -/
def Buffer.LiesBelow (height : Nat) : Buffer → Prop
  | .global _ => True
  | .stack position => position < height

/-- What a host does to a buffer and to its own state: it leaves the buffer alone,
and a reply takes its state to one that follows. -/
structure Host.Respects {α σ : Type} {sizes : List Nat} (host : Host α σ sizes) (buffer : Buffer)
    (follows : σ → σ → Prop) : Prop where
  refl : ∀ state, follows state state
  trans : ∀ {first second third}, follows first second → follows second third →
    follows first third
  state : ∀ function passed memory state,
    follows state (host function passed memory state).state
  content : ∀ id, buffer = .global id → ∀ function passed memory state,
    (host function passed memory state).memory.content id = memory.content id

/-- A host that leaves an array of the module alone, whatever becomes of its own
state. -/
theorem Host.respects_of_content {α σ : Type} {sizes : List Nat} {host : Host α σ sizes}
    {id : Nat} (content : ∀ function passed memory state,
      (host function passed memory state).memory.content id = memory.content id) :
    host.Respects (.global id) fun _ _ => True where
  refl _ := trivial
  trans _ _ := trivial
  state _ _ _ _ := trivial
  content _ isGlobal := Buffer.global.inj isGlobal ▸ content

namespace World

variable {α σ : Type} {sizes : List Nat}

/-- A step that keeps a buffer and takes the state of the host to one that
follows. -/
structure Keeps (buffer : Buffer) (follows : σ → σ → Prop) (before after : World α σ sizes) :
    Prop where
  below : buffer.LiesBelow after.store.stack.size
  content : after.store.content buffer = before.store.content buffer
  state : follows before.state after.state

variable {host : Host α σ sizes} {buffer : Buffer} {follows : σ → σ → Prop}

theorem Keeps.refl (respects : host.Respects buffer follows) {world : World α σ sizes}
    (below : buffer.LiesBelow world.store.stack.size) : world.Keeps buffer follows world :=
  ⟨below, rfl, respects.refl _⟩

theorem Keeps.trans (respects : host.Respects buffer follows)
    {before between after : World α σ sizes} (first : before.Keeps buffer follows between)
    (second : between.Keeps buffer follows after) : before.Keeps buffer follows after :=
  ⟨second.below, second.content.trans first.content, respects.trans first.state second.state⟩

end World

namespace Store

variable {α : Type} {sizes : List Nat} {buffer : Buffer}

theorem content_clear [Scalar α] (store : Store α sizes) {id : Nat}
    (other : Buffer.global id ≠ buffer) : (store.clear id).content buffer = store.content buffer := by
  cases buffer with
  | stack _ => rfl
  | global kept =>
      have different : id ≠ kept := fun same => other (congrArg _ same)
      simp only [clear, content, Memory.content, Memory.clear, Memory.modify,
        Array.getD_eq_getD_getElem?, Array.getElem?_modify, if_neg different]

/-- Arrays that are pushed lie above a buffer. -/
theorem content_push (store : Store α sizes) (below : buffer.LiesBelow store.stack.size)
    (contents : List (Array α)) : (store.push contents).content buffer = store.content buffer := by
  cases buffer with
  | global _ => rfl
  | stack position =>
      have inside : position < store.stack.size := below
      have listed : position < store.stack.toList.length := by rwa [Array.length_toList]
      simp only [push, content, Array.getD_eq_getD_getElem?, ← Array.getElem?_toList,
        Array.toList_appendList, List.getElem?_append_left listed]

/-- Cutting the stack keeps what lies below. -/
theorem content_truncate (store : Store α sizes) {height : Nat} (below : buffer.LiesBelow height) :
    (store.truncate height).content buffer = store.content buffer := by
  cases buffer with
  | global _ => rfl
  | stack position =>
      have inside : position < height := below
      have kept : (store.stack.take height)[position]? = store.stack[position]? := by grind
      simp only [truncate, content, Array.getD_eq_getD_getElem?, kept]

end Store

namespace Buffer.LiesBelow

variable {α : Type} {sizes : List Nat} {buffer : Buffer} {store : Store α sizes}

theorem push (below : buffer.LiesBelow store.stack.size) (contents : List (Array α)) :
    buffer.LiesBelow (store.push contents).stack.size := by
  cases buffer with
  | global _ => trivial
  | stack _ =>
      have inside := Nat.lt_of_lt_of_le below (Nat.le_add_right store.stack.size contents.length)
      simpa [Store.push, LiesBelow, ← Array.length_toList, Array.toList_appendList] using inside

theorem truncate (stands : buffer.LiesBelow store.stack.size) {height : Nat}
    (below : buffer.LiesBelow height) : buffer.LiesBelow (store.truncate height).stack.size := by
  cases buffer with
  | global _ => trivial
  | stack _ =>
      have inside := Nat.lt_min.2 ⟨below, stands⟩
      simpa [Store.truncate, LiesBelow] using inside

end Buffer.LiesBelow

/-! ## Computations that leave a buffer alone -/

theorem exists_of_bind_eq_ok {β γ : Type} {first : Except Fault β} {next : β → Except Fault γ}
    {result : γ} (found : first >>= next = .ok result) :
    ∃ value, first = .ok value ∧ next value = .ok result := by
  cases first with
  | error fault => contradiction
  | ok value => exact ⟨value, rfl, found⟩

theorem exists_of_getElem?_mapM {β γ : Type} {items : List β} {visit : β → Except Fault γ}
    {values : List γ} (found : items.mapM visit = .ok values) {position : Nat} {value : γ}
    (here : values[position]? = some value) :
    ∃ item, items[position]? = some item ∧ visit item = .ok value := by
  induction items generalizing values position with
  | nil =>
      cases found
      cases here
  | cons item rest ih =>
      rw [List.mapM_cons] at found
      obtain ⟨first, visited, found⟩ := exists_of_bind_eq_ok found
      obtain ⟨others, listed, found⟩ := exists_of_bind_eq_ok found
      cases found
      cases position with
      | zero =>
          cases here
          exact ⟨item, rfl, visited⟩
      | succ position => exact ih listed here

theorem exists_of_mem_mapM {β γ : Type} {items : List β} {visit : β → Except Fault γ}
    {values : List γ} (found : items.mapM visit = .ok values) :
    ∀ value ∈ values, ∃ item ∈ items, visit item = .ok value := by
  intro value mem
  obtain ⟨position, here⟩ := List.mem_iff_getElem?.1 mem
  obtain ⟨item, listed, visited⟩ := exists_of_getElem?_mapM found here
  exact ⟨item, List.mem_of_getElem? listed, visited⟩

namespace Execution

variable {α σ β γ : Type} {sizes : List Nat} {host : Host α σ sizes} {buffer : Buffer}
  {follows : σ → σ → Prop}

/-- A computation that keeps a buffer, however it ends. -/
def LeavesAlone (buffer : Buffer) (follows : σ → σ → Prop) (execution : Execution α σ sizes β) :
    Prop :=
  ∀ world : World α σ sizes, buffer.LiesBelow world.store.stack.size →
    world.Keeps buffer follows (execution.run.run world).2

theorem leavesAlone_pure (respects : host.Respects buffer follows) (value : β) :
    LeavesAlone buffer follows (pure value : Execution α σ sizes β) :=
  fun _ below => .refl respects below

theorem leavesAlone_throw (respects : host.Respects buffer follows) (fault : Fault) :
    LeavesAlone buffer follows (throw fault : Execution α σ sizes β) :=
  fun _ below => .refl respects below

theorem LeavesAlone.bind (respects : host.Respects buffer follows)
    {first : Execution α σ sizes β} {next : β → Execution α σ sizes γ}
    (firstAlone : LeavesAlone buffer follows first)
    (nextAlone : ∀ value, LeavesAlone buffer follows (next value)) :
    LeavesAlone buffer follows (first >>= next) := by
  intro world below
  have kept := firstAlone world below
  rw [ExceptT.run_bind, StateT.run_bind]
  generalize first.run.run world = outcome at kept ⊢
  obtain ⟨_ | value, middle⟩ := outcome
  · exact kept
  · exact kept.trans respects (nextAlone value middle kept.below)

/-- What is computed from the store may depend on the store. -/
theorem leavesAlone_inspect_bind (respects : host.Respects buffer follows)
    {query : Store α sizes → Except Fault β} {next : β → Execution α σ sizes γ}
    (nextAlone : ∀ store value, query store = .ok value →
      LeavesAlone buffer follows (next value)) :
    LeavesAlone buffer follows (inspect query >>= next) := by
  intro world below
  cases found : query world.store with
  | ok value =>
      have inspected := @returns_inspect α σ β sizes query world value found
      unfold Returns at inspected
      rw [ExceptT.run_bind, StateT.run_bind, inspected]
      exact nextAlone _ value found world below
  | error fault =>
      rw [ExceptT.run_bind, StateT.run_bind, run_inspect_of_error found]
      exact .refl respects below

theorem leavesAlone_inspect (respects : host.Respects buffer follows)
    (query : Store α sizes → Except Fault β) :
    LeavesAlone buffer follows (inspect query : Execution α σ sizes β) := by
  have alone := @leavesAlone_inspect_bind α σ β β sizes host buffer follows respects query pure
    fun _ value _ => leavesAlone_pure respects value
  rwa [bind_pure] at alone

theorem leavesAlone_change (respects : host.Respects buffer follows)
    {step : Store α sizes → Store α sizes}
    (content : ∀ store, buffer.LiesBelow store.stack.size →
      (step store).content buffer = store.content buffer ∧
        buffer.LiesBelow (step store).stack.size) :
    LeavesAlone buffer follows (change step : Execution α σ sizes Unit) :=
  fun world below =>
    let ⟨kept, stays⟩ := content world.store below
    ⟨stays, kept, respects.refl _⟩

theorem leavesAlone_forM (respects : host.Respects buffer follows) {items : List β}
    {visit : β → Execution α σ sizes PUnit}
    (each : ∀ item ∈ items, LeavesAlone buffer follows (visit item)) :
    LeavesAlone buffer follows (items.forM visit) := by
  induction items with
  | nil => exact leavesAlone_pure respects ()
  | cons item rest ih =>
      rw [List.forM_eq_forM, List.forM_cons]
      exact (each item List.mem_cons_self).bind respects fun _ =>
        ih fun other mem => each other (List.mem_cons_of_mem item mem)

/-- A write to a cell elsewhere. -/
theorem leavesAlone_write (respects : host.Respects buffer follows) {cell : Cell}
    (other : cell.buffer ≠ buffer) (value : Store α sizes → α) :
    LeavesAlone buffer follows
      (change fun store => store.write cell (value store) : Execution α σ sizes Unit) := by
  refine leavesAlone_change respects fun store below => ⟨?_, ?_⟩
  · rw [Store.content_write, if_neg (Ne.symm other)]
  · rwa [(Store.alike_write store cell (value store)).size_stack]

end Execution

open Execution

/-! ## Statements -/

section Statements

variable {α σ : Type} [Scalar α] {sizes : List Nat} {host : Host α σ sizes} {buffer : Buffer}
  {follows : σ → σ → Prop} {frame : Frame}

/-- A base under which a frame does not see the buffer. -/
def Frame.Spares (frame : Frame) (buffer : Buffer) (base : Base) : Prop :=
  ∀ origin, frame.origin? base = some origin → origin.buffer ≠ buffer

omit [Scalar α] in
/-- Every cell that is found through a spared base lies elsewhere. -/
theorem Frame.Spares.locate {window : Window} (spares : frame.Spares buffer window.base)
    {store : Store α sizes} {distance : Nat} {cell : Cell}
    (found : frame.locate store window distance = .ok cell) : cell.buffer ≠ buffer := by
  unfold Frame.locate at found
  cases base : frame.origin? window.base with
  | none =>
      rw [base] at found
      contradiction
  | some origin =>
      rw [base] at found
      obtain ⟨offset, _, located⟩ := exists_of_bind_eq_ok found
      dsimp only at located
      split at located
      · cases located
        exact spares origin base
      · contradiction

omit [Scalar α] in
theorem Frame.Spares.cells {window : Window} (spares : frame.Spares buffer window.base)
    {store : Store α sizes} {cells : List Cell} (found : frame.cells store window = .ok cells) :
    ∀ cell ∈ cells, cell.buffer ≠ buffer := by
  obtain ⟨_, _, listed⟩ := exists_of_bind_eq_ok found
  intro cell mem
  obtain ⟨⟨row, col⟩, _, located⟩ := exists_of_mem_mapM listed cell mem
  exact spares.locate located

omit [Scalar α] in
theorem Frame.Spares.binding {argument : Argument}
    (spares : ∀ window ∈ argument.window?, frame.Spares buffer window.base)
    {store : Store α sizes} {binding : Binding} (found : frame.binding store argument = .ok binding) :
    ∀ start ∈ binding.start?, start.buffer ≠ buffer := by
  cases argument with
  | index index =>
      obtain ⟨_, _, bound⟩ := exists_of_bind_eq_ok found
      cases bound
      nofun
  | reference window =>
      obtain ⟨cell, located, bound⟩ := exists_of_bind_eq_ok found
      cases bound
      intro start isStart
      cases isStart
      exact (spares window rfl).locate located

theorem Frame.leavesAlone_assign (respects : host.Respects buffer follows) {window : Window}
    (spares : frame.Spares buffer window.base) (op : AssignOp) (value : Matrix α) :
    LeavesAlone buffer follows (frame.assign window op value : Execution α σ sizes Unit) := by
  rw [assign, sweepPositions_eq_forM]
  exact leavesAlone_forM respects fun _ _ => leavesAlone_inspect_bind respects
    fun _ _ located => leavesAlone_write respects (spares.locate located) _

omit [Scalar α] in
theorem Frame.leavesAlone_assignStatus (respects : host.Respects buffer follows) {window : Window}
    (spares : frame.Spares buffer window.base) (status : α) :
    LeavesAlone buffer follows (frame.assignStatus window status : Execution α σ sizes Unit) :=
  leavesAlone_inspect_bind respects
    fun _ _ located => leavesAlone_write respects (spares.locate located) _

omit [Scalar α] in
theorem Frame.leavesAlone_restore (respects : host.Respects buffer follows) {argument : Argument}
    (spares : ∀ window ∈ argument.window?, frame.Spares buffer window.base) (left : Passed α) :
    LeavesAlone buffer follows (frame.restore argument left : Execution α σ sizes Unit) := by
  cases argument with
  | index _ => exact leavesAlone_pure respects ()
  | reference window =>
      cases left with
      | index _ => exact leavesAlone_pure respects ()
      | array values =>
          refine leavesAlone_inspect_bind respects fun _ cells found => ?_
          refine leavesAlone_forM respects fun entry mem => ?_
          exact leavesAlone_write respects
            ((spares window rfl).cells found _ (List.of_mem_zip mem).1) _

theorem Surroundings.leavesAlone_callExternal {surroundings : Surroundings α σ sizes}
    (respects : surroundings.host.Respects buffer follows) (function : External)
    {arguments : List Argument}
    (spares : ∀ argument ∈ arguments, ∀ window ∈ argument.window?,
      frame.Spares buffer window.base) :
    LeavesAlone buffer follows (surroundings.callExternal frame function arguments) := by
  refine leavesAlone_inspect_bind respects fun _ passed _ => ?_
  -- the reply stands in the memory and in the state of the host before it is copied back
  let restores (reply : Reply α σ sizes) : Execution α σ sizes α := do
    (arguments.zip reply.arguments).forM fun entry => frame.restore entry.1 entry.2
    pure (Scalar.ofInt reply.status)
  have restored (reply : Reply α σ sizes) : LeavesAlone buffer follows (restores reply) :=
    (leavesAlone_forM respects fun item mem => Frame.leavesAlone_restore respects
      (spares item.1 (List.of_mem_zip mem).1) item.2).bind respects
        fun _ => leavesAlone_pure respects _
  intro world below
  let reply := surroundings.host function passed world.store.memory world.state
  let replied : World α σ sizes := ⟨{ world.store with memory := reply.memory }, reply.state⟩
  have kept : world.Keeps buffer follows replied := by
    refine ⟨below, ?_, respects.state _ _ _ _⟩
    cases buffer with
    | global id => exact respects.content id rfl _ _ _ _
    | stack _ => rfl
  exact kept.trans respects (restored reply replied below)

omit [Scalar α] in
theorem Surroundings.leavesAlone_callRoutine {surroundings : Surroundings α σ sizes}
    (respects : host.Respects buffer follows) {name : String} {arguments : List Argument}
    (enters : ∀ routine ∈ surroundings.routine? name, ∀ (store : Store α sizes) bindings,
      arguments.mapM (frame.binding store) = .ok bindings →
        LeavesAlone buffer follows (surroundings.enter routine bindings)) :
    LeavesAlone buffer follows (surroundings.callRoutine frame name arguments) := by
  unfold callRoutine
  cases known : surroundings.routine? name with
  | none => exact leavesAlone_throw respects _
  | some routine =>
      simp only
      split
      · exact leavesAlone_inspect_bind respects fun store bindings bound =>
          enters routine known store bindings bound
      · exact leavesAlone_throw respects _

/-- The frame with other indices in scope. -/
def Frame.inScope (frame : Frame) (scope : List (String × Nat)) : Frame :=
  { frame with scope := scope }

/-- What a statement relies on to leave a buffer alone: whatever it stores to lies
elsewhere, and a called routine leaves the buffer alone, whatever the indices in
scope are. -/
structure Surroundings.Shuns (surroundings : Surroundings α σ sizes) (buffer : Buffer)
    (follows : σ → σ → Prop) (frame : Frame) (stores : List Base)
    (calls : List (Callee × List Argument × Option Window)) : Prop where
  stores : ∀ base ∈ stores, frame.Spares buffer base
  calls : ∀ call ∈ calls, ∀ name, call.1 = .routine name →
    ∀ routine ∈ surroundings.routine? name, ∀ scope (store : Store α sizes) bindings,
      call.2.1.mapM ((frame.inScope scope).binding store) = .ok bindings →
        LeavesAlone buffer follows (surroundings.enter routine bindings)

omit [Scalar α] in
theorem Surroundings.Shuns.mono {surroundings : Surroundings α σ sizes}
    {stores fewer : List Base} {calls less : List (Callee × List Argument × Option Window)}
    (shuns : surroundings.Shuns buffer follows frame stores calls)
    (stores_subset : fewer ⊆ stores) (calls_subset : less ⊆ calls) :
    surroundings.Shuns buffer follows frame fewer less :=
  ⟨fun base mem => shuns.stores base (stores_subset mem),
    fun call mem => shuns.calls call (calls_subset mem)⟩

namespace Statement

variable {function : External} {arguments : List Argument} {status : Option Window}

omit [Scalar α] in
theorem spares_arguments
    (spares : ∀ base ∈ (call (.external function) arguments status : Statement α).stores,
      frame.Spares buffer base) :
    ∀ argument ∈ arguments, ∀ window ∈ argument.window?, frame.Spares buffer window.base := by
  intro argument mem window isWindow
  refine spares _ (List.mem_map.2 ⟨window, List.mem_append_left _ ?_, rfl⟩)
  exact List.mem_filterMap.2 ⟨argument, mem, isWindow⟩

omit [Scalar α] in
theorem spares_status {callee : Callee}
    (spares : ∀ base ∈ (call callee arguments status : Statement α).stores,
      frame.Spares buffer base) :
    ∀ window ∈ status, frame.Spares buffer window.base := by
  intro window mem
  have listed := Option.mem_toList.2 mem
  cases callee with
  | routine _ => exact spares _ (List.mem_map.2 ⟨window, listed, rfl⟩)
  | external _ =>
      exact spares _ (List.mem_map.2 ⟨window, List.mem_append_right _ listed, rfl⟩)

omit [Scalar α] in
/-- The status of a call goes to its window. -/
theorem leavesAlone_status (respects : host.Respects buffer follows)
    {called : Execution α σ sizes α} (alone : LeavesAlone buffer follows called)
    (spares : ∀ window ∈ status, frame.Spares buffer window.base) :
    LeavesAlone buffer follows (do
      let result ← called
      match status with
      | some target => frame.assignStatus target result
      | none => pure ()) := by
  refine alone.bind respects fun result => ?_
  cases status with
  | none => exact leavesAlone_pure respects ()
  | some target => exact Frame.leavesAlone_assignStatus respects (spares target rfl) result

end Statement

mutual

theorem Statement.leavesAlone_execute {surroundings : Surroundings α σ sizes}
    (respects : surroundings.host.Respects buffer follows) {frame : Frame} :
    (statement : Statement α) →
    surroundings.Shuns buffer follows frame statement.stores statement.calls →
    LeavesAlone buffer follows (statement.execute surroundings frame)
  | .assign target op value, shuns => by
      rw [execute]
      exact leavesAlone_inspect_bind respects fun _ _ _ =>
        Frame.leavesAlone_assign respects (shuns.stores _ (List.mem_singleton_self _)) op _
  | .clear id, shuns => by
      rw [execute]
      have other : Buffer.global id ≠ buffer :=
        shuns.stores _ (List.mem_singleton_self _) ⟨.global id, 0⟩ rfl
      exact leavesAlone_change respects fun store below => ⟨store.content_clear other, below⟩
  | .loop name start stop body, shuns => by
      rw [execute, sweep_eq_forM]
      refine leavesAlone_forM respects fun value _ => ?_
      exact Statement.leavesAlone_executeAll respects body ⟨shuns.stores, shuns.calls⟩
  | .call (.routine name) arguments status, shuns => by
      rw [execute]
      refine Statement.leavesAlone_status respects
        (Surroundings.leavesAlone_callRoutine respects fun routine known store bindings bound => ?_)
        (spares_status shuns.stores)
      exact shuns.calls _ (List.mem_singleton_self _) name rfl routine known frame.scope store
        bindings bound
  | .call (.external function) arguments status, shuns => by
      rw [execute]
      exact Statement.leavesAlone_status respects
        (Surroundings.leavesAlone_callExternal respects function
          (spares_arguments shuns.stores)) (spares_status shuns.stores)
  | .comment _, _ => by
      rw [execute]
      exact leavesAlone_pure respects ()

/-- Statements leave a buffer alone that none of them names and no routine that
they call can reach. -/
theorem Statement.leavesAlone_executeAll {surroundings : Surroundings α σ sizes}
    (respects : surroundings.host.Respects buffer follows) {frame : Frame} :
    (statements : List (Statement α)) →
    surroundings.Shuns buffer follows frame (Statement.storesOf statements)
      (Statement.callsOf statements) →
    LeavesAlone buffer follows (Statement.executeAll surroundings frame statements)
  | [], _ => by
      rw [executeAll]
      exact leavesAlone_pure respects ()
  | statement :: rest, shuns => by
      rw [executeAll]
      refine (Statement.leavesAlone_execute respects statement (shuns.mono ?_ ?_)).bind respects
        fun _ => Statement.leavesAlone_executeAll respects rest (shuns.mono ?_ ?_)
      · exact List.subset_append_left _ _
      · exact List.subset_append_left _ _
      · exact List.subset_append_right _ _
      · exact List.subset_append_right _ _

end

end Statements

/-! ## Routines -/

section Routines

variable {α σ : Type} [Scalar α] {program : Program α} {host : Host α σ program.table.sizes}
  {buffer : Buffer} {follows : σ → σ → Prop}

/-- Whether a base may stand for a buffer, if some parameters may. -/
def Base.Reaches (buffer : Buffer) (lent : Nat → Prop) : Base → Prop
  | .global id => buffer = .global id
  | .own _ => False
  | .parameter position => lent position

/-- The parameters through which a call lends a buffer to a routine. -/
def Argument.Lends (buffer : Buffer) (lent : Nat → Prop) (arguments : List Argument)
    (position : Nat) : Prop :=
  ∃ window, arguments[position]? = some (.reference window) ∧ window.base.Reaches buffer lent

/-- A routine that may reach a buffer through some of its parameters and does not
write to it: none of its statements does, nor does any routine that it lends the
buffer to, directly or through others. -/
inductive Program.Preserves (program : Program α) (buffer : Buffer) :
    (Nat → Prop) → Routine α → Prop
  | intro {lent : Nat → Prop} {routine : Routine α}
      (stores : ∀ base ∈ Statement.storesOf routine.body, ¬base.Reaches buffer lent)
      (calls : ∀ call ∈ Statement.callsOf routine.body, ∀ name, call.1 = .routine name →
        ∀ callee ∈ program.routine? name,
          program.Preserves buffer (Argument.Lends buffer lent call.2.1) callee) :
      program.Preserves buffer lent routine

/-- Neither a routine nor any routine that it calls, directly or through others,
names an array of the module as a target. -/
inductive Program.Avoids (program : Program α) (buffer : Buffer) : Routine α → Prop
  | intro {routine : Routine α}
      (targets : ∀ id, buffer = .global id → Base.global id ∉ Statement.targetsOf routine.body)
      (calls : ∀ call ∈ Statement.callsOf routine.body, ∀ name, call.1 = .routine name →
        ∀ callee ∈ program.routine? name, program.Avoids buffer callee) :
      program.Avoids buffer routine

/-- A routine leaves a buffer alone if its own statements do. -/
theorem Program.leavesAlone_enter_succ (respects : host.Respects buffer follows) {depth : Nat}
    {routine : Routine α} {bindings : List Binding}
    (shuns : ∀ height, buffer.LiesBelow height →
      (⟨program.routine?, host, program.enter host depth⟩ : Surroundings α σ _).Shuns buffer
        follows (Frame.ofCall routine bindings height) (Statement.storesOf routine.body)
        (Statement.callsOf routine.body)) :
    LeavesAlone buffer follows (program.enter host (depth + 1) routine bindings) := by
  intro world below
  let height := world.store.stack.size
  let frame := Frame.ofCall routine bindings height
  -- all that follows the look at the height of the stack
  let rest : Execution α σ program.table.sizes α := do
    change fun store => store.push (routine.locals.map fun decl => Array.replicate decl.size 0)
    Statement.executeAll ⟨program.routine?, host, program.enter host depth⟩ frame routine.body
    let result ← inspect (routine.returned frame)
    change fun store => store.truncate height
    pure result
  have alone : LeavesAlone buffer follows rest := by
    refine (leavesAlone_change respects fun store below =>
      ⟨store.content_push below _, below.push _⟩).bind respects fun _ => ?_
    refine (Statement.leavesAlone_executeAll respects routine.body (shuns height below)).bind
      respects fun _ => (leavesAlone_inspect respects _).bind respects fun result => ?_
    exact (leavesAlone_change respects fun store stands =>
      ⟨store.content_truncate below, stands.truncate below⟩).bind respects
        fun _ => leavesAlone_pure respects result
  exact alone world below

/-- A routine leaves a buffer alone if it preserves it and only the lent parameters
may stand for it. -/
theorem Program.Preserves.leavesAlone_enter (respects : host.Respects buffer follows)
    {depth : Nat} {lent : Nat → Prop} {routine : Routine α}
    (preserves : program.Preserves buffer lent routine) {bindings : List Binding}
    (elsewhere : ∀ position binding, bindings[position]? = some binding → ¬lent position →
      ∀ start ∈ binding.start?, start.buffer ≠ buffer) :
    LeavesAlone buffer follows (program.enter host depth routine bindings) := by
  induction depth generalizing lent routine bindings with
  | zero => exact leavesAlone_throw respects _
  | succ depth ih =>
      obtain ⟨stores, calls⟩ := preserves
      refine leavesAlone_enter_succ respects fun height below => ?_
      -- what a base stands for does not depend on the indices in scope
      have spares : ∀ base, ¬base.Reaches buffer lent → ∀ scope,
          ((Frame.ofCall routine bindings height).inScope scope).Spares buffer base := by
        intro base unreached scope origin found
        cases base with
        | global id =>
            cases found
            exact fun same => unreached same.symm
        | own position =>
            cases found
            rintro rfl
            exact absurd (below : height + position < height) (Nat.not_lt.2 (Nat.le_add_right _ _))
        | parameter position =>
            obtain ⟨binding, bound, isStart⟩ := Option.bind_eq_some_iff.1 found
            exact elsewhere position binding bound unreached origin isStart
      refine ⟨fun base mem => spares base (stores base mem) _, ?_⟩
      intro call mem name isCall callee known scope store passed bound
      refine ih (calls call mem name isCall callee known) fun position binding here unlent => ?_
      obtain ⟨argument, listed, found⟩ := exists_of_getElem?_mapM bound here
      refine Frame.Spares.binding (fun window isWindow => spares _ (fun reaches => ?_) scope) found
      cases argument with
      | index _ => cases isWindow
      | reference _ =>
          cases isWindow
          exact unlent ⟨window, listed, reaches⟩

/-- A routine leaves a buffer alone that it is not passed, if neither the routine nor any
routine that may be called names it as a target. -/
theorem Program.leavesAlone_enter_of_untargeted (respects : host.Respects buffer follows)
    {called : Routine α → Prop}
    (calls : ∀ routine, called routine → ∀ call ∈ Statement.callsOf routine.body, ∀ name,
      call.1 = .routine name → ∀ callee ∈ program.routine? name, called callee)
    (targets : ∀ routine, called routine → ∀ id, buffer = .global id →
      Base.global id ∉ Statement.targetsOf routine.body)
    {depth : Nat} {routine : Routine α} (isCalled : called routine) {bindings : List Binding}
    (elsewhere : ∀ binding ∈ bindings, ∀ start ∈ binding.start?, start.buffer ≠ buffer) :
    LeavesAlone buffer follows (program.enter host depth routine bindings) := by
  induction depth generalizing routine bindings with
  | zero => exact leavesAlone_throw respects _
  | succ depth ih =>
      refine leavesAlone_enter_succ respects fun height below => ?_
      have spares : ∀ base ∈ Statement.targetsOf routine.body, ∀ scope,
          ((Frame.ofCall routine bindings height).inScope scope).Spares buffer base := by
        intro base mem scope origin found
        cases base with
        | global id =>
            cases found
            rintro rfl
            exact targets routine isCalled id rfl mem
        | own own =>
            cases found
            rintro rfl
            exact absurd (below : height + own < height) (Nat.not_lt.2 (Nat.le_add_right _ _))
        | parameter parameter =>
            obtain ⟨binding, bound, isStart⟩ := Option.bind_eq_some_iff.1 found
            exact elsewhere binding (List.mem_of_getElem? bound) origin isStart
      refine ⟨fun base mem => spares base (Statement.storesOf_subset _ mem) _, ?_⟩
      intro call mem name isCall callee known scope store passed bound
      refine ih (calls routine isCalled call mem name isCall callee known) fun binding listed => ?_
      obtain ⟨argument, argument_mem, found⟩ := exists_of_mem_mapM bound binding listed
      refine Frame.Spares.binding (fun window isWindow => spares _ ?_ scope) found
      cases argument with
      | index _ => cases isWindow
      | reference _ =>
          cases isWindow
          exact Statement.target_of_arguments argument_mem _ mem

/-- A routine leaves a buffer alone if it avoids it and the buffer is not passed to
it. -/
theorem Program.Avoids.leavesAlone_enter (respects : host.Respects buffer follows) {depth : Nat}
    {routine : Routine α} (avoids : program.Avoids buffer routine) {bindings : List Binding}
    (elsewhere : ∀ binding ∈ bindings, ∀ start ∈ binding.start?, start.buffer ≠ buffer) :
    LeavesAlone buffer follows (program.enter host depth routine bindings) := by
  apply leavesAlone_enter_of_untargeted respects _ _ avoids elsewhere
  · rintro other ⟨_, calls⟩
    exact calls
  · rintro other ⟨targets, _⟩
    exact targets

/-- Routines write to no array of their callers that they are not passed. -/
theorem Program.leavesAlone_enter_stack {position : Nat}
    (respects : host.Respects (.stack position) follows) {depth : Nat} {routine : Routine α}
    {bindings : List Binding}
    (elsewhere : ∀ binding ∈ bindings, ∀ start ∈ binding.start?, start.buffer ≠ .stack position) :
    LeavesAlone (.stack position) follows (program.enter host depth routine bindings) :=
  leavesAlone_enter_of_untargeted respects (fun _ _ _ _ _ _ _ _ => trivial)
    (fun _ _ _ isGlobal => Buffer.noConfusion isGlobal) trivial elsewhere

/-! ## Runs -/

omit [Scalar α] in
/-- Arrays that are passed from outside stand on the stack. -/
theorem Program.elsewhere_bindOutside {parameters : List Parameter} {arguments : List (Passed α)}
    {height : Nat} {bound : List Binding × List (Array α)}
    (binds : Program.bindOutside parameters arguments height = some bound) (id : Nat) :
    ∀ binding ∈ bound.1, ∀ start ∈ binding.start?, start.buffer ≠ .global id := by
  induction parameters generalizing arguments height bound with
  | nil =>
      cases arguments with
      | nil =>
          cases binds
          nofun
      | cons _ _ => contradiction
  | cons parameter parameters ih =>
      cases arguments with
      | nil => contradiction
      | cons argument arguments =>
          simp only [bindOutside] at binds
          split at binds
          · split at binds
            · obtain ⟨rest, restBinds, rfl⟩ := Option.map_eq_some_iff.1 binds
              rintro _ (_ | ⟨_, mem⟩)
              · rintro _ ⟨⟩
                exact Buffer.noConfusion
              · exact ih restBinds _ mem
            · contradiction
          · obtain ⟨rest, restBinds, rfl⟩ := Option.map_eq_some_iff.1 binds
            rintro _ (_ | ⟨_, mem⟩)
            · rintro _ ⟨⟩
            · exact ih restBinds _ mem
          · contradiction

omit [Scalar α] in
/-- Nothing is bound for a routine without parameters. -/
theorem Program.bindings_of_bindOutside {parameters : List Parameter}
    {arguments : List (Passed α)} {height : Nat} {bound : List Binding × List (Array α)}
    (none : parameters = []) (binds : bindOutside parameters arguments height = some bound) :
    bound.1 = [] := by
  subst none
  cases arguments with
  | nil =>
      cases binds
      rfl
  | cons _ _ => contradiction

/-- A routine without parameters refuses arguments. -/
theorem Program.run_of_surplus {routine : Routine α} {name : String}
    (known : program.routine? name = some routine) (parameters : routine.parameters = [])
    (host : Host α σ program.table.sizes) (state : σ) (memory : program.Contents)
    (argument : Passed α) (arguments : List (Passed α)) :
    program.run host state memory name (argument :: arguments) =
      ⟨.error (.arity name), memory, state⟩ := by
  simp only [run, known, parameters, bindOutside]

/-- A run leaves an array of the module alone if its routine does so whenever the array is
not passed to it. -/
theorem Program.run_of_leavesAlone {id : Nat} (respects : host.Respects (.global id) follows)
    {name : String}
    (alone : ∀ routine ∈ program.routine? name, ∀ bindings,
      (∀ binding ∈ bindings, ∀ start ∈ binding.start?, start.buffer ≠ .global id) →
      LeavesAlone (.global id) follows (program.enter host program.callDepth routine bindings))
    (state : σ) (memory : program.Contents) (arguments : List (Passed α)) :
    let outcome := program.run host state memory name arguments
    outcome.memory.content id = memory.content id ∧ follows state outcome.state := by
  unfold run
  cases known : program.routine? name with
  | none => exact ⟨rfl, respects.refl _⟩
  | some routine =>
      cases binds : bindOutside routine.parameters arguments 0 with
      | none =>
          simp only [binds]
          exact ⟨trivial, respects.refl _⟩
      | some bound =>
          have kept := alone routine known bound.1 (elsewhere_bindOutside binds id)
            ⟨⟨memory, bound.2.toArray⟩, state⟩ trivial
          simp only [binds]
          exact ⟨kept.content, kept.state⟩

/-- A run leaves an array of the module alone that its routine preserves, whatever
is passed to it and however it ends. -/
theorem Program.run_of_preserves {id : Nat} (respects : host.Respects (.global id) follows)
    {name : String}
    (preserves : ∀ routine ∈ program.routine? name,
      program.Preserves (.global id) (fun _ => False) routine) (state : σ)
    (memory : program.Contents) (arguments : List (Passed α)) :
    let outcome := program.run host state memory name arguments
    outcome.memory.content id = memory.content id ∧ follows state outcome.state :=
  run_of_leavesAlone respects (fun routine known _ elsewhere =>
    (preserves routine known).leavesAlone_enter respects fun _ binding here _ =>
      elsewhere binding (List.mem_of_getElem? here)) state memory arguments

/-- A run leaves an array of the module alone that its routine avoids. -/
theorem Program.run_leavesAlone {id : Nat} (respects : host.Respects (.global id) follows)
    {name : String}
    (avoids : ∀ routine ∈ program.routine? name, program.Avoids (.global id) routine) (state : σ)
    (memory : program.Contents) (arguments : List (Passed α)) :
    let outcome := program.run host state memory name arguments
    outcome.memory.content id = memory.content id ∧ follows state outcome.state :=
  run_of_leavesAlone respects (fun routine known _ elsewhere =>
    (avoids routine known).leavesAlone_enter respects elsewhere) state memory arguments

end Routines

end RtiAssembly
