import RtiAssembly.Proofs.Machine.Safety

/-!
# Safe programs compute their effects

Statement by statement, a safe routine returns without a fault and leaves the
world of its effect behind.  The induction follows the statements, and inside a
call the depth of calls; it carries along that the buffers keep their sizes,
so that windows in sight stay in sight.
-/

namespace RtiAssembly

open Execution

variable {α σ : Type} [Scalar α]

/-! ## Assignments -/

section Assignments

variable {sizes : List Nat} {frame : Frame} {world : World α σ sizes} {window : Window}

omit [Scalar α] in
theorem World.update_congr {world : World α σ sizes} {first second : Store α sizes → Store α sizes}
    (same : first world.store = second world.store) : world.update first = world.update second := by
  rw [update, update, same]

omit [Scalar α] in
theorem World.foldl_update {β : Type} (items : List β)
    (step : Store α sizes → β → Store α sizes) (world : World α σ sizes) :
    items.foldl (fun world item => world.update fun store => step store item) world =
      world.update fun store => items.foldl step store := by
  induction items generalizing world with
  | nil => rfl
  | cons item rest ih => exact ih _

theorem Frame.returns_assign (sees : frame.Sees world.store window) (op : AssignOp)
    (value : Matrix α) :
    Returns (frame.assign window op value) world ()
      (world.update fun store => store.combine (frame.startOf window) window op value) := by
  let step (world : World α σ sizes) (element : Nat × Nat) : World α σ sizes :=
    world.update fun store =>
      let cell := (frame.startOf window).plus (window.position element.1 element.2)
      store.write cell (op.combine (store.read cell) (value.entry element.1 element.2))
  have visits : ∀ element ∈ window.elements, ∀ world : World α σ sizes,
      frame.Sees world.store window →
        Returns (do
            let cell ← inspect fun store =>
              frame.locate store window (window.position element.1 element.2)
            change fun store => store.write cell
              (op.combine (store.read cell) (value.entry element.1 element.2)))
          world () (step world element) ∧
        frame.Sees (step world element).store window := by
    rintro ⟨row, col⟩ mem world sees
    obtain ⟨row_lt, col_lt⟩ := Window.mem_positions.1 mem
    constructor
    · exact (returns_inspect (locate_eq_ok sees (Window.position_lt row_lt col_lt))).bind
        (returns_change _ _)
    · exact sees.of_alike (Store.alike_write _ _ _).symm
  have swept := (returns_forM visits sees).1
  rw [World.foldl_update window.elements] at swept
  rw [assign, sweepPositions_eq_forM]
  exact swept

omit [Scalar α] in
theorem Frame.returns_assignStatus (sees : frame.Sees world.store window)
    (nonempty : 0 < window.extent) (status : α) :
    Returns (frame.assignStatus window status) world ()
      (world.update fun store => store.write (frame.startOf window) status) :=
  (returns_inspect (locate_eq_ok sees nonempty)).bind (returns_change _ _)

omit [Scalar α] in
theorem Store.returns_writeAll (entries : List (Cell × α)) (world : World α σ sizes) :
    Returns (entries.forM fun (cell, value) => change fun store => store.write cell value) world ()
      (world.update fun store => store.writeAll entries) := by
  have swept := (@returns_forM α σ (Cell × α) sizes entries
    (fun (cell, value) => change fun store => store.write cell value)
    (fun world (cell, value) => world.update fun store => store.write cell value)
    (fun _ => True) world (fun _ _ _ _ => ⟨returns_change _ _, trivial⟩) trivial).1
  rwa [World.foldl_update entries fun store (cell, value) => store.write cell value] at swept

omit [Scalar α] in
theorem Frame.returns_restore {argument : Argument}
    (sees : ∀ window ∈ argument.window?, frame.Sees world.store window) (left : Passed α) :
    Returns (frame.restore argument left) world ()
      (world.update fun store => store.putBack frame argument left) := by
  cases argument with
  | index _ => exact returns_pure _ _
  | reference window =>
      cases left with
      | index _ => exact returns_pure _ _
      | array values =>
          exact (returns_inspect (cells_eq_ok (sees window rfl))).bind
            (Store.returns_writeAll _ _)

end Assignments

/-! ## Calls -/

section Calls

variable {program : Program α} {routine : Routine α} {extremes : Program.Extremes}
  {frame : Frame} {world : World α σ program.table.sizes} {host : Host α σ program.table.sizes}

/-- A call of an external function returns whatever its host replies. -/
theorem returns_callExternal (suits : frame.Suits program routine extremes world.store)
    {surroundings : Surroundings α σ program.table.sizes} {scene : Scene α σ program.table.sizes}
    (sameHost : surroundings.host = scene.host) (function : External) {arguments : List Argument}
    (fitting : ∀ argument ∈ arguments, program.fitsArgument routine extremes argument = true) :
    let called := scene.callExternal frame function arguments world
    Returns (surroundings.callExternal frame function arguments) world called.1 called.2 ∧
      called.2.store.Alike world.store := by
  have passed : arguments.mapM (frame.passed world.store) =
      .ok (arguments.map (frame.passedTo world.store)) :=
    mapM_eq_ok fun argument mem => Frame.passed_eq_ok suits (fitting argument mem)
  let reply := scene.reply frame function arguments world
  let replied : World α σ program.table.sizes :=
    ⟨{ world.store with memory := reply.memory }, reply.state⟩
  have restores : ∀ item ∈ arguments.zip reply.arguments,
      ∀ current : World α σ program.table.sizes, current.store.Alike world.store →
        Returns (frame.restore item.1 item.2) current ()
            (current.update fun store => store.putBack frame item.1 item.2) ∧
          (current.update fun store => store.putBack frame item.1 item.2).store.Alike
            world.store := by
    rintro ⟨argument, left⟩ mem current alike
    have passes := fitting argument (List.of_mem_zip mem).1
    have suitsNow := suits.of_alike alike.symm
    constructor
    · refine Frame.returns_restore (fun window isWindow => ?_) left
      cases argument with
      | index _ => contradiction
      | reference _ =>
          cases isWindow
          exact suitsNow.sees passes
    · exact (Store.alike_putBack _ _ _ _).trans alike
  obtain ⟨swept, alike⟩ := returns_forM restores (show replied.store.Alike world.store from rfl)
  rw [World.foldl_update _ fun store (item : Argument × Passed α) =>
    store.putBack frame item.1 item.2] at swept alike
  have hostReply : surroundings.host function (arguments.map (frame.passedTo world.store))
      world.store.memory world.state = reply := by
    rw [sameHost]
    rfl
  refine ⟨(returns_inspect passed).bind ((returns_get world).bind ?_), alike⟩
  rw [hostReply]
  exact (returns_set world replied).bind (swept.bind (returns_pure _ _))

end Calls

/-! ## Statements -/

section Statements

variable {program : Program α} {host : Host α σ program.table.sizes} {depth : Nat}

/-- What surrounds the statements of a routine that may nest calls to at most
the given depth. -/
abbrev Program.surroundings (program : Program α) (host : Host α σ program.table.sizes)
    (depth : Nat) : Surroundings α σ program.table.sizes :=
  ⟨program.routine?, host, program.enter host depth⟩

/-- What it means that a routine may be entered: with bindings that it accepts,
it returns what its effect is. -/
def Program.Enters (program : Program α) (host : Host α σ program.table.sizes) (depth : Nat)
    (routine : Routine α) : Prop :=
  ∀ bindings, ∀ world : World α σ program.table.sizes,
    List.Forall₂ (Frame.Accepts world.store) routine.parameters bindings →
      let performed := program.perform host depth routine bindings world
      Returns (program.enter host depth routine bindings) world performed.1 performed.2 ∧
        performed.2.store.Alike world.store

/-- A safe call of a routine returns what the routine does. -/
theorem Statement.returns_callRoutine {routine : Routine α} {extremes : Program.Extremes}
    {frame : Frame} {world : World α σ program.table.sizes} {name : String}
    {arguments : List Argument} {status : Option Window}
    (safe : (Statement.call (.routine name) arguments status).IsSafe program
      (program.Enters host depth) extremes)
    (fitting : ∀ argument ∈ arguments, program.fitsArgument routine extremes argument = true)
    (suits : frame.Suits program routine extremes world.store) :
    let called := (program.scene host depth).callRoutine frame name arguments world
    Returns ((program.surroundings host depth).callRoutine frame name arguments) world called.1
        called.2 ∧
      called.2.store.Alike world.store := by
  obtain ⟨callee, known, enters, passing⟩ := safe
  obtain ⟨bound, accepted⟩ := Frame.accepts_arguments suits passing fitting
  obtain ⟨returns, alike⟩ := enters _ world accepted
  simp only [Scene.callRoutine, Surroundings.callRoutine, known, if_pos passing.length_eq]
  exact ⟨(returns_inspect bound).bind returns, alike⟩

omit [Scalar α] in
/-- The status of a call goes to its window. -/
theorem Statement.returns_status {routine : Routine α} {extremes : Program.Extremes}
    {frame : Frame} {world : World α σ program.table.sizes}
    {call : Execution α σ program.table.sizes α} {called : α × World α σ program.table.sizes}
    (returns : Returns call world called.1 called.2) (alike : called.2.store.Alike world.store)
    (suits : frame.Suits program routine extremes world.store) {status : Option Window}
    (fitting : (status.all fun window =>
      window.size == 1 && program.fits routine extremes window) = true) :
    Returns
        (do
          let result ← call
          match status with
          | some target => frame.assignStatus target result
          | none => pure ()) world ()
        (status.elim called.2 fun target =>
          called.2.update fun store => store.write (frame.startOf target) called.1) ∧
      (status.elim called.2 fun target =>
        called.2.update fun store => store.write (frame.startOf target) called.1).store.Alike
          world.store := by
  cases status with
  | none => exact ⟨returns.bind (returns_pure _ _), alike⟩
  | some target =>
      simp only [Option.all_some, Bool.and_eq_true, beq_iff_eq] at fitting
      have sees := (suits.of_alike alike.symm).sees fitting.2
      have nonempty := Window.extent_pos (Nat.lt_of_lt_of_eq Nat.one_pos fitting.1.symm)
      exact ⟨returns.bind (Frame.returns_assignStatus sees nonempty _),
        (Store.alike_write _ _ _).trans alike⟩

theorem Statement.effect_call (scene : Scene α σ program.table.sizes) (frame : Frame)
    (callee : Callee) (arguments : List Argument) (status : Option Window)
    (world : World α σ program.table.sizes) :
    (Statement.call callee arguments status).effect scene frame world =
      status.elim (scene.call frame callee arguments world).2 fun target =>
        (scene.call frame callee arguments world).2.update fun store =>
          store.write (frame.startOf target) (scene.call frame callee arguments world).1 := by
  rw [Statement.effect]
  cases status <;> rfl

/-- No buffer changes its size when a routine is performed. -/
def Scene.KeepsSizes {σ : Type} {sizes : List Nat} (scene : Scene α σ sizes) : Prop :=
  ∀ routine bindings world, (scene.perform routine bindings world).2.store.Alike world.store

theorem Scene.KeepsSizes.call {scene : Scene α σ program.table.sizes} (keeps : scene.KeepsSizes)
    (frame : Frame) (callee : Callee) (arguments : List Argument)
    (world : World α σ program.table.sizes) :
    (scene.call frame callee arguments world).2.store.Alike world.store := by
  cases callee with
  | routine name =>
      simp only [Scene.call, callRoutine]
      cases scene.routine? name with
      | none => exact .refl _
      | some routine => exact keeps _ _ _
  | external function =>
      simp only [Scene.call, callExternal]
      have restored (items : List (Argument × Passed α)) (store : Store α program.table.sizes) :
          (items.foldl (fun store (item : Argument × Passed α) =>
            store.putBack frame item.1 item.2) store).Alike store := by
        induction items generalizing store with
        | nil => exact .refl _
        | cons item rest ih => exact (ih _).trans (Store.alike_putBack _ _ _ _)
      exact restored _ _

mutual

/-- No buffer changes its size in a statement, whatever it writes. -/
theorem Statement.alike_effect {scene : Scene α σ program.table.sizes} (keeps : scene.KeepsSizes)
    {frame : Frame} : (statement : Statement α) → (world : World α σ program.table.sizes) →
    (statement.effect scene frame world).store.Alike world.store
  | .assign _ _ _, world => by
      rw [effect]
      exact Store.alike_combine _ _ _ _ _
  | .clear id, world => by
      rw [effect]
      exact Store.alike_clear _ _
  | .loop name start stop body, world => by
      rw [effect]
      induction List.range' start (stop - start) generalizing world with
      | nil => exact .refl _
      | cons value rest ih => exact (ih _).trans (Statement.alike_effects keeps body world)
  | .call callee arguments status, world => by
      have called := keeps.call frame callee arguments world
      rw [effect_call]
      cases status with
      | none => exact called
      | some target => exact (Store.alike_write _ _ _).trans called
  | .comment _, world => by
      rw [effect]
      exact .refl _

theorem Statement.alike_effects {scene : Scene α σ program.table.sizes} (keeps : scene.KeepsSizes)
    {frame : Frame} : (statements : List (Statement α)) →
    (world : World α σ program.table.sizes) →
    (Statement.effects scene frame statements world).store.Alike world.store
  | [], world => by
      rw [effects]
      exact .refl _
  | statement :: rest, world => by
      rw [effects]
      exact (Statement.alike_effects keeps rest _).trans (Statement.alike_effect keeps statement _)

end

/-- What a statement does is its effect. -/
def Statement.Computes (program : Program α) (host : Host α σ program.table.sizes) (depth : Nat)
    (frame : Frame) (statements : List (Statement α)) (world : World α σ program.table.sizes) :
    Prop :=
  let after := Statement.effects (program.scene host depth) frame statements world
  Returns (Statement.executeAll (program.surroundings host depth) frame statements) world ()
      after ∧
    after.store.Alike world.store

theorem Statement.computes_nil {frame : Frame} {world : World α σ program.table.sizes} :
    Computes program host depth frame [] world := by
  unfold Computes
  rw [executeAll, effects]
  exact ⟨returns_pure _ _, .refl _⟩

theorem Statement.Computes.cons {frame : Frame} {world : World α σ program.table.sizes}
    {statement : Statement α} {rest : List (Statement α)}
    (first : let after := statement.effect (program.scene host depth) frame world
      Returns (statement.execute (program.surroundings host depth) frame) world () after ∧
        after.store.Alike world.store)
    (later : Computes program host depth frame rest
      (statement.effect (program.scene host depth) frame world)) :
    Computes program host depth frame (statement :: rest) world := by
  unfold Computes at later ⊢
  rw [executeAll, effects]
  exact ⟨first.1.bind later.1, later.2.trans first.2⟩

mutual

theorem Statement.returns_execute {routine : Routine α} {extremes : Program.Extremes}
    {frame : Frame} {world : World α σ program.table.sizes} : (statement : Statement α) →
    program.fitsStatement routine extremes statement = true →
    statement.IsSafe program (program.Enters host depth) extremes →
    frame.Suits program routine extremes world.store →
    let after := statement.effect (program.scene host depth) frame world
    Returns (statement.execute (program.surroundings host depth) frame) world () after ∧
      after.store.Alike world.store
  | .assign target op value, fitting, _, suits => by
      simp only [Program.fitsStatement, Bool.and_eq_true, List.all_eq_true] at fitting
      have evaluated := Frame.evaluate_eq_ok fun window mem => suits.sees (fitting.2 window mem)
      have assigned := Frame.returns_assign (suits.sees fitting.1.2) op
        (frame.valueIn world.store value)
      have same : (Statement.assign target op value).effect (program.scene host depth) frame world =
          world.update fun store => store.combine (frame.startOf target) target op
            (frame.valueIn world.store value) := by
        rw [Statement.effect]
        exact World.update_congr rfl
      rw [Statement.execute, same]
      exact ⟨(returns_inspect evaluated).bind assigned, Store.alike_combine _ _ _ _ _⟩
  | .clear id, _, _, _ => by
      rw [Statement.execute, Statement.effect]
      exact ⟨returns_change _ _, Store.alike_clear _ _⟩
  | .loop name start stop body, fitting, safe, suits => by
      simp only [Program.fitsStatement, Bool.or_eq_true, decide_eq_true_eq] at fitting
      have rounds : ∀ value ∈ List.range' start (stop - start),
          ∀ current : World α σ program.table.sizes, current.store.Alike world.store →
            Computes program host depth (frame.bind name value) body current := by
        intro value mem current alike
        obtain ⟨_, value_lt⟩ := List.mem_range'_1.1 mem
        have running : start < stop := by omega
        have value_le : value ≤ stop - 1 := by omega
        exact Statement.returns_executeAll body (fitting.resolve_left (Nat.not_le.2 running))
          (safe running) ((suits.of_alike alike.symm).bind value_le)
      rw [Statement.execute, sweep_eq_forM, Statement.effect]
      exact returns_forM (fun value mem current alike =>
        ⟨(rounds value mem current alike).1, (rounds value mem current alike).2.trans alike⟩)
          (Store.Alike.refl _)
  | .call (.routine name) arguments status, fitting, safe, suits => by
      simp only [Program.fitsStatement, Bool.and_eq_true, List.all_eq_true] at fitting
      obtain ⟨returns, alike⟩ := Statement.returns_callRoutine safe fitting.1 suits
      rw [Statement.execute, Statement.effect_call]
      exact Statement.returns_status returns alike suits fitting.2
  | .call (.external function) arguments status, fitting, _, suits => by
      simp only [Program.fitsStatement, Bool.and_eq_true, List.all_eq_true] at fitting
      have sameHost : (program.surroundings host depth).host = (program.scene host depth).host :=
        rfl
      obtain ⟨returns, alike⟩ := returns_callExternal suits sameHost function fitting.1
      rw [Statement.execute, Statement.effect_call]
      exact Statement.returns_status returns alike suits fitting.2
  | .comment _, _, _, _ => by
      rw [Statement.execute, Statement.effect]
      exact ⟨returns_pure _ _, .refl _⟩

theorem Statement.returns_executeAll {routine : Routine α} {extremes : Program.Extremes}
    {frame : Frame} {world : World α σ program.table.sizes} : (statements : List (Statement α)) →
    program.fitsStatements routine extremes statements = true →
    Statement.AreSafe program (program.Enters host depth) extremes statements →
    frame.Suits program routine extremes world.store →
    Statement.Computes program host depth frame statements world
  | [], _, _, _ => Statement.computes_nil
  | statement :: rest, fitting, safe, suits => by
      simp only [Program.fitsStatements, Bool.and_eq_true] at fitting
      have first := Statement.returns_execute statement fitting.1 safe.1 suits
      exact Statement.Computes.cons first (Statement.returns_executeAll rest fitting.2 safe.2
        (suits.of_alike first.2.symm))

end

end Statements

/-! ## Routines -/

section Routines

variable {program : Program α} {routine : Routine α} {bindings : List Binding}

omit [Scalar α] in
/-- The index parameters of a call stay below their bounds. -/
theorem Frame.within_ofCall {store : Store α program.table.sizes} (height : Nat)
    (accepted : List.Forall₂ (Accepts store) routine.parameters bindings) :
    (Frame.ofCall routine bindings height).Within (Program.parameterExtremes routine) := by
  unfold Within ofCall Program.parameterExtremes
  rw [List.forall₂_reverse_iff]
  generalize routine.parameters = parameters at accepted
  induction accepted with
  | nil => exact .nil
  | @cons parameter binding _ _ accepts _ ih =>
      rw [List.zip_cons_cons, List.filterMap_cons, List.filterMap_cons]
      unfold Accepts at accepts
      cases kind : parameter.kind <;> cases binding <;> rw [kind] at accepts
      · exact ih
      · contradiction
      · contradiction
      · rename_i bound value
        have bound_pos : 0 < bound := Nat.zero_lt_of_lt accepts
        simp only [Binding.index?, Option.map_some, if_pos bound_pos]
        exact .cons ⟨rfl, Nat.le_sub_one_of_lt accepts⟩ ih

omit [Scalar α] in
theorem Store.size_content_push {sizes : List Nat} (store : Store α sizes)
    (contents : List (Array α)) :
    (∀ buffer, (store.content buffer).size ≤ ((store.push contents).content buffer).size) ∧
      ∀ position, ((store.push contents).content (.stack (store.stack.size + position))) =
        contents.getD position #[] := by
  constructor
  · rintro (id | position)
    · exact Nat.le_refl _
    · simp only [content, push, Array.getD_eq_getD_getElem?, ← Array.getElem?_toList,
        Array.toList_appendList]
      by_cases below : position < store.stack.toList.length
      · rw [List.getElem?_append_left below]
      · rw [List.getElem?_eq_none (Nat.le_of_not_lt below)]
        exact Nat.zero_le _
  · intro position
    simp only [content, push, Array.getD_eq_getD_getElem?, ← Array.getElem?_toList,
      Array.toList_appendList, List.getD_eq_getElem?_getD]
    rw [List.getElem?_append_right (by simp)]
    simp

/-- The frame of a call suits the routine, with its own arrays on the stack. -/
theorem Frame.suits_ofCall {store : Store α program.table.sizes}
    (accepted : List.Forall₂ (Accepts store) routine.parameters bindings) :
    (Frame.ofCall routine bindings store.stack.size).Suits program routine
      (Program.parameterExtremes routine)
      (store.push (routine.locals.map fun decl => Array.replicate decl.size 0)) where
  within := within_ofCall _ accepted
  holds base size sized := by
    obtain ⟨larger, own⟩ := store.size_content_push
      (routine.locals.map fun decl => Array.replicate decl.size (0 : α))
    cases base with
    | global id =>
        obtain ⟨decl, found, rfl⟩ := Option.map_eq_some_iff.1 sized
        refine ⟨⟨.global id, 0⟩, rfl, ?_⟩
        rw [Store.content, Memory.size_content, ArrayTable.sizes, List.getD_eq_getElem?_getD,
          List.getElem?_map, show program.table.arrays[id]? = some decl from found]
        exact Nat.le_of_eq (Nat.zero_add _)
    | own position =>
        obtain ⟨decl, found, rfl⟩ := Option.map_eq_some_iff.1 sized
        refine ⟨⟨.stack (store.stack.size + position), 0⟩, rfl, ?_⟩
        simp [own, List.getD_eq_getElem?_getD, found]
    | parameter position =>
        obtain ⟨parameter, found, kind⟩ := Option.bind_eq_some_iff.1 sized
        obtain ⟨inside, found⟩ := List.getElem?_eq_some_iff.1 found
        have bound := accepted.length_eq ▸ inside
        have accepts := (List.forall₂_iff_get.1 accepted).2 position inside bound
        simp only [List.get_eq_getElem, found, Accepts] at accepts
        split at kind
        · rename_i rows cols isArray
          cases kind
          rw [isArray] at accepts
          cases binding : bindings[position] with
          | index _ => rw [binding] at accepts; contradiction
          | array start =>
              rw [binding] at accepts
              refine ⟨start, ?_, Nat.le_trans accepts (larger start.buffer)⟩
              simp [origin?, ofCall, List.getElem?_eq_getElem bound, binding, Binding.start?]
        · contradiction

omit [Scalar α] in
/-- Dropping a routine's own arrays leaves the buffers below as they were. -/
theorem Store.alike_truncate {sizes : List Nat} {store other : Store α sizes}
    {contents : List (Array α)} (alike : other.Alike (store.push contents)) :
    (other.truncate store.stack.size).Alike store := by
  unfold Alike push at alike
  unfold Alike truncate
  have kept := congrArg (List.take store.stack.size) alike
  simpa [← List.map_take] using kept

variable {host : Host α σ program.table.sizes}

theorem Program.keepsSizes_scene (depth : Nat) : (program.scene host depth).KeepsSizes := by
  induction depth with
  | zero =>
      intro routine bindings world
      exact .refl _
  | succ depth ih =>
      intro routine bindings world
      exact Store.alike_truncate (Statement.alike_effects ih routine.body _)

/-- The return value is the first element of the result. -/
theorem Routine.returns_returned {extremes : Program.Extremes} {frame : Frame}
    {world : World α σ program.table.sizes}
    (returning : ∀ position ∈ routine.result, ∃ decl, routine.locals[position]? = some decl ∧
      0 < decl.size)
    (suits : frame.Suits program routine extremes world.store) :
    Returns (inspect (routine.returned frame)) world
      (routine.result.elim 0 fun position =>
        world.store.read (frame.startOf (.vector (.own position) (.const 0) 1))) world := by
  refine returns_inspect ?_
  unfold returned
  cases result : routine.result with
  | none => rfl
  | some position =>
      obtain ⟨decl, found, size_pos⟩ := returning position result
      have sees : frame.Sees world.store (.vector (.own position) (.const 0) 1) := by
        refine suits.sees ?_
        rw [Window.vector, Program.fits_own, found]
        exact decide_eq_true size_pos
      have located := Frame.locate_eq_ok sees Nat.one_pos
      simp only [located, Option.elim_some]
      rfl

/-- A safe routine does what its effect says. -/
theorem Program.enters_of_safe {depth : Nat} (safe : program.Safe depth routine) :
    program.Enters host depth routine := by
  induction depth generalizing routine with
  | zero => exact safe.elim
  | succ depth ih =>
      intro bindings world accepted
      obtain ⟨fitting, returning, calls⟩ := safe
      let contents := routine.locals.map fun decl => Array.replicate decl.size (0 : α)
      let started := world.update fun store => store.push contents
      have suits : (Frame.ofCall routine bindings world.store.stack.size).Suits program routine
          (Program.parameterExtremes routine) started.store := Frame.suits_ofCall accepted
      obtain ⟨body, alike⟩ := Statement.returns_executeAll routine.body fitting
        (Statement.AreSafe.mono (fun _ => ih) _ calls) suits
      have result := Routine.returns_returned returning (suits.of_alike alike.symm)
      refine ⟨?_, Store.alike_truncate alike⟩
      exact (returns_get world).bind ((returns_change _ _).bind (body.bind
        (result.bind ((returns_change _ _).bind (returns_pure _ _)))))

/-- A run of a safe routine without parameters is its effect. -/
theorem Program.run_of_safe {name : String} (known : program.routine? name = some routine)
    (parameters : routine.parameters = []) {depth : Nat} (safe : program.Safe depth routine)
    (depth_le : depth ≤ program.callDepth) (state : σ) (memory : program.Contents) :
    let performed := program.perform host program.callDepth routine [] ⟨⟨memory, #[]⟩, state⟩
    program.run host state memory name [] =
      ⟨.ok performed.1, performed.2.store.memory, performed.2.state⟩ := by
  have accepted : List.Forall₂ (Frame.Accepts ⟨memory, #[]⟩) routine.parameters [] := by
    rw [parameters]
    exact .nil
  have enters : program.Enters host program.callDepth routine :=
    enters_of_safe (safe.mono depth_le)
  have returns := (enters [] ⟨⟨memory, #[]⟩, state⟩ accepted).1
  unfold Returns at returns
  simp only [run, known, parameters, bindOutside, returns]

end Routines

end RtiAssembly
