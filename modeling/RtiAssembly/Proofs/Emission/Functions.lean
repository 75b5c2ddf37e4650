import RtiAssembly.Proofs.Emission.Calling
import RtiAssembly.Proofs.Program.Faultless

/-!
# Routines and their functions

The function of an orderly routine follows the routine.  Its arrays hold
arbitrary values when it starts, and they are gone when it returns; everything
else is in agreement at both ends.  The induction is on the depth of calls.

A run from outside puts its array arguments on the stack, apart from each other
and from the arrays of the module, so every routine can be run as code.
-/

namespace RtiAssembly

namespace Store.Synced

variable {α : Type} {sizes : List Nat} [Scalar α] {unset : Cell → Prop} {store code : Store α sizes}

/-- Arrays of the same sizes, whatever they hold, can be pushed on both sides. -/
theorem push (synced : store.Synced unset code) {contents others : List (Array α)}
    (sizes_eq : others.map Array.size = contents.map Array.size) :
    (store.push contents).Synced
      (fun cell => unset cell ∨ ∃ position, cell.buffer = .stack (store.stack.size + position))
      (code.push others) := by
  refine ⟨synced.memory_eq, ?_, fun cell set => ?_⟩
  · have below : code.stack.toList.map Array.size = store.stack.toList.map Array.size :=
      synced.alike
    simp only [Alike, Store.push, Array.toList_appendList, List.map_append, below, sizes_eq]
  · obtain ⟨buffer, position⟩ := cell
    have below : buffer.LiesBelow store.stack.size := by
      cases buffer with
      | global _ => trivial
      | stack number =>
          by_contra above
          refine set (.inr ⟨number - store.stack.size, ?_⟩)
          rw [Nat.add_sub_cancel' (Nat.le_of_not_lt above)]
    have codeBelow : buffer.LiesBelow code.stack.size := by rwa [synced.size_stack]
    simp only [read, content_push _ below, content_push _ codeBelow]
    exact synced.read_eq ⟨buffer, position⟩ fun here => set (.inl here)

/-- Cutting the stack on both sides. -/
theorem truncate (synced : store.Synced unset code) (height : Nat) :
    (store.truncate height).Synced (fun cell => unset cell ∧ cell.buffer.LiesBelow height)
      (code.truncate height) := by
  refine ⟨synced.memory_eq, ?_, fun cell set => ?_⟩
  · have kept := congrArg (List.take height) synced.alike
    simpa [Alike, Store.truncate, ← List.map_take] using kept
  · obtain ⟨buffer, position⟩ := cell
    by_cases below : buffer.LiesBelow height
    · simp only [read, content_truncate _ below]
      exact synced.read_eq ⟨buffer, position⟩ fun here => set ⟨here, below⟩
    · cases buffer with
      | global _ => exact absurd trivial below
      | stack number =>
          have gone (store : Store α sizes) :
              (store.truncate height).content (.stack number) = #[] := by
            have outside : ¬number < (store.stack.take height).size := by
              have above : ¬number < height := below
              rw [Array.take_eq_extract, Array.size_extract]
              omega
            simp only [Store.truncate, content, Array.getD_eq_getD_getElem?,
              Array.getElem?_eq_none (Nat.le_of_not_lt outside), Option.getD_none]
          simp only [read, gone]

end Store.Synced

/-! ## Functions -/

section Functions

variable {α σ : Type} [Scalar α] {program : Program α} {routine : Routine α}
  {bindings : List Binding} {outer : Cell → Prop} {world : World α σ program.table.sizes}
  {running : Running α σ program.table.sizes} {host : Host α σ program.table.sizes}
  {remains : Remains α}

/-- A called function starts in step with the routine; none of its arrays is
filled. -/
theorem Frame.accompanies_started (remains : Remains α)
    (accepted : List.Forall₂ (Frame.Accepts world.store) routine.parameters bindings)
    (agrees : running.Agrees program outer world) :
    let frame := Frame.ofCall routine bindings world.store.stack.size
    frame.Accompanies program routine (Program.parameterExtremes routine) outer []
      (world.update fun store =>
        store.push (routine.locals.map fun decl => Array.replicate decl.size 0))
      (running.started remains routine frame) := by
  refine ⟨suits_ofCall accepted, agrees.keeps, fun name value found => ?_, ?_, agrees.state_eq⟩
  · simp only [Running.started, found, Option.getD_some]
  · have sizes_eq : (routine.locals.mapIdx fun position decl =>
          Array.ofFn fun index : Fin decl.size =>
            remains.element running.calls position index).map Array.size =
        (routine.locals.map fun decl => Array.replicate decl.size (0 : α)).map Array.size := by
      apply List.ext_getElem <;> simp
    refine (agrees.synced.push sizes_eq).of_inside ?_
    rintro ⟨buffer, index⟩ inside (isOuter | ⟨position, rfl⟩)
    · exact .inl isOuter
    · have own := (world.store.size_content_push
        (routine.locals.map fun decl => Array.replicate decl.size (0 : α))).2 position
      simp only [own, List.getD_eq_getElem?_getD, List.getElem?_map] at inside
      cases found : routine.locals[position]? with
      | none => simp [found] at inside
      | some decl =>
          refine .inr ⟨position, decl, List.not_mem_nil, found, rfl, ?_⟩
          simpa [found] using inside

/-- The result of a function is the first element of a filled array. -/
theorem Activation.result_eq {extremes : Program.Extremes} {frame : Frame} {filled : List Nat}
    {pairs : List (Base × Base)} {stored : List Nat}
    (inStep : frame.Accompanies program routine extremes outer filled world running)
    (serves : frame.Serves program pairs stored outer)
    (returning : ∀ position ∈ routine.result, ∃ decl, routine.locals[position]? = some decl ∧
      0 < decl.size)
    (result : ∀ position ∈ routine.result, position ∈ filled) :
    (routine.result.elim (some 0) fun position =>
        (frame.activation routine).read? program running ⟨.own position, .const 0⟩) =
      some (routine.result.elim 0 fun position =>
        world.store.read (frame.startOf (.vector (.own position) (.const 0) 1))) := by
  cases returned : routine.result with
  | none => rfl
  | some position =>
      obtain ⟨decl, found, size_pos⟩ := returning position returned
      have fitting :
          program.fits routine extremes (.vector (.own position) (.const 0) 1) = true := by
        rw [Window.vector, Program.fits_own, found]
        exact decide_eq_true size_pos
      have reached : (frame.activation routine).reach? program 1 running
          ((Window.vector (.own position) (.const 0) 1).place 0 0) =
            some (frame.cellAt (.vector (.own position) (.const 0) 1) 0 0) :=
        Frame.reach?_place inStep.suits fitting inStep.counted inStep.synced.alike Nat.one_pos
          Nat.one_pos
      have isFilled : (Base.own position).IsFilled filled := result position returned
      have set := Frame.not_unfilled_cellAt inStep.suits serves fitting isFilled 0 0
      have read_eq := congrArg (Option.map running.world.store.read) reached
      rw [Option.map_some, inStep.synced.read_eq _ set] at read_eq
      exact read_eq

/-- The function of an orderly routine follows the routine. -/
theorem Program.follows_of_safe [ExactScalar α] (shapes : program.GivesShapes)
    (spares : program.SparesConstants host)
    (orderly : ∀ routine ∈ program.routines, program.IsOrderly routine) {depth : Nat}
    (safe : program.Safe depth routine) (mem : routine ∈ program.routines) :
    program.Follows host remains depth routine := by
  induction depth generalizing routine with
  | zero => exact safe.elim
  | succ depth ih =>
      intro bindings outer world running accepted serves agrees
      obtain ⟨fitting, returning, calls⟩ := safe
      let frame := Frame.ofCall routine bindings world.store.stack.size
      have height_eq : running.world.store.stack.size = world.store.stack.size :=
        agrees.synced.size_stack
      obtain ⟨ended, settles, inStep⟩ := Statement.leadsAll shapes spares
        (fun callee mem safe => ih safe mem) routine.body fitting calls (orderly routine mem).body
        serves (List.Subset.refl _) (List.Subset.refl _)
        (Frame.accompanies_started remains accepted agrees)
      have result_eq := Activation.result_eq inStep serves returning (orderly routine mem).result
      rw [perform_succ]
      refine ⟨running.returned ended, ?_, ⟨inStep.keeps, ?_, inStep.state_eq⟩, rfl⟩
      · have returns := congrArg
          (Option.bind · fun result => some (result, running.returned ended)) result_eq
        simp only [callFunction, height_eq]
        exact settles.andThen _ returns
      · simp only [Running.returned, height_eq]
        refine (inStep.synced.truncate world.store.stack.size).mono ?_
        rintro cell ⟨isOuter | ⟨position, _, _, _, isStack, _⟩, below⟩
        · exact isOuter
        · rw [isStack] at below
          exact absurd below (Nat.not_lt.2 (Nat.le_add_right _ _))

end Functions

/-! ## Runs from outside -/

section Runs

variable {α σ : Type} {program : Program α} {routine : Routine α}

/-- Arrays from outside lie on the stack, each at a place of its own. -/
theorem Program.apart_bindOutside {parameters : List Parameter} {arguments : List (Passed α)}
    {height : Nat} {bindings : List Binding} {arrays : List (Array α)}
    (binds : bindOutside parameters arguments height = some (bindings, arrays)) :
    (∀ binding ∈ bindings, ∀ start ∈ binding.start?, ∃ number, start.buffer = .stack number ∧
        height ≤ number ∧ number < height + arrays.length) ∧
      bindings.Pairwise fun first second =>
        ∀ start ∈ first.start?, ∀ other ∈ second.start?, start.buffer ≠ other.buffer := by
  induction parameters generalizing arguments height bindings arrays with
  | nil =>
      cases arguments with
      | nil =>
          cases binds
          exact ⟨List.forall_mem_nil _, .nil⟩
      | cons _ _ => contradiction
  | cons parameter parameters ih =>
      cases arguments with
      | nil => contradiction
      | cons argument arguments =>
          simp only [bindOutside] at binds
          split at binds
          · split at binds
            · obtain ⟨⟨rest, above⟩, restBinds, both⟩ := Option.map_eq_some_iff.1 binds
              obtain ⟨rfl, rfl⟩ := Prod.mk.inj both
              obtain ⟨places, apart⟩ := ih restBinds
              refine ⟨List.forall_mem_cons.2 ⟨?_, fun later mem start isArray => ?_⟩,
                .cons (fun later mem => ?_) apart⟩
              · rintro start ⟨⟩
                exact ⟨height, rfl, Nat.le_refl _, Nat.lt_add_of_pos_right (Nat.succ_pos _)⟩
              · obtain ⟨number, isStack, above_le, number_lt⟩ := places later mem start isArray
                refine ⟨number, isStack, by omega, ?_⟩
                simp only [List.length_cons]
                omega
              · rintro start ⟨⟩ other isArray same
                obtain ⟨number, isStack, above_le, _⟩ := places later mem other isArray
                rw [isStack, Buffer.stack.injEq] at same
                omega
            · contradiction
          · obtain ⟨⟨rest, above⟩, restBinds, both⟩ := Option.map_eq_some_iff.1 binds
            obtain ⟨rfl, rfl⟩ := Prod.mk.inj both
            obtain ⟨places, apart⟩ := ih restBinds
            refine ⟨List.forall_mem_cons.2 ⟨fun _ isArray => ?_, places⟩,
              .cons (fun _ _ _ isArray => ?_) apart⟩ <;> cases isArray
          · contradiction

/-- An array from outside is neither one of the module nor one of the routine's own. -/
theorem Program.origin_bindOutside {arguments : List (Passed α)} {bindings : List Binding}
    {arrays : List (Array α)}
    (binds : bindOutside routine.parameters arguments 0 = some (bindings, arrays)) {position : Nat}
    {origin : Cell} (starts : (Frame.ofCall routine bindings arrays.length).origin?
      (.parameter position) = some origin) :
    (∃ binding, bindings[position]? = some binding ∧ binding.start? = some origin) ∧
      ∃ number < arrays.length, origin.buffer = .stack number := by
  obtain ⟨binding, found, isArray⟩ := Option.bind_eq_some_iff.1 starts
  obtain ⟨number, isStack, _, number_lt⟩ :=
    (apart_bindOutside binds).1 binding (List.mem_of_getElem? found) origin isArray
  exact ⟨⟨binding, found, isArray⟩, number, by omega, isStack⟩

/-- Different parameters are different arrays from outside. -/
theorem Program.ne_buffer_bindOutside {arguments : List (Passed α)} {bindings : List Binding}
    {arrays : List (Array α)}
    (binds : bindOutside routine.parameters arguments 0 = some (bindings, arrays))
    {position other : Nat} (ne : position ≠ other) {first second : Cell}
    (firstStarts : (Frame.ofCall routine bindings arrays.length).origin? (.parameter position) =
      some first)
    (secondStarts : (Frame.ofCall routine bindings arrays.length).origin? (.parameter other) =
      some second) :
    first.buffer ≠ second.buffer := by
  obtain ⟨⟨binding, found, isArray⟩, _⟩ := origin_bindOutside binds firstStarts
  obtain ⟨⟨otherBinding, otherFound, otherArray⟩, _⟩ := origin_bindOutside binds secondStarts
  obtain ⟨inside, rfl⟩ := List.getElem?_eq_some_iff.1 found
  obtain ⟨otherInside, rfl⟩ := List.getElem?_eq_some_iff.1 otherFound
  have apart := List.pairwise_iff_getElem.1 (apart_bindOutside binds).2
  rcases Nat.lt_or_gt_of_ne ne with before | behind
  · exact apart position other inside otherInside before first isArray second otherArray
  · exact (apart other position otherInside inside behind second otherArray first isArray).symm

/-- Arrays from outside serve every routine. -/
theorem Program.serves_bindOutside {arguments : List (Passed α)} {bindings : List Binding}
    {arrays : List (Array α)}
    (binds : bindOutside routine.parameters arguments 0 = some (bindings, arrays))
    (pairs : List (Base × Base)) (stored : List Nat) :
    (Frame.ofCall routine bindings arrays.length).Serves program pairs stored fun _ => False := by
  refine ⟨fun _ isOuter => isOuter.elim, fun position origin starts => ?_, ?_, ?_⟩
  · obtain ⟨_, number, number_lt, isStack⟩ := origin_bindOutside binds starts
    rw [isStack]
    exact ⟨number_lt, fun _ => id⟩
  · rintro ⟨left, right⟩ _ ne first second firstStarts secondStarts same
    -- Arrays of the routine's own lie above those from outside.
    have above {position own : Nat} {origin : Cell}
        (starts : (Frame.ofCall routine bindings arrays.length).origin? (.parameter position) =
          some origin) : origin.buffer ≠ .stack (arrays.length + own) := by
      obtain ⟨_, number, number_lt, isStack⟩ := origin_bindOutside binds starts
      rw [isStack, Ne, Buffer.stack.injEq]
      omega
    have noModule {position id : Nat} {origin : Cell}
        (starts : (Frame.ofCall routine bindings arrays.length).origin? (.parameter position) =
          some origin) : origin.buffer ≠ .global id := by
      obtain ⟨_, number, _, isStack⟩ := origin_bindOutside binds starts
      rw [isStack]
      exact Buffer.noConfusion
    cases left with
    | global id =>
        cases firstStarts
        cases right with
        | global other => cases secondStarts; cases same; exact ne rfl
        | own _ => cases secondStarts; cases same
        | parameter _ => exact noModule secondStarts same.symm
    | own position =>
        cases firstStarts
        cases right with
        | global _ => cases secondStarts; cases same
        | own other =>
            cases secondStarts
            exact ne (congrArg Base.own (Nat.add_left_cancel (Buffer.stack.inj same)))
        | parameter _ => exact above secondStarts same.symm
    | parameter position =>
        cases right with
        | global _ => cases secondStarts; exact noModule firstStarts same
        | own _ => cases secondStarts; exact above firstStarts same
        | parameter other =>
            exact ne_buffer_bindOutside binds (fun equal => ne (congrArg Base.parameter equal))
              firstStarts secondStarts same
  · intro position _ origin starts
    obtain ⟨_, number, _, isStack⟩ := origin_bindOutside binds starts
    rw [isStack]
    rintro ⟨_, _, isGlobal, _⟩
    cases isGlobal

variable [Scalar α]

/-- Running the function of a safe and orderly routine from outside gives what
running the routine gives. -/
theorem Program.runCode_of_orderly [ExactScalar α] (shapes : program.GivesShapes)
    {host : Host α σ program.table.sizes} (spares : program.SparesConstants host)
    (orderly : ∀ routine ∈ program.routines, program.IsOrderly routine) {depth : Nat}
    (safe : program.Safe depth routine) (depth_le : depth ≤ program.callDepth) {name : String}
    (known : program.routine? name = some routine) {arguments : List (Passed α)}
    (takes : List.Forall₂ Parameter.Takes routine.parameters arguments) (remains : Remains α)
    (state : σ) {memory : program.Contents} (keeps : program.KeepsConstants memory) :
    Settles (fun fuel => program.runCode host remains fuel state memory name arguments)
      (program.run host state memory name arguments) := by
  obtain ⟨bindings, arrays, binds, accepted, run_eq⟩ :=
    run_of_takes known safe depth_le takes host state memory
  have mem := List.mem_of_find?_eq_some known
  have follows : program.Follows host remains program.callDepth routine :=
    follows_of_safe shapes spares orderly (safe.mono depth_le) mem
  let running : Running α σ program.table.sizes :=
    ⟨⟨⟨memory, arrays.toArray⟩, state⟩, remains.counter 0, 0⟩
  obtain ⟨after, settles, agrees, _⟩ := follows bindings (fun _ => False)
    ⟨⟨memory, arrays.toArray⟩, state⟩ running accepted (serves_bindOutside binds _ _)
    ⟨keeps, .refl _ _, rfl⟩
  rw [run_eq]
  have finished := settles.andThen (fun called =>
    some (⟨.ok called.1, called.2.world.store.memory, called.2.world.state⟩ : program.Outcome σ))
    rfl
  rw [agrees.synced.memory_eq, agrees.state_eq] at finished
  simp only [runCode, known, binds, Option.bind_eq_bind, Option.bind_some]
  exact finished

end Runs

end RtiAssembly
