import RtiAssembly.Proofs.Machine.Correctness

/-!
# Recorded runs

What a program asks of its external functions is part of what it does.  A host
can be made to record every call that it answers; the record shows the calls of
a run in their order and changes nothing else about the run.
-/

namespace RtiAssembly

/-- A call of an external function: what its host saw and what it replied. -/
structure HostCall (α : Type) (sizes : List Nat) where
  function : External
  passed : List (Passed α)
  /-- The memory when the function was called. -/
  memory : Memory α sizes
  status : Int
  /-- The arguments as the function left them. -/
  left : List (Passed α)
  /-- The memory as the function left it. -/
  after : Memory α sizes

/-- The elements of an array as an external function receives them; an index has
none. -/
def Passed.elements {α : Type} : Passed α → Array α
  | .array values => values
  | .index _ => #[]

namespace HostCall

variable {α : Type} {sizes : List Nat} [Scalar α]

/-- What an array argument holds at a position once the function has returned:
what the function left there, or else what was passed. -/
def leaves (call : HostCall α sizes) (argument position : Nat) : α :=
  ((call.left[argument]?).map Passed.elements).getD #[] |>.getD position
    ((((call.passed[argument]?).map Passed.elements).getD #[]).getD position 0)

/-- Consecutive elements that an array argument holds once the function has
returned, as a matrix. -/
def part (call : HostCall α sizes) (argument start rows cols : Nat) : Matrix α :=
  .ofFn rows cols fun row col => call.leaves argument (start + (row * cols + col))

end HostCall

section Recording

variable {α σ : Type} {sizes : List Nat}

/-- The host that also records the calls that it answers. -/
def Host.recorded (host : Host α σ sizes) : Host α (σ × List (HostCall α sizes)) sizes :=
  fun function passed memory (state, calls) =>
    let reply := host function passed memory state
    { status := reply.status
      arguments := reply.arguments
      memory := reply.memory
      state := (reply.state,
        calls ++ [⟨function, passed, memory, reply.status, reply.arguments, reply.memory⟩]) }

/-- The world without the record. -/
def World.erased (world : World α (σ × List (HostCall α sizes)) sizes) : World α σ sizes :=
  ⟨world.store, world.state.1⟩

variable [Scalar α]

/-- The scene of a recording host does what that of the host itself does. -/
def Scene.Erases (scene : Scene α (σ × List (HostCall α sizes)) sizes)
    (plain : Scene α σ sizes) : Prop :=
  scene.routine? = plain.routine? ∧ scene.host = plain.host.recorded ∧
    ∀ routine bindings world,
      (scene.perform routine bindings world).1 = (plain.perform routine bindings world.erased).1 ∧
        (scene.perform routine bindings world).2.erased =
          (plain.perform routine bindings world.erased).2

variable {scene : Scene α (σ × List (HostCall α sizes)) sizes} {plain : Scene α σ sizes}
  {frame : Frame}

theorem Scene.Erases.call (erases : scene.Erases plain) (callee : Callee)
    (arguments : List Argument) (world : World α (σ × List (HostCall α sizes)) sizes) :
    (scene.call frame callee arguments world).1 =
        (plain.call frame callee arguments world.erased).1 ∧
      (scene.call frame callee arguments world).2.erased =
        (plain.call frame callee arguments world.erased).2 := by
  obtain ⟨sameRoutines, sameHost, performs⟩ := erases
  cases callee with
  | routine name =>
      simp only [Scene.call, callRoutine, sameRoutines]
      cases plain.routine? name with
      | none => exact ⟨rfl, rfl⟩
      | some routine => exact performs _ _ _
  | external function =>
      simp only [Scene.call, callExternal, reply, sameHost]
      exact ⟨rfl, rfl⟩

mutual

theorem Statement.erased_effect (erases : scene.Erases plain) {frame : Frame} :
    (statement : Statement α) → (world : World α (σ × List (HostCall α sizes)) sizes) →
    (statement.effect scene frame world).erased = statement.effect plain frame world.erased
  | .assign _ _ _, world => by
      rw [effect, effect]
      rfl
  | .clear _, world => by
      rw [effect, effect]
      rfl
  | .loop name start stop body, world => by
      rw [effect, effect]
      induction List.range' start (stop - start) generalizing world with
      | nil => rfl
      | cons value rest ih =>
          rw [List.foldl_cons, List.foldl_cons, ih, Statement.erased_effects erases body]
  | .call callee arguments status, world => by
      obtain ⟨result, after⟩ := @Scene.Erases.call _ _ _ _ _ _ frame erases callee arguments world
      rw [effect, effect]
      cases status with
      | none => exact after
      | some target =>
          simp only [← result, ← after]
          rfl
  | .comment _, world => by
      rw [effect, effect]

/-- Statements do the same whether or not calls are recorded. -/
theorem Statement.erased_effects (erases : scene.Erases plain) {frame : Frame} :
    (statements : List (Statement α)) →
    (world : World α (σ × List (HostCall α sizes)) sizes) →
    (Statement.effects scene frame statements world).erased =
      Statement.effects plain frame statements world.erased
  | [], world => by
      rw [effects, effects]
  | statement :: rest, world => by
      rw [effects, effects, Statement.erased_effects erases rest,
        Statement.erased_effect erases statement]

end

theorem Program.erases_scene (program : Program α) (host : Host α σ sizes) (depth : Nat) :
    (program.scene host.recorded depth).Erases (program.scene host depth) := by
  refine ⟨rfl, rfl, ?_⟩
  induction depth with
  | zero => exact fun _ _ _ => ⟨rfl, rfl⟩
  | succ depth ih =>
      intro routine bindings world
      let started := world.update fun store =>
        store.push (routine.locals.map fun decl => Array.replicate decl.size (0 : α))
      let frame := Frame.ofCall routine bindings world.store.stack.size
      have body : (Statement.effects (program.scene host.recorded depth) frame routine.body
          started).erased =
            Statement.effects (program.scene host depth) frame routine.body started.erased :=
        Statement.erased_effects ⟨rfl, rfl, ih⟩ routine.body started
      simp only [scene, perform_succ]
      constructor
      · exact congrArg (fun ended : World α σ sizes => routine.result.elim 0 fun position =>
          ended.store.read (frame.startOf (.vector (.own position) (.const 0) 1))) body
      · exact congrArg (fun ended : World α σ sizes => ended.update fun store =>
          store.truncate world.store.stack.size) body

/-! ## Calls of a recording host -/

section Invocations

variable {host : Host α σ sizes}

/-- A function that is called without a status: the memory is that of the reply, with the
arguments put back, and the call is recorded. -/
theorem Statement.effect_invoke (records : scene.host = host.recorded) (function : External)
    (arguments : List Argument) (world : World α (σ × List (HostCall α sizes)) sizes) :
    let passed := arguments.map (frame.passedTo world.store)
    let reply := host function passed world.store.memory world.state.1
    (invoke function arguments none).effect scene frame world =
      ⟨(arguments.zip reply.arguments).foldl
          (fun (store : Store α sizes) item => store.putBack frame item.1 item.2)
          { world.store with memory := reply.memory },
        (reply.state, world.state.2 ++
          [⟨function, passed, world.store.memory, reply.status, reply.arguments, reply.memory⟩])⟩ := by
  simp only [invoke, effect, Scene.call, Scene.callExternal, Scene.reply, records]
  rfl

/-- A function that is called without arguments: the memory is that of the reply, the status
is stored, and the call is recorded. -/
theorem Statement.effect_invoke_status (records : scene.host = host.recorded)
    (function : External) (target : Window)
    (world : World α (σ × List (HostCall α sizes)) sizes) :
    let reply := host function [] world.store.memory world.state.1
    (invoke function [] (some target)).effect scene frame world =
      ⟨Store.write { world.store with memory := reply.memory } (frame.startOf target)
          (Scalar.ofInt reply.status),
        (reply.state, world.state.2 ++
          [⟨function, [], world.store.memory, reply.status, reply.arguments, reply.memory⟩])⟩ := by
  simp only [invoke, effect, Scene.call, Scene.callExternal, Scene.reply, records]
  rfl

end Invocations

/-! ## Replies -/

/-- A recorded call shows what its host replied. -/
def HostCall.IsReply (call : HostCall α sizes) (host : Host α σ sizes) : Prop :=
  ∃ state,
    let reply := host call.function call.passed call.memory state
    call.status = reply.status ∧ call.left = reply.arguments ∧ call.after = reply.memory

/-- A step that adds calls to the record, each with the reply of the host. -/
def World.Records (host : Host α σ sizes)
    (before after : World α (σ × List (HostCall α sizes)) sizes) : Prop :=
  ∃ calls, after.state.2 = before.state.2 ++ calls ∧ ∀ call ∈ calls, call.IsReply host

namespace World.Records

variable {host : Host α σ sizes}
  {before between after : World α (σ × List (HostCall α sizes)) sizes}

omit [Scalar α] in
theorem of_state_eq (same : after.state = before.state) : before.Records host after :=
  ⟨[], by rw [same, List.append_nil], nofun⟩

omit [Scalar α] in
theorem trans (first : before.Records host between) (second : between.Records host after) :
    before.Records host after := by
  obtain ⟨calls, record, replies⟩ := first
  obtain ⟨others, recordLater, repliesLater⟩ := second
  refine ⟨calls ++ others, by rw [recordLater, record, List.append_assoc], fun call mem => ?_⟩
  exact (List.mem_append.1 mem).elim (replies call) (repliesLater call)

omit [Scalar α] in
/-- The added calls are replies, however they are listed. -/
theorem isReply (records : before.Records host after) {calls : List (HostCall α sizes)}
    (record : after.state.2 = before.state.2 ++ calls) : ∀ call ∈ calls, call.IsReply host := by
  obtain ⟨added, added_eq, replies⟩ := records
  rw [record] at added_eq
  rwa [List.append_cancel_left added_eq]

end World.Records

/-- The scene of a recording host: its calls are recorded with their replies. -/
def Scene.Records (scene : Scene α (σ × List (HostCall α sizes)) sizes) (host : Host α σ sizes) :
    Prop :=
  scene.host = host.recorded ∧ ∀ routine bindings world,
    World.Records host world (scene.perform routine bindings world).2

variable {host : Host α σ sizes}

theorem Scene.Records.call (records : scene.Records host) (callee : Callee)
    (arguments : List Argument) (world : World α (σ × List (HostCall α sizes)) sizes) :
    world.Records host (scene.call frame callee arguments world).2 := by
  obtain ⟨sameHost, performs⟩ := records
  cases callee with
  | routine name =>
      simp only [Scene.call, callRoutine]
      cases scene.routine? name with
      | none => exact .of_state_eq rfl
      | some routine => exact performs _ _ _
  | external function =>
      simp only [Scene.call, callExternal, reply, sameHost]
      exact ⟨[_], rfl, List.forall_mem_singleton.2 ⟨world.state.1, rfl, rfl, rfl⟩⟩

mutual

theorem Statement.records_effect (records : scene.Records host) {frame : Frame} :
    (statement : Statement α) → (world : World α (σ × List (HostCall α sizes)) sizes) →
    world.Records host (statement.effect scene frame world)
  | .assign _ _ _, world => by
      rw [effect]
      exact .of_state_eq rfl
  | .clear _, world => by
      rw [effect]
      exact .of_state_eq rfl
  | .loop name start stop body, world => by
      rw [effect]
      induction List.range' start (stop - start) generalizing world with
      | nil => exact .of_state_eq rfl
      | cons value rest ih => exact (Statement.records_effects records body world).trans (ih _)
  | .call callee arguments status, world => by
      have called := @Scene.Records.call _ _ _ _ _ frame _ records callee arguments world
      rw [effect]
      cases status with
      | none => exact called
      | some target => exact called.trans (.of_state_eq rfl)
  | .comment _, world => by
      rw [effect]
      exact .of_state_eq rfl

/-- Statements record the replies of the host. -/
theorem Statement.records_effects (records : scene.Records host) {frame : Frame} :
    (statements : List (Statement α)) →
    (world : World α (σ × List (HostCall α sizes)) sizes) →
    world.Records host (Statement.effects scene frame statements world)
  | [], world => by
      rw [effects]
      exact .of_state_eq rfl
  | statement :: rest, world => by
      rw [effects]
      exact (Statement.records_effect records statement world).trans
        (Statement.records_effects records rest _)

end

theorem Program.records_scene (program : Program α) (host : Host α σ sizes) (depth : Nat) :
    (program.scene host.recorded depth).Records host := by
  refine ⟨rfl, ?_⟩
  induction depth with
  | zero => exact fun _ _ _ => .of_state_eq rfl
  | succ depth ih =>
      intro routine bindings world
      let started := world.update fun store =>
        store.push (routine.locals.map fun decl => Array.replicate decl.size (0 : α))
      have body : started.Records host (Statement.effects (program.scene host.recorded depth)
          (Frame.ofCall routine bindings world.store.stack.size) routine.body started) :=
        Statement.records_effects ⟨rfl, ih⟩ routine.body started
      simp only [scene, perform_succ]
      exact body

end Recording

namespace Program

variable {α σ : Type} [Scalar α] {program : Program α}

/-- The calls of external functions in a run, in their order. -/
def trace (program : Program α) (host : Host α σ program.table.sizes) (state : σ)
    (memory : program.Contents) (name : String) (arguments : List (Passed α)) :
    List (HostCall α program.table.sizes) :=
  (program.run host.recorded (state, []) memory name arguments).state.2

/-- A recorded run is the run itself with its calls. -/
theorem run_recorded {routine : Routine α} {name : String}
    (known : program.routine? name = some routine) (parameters : routine.parameters = [])
    {depth : Nat} (safe : program.Safe depth routine) (depth_le : depth ≤ program.callDepth)
    (host : Host α σ program.table.sizes) (state : σ) (memory : program.Contents) :
    let recorded := program.run host.recorded (state, []) memory name []
    program.run host state memory name [] =
      ⟨recorded.result, recorded.memory, recorded.state.1⟩ := by
  obtain ⟨_, _, erases⟩ := program.erases_scene host program.callDepth
  obtain ⟨result, after⟩ := erases routine [] ⟨⟨memory, #[]⟩, (state, [])⟩
  rw [run_of_safe known parameters safe depth_le, run_of_safe known parameters safe depth_le]
  simp only [Outcome.mk.injEq, Except.ok.injEq]
  exact ⟨result.symm, congrArg (fun world => world.store.memory) after.symm,
    congrArg World.state after.symm⟩

end Program

end RtiAssembly
