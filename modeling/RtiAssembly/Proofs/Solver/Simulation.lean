import RtiAssembly.Proofs.Problem.Given
import RtiAssembly.Proofs.Program.Faultless
import RtiAssembly.Proofs.Solver.Requests

/-!
# Forward simulation

The simulation integrates one interval after the other.  Each call gets the state
that the one before has left, through a buffer that the call overwrites, and the
states that are reached become the trajectory.
-/

namespace RtiAssembly

open Statement

namespace Problem

variable {α σ : Type} [Scalar α] {problem : Problem α}

/-! ## Integrations -/

/-- What a call has left at the start of its first array. -/
def leftState (problem : Problem α) (call : HostCall α problem.program.table.sizes) : List α :=
  (List.range problem.dims.nx).map (call.leaves 0)

/-- The state that a simulation has reached at a node: the initial one, or else what the
integration of the interval before has left. -/
def reachedState (problem : Problem α) (memory : problem.Contents)
    (calls : List (HostCall α problem.program.table.sizes)) : Nat → List α
  | 0 => problem.slice memory .x 0 problem.dims.nx
  | node + 1 => calls[node]?.elim [] problem.leftState

/-- A call that integrates an interval from a state, with the control and the online data
that stand in a memory. -/
structure Integrates (problem : Problem α) (memory : problem.Contents) (node : Nat)
    (state : List α) (call : HostCall α problem.program.table.sizes) : Prop where
  function_eq : call.function = .integrate
  passed_eq : call.passed =
    [.array (state ++ problem.slice memory .u (node * problem.dims.nu) problem.dims.nu ++
        problem.slice memory .od (node * problem.dims.nod) problem.dims.nod).toArray,
      .index node]

/-- What comes back from an integration: the buffer, but not the index. -/
theorem valueAt_integrated (store : Store α problem.program.table.sizes) (frame : Frame)
    (index : AffineIndex) (arguments : List (Passed α)) :
    let restored := ([problem.plan.passWhole .state, .index index].zip arguments).foldl
      (fun (store : Store α problem.program.table.sizes) item =>
        store.putBack frame item.1 item.2) store
    problem.Changes (fun quantity _ => quantity = .state) store.memory restored.memory ∧
      ∀ position < problem.sizeOf .state,
        problem.valueAt restored.memory .state position =
          (((arguments[0]?).map Passed.elements).getD #[]).getD position
            (problem.valueAt store.memory .state position) := by
  cases arguments with
  | nil => exact ⟨.refl _, fun _ _ => rfl⟩
  | cons first rest =>
      have restored_eq : ([problem.plan.passWhole .state, .index index].zip
          (first :: rest)).foldl (fun (store : Store α problem.program.table.sizes) item =>
            store.putBack frame item.1 item.2) store =
          store.putBack frame (problem.plan.passWhole .state) first := by
        cases rest <;> rfl
      simp only [restored_eq]
      constructor
      · intro quantity position outside
        rw [valueAt_putBack, if_neg fun here => outside here.1]
      · intro position position_lt
        rw [valueAt_putBack, if_pos ⟨rfl, position_lt⟩]
        rfl

section Steps

variable {host : Host α σ problem.program.table.sizes}
  {scene : Scene α (σ × List (HostCall α problem.program.table.sizes))
    problem.program.table.sizes} {frame : Frame} {world : problem.Recorded σ}

/-- The call of the integrator. -/
theorem moves_integrate (records : scene.host = host.recorded)
    (tame : ∀ passed memory state, (host .integrate passed memory state).memory = memory)
    {index : AffineIndex} {node : Nat} (value : frame.valueOf index = node) :
    let after := (Statement.invoke .integrate
      [problem.plan.passWhole .state, .index index] none).effect scene frame world
    ∃ call : HostCall α problem.program.table.sizes, call.function = .integrate ∧
      call.passed = [.array (world.store.memory.content (problem.plan.id .state)),
        .index node] ∧
      problem.Moves (fun quantity _ => quantity = .state) [call] world after ∧
      ∀ position < problem.sizeOf .state,
        problem.valueAt after.store.memory .state position = call.leaves 0 position := by
  let memory := world.store.memory
  let passed : List (Passed α) :=
    [.array (memory.content (problem.plan.id .state)), .index node]
  let reply := host .integrate passed memory world.state.1
  let call : HostCall α problem.program.table.sizes :=
    ⟨.integrate, passed, memory, reply.status, reply.arguments, memory⟩
  let restored := ([problem.plan.passWhole .state, .index index].zip reply.arguments).foldl
    (fun (store : Store α problem.program.table.sizes) item =>
      store.putBack frame item.1 item.2) world.store
  have index_eq : frame.passedTo world.store (.index index) = .index node :=
    congrArg Passed.index value
  have effect_eq : (Statement.invoke .integrate
      [problem.plan.passWhole .state, .index index] none).effect scene frame world =
        ⟨restored, (reply.state, world.state.2 ++ [call])⟩ := by
    have kept : (host .integrate passed world.store.memory world.state.1).memory =
      world.store.memory := tame _ _ _
    rw [Statement.effect_invoke records]
    simp only [List.map_cons, List.map_nil, Frame.passedTo_whole, index_eq]
    rw [kept]
  obtain ⟨changes, holds⟩ := valueAt_integrated world.store frame index reply.arguments
  simp only [effect_eq]
  exact ⟨call, rfl, rfl, ⟨rfl, changes⟩, holds⟩

/-- The statements of an interval. -/
def integration (problem : Problem α) (index : AffineIndex) : List (Statement α) :=
  let dims := problem.dims
  problem.plan.loadNodeInput dims .state index true ++
    [.invoke .integrate [problem.plan.passWhole .state, .index index] none,
      problem.plan.copy .x ((index.scaled dims.nx).plus dims.nx) .state (.const 0) dims.nx]

theorem sizeOf_state :
    problem.sizeOf .state = problem.dims.nx + problem.dims.nu + problem.dims.nod := by
  have shape : problem.shapeOf? .state =
      some (1, problem.dims.nx + problem.dims.nu + problem.dims.nod) := by simp
  rw [problem.sizeOf_eq shape, Nat.one_mul]

/-- Consecutive elements that two memories have in common. -/
theorem slice_eq_of_changes {region : Quantity → Nat → Prop} {before after : problem.Contents}
    (changes : problem.Changes region before after) {quantity : Quantity} {start count : Nat}
    (outside : ∀ position, start ≤ position → position < start + count →
      ¬region quantity position) :
    problem.slice after quantity start count = problem.slice before quantity start count :=
  List.map_congr_left fun _ mem => changes quantity _ <|
    outside _ (Nat.le_add_right _ _) (Nat.add_lt_add_left (List.mem_range.1 mem) _)

/-- A buffer that was loaded to its end. -/
theorem content_of_loads {buffer : Quantity} {values : List α} {before after : problem.Recorded σ}
    (loads : problem.Loads buffer values before after)
    (full : values.length = problem.sizeOf buffer) :
    after.store.memory.content (problem.plan.id buffer) = values.toArray := by
  have starts := prefix_content (Nat.le_of_eq full) loads.holds
  have length_eq : values.length =
      (after.store.memory.content (problem.plan.id buffer)).toList.length :=
    full.trans (problem.size_content _ _).symm
  exact congrArg List.toArray (starts.eq_of_length length_eq).symm

/-- What an interval may change: the buffer, and the state at its end. -/
def IntervalShare (problem : Problem α) (node : Nat) (quantity : Quantity) (position : Nat) :
    Prop :=
  quantity = .state ∨ quantity = .x ∧ (node + 1) * problem.dims.nx ≤ position ∧
    position < (node + 1) * problem.dims.nx + problem.dims.nx

/-- The integration of an interval: the call gets the state at its start, and what it leaves
is the state at its end. -/
theorem integrates_interval (records : scene.host = host.recorded)
    (tame : ∀ passed memory state, (host .integrate passed memory state).memory = memory)
    {node : Nat} (node_lt : node < problem.dims.n) (name : String) :
    let nx := problem.dims.nx
    let memory := world.store.memory
    let after := effects scene (frame.bind name node) (problem.integration (.var name)) world
    ∃ call, problem.Moves (problem.IntervalShare node) [call] world after ∧
      problem.Integrates memory node (problem.slice memory .x (node * nx) nx) call ∧
      problem.slice after.store.memory .x ((node + 1) * nx) nx = problem.leftState call := by
  intro nx memory after
  let inner := frame.bind name node
  let loaded := effects scene inner
    (problem.plan.loadNodeInput problem.dims .state (.var name) true) world
  let called := (Statement.invoke .integrate
    [problem.plan.passWhole .state, .index (.var name)] none).effect scene inner loaded
  have value : inner.valueOf (.var name) = node := Frame.valueOf_bind name node
  have loads : problem.Loads .state (problem.nodeInput memory node) world loaded := by
    have all := @loads_loadNodeInput α σ _ problem scene inner world .state (.var name) node value
      sizeOf_state (by decide)
    rwa [decide_eq_true node_lt] at all
  have input_eq : problem.nodeInput memory node =
      problem.slice memory .x (node * nx) nx ++
          problem.slice memory .u (node * problem.dims.nu) problem.dims.nu ++
        problem.slice memory .od (node * problem.dims.nod) problem.dims.nod := by
    simp only [nodeInput, if_pos node_lt, nx]
  have content_eq := content_of_loads loads (by
    rw [sizeOf_state, input_eq]
    simp only [List.length_append, length_slice, nx])
  obtain ⟨call, function_eq, passed_eq, moves, holds⟩ :=
    @moves_integrate α σ _ problem host scene inner loaded records tame (.var name) node value
  have starts : inner.valueOf (((AffineIndex.var name).scaled nx).plus nx) = (node + 1) * nx := by
    rw [Frame.valueOf_bind_scaled_plus, Nat.succ_mul]
  have room : (node + 1) * nx + nx ≤ problem.sizeOf .x := by
    have shape : problem.shapeOf? .x = some (problem.dims.n + 1, nx) := by simp [nx]
    rw [problem.sizeOf_eq shape]
    exact block_le nx (Nat.succ_lt_succ node_lt)
  have copies := @puts_copy α σ _ problem scene inner called .x .state
    (((AffineIndex.var name).scaled nx).plus nx) (.const 0) nx (starts ▸ room)
  rw [starts] at copies
  have after_eq : after =
      (problem.plan.copy .x (((AffineIndex.var name).scaled nx).plus nx) .state (.const 0)
        nx).effect scene inner called := by
    simp only [after, integration, called, loaded, effects_append, effects]
    rfl
  rw [after_eq]
  refine ⟨call, ?_, ⟨function_eq, ?_⟩, ?_⟩
  · refine (loads.moves.mono fun _ _ => .inl).trans ((moves.mono fun _ _ => .inl).trans ?_)
    exact copies.moves fun position start_le position_lt => .inr ⟨rfl, start_le, position_lt⟩
  · rw [passed_eq, content_eq, input_eq]
  · refine List.map_congr_left fun position mem => ?_
    have position_lt : position < nx := List.mem_range.1 mem
    rw [copies.memory.inside position_lt, Frame.valueOf_const, Nat.zero_add]
    refine holds position ?_
    rw [sizeOf_state]
    omega

omit [Scalar α] in
/-- What an interval may change, but for the buffer. -/
theorem IntervalShare.of_ne {node : Nat} {quantity : Quantity} {position : Nat}
    (share : problem.IntervalShare node quantity position) (other : quantity ≠ .state) :
    quantity = .x ∧ (node + 1) * problem.dims.nx ≤ position :=
  (share.resolve_left other).imp_right And.left

/-- The rounds of the simulation: every call gets the state at the start of its interval,
and what it leaves is the state at the end. -/
theorem integrates_rounds (records : scene.host = host.recorded)
    (tame : ∀ passed memory state, (host .integrate passed memory state).memory = memory)
    (name : String) :
    let nx := problem.dims.nx
    let memory := world.store.memory
    let after := (Statement.loop name 0 problem.dims.n
      (problem.integration (.var name))).effect scene frame world
    ∃ calls, problem.Moves (fun quantity position => quantity = .state ∨
          quantity = .x ∧ nx ≤ position) calls world after ∧
      calls.length = problem.dims.n ∧
      ∀ node < problem.dims.n, ∃ call, calls[node]? = some call ∧
        problem.Integrates memory node
          (problem.slice after.store.memory .x (node * nx) nx) call ∧
        problem.slice after.store.memory .x ((node + 1) * nx) nx = problem.leftState call := by
  intro nx memory after
  simp only [after, effect_loop]
  refine @moves_rounds_calls α σ _ problem world _ _ _ problem.IntervalShare
    (fun node call memory' => problem.Integrates memory node
        (problem.slice memory' .x (node * nx) nx) call ∧
      problem.slice memory' .x ((node + 1) * nx) nx = problem.leftState call) ?_ ?_ ?_
  · intro node _ quantity position share
    rcases eq_or_ne quantity .state with buffer | other
    · exact .inl buffer
    · obtain ⟨same, start_le⟩ := share.of_ne other
      exact .inr ⟨same, Nat.le_trans (Nat.le_mul_of_pos_left nx node.succ_pos) start_le⟩
  · -- later intervals write behind both states of an earlier one
    rintro node later earlier - call before after changes ⟨integrates, left⟩
    have kept {start : Nat} (start_le : start ≤ (node + 1) * nx) :
        problem.slice after .x start nx = problem.slice before .x start nx := by
      refine slice_eq_of_changes changes fun position _ position_lt share => ?_
      have behind := (share.of_ne Quantity.noConfusion).2
      have later_le : (node + 2) * nx ≤ (later + 1) * nx := Nat.mul_le_mul_right nx (by omega)
      rw [Nat.succ_mul] at later_le
      have : (later + 1) * nx ≤ position := behind
      omega
    rw [kept (Nat.mul_le_mul_right nx node.le_succ), kept (Nat.le_refl _)]
    exact ⟨integrates, left⟩
  · intro node node_lt before changes
    obtain ⟨call, moves, ⟨function_eq, passed_eq⟩, left⟩ :=
      @integrates_interval α σ _ problem host scene frame before records tame node node_lt name
    have start_eq : problem.slice before.store.memory .x (node * nx) nx = problem.slice
        (effects scene (frame.bind name node) (problem.integration (.var name))
          before).store.memory .x (node * nx) nx := by
      refine (slice_eq_of_changes moves.memory fun position _ position_lt share => ?_).symm
      have behind := (share.of_ne Quantity.noConfusion).2
      rw [Nat.succ_mul] at behind
      exact absurd position_lt (Nat.not_lt.2 behind)
    refine ⟨call, moves, ⟨function_eq, ?_⟩, left⟩
    rw [passed_eq, start_eq, slice_congr fun position => changes .u position (by simp),
      slice_congr fun position => changes .od position (by simp)]

end Steps

/-! ## The routine -/

/-- What a simulation does: its calls, and the trajectory that it leaves. -/
structure Simulates (problem : Problem α)
    (calls : List (HostCall α problem.program.table.sizes)) (before after : problem.Contents) :
    Prop where
  count : calls.length = problem.dims.n
  integrates : ∀ node < problem.dims.n, ∃ call, calls[node]? = some call ∧
    problem.Integrates before node (problem.reachedState before calls node) call
  reaches : ∀ node ≤ problem.dims.n,
    problem.slice after .x (node * problem.dims.nx) problem.dims.nx =
      problem.reachedState before calls node

/-- A run of the simulation returns, and it changes the buffer and the states behind the
initial one. -/
theorem run_simulateRoutine (wellFormed : problem.WellFormed)
    {host : Host α σ problem.program.table.sizes}
    (tame : ∀ passed memory state, (host .integrate passed memory state).memory = memory)
    (state : σ) (memory : problem.Contents) :
    let outcome := problem.program.run host state memory Horizon.simulateName []
    let calls := problem.program.trace host state memory Horizon.simulateName []
    outcome.result = .ok 0 ∧ (∀ call ∈ calls, call.IsReply host) ∧
      problem.Simulates calls memory outcome.memory ∧
      problem.Changes (fun quantity position => quantity = .state ∨
        quantity = .x ∧ problem.dims.nx ≤ position) memory outcome.memory := by
  let routine := Horizon.simulateRoutine problem problem.plan
  have mem : routine ∈ problem.program.routines := by
    rw [Problem.routines_program]
    simp [routine]
  obtain ⟨depth, run_eq, trace_eq⟩ := problem.run_eq_effects mem rfl
    (safe_routines wellFormed routine mem) host state memory
  let scene := problem.program.scene host.recorded (depth + 2)
  let frame := Frame.ofCall routine [] 0
  let started := problem.startOf routine state memory
  let ended := effects scene frame routine.body started
  have body_eq : ended = (Statement.loop "index" 0 problem.dims.n
      (problem.integration (.var "index"))).effect scene frame started := by
    simp only [ended]
    exact effects_singleton _ _
  obtain ⟨calls, moves, count, held⟩ :=
    @integrates_rounds α σ _ problem host scene frame started rfl tame "index"
  rw [← body_eq] at moves held
  have calls_eq : ended.state.2 = calls := moves.record
  have replies := (records_effects (problem.program.records_scene host (depth + 2))
    routine.body started).isReply moves.record
  intro outcome recorded
  have outcome_eq : outcome = ⟨.ok 0, ended.store.memory, ended.state.1⟩ := run_eq
  have recorded_eq : recorded = calls := trace_eq.trans calls_eq
  rw [outcome_eq, recorded_eq]
  -- the state at the end of an interval is what its call has left
  have reaches : ∀ node ≤ problem.dims.n,
      problem.slice ended.store.memory .x (node * problem.dims.nx) problem.dims.nx =
        problem.reachedState memory calls node := by
    intro node node_le
    cases node with
    | zero =>
        rw [Nat.zero_mul]
        refine slice_eq_of_changes moves.memory fun position _ position_lt touched => ?_
        have behind := (touched.resolve_left Quantity.noConfusion).2
        omega
    | succ node =>
        obtain ⟨call, place, _, left⟩ := held node node_le
        rw [left, reachedState, place, Option.elim_some]
  refine ⟨rfl, replies, ⟨count, fun node node_lt => ?_, reaches⟩, moves.memory⟩
  obtain ⟨call, place, integrates, _⟩ := held node node_lt
  rw [reaches node (Nat.le_of_lt node_lt)] at integrates
  exact ⟨call, place, integrates⟩

end Problem

/-- Forward simulation.  Apart from what is passed to it, the integrator writes nothing; the
host may do what it likes otherwise and reply any status.  Then the simulation integrates
every interval once, in order, each from the state that the call before has left; the
trajectory consists of the initial state and of the states that were left; and nothing else
of what the control loop sees has changed. -/
theorem simulation_of_accepted {α σ : Type} [Scalar α] {description : Description α}
    {problem : Problem α} (accepted : description.validate.value = some problem)
    {host : Host α σ problem.program.table.sizes}
    (tame : ∀ passed memory state, (host .integrate passed memory state).memory = memory)
    (state : σ) (memory : problem.Contents) :
    let dims := description.dims
    let program := problem.program
    let outcome := program.run host state memory Horizon.simulateName []
    let calls := program.trace host state memory Horizon.simulateName []
    Plan.ofProblem problem = .ok problem.plan ∧
      outcome.result = .ok 0 ∧
      calls.length = dims.n ∧
      (∀ call ∈ calls, call.IsReply host) ∧
      (∀ node < dims.n, ∃ call, calls[node]? = some call ∧
        problem.Integrates memory node (problem.reachedState memory calls node) call) ∧
      (∀ node ≤ dims.n, problem.slice outcome.memory .x (node * dims.nx) dims.nx =
        problem.reachedState memory calls node) ∧
      ∀ id, ∀ decl ∈ program.table.get? id, decl.storage = .variable → id ≠ problem.plan.id .x →
        outcome.memory.content id = memory.content id := by
  intro dims program outcome calls
  have wellFormed := Description.wellFormed_of_validate accepted
  have dims_eq : problem.dims = dims := (Description.keeps_of_validate accepted).dims
  obtain ⟨result_eq, replies, simulates, changes⟩ :=
    Problem.run_simulateRoutine wellFormed tame state memory
  rw [← dims_eq]
  refine ⟨wellFormed.ofProblem_eq_ok, result_eq, simulates.count, replies, simulates.integrates,
    simulates.reaches, fun id decl found supplied other => ?_⟩
  obtain ⟨quantity, described, rfl⟩ := problem.exists_quantity found
  refine problem.content_eq fun position => changes quantity position ?_
  rintro (rfl | ⟨rfl, -⟩)
  · cases described
    exact StorageClass.noConfusion supplied
  · exact other rfl

/-! ## A small problem -/

/-- A host whose integrator adds the control to the state, and complains. -/
def Host.adding : Host ℚ Unit Problem.twoIntervals.program.table.sizes :=
  fun function passed memory state =>
    let left :=
      match function, passed with
      | .integrate, [.array buffer, index] =>
          [.array (buffer.modify 0 fun start => start + buffer.getD 1 0), index]
      | _, passed => passed
    ⟨1, left, memory, state⟩

/-- Controls two and three take the state one to three and then to six. -/
theorem simulation_twoIntervals :
    let problem := Problem.twoIntervals
    let program := problem.program
    let start := (program.initialMemory.overwrite (problem.plan.id .x) #[1, 7, 8]).overwrite
      (problem.plan.id .u) #[2, 3]
    let outcome := program.run Host.adding () start Horizon.simulateName []
    Description.twoIntervals.validate.value = some problem ∧
      (∀ passed memory state,
        (Host.adding .integrate passed memory state).memory = memory) ∧
      (List.range 3).flatMap (fun node => problem.slice outcome.memory .x (node * 1) 1) =
        [1, 3, 6] := by
  intro problem program start outcome
  have tame : ∀ passed memory state,
      (Host.adding .integrate passed memory state).memory = memory := fun _ _ _ => rfl
  obtain ⟨_, _, _, _, _, reaches, _⟩ :=
    simulation_of_accepted Description.validate_twoIntervals tame () start
  refine ⟨Description.validate_twoIntervals, tame, ?_⟩
  refine (List.flatMap_congr fun node mem => reaches node ?_).trans (by decide +kernel)
  exact Nat.le_of_lt_succ (List.mem_range.1 mem)

end RtiAssembly
