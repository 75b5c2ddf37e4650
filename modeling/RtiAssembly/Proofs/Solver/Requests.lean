import RtiAssembly.Proofs.Solver.Blocks
import RtiAssembly.Proofs.Solver.Nodes

/-!
# Requests

A request names a function, a node and the buffers through which the function
works.  A step answers a list of requests if the calls that it makes meet them one
by one, in their order, and there are no others.  Hosts may write everything, so
that what a call receives is stated about the memory at the call.
-/

namespace RtiAssembly

open Statement

/-- What is asked of an external function: to evaluate a node by way of an input and
an output buffer. -/
structure Request where
  function : External
  input : Quantity
  output : Quantity
  node : Nat

namespace Problem

variable {α σ : Type} [Scalar α] {problem : Problem α}

/-- A call that meets a request: both buffers are passed as they stand, and the first
one starts with the state, the control and the online data of the node as they stand in
memory.  Behind the input of an interval nothing is left in the buffer. -/
structure Meets (problem : Problem α) (request : Request)
    (call : HostCall α problem.program.table.sizes) : Prop where
  function_eq : call.function = request.function
  passed_eq : call.passed =
    [.array (call.memory.content (problem.plan.id request.input)),
      .array (call.memory.content (problem.plan.id request.output))]
  starts : problem.nodeInput call.memory request.node <+: call.input
  whole : request.node < problem.dims.n →
    call.input = problem.nodeInput call.memory request.node

/-- Calls that meet requests are calls of the functions that are asked for. -/
theorem functions_of_meets {requests : List Request}
    {calls : List (HostCall α problem.program.table.sizes)}
    (meets : List.Forall₂ problem.Meets requests calls) :
    calls.map HostCall.function = requests.map Request.function := by
  induction meets with
  | nil => rfl
  | cons first _ ih => rw [List.map_cons, List.map_cons, first.function_eq, ih]

/-- A step whose calls meet given requests in their order. -/
def Answers (problem : Problem α) (requests : List Request)
    (before after : problem.Recorded σ) : Prop :=
  ∃ calls, after.state.2 = before.state.2 ++ calls ∧ List.Forall₂ problem.Meets requests calls

namespace Answers

variable {requests later : List Request} {before between after : problem.Recorded σ}

theorem of_quiet (same : after.state = before.state) : problem.Answers [] before after :=
  ⟨[], by rw [same, List.append_nil], .nil⟩

theorem trans (first : problem.Answers requests before between)
    (second : problem.Answers later between after) :
    problem.Answers (requests ++ later) before after := by
  obtain ⟨calls, record, meets⟩ := first
  obtain ⟨others, recordLater, meetsLater⟩ := second
  refine ⟨calls ++ others, ?_, List.rel_append meets meetsLater⟩
  rw [recordLater, record, List.append_assoc]

/-- Rounds that answer one request each. -/
theorem rounds {run : problem.Recorded σ → Nat → problem.Recorded σ} {request : Nat → Request}
    {count : Nat} {world : problem.Recorded σ}
    (step : ∀ round < count, ∀ before : problem.Recorded σ,
      problem.Answers [request round] before (run before round)) :
    problem.Answers ((List.range count).map request) world
      ((List.range count).foldl run world) := by
  induction count with
  | zero => exact of_quiet rfl
  | succ count ih =>
      rw [List.range_succ, List.map_append, List.foldl_append]
      exact (ih fun round round_lt => step round (Nat.lt_succ_of_lt round_lt)).trans
        (step count (Nat.lt_succ_self count) _)

end Answers

/-! ## Steps that ask nothing -/

variable {host : Host α σ problem.program.table.sizes} {frame : Frame}

/-- A routine that calls nothing leaves the host as it is. -/
theorem isQuiet_routine {depth : Nat} {routine : Routine α}
    (mem : routine ∈ problem.program.routines) (quiet : callsOf routine.body = []) :
    (problem.program.scene host.recorded depth).IsQuiet (.routine routine.name) := by
  intro frame arguments world
  simp only [Scene.call, Scene.callRoutine, routine?_eq mem]
  cases depth with
  | zero => rfl
  | succ depth =>
      rw [Program.perform_succ]
      exact state_effects routine.body (quiet ▸ List.forall_mem_nil _) _

/-! ## Steps that ask for a node -/

section Nodes

variable {scene : Scene α (σ × List (HostCall α problem.program.table.sizes))
    problem.program.table.sizes} {world : problem.Recorded σ}

/-- Packing the input of a node and calling a function on it, with any host. -/
theorem meets_node (records : scene.host = host.recorded) (function : External)
    {input output : Quantity} {node : AffineIndex} {number : Nat}
    (value : frame.valueOf node = number) {withControl : Bool}
    (control : decide (number < problem.dims.n) = withControl)
    (room : problem.sizeOf input = problem.dims.nx + problem.dims.nu + problem.dims.nod)
    (apart : Quantity.x ≠ input ∧ .u ≠ input ∧ .od ≠ input) (different : input ≠ output) :
    let after := effects scene frame
      (problem.plan.loadNodeInput problem.dims input node withControl ++
        [problem.plan.evaluate function input output]) world
    ∃ call, problem.Meets ⟨function, input, output, number⟩ call ∧
      problem.Moves (fun quantity _ => ¬problem.Spares host quantity ∨ quantity = input ∨
        quantity = output) [call] world after ∧
      problem.Changes (fun quantity _ => quantity = input ∨ quantity = output) call.after
        after.store.memory ∧
      ∀ position < problem.sizeOf output,
        problem.valueAt after.store.memory output position =
          problem.returned call output position := by
  subst control
  have loads := @loads_loadNodeInput α σ _ problem scene frame world input node number value room
    apart
  let loaded := effects scene frame
    (problem.plan.loadNodeInput problem.dims input node (decide (number < problem.dims.n))) world
  obtain ⟨call, evaluates, moves, restored, holds⟩ :=
    @moves_evaluate_of_any α σ _ problem host scene frame loaded records function input output
      different
  have memory_eq : call.memory = loaded.store.memory := evaluates.memory_eq
  have input_eq : call.input = (call.memory.content (problem.plan.id input)).toList := by
    rw [memory_eq]
    exact congrArg (fun passed => (((passed[0]?).map Passed.elements).getD #[]).toList)
      evaluates.passed_eq
  -- loading writes the buffer only, so that the input still stands in memory
  have loaded_eq : problem.nodeInput call.memory number =
      problem.nodeInput world.store.memory number := by
    rw [memory_eq]
    exact loads.moves.memory.nodeInput_eq (fun _ => apart) number
  have starts : problem.nodeInput call.memory number <+: call.input := by
    rw [loaded_eq, input_eq, memory_eq]
    exact prefix_content (room ▸ length_nodeInput_le world.store.memory number) loads.holds
  intro after
  simp only [after, effects_append, effects_singleton]
  refine ⟨call, ⟨evaluates.function_eq, ?_, starts, fun number_lt => ?_⟩,
    (loads.moves.mono fun _ _ => ?_).trans moves, restored, holds⟩
  · rw [memory_eq]
    exact evaluates.passed_eq
  · have inside : number < problem.dims.n := number_lt
    refine (starts.eq_of_length ?_).symm
    simp only [input_eq, Array.length_toList, problem.size_content, room, nodeInput,
      List.length_append, length_slice, if_pos inside]
  · exact fun same => .inr (.inl same)

/-- Statements that evaluate a node and then ask nothing. -/
theorem answers_node (records : scene.host = host.recorded) (function : External)
    {input output : Quantity} {node : AffineIndex} {number : Nat}
    (value : frame.valueOf node = number) {withControl : Bool}
    (control : decide (number < problem.dims.n) = withControl)
    (room : problem.sizeOf input = problem.dims.nx + problem.dims.nu + problem.dims.nod)
    (apart : Quantity.x ≠ input ∧ .u ≠ input ∧ .od ≠ input) (different : input ≠ output)
    {rest : List (Statement α)} (quiet : ∀ call ∈ callsOf rest, scene.IsQuiet call.1) :
    problem.Answers [⟨function, input, output, number⟩] world
      (effects scene frame
        (problem.plan.loadNodeInput problem.dims input node withControl ++
          [problem.plan.evaluate function input output] ++ rest) world) := by
  obtain ⟨call, meets, moves, _⟩ := @meets_node α σ _ problem host frame scene world records
    function input output node number value withControl control room apart different
  rw [effects_append]
  refine ⟨[call], ?_, .cons meets .nil⟩
  rw [state_effects rest quiet]
  exact moves.record

end Nodes

end Problem

end RtiAssembly
