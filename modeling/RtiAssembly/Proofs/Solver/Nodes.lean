import RtiAssembly.Proofs.Program.Steps

/-!
# Evaluations of nodes

The functions of a node are called on its input, packed into a buffer, and leave
their outputs in another one.  A loop over nodes makes its calls in the order of
the nodes, and what a round leaves behind stays if later rounds work elsewhere.
-/

namespace RtiAssembly

/-- What an external function receives as its first array. -/
def HostCall.input {α : Type} {sizes : List Nat} (call : HostCall α sizes) : List α :=
  (((call.passed[0]?).map Passed.elements).getD #[]).toList

namespace Problem

open Statement

variable {α σ : Type} [Scalar α] {problem : Problem α}

/-! ## Hosts -/

/-- A host whose cost and constraint functions write only through their
arguments and whose simulation writes no array but the defects. -/
structure Tame (problem : Problem α) (host : Host α σ problem.program.table.sizes) : Prop where
  stageCost : ∀ passed memory state, (host .stageCost passed memory state).memory = memory
  terminalCost : ∀ passed memory state, (host .terminalCost passed memory state).memory = memory
  constraint : ∀ name passed memory state,
    (host (.constraint name) passed memory state).memory = memory
  simulation : ∀ passed memory state, problem.Changes (fun quantity _ => quantity = .d) memory
    (host .modelSimulation passed memory state).memory

/-- A host whose cost functions write only through their arguments; its other functions
may write everything. -/
structure CostsTame (problem : Problem α) (host : Host α σ problem.program.table.sizes) :
    Prop where
  stageCost : ∀ passed memory state, (host .stageCost passed memory state).memory = memory
  terminalCost : ∀ passed memory state, (host .terminalCost passed memory state).memory = memory

theorem Tame.costs {host : Host α σ problem.program.table.sizes} (tame : problem.Tame host) :
    problem.CostsTame host :=
  ⟨tame.stageCost, tame.terminalCost⟩

/-- A host that does not itself write a quantity; it may write all others. -/
def Spares (problem : Problem α) (host : Host α σ problem.program.table.sizes)
    (quantity : Quantity) : Prop :=
  ∀ function passed memory state,
    (host function passed memory state).memory.content (problem.plan.id quantity) =
      memory.content (problem.plan.id quantity)

/-- What stands in the output buffer once a function has returned: what it left in
its argument, or else in the memory. -/
def returned (problem : Problem α) (call : HostCall α problem.program.table.sizes)
    (output : Quantity) (position : Nat) : α :=
  (((call.left[1]?).map Passed.elements).getD #[]).getD position
    (problem.valueAt call.after output position)

/-- The evaluation of a function that may write everything: quantities that the host
spares are changed through the arguments only. -/
theorem moves_evaluate_of_any {host : Host α σ problem.program.table.sizes}
    {scene : Scene α (σ × List (HostCall α problem.program.table.sizes))
      problem.program.table.sizes} {frame : Frame} {world : problem.Recorded σ}
    (records : scene.host = host.recorded) {function : External} {input output : Quantity}
    (different : input ≠ output) :
    let after := (problem.plan.evaluate function input output).effect scene frame world
    ∃ call, problem.Evaluates function input output world.store.memory call ∧
      problem.Moves (fun quantity _ => ¬problem.Spares host quantity ∨ quantity = input ∨
        quantity = output) [call] world after ∧
      problem.Changes (fun quantity _ => quantity = input ∨ quantity = output) call.after
        after.store.memory ∧
      ∀ position < problem.sizeOf output,
        problem.valueAt after.store.memory output position =
          problem.returned call output position := by
  let memory := world.store.memory
  let passed : List (Passed α) :=
    [.array (memory.content (problem.plan.id input)),
      .array (memory.content (problem.plan.id output))]
  let reply := host function passed memory world.state.1
  let call : HostCall α problem.program.table.sizes :=
    ⟨function, passed, memory, reply.status, reply.arguments, reply.memory⟩
  let replied : Store α problem.program.table.sizes :=
    { world.store with memory := reply.memory }
  let restored := ([problem.plan.passWhole input, problem.plan.passWhole output].zip
    reply.arguments).foldl (fun (store : Store α problem.program.table.sizes) item =>
      store.putBack frame item.1 item.2) replied
  have effect_eq : (problem.plan.evaluate function input output).effect scene frame world =
      ⟨restored, (reply.state, world.state.2 ++ [call])⟩ := by
    rw [Plan.evaluate, Statement.effect_invoke records]
    simp only [List.map_cons, List.map_nil, Frame.passedTo_whole]
    rfl
  obtain ⟨changes, holds⟩ := valueAt_restored replied frame different reply.arguments
  simp only [effect_eq]
  refine ⟨call, ⟨rfl, rfl, rfl⟩, ⟨rfl, fun quantity position outside => ?_⟩, changes, holds⟩
  obtain ⟨spared, elsewhere⟩ := not_or.1 outside
  refine (changes quantity position elsewhere).trans ?_
  exact congrArg (fun content : Array α => content.getD position 0)
    (not_not.1 spared function passed memory world.state.1)

/-! ## Calls for a node -/

/-- A call of a function on the input of a node. -/
structure Asks (problem : Problem α) (function : External) (memory : problem.Contents)
    (node : Nat) (call : HostCall α problem.program.table.sizes) : Prop where
  function_eq : call.function = function
  input_eq : problem.nodeInput memory node <+: call.input

theorem Asks.of_changes {function : External} {before after : problem.Contents} {node : Nat}
    {call : HostCall α problem.program.table.sizes} {region : Quantity → Nat → Prop}
    (asks : problem.Asks function after node call)
    (changes : problem.Changes region before after)
    (outside : ∀ position, ¬region .x position ∧ ¬region .u position ∧ ¬region .od position) :
    problem.Asks function before node call := by
  refine ⟨asks.function_eq, ?_⟩
  rw [← changes.nodeInput_eq outside node]
  exact asks.input_eq

/-- A buffer that starts with given values, as a list. -/
theorem prefix_content {memory : problem.Contents} {buffer : Quantity} {values : List α}
    (room : values.length ≤ problem.sizeOf buffer)
    (holds : ∀ position < values.length,
      problem.valueAt memory buffer position = values.getD position 0) :
    values <+: (memory.content (problem.plan.id buffer)).toList := by
  rw [List.prefix_iff_getElem?]
  intro position position_lt
  have inside : position < (memory.content (problem.plan.id buffer)).size := by
    rw [problem.size_content]
    exact Nat.lt_of_lt_of_le position_lt room
  have value := holds position position_lt
  rw [valueAt, Array.getD_eq_getD_getElem?, Array.getElem?_eq_getElem inside,
    Option.getD_some, List.getD_eq_getElem?_getD, List.getElem?_eq_getElem position_lt,
    Option.getD_some] at value
  rw [Array.getElem?_toList, Array.getElem?_eq_getElem inside, value]

variable {host : Host α σ problem.program.table.sizes}
  {scene : Scene α (σ × List (HostCall α problem.program.table.sizes))
    problem.program.table.sizes} {frame : Frame} {world : problem.Recorded σ}

theorem length_nodeInput_le (memory : problem.Contents) (node : Nat) :
    (problem.nodeInput memory node).length ≤
      problem.dims.nx + problem.dims.nu + problem.dims.nod := by
  simp only [nodeInput, List.length_append, length_slice]
  refine Nat.add_le_add_right (Nat.add_le_add_left ?_ _) _
  split
  · exact Nat.le_of_eq (length_slice _ _ _ _)
  · exact Nat.zero_le _

/-- Packing the input of a node and calling a function on it. -/
theorem asks_node (records : scene.host = host.recorded) {function : External}
    (tame : ∀ passed memory state, (host function passed memory state).memory = memory)
    {input output : Quantity} {node : AffineIndex} {number : Nat}
    (value : frame.valueOf node = number)
    (room : problem.sizeOf input = problem.dims.nx + problem.dims.nu + problem.dims.nod)
    (apart : Quantity.x ≠ input ∧ .u ≠ input ∧ .od ≠ input) (different : input ≠ output) :
    let after := effects scene frame
      (problem.plan.loadNodeInput problem.dims input node (decide (number < problem.dims.n)) ++
        [problem.plan.evaluate function input output]) world
    ∃ call, problem.Asks function world.store.memory number call ∧
      problem.Moves (fun quantity _ => quantity = input ∨ quantity = output) [call] world after ∧
      ∀ position < problem.sizeOf output,
        problem.valueAt after.store.memory output position = call.leaves 1 position := by
  have loads := @loads_loadNodeInput α σ _ problem scene frame world input node number value room
    apart
  obtain ⟨call, evaluates, moves, holds⟩ := moves_evaluate frame
    (effects scene frame
      (problem.plan.loadNodeInput problem.dims input node (decide (number < problem.dims.n))) world)
    records tame different
  intro after
  simp only [after, effects_append, effects_singleton]
  refine ⟨call, ⟨evaluates.function_eq, ?_⟩, ?_, holds⟩
  · have starts := prefix_content
      (room ▸ length_nodeInput_le world.store.memory number) loads.holds
    have input_eq : call.input = _ :=
      congrArg (fun passed => (((passed[0]?).map Passed.elements).getD #[]).toList)
        evaluates.passed_eq
    rw [input_eq]
    exact starts
  · exact (loads.moves.mono fun _ _ => .inl).trans moves

/-- Calling a function on the input of a node and keeping its first outputs. -/
theorem asks_values (records : scene.host = host.recorded) {function : External}
    (tame : ∀ passed memory state, (host function passed memory state).memory = memory)
    {input output target : Quantity} {node offset : AffineIndex} {number start count : Nat}
    (value : frame.valueOf node = number)
    (room : problem.sizeOf input = problem.dims.nx + problem.dims.nu + problem.dims.nod)
    (apart : Quantity.x ≠ input ∧ .u ≠ input ∧ .od ≠ input) (different : input ≠ output)
    (starts : frame.valueOf offset = start) (kept : start + count ≤ problem.sizeOf target)
    (outputs : count ≤ problem.sizeOf output) (other : output ≠ target) :
    let after := effects scene frame
      (problem.plan.loadNodeInput problem.dims input node (decide (number < problem.dims.n)) ++
        [problem.plan.evaluate function input output,
          problem.plan.copy target offset output (.const 0) count]) world
    ∃ call, problem.Asks function world.store.memory number call ∧
      problem.Moves (fun quantity position => quantity = input ∨ quantity = output ∨
        quantity = target ∧ start ≤ position ∧ position < start + count) [call] world after ∧
      (∀ position < problem.sizeOf output,
        problem.valueAt after.store.memory output position = call.leaves 1 position) ∧
      ∀ row < count, problem.valueAt after.store.memory target (start + row) =
        call.leaves 1 row := by
  obtain ⟨call, asks, moves, holds⟩ := @asks_node α σ _ problem host scene frame world records
    function tame input output node number value room apart different
  let asked := effects scene frame
    (problem.plan.loadNodeInput problem.dims input node (decide (number < problem.dims.n)) ++
      [problem.plan.evaluate function input output]) world
  subst starts
  obtain ⟨state, writes⟩ := @puts_copy α σ _ problem scene frame asked target output offset
    (.const 0) count kept
  have copied : problem.Moves (fun quantity position => quantity = target ∧
      frame.valueOf offset ≤ position ∧ position < frame.valueOf offset + count) [] asked
      ((problem.plan.copy target offset output (.const 0) count).effect scene frame asked) :=
    Puts.moves ⟨state, writes⟩ fun _ start_le position_lt => ⟨rfl, start_le, position_lt⟩
  intro after
  have after_eq : after = (problem.plan.copy target offset output (.const 0) count).effect scene
      frame asked := by
    simp only [after, asked, effects_append, effects]
  rw [after_eq]
  refine ⟨call, asks, ?_, fun position position_lt => ?_, fun row row_lt => ?_⟩
  · refine (moves.mono ?_).trans (copied.mono fun _ _ here => .inr (.inr here))
    rintro _ _ (rfl | rfl)
    · exact .inl rfl
    · exact .inr (.inl rfl)
  · rw [writes.other other]
    exact holds position position_lt
  · have inside := writes.inside row_lt
    rw [Frame.valueOf_const, Nat.zero_add] at inside
    rw [inside]
    exact holds row (Nat.lt_of_lt_of_le row_lt outputs)

/-- A part of the output buffer holds what the function left there. -/
theorem part_eq_callPart {memory : problem.Contents} {output : Quantity}
    {call : HostCall α problem.program.table.sizes}
    (holds : ∀ position < problem.sizeOf output,
      problem.valueAt memory output position = call.leaves 1 position)
    {start rows cols : Nat} (inside : start + rows * cols ≤ problem.sizeOf output) :
    problem.part memory output start rows cols = call.part 1 start rows cols := by
  refine Matrix.ofFn_congr fun row row_lt col col_lt => holds _ ?_
  have row_le := block_le cols row_lt
  omega

/-! ## Rounds over nodes -/

section Rounds

variable {run : Nat → problem.Recorded σ → problem.Recorded σ} {count : Nat}
  {region : Quantity → Nat → Prop} {share : Nat → Quantity → Nat → Prop}

/-- Rounds make their calls one after the other.  What holds behind a round holds
behind all of them if no later round touches it. -/
theorem moves_rounds
    {holds : Nat → List (HostCall α problem.program.table.sizes) → problem.Contents → Prop}
    (shares : ∀ round < count, ∀ quantity position, share round quantity position →
      region quantity position)
    (stays : ∀ round later, round < later → later < count → ∀ made before after,
      problem.Changes (share later) before after → holds round made before →
        holds round made after)
    (step : ∀ round < count, ∀ before : problem.Recorded σ,
      problem.Changes region world.store.memory before.store.memory →
        ∃ made, problem.Moves (share round) made before (run round before) ∧
          holds round made (run round before).store.memory) :
    let after := (List.range count).foldl (fun world round => run round world) world
    ∃ made : Nat → List (HostCall α problem.program.table.sizes),
      problem.Moves region ((List.range count).flatMap made) world after ∧
        ∀ round < count, holds round (made round) after.store.memory := by
  induction count with
  | zero => exact ⟨fun _ => [], .refl world, nofun⟩
  | succ count ih =>
      obtain ⟨made, moves, held⟩ := ih
        (fun round round_lt => shares round (Nat.lt_succ_of_lt round_lt))
        (fun round later earlier inside => stays round later earlier (Nat.lt_succ_of_lt inside))
        (fun round round_lt => step round (Nat.lt_succ_of_lt round_lt))
      have last_lt : count < count + 1 := Nat.lt_succ_self count
      obtain ⟨next, nextMoves, nextHolds⟩ := step count last_lt _ moves.memory
      let extended (other : Nat) : List (HostCall α problem.program.table.sizes) :=
        if other = count then next else made other
      have earlier_eq {earlier : Nat} (earlier_lt : earlier < count) :
          extended earlier = made earlier := if_neg (Nat.ne_of_lt earlier_lt)
      have last_eq : extended count = next := if_pos rfl
      have calls_eq : (List.range (count + 1)).flatMap extended =
          (List.range count).flatMap made ++ next := by
        rw [List.range_succ, List.flatMap_append, List.flatMap_singleton, last_eq]
        congr 1
        exact List.flatMap_congr fun earlier mem => earlier_eq (List.mem_range.1 mem)
      simp only [List.range_succ, List.foldl_append, List.foldl_cons, List.foldl_nil] at calls_eq ⊢
      refine ⟨extended, ?_, fun round round_lt => ?_⟩
      · rw [calls_eq]
        exact moves.trans (nextMoves.mono (shares count last_lt))
      · rcases Nat.lt_succ_iff_lt_or_eq.1 round_lt with earlier | rfl
        · rw [earlier_eq earlier]
          exact stays round count earlier last_lt _ _ _ nextMoves.memory (held round earlier)
        · rw [last_eq]
          exact nextHolds

omit [Scalar α] in
/-- If every round has one element, each stands at the place of its round. -/
theorem getElem?_flatMap_range {made : Nat → List α} {count : Nat}
    (single : ∀ round < count, (made round).length = 1) :
    ((List.range count).flatMap made).length = count ∧
      ∀ round < count, ((List.range count).flatMap made)[round]? = (made round)[0]? := by
  induction count with
  | zero => exact ⟨rfl, nofun⟩
  | succ count ih =>
      obtain ⟨length_eq, places⟩ := ih fun round round_lt =>
        single round (Nat.lt_succ_of_lt round_lt)
      rw [List.range_succ, List.flatMap_append, List.flatMap_singleton]
      refine ⟨?_, fun round round_lt => ?_⟩
      · rw [List.length_append, length_eq, single count (Nat.lt_succ_self count)]
      · rcases Nat.lt_succ_iff_lt_or_eq.1 round_lt with earlier | rfl
        · rw [List.getElem?_append_left (length_eq.symm ▸ earlier), places round earlier]
        · rw [List.getElem?_append_right (Nat.le_of_eq length_eq), length_eq, Nat.sub_self]

/-- Rounds that make one call each. -/
theorem moves_rounds_calls
    {holds : Nat → HostCall α problem.program.table.sizes → problem.Contents → Prop}
    (shares : ∀ round < count, ∀ quantity position, share round quantity position →
      region quantity position)
    (stays : ∀ round later, round < later → later < count → ∀ call before after,
      problem.Changes (share later) before after → holds round call before →
        holds round call after)
    (step : ∀ round < count, ∀ before : problem.Recorded σ,
      problem.Changes region world.store.memory before.store.memory →
        ∃ call, problem.Moves (share round) [call] before (run round before) ∧
          holds round call (run round before).store.memory) :
    let after := (List.range count).foldl (fun world round => run round world) world
    ∃ calls : List (HostCall α problem.program.table.sizes),
      problem.Moves region calls world after ∧ calls.length = count ∧
        ∀ round < count, ∃ call, calls[round]? = some call ∧
          holds round call after.store.memory := by
  obtain ⟨made, moves, held⟩ := @moves_rounds α σ _ problem world run count region share
    (fun round made memory => ∃ call, made = [call] ∧ holds round call memory) shares
    (fun round later earlier inside made before after changes ⟨asked, made_eq, held⟩ =>
      ⟨asked, made_eq, stays round later earlier inside asked before after changes held⟩)
    (fun round inside before changes =>
      let ⟨asked, moves, held⟩ := step round inside before changes
      ⟨[asked], moves, asked, rfl, held⟩)
  have single (round : Nat) (inside : round < count) : (made round).length = 1 := by
    obtain ⟨call, made_eq, _⟩ := held round inside
    rw [made_eq]
    rfl
  obtain ⟨length_eq, places⟩ := getElem?_flatMap_range single
  refine ⟨_, moves, length_eq, fun round inside => ?_⟩
  obtain ⟨call, made_eq, holdsCall⟩ := held round inside
  exact ⟨call, by rw [places round inside, made_eq]; rfl, holdsCall⟩

/-- Rounds that make no calls. -/
theorem moves_rounds_quiet {holds : Nat → problem.Contents → Prop}
    (shares : ∀ round < count, ∀ quantity position, share round quantity position →
      region quantity position)
    (stays : ∀ round later, round < later → later < count → ∀ before after,
      problem.Changes (share later) before after → holds round before → holds round after)
    (step : ∀ round < count, ∀ before : problem.Recorded σ,
      problem.Changes region world.store.memory before.store.memory →
        problem.Moves (share round) [] before (run round before) ∧
          holds round (run round before).store.memory) :
    let after := (List.range count).foldl (fun world round => run round world) world
    problem.Moves region [] world after ∧ ∀ round < count, holds round after.store.memory := by
  obtain ⟨made, moves, held⟩ := @moves_rounds α σ _ problem world run count region share
    (fun round made memory => made = [] ∧ holds round memory) shares
    (fun round later earlier inside made before after changes ⟨made_eq, held⟩ =>
      ⟨made_eq, stays round later earlier inside before after changes held⟩)
    (fun round inside before changes =>
      let ⟨moves, held⟩ := step round inside before changes
      ⟨[], moves, rfl, held⟩)
  have none : (List.range count).flatMap made = [] :=
    List.flatMap_eq_nil_iff.2 fun round mem => (held round (List.mem_range.1 mem)).1
  rw [none] at moves
  exact ⟨moves, fun round inside => (held round inside).2⟩

end Rounds

end Problem

end RtiAssembly
