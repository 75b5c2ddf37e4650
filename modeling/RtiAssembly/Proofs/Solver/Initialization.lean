import RtiAssembly.Proofs.Solver.Blocks
import RtiAssembly.Proofs.Solver.Nodes

/-!
# What the initialization leaves behind

The initialization clears the workspace and then fills in what is known when the
program is generated: the Hessian blocks of every node, and the bounds that are
not hardcoded.  A zero cross block is left to the clearing.
-/

namespace RtiAssembly

open Statement

namespace Problem

variable {α σ : Type} [Scalar α] {problem : Problem α}

/-- Whether a quantity is kept in an array of a storage class, if it is kept at
all. -/
def IsKeptIn (problem : Problem α) (quantity : Quantity) (storage : StorageClass) : Prop :=
  ∀ decl ∈ quantity.describe problem, decl.storage = storage

/-- The quantities that are kept in the workspace. -/
theorem isKeptIn_workspace {quantity : Quantity}
    (hessian : quantity = .hessianQ ∨ quantity = .hessianR ∨ quantity = .hessianS ∨
      quantity = .hessianQf) : problem.IsKeptIn quantity .workspace := by
  intro decl described
  rcases hessian with rfl | rfl | rfl | rfl <;> cases described <;> rfl

/-- A quantity that the problem does not have shows zeros. -/
theorem valueAt_of_absent {quantity : Quantity} (absent : quantity.describe problem = none)
    (memory : problem.Contents) (position : Nat) :
    problem.valueAt memory quantity position = 0 := by
  have size_eq := problem.size_content memory quantity
  rw [sizeOf, shapeOf?, absent] at size_eq
  rw [valueAt, Array.getD_eq_getD_getElem?, Array.getElem?_eq_none (size_eq ▸ Nat.zero_le _)]
  rfl

/-- A part in which every element is zero. -/
theorem part_eq_zeros {memory : problem.Contents} {quantity : Quantity}
    (zero : ∀ position, problem.valueAt memory quantity position = 0) (start rows cols : Nat) :
    problem.part memory quantity start rows cols = .zeros rows cols :=
  Matrix.ofFn_congr fun _ _ _ _ => zero _

/-! ## Clearing -/

section Clearing

variable {scene : Scene α (σ × List (HostCall α problem.program.table.sizes))
    problem.program.table.sizes} {frame : Frame}

/-- A cleared array holds zeros, and the others are as before. -/
theorem valueAt_clear (store : Store α problem.program.table.sizes) (id : Nat)
    (quantity : Quantity) (position : Nat) :
    problem.valueAt (store.clear id).memory quantity position =
      if problem.plan.id quantity = id then 0
      else problem.valueAt store.memory quantity position := by
  simp only [valueAt, Store.clear, Memory.clear, Memory.modify, Memory.content,
    Array.getD_eq_getD_getElem?, Array.getElem?_modify, eq_comm]
  split
  · cases store.memory.arrays[problem.plan.id quantity]? with
    | none => simp
    | some content => cases found : content[position]? <;> simp [found]
  · rfl

/-- Clearing arrays one after the other. -/
theorem effects_clears (ids : List (Nat × ArrayDecl α)) (world : problem.Recorded σ) :
    let after := effects scene frame (ids.map fun entry => .clear entry.1) world
    after.state = world.state ∧ ∀ quantity position,
      problem.valueAt after.store.memory quantity position =
        if problem.plan.id quantity ∈ ids.map Prod.fst then 0
        else problem.valueAt world.store.memory quantity position := by
  induction ids generalizing world with
  | nil => exact ⟨by rw [List.map_nil, effects], fun _ _ => by rw [List.map_nil, effects]; rfl⟩
  | cons entry rest ih =>
      obtain ⟨id, decl⟩ := entry
      simp only [List.map_cons, effects, effect]
      obtain ⟨state, values⟩ := ih (world.update fun store => store.clear id)
      refine ⟨state, fun quantity position => ?_⟩
      rw [values, World.update, valueAt_clear]
      by_cases later : problem.plan.id quantity ∈ rest.map Prod.fst
      · rw [if_pos later, if_pos (List.mem_cons_of_mem id later)]
      · by_cases here : problem.plan.id quantity = id
        · rw [if_neg later, if_pos here, if_pos (here ▸ List.mem_cons_self)]
        · rw [if_neg later, if_neg here, if_neg fun mem => (List.mem_cons.1 mem).elim here later]

/-- Clearing the workspace. -/
theorem effects_clearWorkspace (world : problem.Recorded σ) :
    let after := effects scene frame
      ((problem.plan.table.ofClass .workspace).map fun (id, _) => .clear id) world
    after.state = world.state ∧
      (∀ quantity, problem.IsKeptIn quantity .workspace → ∀ position,
        problem.valueAt after.store.memory quantity position = 0) ∧
      ∀ quantity storage, problem.IsKeptIn quantity storage → storage ≠ .workspace →
        ∀ position, problem.valueAt after.store.memory quantity position =
          problem.valueAt world.store.memory quantity position := by
  obtain ⟨state, values⟩ := @effects_clears α σ _ problem scene frame
    (problem.plan.table.ofClass .workspace) world
  have listed (quantity : Quantity) : problem.plan.id quantity ∈
      (problem.plan.table.ofClass .workspace).map Prod.fst ↔
        ∃ decl, quantity.describe problem = some decl ∧ decl.storage = .workspace := by
    simp only [List.mem_map, Prod.exists, ArrayTable.mem_ofClass, exists_and_right,
      exists_eq_right, Problem.get?_id_plan]
  refine ⟨state, fun quantity kept position => ?_, fun quantity storage kept other position => ?_⟩
  · rw [values]
    split
    · rfl
    · rename_i outside
      cases described : quantity.describe problem with
      | some decl =>
          exact absurd ((listed quantity).2 ⟨decl, described, kept decl described⟩) outside
      | none => exact valueAt_of_absent described _ position
  · rw [values, if_neg]
    rintro inside
    obtain ⟨decl, described, storage_eq⟩ := (listed quantity).1 inside
    exact other (kept decl described ▸ storage_eq)

end Clearing

/-! ## Known blocks -/

section Blocks

variable {scene : Scene α (σ × List (HostCall α problem.program.table.sizes))
    problem.program.table.sizes} {frame : Frame} {world : problem.Recorded σ}

/-- The Hessian blocks of a node that are known when the program is generated. -/
structure KnownHold (problem : Problem α) (node : Nat) (memory : problem.Contents) : Prop where
  states : ∀ blocks ∈ (KnownBlocks.ofProblem problem).states,
    let dims := problem.dims
    problem.part memory .hessianQ (node * (dims.nx * dims.nx)) dims.nx dims.nx = blocks.1
  controls : ∀ blocks ∈ (KnownBlocks.ofProblem problem).controls,
    let dims := problem.dims
    problem.part memory .hessianR (node * (dims.nu * dims.nu)) dims.nu dims.nu = blocks.1
  cross : ∀ block ∈ (KnownBlocks.ofProblem problem).cross, block.isZero = false →
    let dims := problem.dims
    problem.part memory .hessianS (node * (dims.nx * dims.nu)) dims.nx dims.nu = block

/-- The number of elements for each node in a quantity that is filled with known
blocks. -/
def blockSize? (problem : Problem α) (quantity : Quantity) : Option Nat :=
  let dims := problem.dims
  let known := KnownBlocks.ofProblem problem
  match quantity with
  | .hessianQ => known.states.map fun _ => dims.nx * dims.nx
  | .hessianR => known.controls.map fun _ => dims.nu * dims.nu
  | .hessianS => (known.cross.filter fun block => !block.isZero).map fun _ => dims.nx * dims.nu
  | _ => none

/-- The elements of a node in these quantities. -/
def InBlock (problem : Problem α) (node : Nat) (quantity : Quantity) (position : Nat) : Prop :=
  ∃ size ∈ blockSize? problem quantity, node * size ≤ position ∧ position < node * size + size

theorem KnownHold.of_changes {node : Nat} {region : Quantity → Nat → Prop}
    {before after : problem.Contents} (held : KnownHold problem node before)
    (changes : problem.Changes region before after)
    (outside : ∀ quantity position, InBlock problem node quantity position →
      ¬region quantity position) :
    KnownHold problem node after := by
  have kept {quantity : Quantity} {rows cols : Nat}
      (size : blockSize? problem quantity = some (rows * cols)) :
      problem.part after quantity (node * (rows * cols)) rows cols =
        problem.part before quantity (node * (rows * cols)) rows cols :=
    changes.part_eq fun position start_le position_lt =>
      outside quantity position ⟨_, size, start_le, position_lt⟩
  refine ⟨fun blocks known => ?_, fun blocks known => ?_, fun block known nonzero => ?_⟩
  · rw [Option.mem_def] at known
    exact (kept (by simp [blockSize?, known])).trans (held.states blocks known)
  · rw [Option.mem_def] at known
    exact (kept (by simp [blockSize?, known])).trans (held.controls blocks known)
  · rw [Option.mem_def] at known
    exact (kept (by simp [blockSize?, known, Option.filter, nonzero])).trans
      (held.cross block known nonzero)

/-- Filling the block of a node, if it is known. -/
theorem moves_fill {quantity : Quantity} {rows cols : Nat} {value : Option (Matrix α)}
    {node : AffineIndex} {number : Nat}
    (shape : problem.shapeOf? quantity = some (problem.dims.n * rows, cols))
    (fits : ∀ block ∈ value, block.shape = (rows, cols)) (starts : frame.valueOf node = number)
    (number_lt : number < problem.dims.n) :
    let after := effects scene frame
      (value.elim [] fun block =>
        [.set (problem.plan.rows quantity (node.scaled rows) rows) (.known block)]) world
    problem.Moves (fun other position => value.isSome ∧ other = quantity ∧
        number * (rows * cols) ≤ position ∧
          position < number * (rows * cols) + rows * cols) [] world after ∧
      ∀ block ∈ value,
        problem.part after.store.memory quantity (number * (rows * cols)) rows cols = block := by
  cases value with
  | none =>
      simp only [Option.elim_none, effects]
      exact ⟨.refl world, fun _ mem => absurd mem (Option.not_mem_none _)⟩
  | some block =>
      have shape_eq : block.shape = (rows, cols) := fits block rfl
      have puts := @puts_rows α σ _ problem scene frame world quantity _ cols rows (number * rows)
        (node.scaled rows) shape (by rw [Frame.valueOf_scaled, starts])
        (block_le rows number_lt) .set (.known block) shape_eq
      rw [Nat.mul_assoc] at puts
      simp only [Option.elim_some, effects_singleton]
      refine ⟨puts.moves fun _ start_le position_lt => ⟨rfl, rfl, start_le, position_lt⟩, ?_⟩
      rintro _ ⟨⟩
      exact puts.memory.part_self shape_eq

/-- The statements that fill the blocks of a node. -/
def fillStage (problem : Problem α) (node : AffineIndex) : List (Statement α) :=
  let dims := problem.dims
  let known := KnownBlocks.ofProblem problem
  let fill (quantity : Quantity) (rows : Nat) (value : Option (Matrix α)) : List (Statement α) :=
    value.elim [] fun block =>
      [.set (problem.plan.rows quantity (node.scaled rows) rows) (.known block)]
  fill .hessianQ dims.nx (known.states.map Prod.fst) ++
    fill .hessianR dims.nu (known.controls.map Prod.fst) ++
    fill .hessianS dims.nx (known.cross.filter fun block => !block.isZero)

/-- Filling the blocks of a node. -/
theorem fill_step (wellFormed : problem.WellFormed) {node : AffineIndex} {number : Nat}
    (starts : frame.valueOf node = number) (number_lt : number < problem.dims.n) :
    let after := effects scene frame (fillStage problem node) world
    problem.Moves (InBlock problem number) [] world after ∧
      KnownHold problem number after.store.memory := by
  intro after
  let dims := problem.dims
  let known := KnownBlocks.ofProblem problem
  obtain ⟨shapeStates, shapeControls, shapeCross, _⟩ := KnownBlocks.shapes_ofProblem wellFormed
  let fill (quantity : Quantity) (rows : Nat) (value : Option (Matrix α)) : List (Statement α) :=
    value.elim [] fun block =>
      [.set (problem.plan.rows quantity (node.scaled rows) rows) (.known block)]
  let first := effects scene frame (fill .hessianQ dims.nx (known.states.map Prod.fst)) world
  let second := effects scene frame (fill .hessianR dims.nu (known.controls.map Prod.fst)) first
  let third := effects scene frame
    (fill .hessianS dims.nx (known.cross.filter fun block => !block.isZero)) second
  obtain ⟨firstMoves, states⟩ := @moves_fill α σ _ problem scene frame world .hessianQ dims.nx
    dims.nx (known.states.map Prod.fst) node number shapeOf?_blocks.1
    (fun block mem => by
      obtain ⟨blocks, listed, rfl⟩ := Option.map_eq_some_iff.1 mem
      exact (shapeStates blocks listed).1) starts number_lt
  obtain ⟨secondMoves, controls⟩ := @moves_fill α σ _ problem scene frame first .hessianR dims.nu
    dims.nu (known.controls.map Prod.fst) node number shapeOf?_blocks.2.1
    (fun block mem => by
      obtain ⟨blocks, listed, rfl⟩ := Option.map_eq_some_iff.1 mem
      exact (shapeControls blocks listed).1) starts number_lt
  obtain ⟨thirdMoves, cross⟩ := @moves_fill α σ _ problem scene frame second .hessianS dims.nx
    dims.nu (known.cross.filter fun block => !block.isZero) node number shapeOf?_blocks.2.2.1
    (fun block mem => shapeCross block (Option.filter_eq_some_iff.1 mem).1) starts number_lt
  have after_eq : after = third := by
    simp only [after, fillStage, effects_append]
    rfl
  rw [after_eq]
  refine ⟨(firstMoves.mono ?_).trans ((secondMoves.mono ?_).trans (thirdMoves.mono ?_)),
    fun blocks listed => ?_, fun blocks listed => ?_, fun block listed nonzero => ?_⟩
  · rintro _ _ ⟨present, rfl, inside⟩
    obtain ⟨block, listed⟩ := Option.isSome_iff_exists.1 present
    obtain ⟨blocks, found, _⟩ := Option.map_eq_some_iff.1 listed
    exact ⟨_, Option.map_eq_some_iff.2 ⟨blocks, found, rfl⟩, inside⟩
  · rintro _ _ ⟨present, rfl, inside⟩
    obtain ⟨block, listed⟩ := Option.isSome_iff_exists.1 present
    obtain ⟨blocks, found, _⟩ := Option.map_eq_some_iff.1 listed
    exact ⟨_, Option.map_eq_some_iff.2 ⟨blocks, found, rfl⟩, inside⟩
  · rintro _ _ ⟨present, rfl, inside⟩
    obtain ⟨block, listed⟩ := Option.isSome_iff_exists.1 present
    exact ⟨_, Option.map_eq_some_iff.2 ⟨block, listed, rfl⟩, inside⟩
  · intro dims
    rw [thirdMoves.memory.part_eq (by simp), secondMoves.memory.part_eq (by simp)]
    exact states blocks.1 (Option.map_eq_some_iff.2 ⟨blocks, listed, rfl⟩)
  · intro dims
    rw [thirdMoves.memory.part_eq (by simp)]
    exact controls blocks.1 (Option.map_eq_some_iff.2 ⟨blocks, listed, rfl⟩)
  · exact cross block (Option.filter_eq_some_iff.2 ⟨listed, by rw [nonzero]; rfl⟩)

/-- What the initialization of the objective does: it fills the blocks node by
node, then the terminal one. -/
theorem effects_objective (world : problem.Recorded σ) :
    let filled := (Statement.loop Objective.nodeName 0 problem.dims.n
      (fillStage problem (.var Objective.nodeName))).effect scene frame world
    effects scene frame (Objective.initialization problem problem.plan) world =
      effects scene frame
        (((KnownBlocks.ofProblem problem).terminal.map Prod.fst).elim [] fun block =>
          [.set (problem.plan.whole .hessianQf) (.known block)]) filled := by
  intro filled
  let known := KnownBlocks.ofProblem problem
  let stage := fillStage problem (.var Objective.nodeName)
  have initialization_eq : Objective.initialization problem problem.plan =
      (if stage.isEmpty then [] else [.loop Objective.nodeName 0 problem.dims.n stage]) ++
        (known.terminal.map Prod.fst).elim [] fun block =>
          [.set (problem.plan.whole .hessianQf) (.known block)] := by
    simp only [Objective.initialization, problem.blocks_plan, Block.given?_ofOption, stage,
      fillStage, known]
    cases (KnownBlocks.ofProblem problem).states <;>
      cases (KnownBlocks.ofProblem problem).controls <;>
      cases (KnownBlocks.ofProblem problem).cross.filter fun block => !block.isZero <;>
      cases (KnownBlocks.ofProblem problem).terminal <;> rfl
  have filled_eq : effects scene frame
      (if stage.isEmpty then [] else [.loop Objective.nodeName 0 problem.dims.n stage]) world =
        filled := by
    by_cases none : stage = []
    · have quiet : ∀ rounds : List Nat, rounds.foldl (fun world round =>
          effects scene (frame.bind Objective.nodeName round) stage world) world = world := by
        intro rounds
        induction rounds with
        | nil => rfl
        | cons _ _ ih => rw [List.foldl_cons, none, effects, ← none, ih]
      simp only [filled, effect_loop]
      rw [if_pos (List.isEmpty_iff.2 none), effects]
      exact (quiet _).symm
    · rw [if_neg (mt List.isEmpty_iff.1 none), effects_singleton]
  rw [initialization_eq, effects_append, filled_eq]

/-- The Hessian blocks that the initialization fills. -/
structure BlocksHold (problem : Problem α) (memory : problem.Contents) : Prop where
  stage : ∀ node < problem.dims.n, KnownHold problem node memory
  terminal : ∀ blocks ∈ (KnownBlocks.ofProblem problem).terminal,
    let dims := problem.dims
    problem.part memory .hessianQf 0 dims.nx dims.nx = blocks.1

/-- The quantities that are filled with known blocks. -/
def IsFilled (problem : Problem α) (quantity : Quantity) : Prop :=
  (blockSize? problem quantity).isSome ∨
    quantity = .hessianQf ∧ (KnownBlocks.ofProblem problem).terminal.isSome

/-- Filled quantities belong to the Hessian. -/
theorem isHessian_of_isFilled {quantity : Quantity} (filled : IsFilled problem quantity) :
    quantity = .hessianQ ∨ quantity = .hessianR ∨ quantity = .hessianS ∨
      quantity = .hessianQf := by
  rcases filled with sized | ⟨rfl, _⟩
  · unfold blockSize? at sized
    cases quantity <;> simp at sized ⊢
  · simp

theorem BlocksHold.of_changes {region : Quantity → Nat → Prop} {before after : problem.Contents}
    (held : BlocksHold problem before) (changes : problem.Changes region before after)
    (outside : ∀ quantity position, IsFilled problem quantity → ¬region quantity position) :
    BlocksHold problem after := by
  refine ⟨fun node node_lt => (held.stage node node_lt).of_changes changes ?_,
    fun blocks known => ?_⟩
  · rintro quantity position ⟨size, sized, _⟩
    exact outside quantity position (.inl (Option.isSome_iff_exists.2 ⟨size, sized⟩))
  · exact (changes.part_eq fun position _ _ => outside .hessianQf position
      (.inr ⟨rfl, Option.isSome_iff_exists.2 ⟨blocks, known⟩⟩)).trans (held.terminal blocks known)

/-- The elements of a node in the Hessian belong to no later node. -/
theorem not_inBlock {node later : Nat} (earlier : node < later) {quantity : Quantity}
    {position : Nat} (inside : InBlock problem node quantity position) :
    ¬InBlock problem later quantity position := by
  obtain ⟨size, known, _, position_lt⟩ := inside
  rintro ⟨other, same, start_le, _⟩
  rw [Option.mem_def] at known same
  obtain rfl : size = other := Option.some.inj (known.symm.trans same)
  have before := block_le size earlier
  omega

/-- The initialization of the objective. -/
theorem holds_initialization (wellFormed : problem.WellFormed) (world : problem.Recorded σ) :
    let after := effects scene frame (Objective.initialization problem problem.plan) world
    problem.Moves (fun quantity _ => IsFilled problem quantity) [] world after ∧
      BlocksHold problem after.store.memory := by
  let filled := (Statement.loop Objective.nodeName 0 problem.dims.n
    (fillStage problem (.var Objective.nodeName))).effect scene frame world
  obtain ⟨filledMoves, filledHolds⟩ :
      problem.Moves (fun quantity _ => IsFilled problem quantity) [] world filled ∧
        ∀ node < problem.dims.n, KnownHold problem node filled.store.memory := by
    simp only [filled, effect_loop]
    refine @moves_rounds_quiet α σ _ problem world _ problem.dims.n _ (InBlock problem)
      (KnownHold problem) ?_ ?_ ?_
    · rintro _ _ _ _ ⟨size, sized, _⟩
      exact .inl (Option.isSome_iff_exists.2 ⟨size, sized⟩)
    · intro node later earlier _ _ _ changes held
      exact held.of_changes changes fun _ _ => not_inBlock earlier
    · intro node node_lt before _
      exact fill_step wellFormed (Frame.valueOf_bind _ _) node_lt
  simp only [effects_objective]
  cases known : (KnownBlocks.ofProblem problem).terminal with
  | none =>
      simp only [Option.map_none, Option.elim_none, effects]
      refine ⟨filledMoves, filledHolds, fun blocks listed => ?_⟩
      rw [known] at listed
      exact absurd listed (Option.not_mem_none _)
  | some blocks =>
      have shape_eq : blocks.1.shape = (problem.dims.nx, problem.dims.nx) :=
        ((KnownBlocks.shapes_ofProblem wellFormed).2.2.2 blocks known).1
      have puts := @puts_whole α σ _ problem scene frame filled .hessianQf problem.dims.nx
        problem.dims.nx shapeOf?_blocks.2.2.2.1 .set (.known blocks.1) shape_eq
      have moves : problem.Moves (fun quantity _ => quantity = .hessianQf) [] filled _ :=
        puts.moves fun _ _ _ => rfl
      simp only [Option.map_some, Option.elim_some, effects_singleton]
      refine ⟨filledMoves.trans (moves.mono ?_), fun node node_lt => ?_, fun other listed => ?_⟩
      · rintro _ _ rfl
        exact .inr ⟨rfl, by rw [known]; rfl⟩
      · refine (filledHolds node node_lt).of_changes moves.memory ?_
        rintro _ _ ⟨_, sized, _⟩ rfl
        exact Option.some_ne_none _ (Option.mem_def.1 sized).symm
      · rw [known, Option.mem_def, Option.some.injEq] at listed
        subst listed
        exact puts.memory.part_self shape_eq

end Blocks

/-! ## Configured bounds -/

section Bounds

variable {scene : Scene α (σ × List (HostCall α problem.program.table.sizes))
    problem.program.table.sizes} {frame : Frame}

/-- The stacked bounds with the quantities that keep them. -/
def configured (problem : Problem α) : List (Quantity × List α) :=
  [(.lbValues, problem.boxBounds.lower), (.ubValues, problem.boxBounds.upper),
    (.lbAValues, problem.affineBounds.lower), (.ubAValues, problem.affineBounds.upper)]

/-- Stacked bounds are kept like each other. -/
theorem describe_configured {entry : Quantity × List α} (listed : entry ∈ configured problem)
    (present : problem.plan.has entry.1 = true) :
    ∃ doc, entry.1.describe problem = entry.1.boundValues? problem true entry.2 doc := by
  rw [has_plan] at present
  simp only [configured, List.mem_cons, List.not_mem_nil, or_false] at listed
  rcases listed with rfl | rfl | rfl | rfl
  · exact ⟨_, rfl⟩
  · exact ⟨_, rfl⟩
  · by_cases rows : 0 < problem.affineDim
    · exact ⟨"affine lower bounds", by simp only [Quantity.describe, rows, decide_true]⟩
    · simp [Quantity.describe, Quantity.boundValues?, Quantity.variablePart, rows] at present
  · by_cases rows : 0 < problem.affineDim
    · exact ⟨"affine upper bounds", by simp only [Quantity.describe, rows, decide_true]⟩
    · simp [Quantity.describe, Quantity.boundValues?, Quantity.variablePart, rows] at present

/-- The stacked bounds are where they are looked for. -/
def BoundsHold (problem : Problem α) (memory : problem.Contents) : Prop :=
  ∀ entry ∈ configured problem, problem.plan.has entry.1 = true →
    ∀ position < entry.2.length, problem.valueAt memory entry.1 position =
      entry.2.getD position 0

/-- An element of a column. -/
theorem element_column (values : List α) {position : Nat} (inside : position < values.length) :
    (Matrix.column values).element position = values.getD position 0 := by
  simp [Matrix.element, Matrix.entry, Matrix.column, inside, Nat.mod_one]

/-- Assigning known columns to whole quantities, one after the other. -/
theorem effects_columns (entries : List (Quantity × List α))
    (shapes : ∀ entry ∈ entries, problem.shapeOf? entry.1 = some (entry.2.length, 1))
    (distinct : (entries.map Prod.fst).Nodup) (world : problem.Recorded σ) :
    let after := effects scene frame (entries.map fun entry =>
      .set (problem.plan.whole entry.1) (.known (.column entry.2))) world
    problem.Moves (fun quantity _ => quantity ∈ entries.map Prod.fst) [] world after ∧
      ∀ entry ∈ entries, ∀ position < entry.2.length,
        problem.valueAt after.store.memory entry.1 position = entry.2.getD position 0 := by
  induction entries generalizing world with
  | nil =>
      simp only [List.map_nil, effects]
      exact ⟨.refl world, List.forall_mem_nil _⟩
  | cons entry rest ih =>
      rw [List.map_cons, List.nodup_cons] at distinct
      have puts := @puts_whole α σ _ problem scene frame world entry.1 entry.2.length 1
        (shapes entry List.mem_cons_self) .set (.known (.column entry.2)) rfl
      obtain ⟨moves, holds⟩ := ih (fun other mem => shapes other (List.mem_cons_of_mem _ mem))
        distinct.2 ((Statement.set (problem.plan.whole entry.1)
          (.known (.column entry.2))).effect scene frame world)
      simp only [List.map_cons, effects]
      refine ⟨(puts.moves fun _ _ _ => List.mem_cons_self).trans
        (moves.mono fun _ _ => List.mem_cons_of_mem _), fun other mem position inside => ?_⟩
      rcases List.mem_cons.1 mem with rfl | later
      · have written := puts.memory.inside (Nat.lt_of_lt_of_eq inside (Nat.mul_one _).symm)
        rw [Nat.zero_add] at written
        exact (moves.memory _ _ distinct.1).trans (written.trans (element_column _ inside))
      · exact holds other later position inside

/-- The initialization of the constraints fills the bounds that are not
hardcoded. -/
theorem holds_configured (world : problem.Recorded σ) :
    let after := effects scene frame (Constraints.initialization problem problem.plan) world
    problem.Moves (fun quantity _ => problem.flags.hardcodeConstraints = false ∧
        quantity ∈ (configured problem).map Prod.fst) [] world after ∧
      (problem.flags.hardcodeConstraints = false → BoundsHold problem after.store.memory) := by
  have initialization_eq : Constraints.initialization problem problem.plan =
      if problem.flags.hardcodeConstraints then []
      else ((configured problem).filter fun entry => problem.plan.has entry.1).map fun entry =>
        .set (problem.plan.whole entry.1) (.known (.column entry.2)) := rfl
  rw [initialization_eq]
  cases hardcoded : problem.flags.hardcodeConstraints with
  | true =>
      simp only [if_true, effects]
      exact ⟨.refl world, fun runtime => absurd runtime (Bool.noConfusion)⟩
  | false =>
      have shapes : ∀ entry ∈ (configured problem).filter fun entry => problem.plan.has entry.1,
          problem.shapeOf? entry.1 = some (entry.2.length, 1) := by
        intro entry mem
        obtain ⟨listed, present⟩ := List.mem_filter.1 mem
        obtain ⟨doc, described⟩ := describe_configured listed present
        rw [shapeOf?, described, Quantity.shape_boundValues?, if_pos rfl]
      have distinct : (((configured problem).filter fun entry =>
          problem.plan.has entry.1).map Prod.fst).Nodup := by
        refine List.Nodup.sublist (List.Sublist.map _ List.filter_sublist) ?_
        simp [configured]
      obtain ⟨moves, holds⟩ := @effects_columns α σ _ problem scene frame _ shapes distinct world
      refine ⟨moves.mono fun quantity _ mem => ⟨rfl, ?_⟩, fun _ entry listed present => ?_⟩
      · obtain ⟨entry, filtered, rfl⟩ := List.mem_map.1 mem
        exact List.mem_map_of_mem (List.mem_filter.1 filtered).1
      · exact holds entry (List.mem_filter.2 ⟨listed, present⟩)

end Bounds

end Problem

/-! ## Memories of a program -/

namespace Program

variable {α : Type} {program : Program α}

/-- A memory in which every array that is known when the program is generated
has its content. -/
def HoldsConstants [Scalar α] (program : Program α) (memory : program.Contents) : Prop :=
  ∀ id, ∀ decl ∈ program.table.get? id, decl.storage = .constant →
    memory.content id = decl.initial

/-- The memory before the first run holds the constants. -/
theorem holdsConstants_initialMemory [Scalar α] (program : Program α) :
    program.HoldsConstants program.initialMemory := by
  intro id decl found _
  have found : program.table.arrays[id]? = some decl := found
  simp [initialMemory, Memory.content, Memory.initial, Array.getD_eq_getD_getElem?, found]

/-- Writes to arrays of the control loop: all other arrays are as before. -/
def Supplies (program : Program α) (before after : program.Contents) : Prop :=
  ∀ id, ∀ decl ∈ program.table.get? id, decl.storage ≠ .variable →
    after.content id = before.content id

namespace Supplies

theorem refl (memory : program.Contents) : program.Supplies memory memory :=
  fun _ _ _ _ => rfl

theorem trans {before between after : program.Contents}
    (first : program.Supplies before between) (second : program.Supplies between after) :
    program.Supplies before after :=
  fun id decl found other => (second id decl found other).trans (first id decl found other)

/-- Overwriting an array of the control loop. -/
theorem of_overwrite {id : Nat} (owned : ∀ decl ∈ program.table.get? id,
    decl.storage = .variable) (memory : program.Contents) (values : Array α) :
    program.Supplies memory (memory.overwrite id values) := by
  intro other decl known different
  have apart : id ≠ other := by
    rintro rfl
    exact different (owned decl known)
  exact memory.content_overwrite_of_ne apart values

theorem of_setContent {before after : program.Contents} {name : String} {values : Array α}
    (written : program.setContent before name values = .ok after)
    (owned : ∀ id ∈ program.table.find? name, ∀ decl ∈ program.table.get? id,
      decl.storage = .variable) :
    program.Supplies before after := by
  unfold setContent at written
  cases found : program.table.find? name with
  | none => simp [found] at written
  | some id =>
      simp only [found] at written
      split at written
      · cases written
        exact of_overwrite (owned id found) before values
      · contradiction

end Supplies

end Program

namespace Problem

variable {α σ : Type} [Scalar α] {problem : Problem α}

/-- What the control loop writes is kept in its own arrays. -/
theorem valueAt_of_supplies {before after : problem.Contents}
    (supplies : problem.program.Supplies before after) {quantity : Quantity}
    {storage : StorageClass} (kept : problem.IsKeptIn quantity storage)
    (other : storage ≠ .variable) (position : Nat) :
    problem.valueAt after quantity position = problem.valueAt before quantity position := by
  cases described : quantity.describe problem with
  | none => rw [valueAt_of_absent described, valueAt_of_absent described]
  | some decl =>
      have content_eq := supplies (problem.plan.id quantity) decl
        ((problem.get?_id_plan quantity).trans described) (kept decl described ▸ other)
      rw [valueAt, valueAt, content_eq]

/-- Hardcoded bounds are constants. -/
theorem boundsHold_of_constants {memory : problem.Contents}
    (hardcoded : problem.flags.hardcodeConstraints = true)
    (constants : problem.program.HoldsConstants memory) : BoundsHold problem memory := by
  intro entry listed present position inside
  obtain ⟨doc, described⟩ := describe_configured listed present
  rw [Quantity.boundValues?, hardcoded, Bool.and_true, if_pos rfl] at described
  have content_eq := constants (problem.plan.id entry.1) _
    ((problem.get?_id_plan entry.1).trans described) rfl
  have initial_eq : (ArrayDecl.ofContent entry.1.name (.column entry.2) (some doc)).initial =
      entry.2.toArray :=
    congrArg Matrix.entries (Matrix.ofFn_entry (Matrix.column entry.2))
  rw [valueAt, content_eq, initial_eq]
  simp [Array.getD_eq_getD_getElem?, List.getD_eq_getElem?_getD]

/-! ## The whole initialization -/

/-- What the initialization leaves in the Hessian. -/
structure Initialized (problem : Problem α) (memory : problem.Contents) : Prop where
  blocks : BlocksHold problem memory
  /-- A zero cross block is left cleared. -/
  cross : ∀ block ∈ (KnownBlocks.ofProblem problem).cross, block.isZero = true →
    ∀ position, problem.valueAt memory .hessianS position = 0

/-- The initialization clears the workspace, fills the known blocks and writes the
bounds; it calls nothing. -/
theorem run_initialize_eq (wellFormed : problem.WellFormed)
    (host : Host α σ problem.program.table.sizes) (state : σ) (memory : problem.Contents) :
    ∃ depth,
      let routine := Horizon.initializeRoutine problem.plan problem.initialization
      let scene := problem.program.scene host.recorded (depth + 2)
      let frame := Frame.ofCall routine [] 0
      let cleared := effects scene frame
        ((problem.plan.table.ofClass .workspace).map fun entry => .clear entry.1)
        (problem.startOf routine state memory)
      let filled := effects scene frame (Objective.initialization problem problem.plan) cleared
      let bounded := effects scene frame (Constraints.initialization problem problem.plan) filled
      problem.program.run host state memory Horizon.initializeName [] =
          ⟨.ok 0, bounded.store.memory, state⟩ ∧
        problem.program.trace host state memory Horizon.initializeName [] = [] := by
  let routine := Horizon.initializeRoutine problem.plan problem.initialization
  obtain ⟨depth, run_eq, trace_eq⟩ := problem.run_of_quiet mem_routines.2.2.2.2.2.1 rfl
    (safe_initializeRoutine wellFormed) callsOf_initializeRoutine host state memory
  let scene := problem.program.scene host.recorded (depth + 2)
  let frame := Frame.ofCall routine [] 0
  let started := problem.startOf routine state memory
  let cleared := effects scene frame
    ((problem.plan.table.ofClass .workspace).map fun entry => .clear entry.1) started
  let filled := effects scene frame (Objective.initialization problem problem.plan) cleared
  let bounded := effects scene frame (Constraints.initialization problem problem.plan) filled
  let ended := (Statement.set (.dense (.own 0) (.const 0) 1 1) Horizon.zero).effect scene frame
    bounded
  have ended_eq : effects scene frame routine.body started = ended := by
    simp only [routine, Horizon.initializeRoutine, initialization, effects_append,
      effects_singleton]
    rfl
  have keeps : scene.KeepsSizes := Program.keepsSizes_scene _
  have alike : bounded.store.Alike started.store :=
    (alike_effects keeps _ filled).trans ((alike_effects keeps _ cleared).trans
      (alike_effects keeps _ started))
  have declared : routine.locals[0]? = some (.own "ret" 1 1 .int) := rfl
  have puts := @Frame.putsOwn_scalar α _ _ _ scene frame bounded 0
    (Nat.le_of_eq (size_own declared alike).symm) .set Horizon.zero _ rfl rfl
  have memory_eq : ended.store.memory = bounded.store.memory := puts.memory
  have result_eq : frame.ownAt ended.store 0 0 = 0 := puts.inside Nat.one_pos
  refine ⟨depth, run_eq.trans ?_, trace_eq⟩
  rw [ended_eq, memory_eq]
  exact congrArg (fun value => (⟨.ok value, bounded.store.memory, state⟩ :
    problem.program.Outcome σ)) result_eq

/-- What the initialization does to a memory: it clears the workspace, fills in the
known blocks and writes the bounds that are not hardcoded. -/
structure Fills (problem : Problem α) (before after : problem.Contents) : Prop where
  blocks : BlocksHold problem after
  cleared : ∀ quantity, problem.IsKeptIn quantity .workspace → ¬IsFilled problem quantity →
    ∀ position, problem.valueAt after quantity position = 0
  bounds : problem.flags.hardcodeConstraints = false → BoundsHold problem after
  kept : ∀ quantity storage, problem.IsKeptIn quantity storage → storage ≠ .workspace →
    (problem.flags.hardcodeConstraints = false →
      quantity ∉ (configured problem).map Prod.fst) →
    ∀ position, problem.valueAt after quantity position = problem.valueAt before quantity position

/-- Stacked bounds are not kept in the workspace. -/
theorem not_mem_configured {quantity : Quantity} (kept : problem.IsKeptIn quantity .workspace)
    (present : problem.plan.has quantity = true) :
    quantity ∉ (configured problem).map Prod.fst := by
  intro mem
  obtain ⟨entry, listed, rfl⟩ := List.mem_map.1 mem
  obtain ⟨doc, described⟩ := describe_configured listed present
  rw [has_plan] at present
  obtain ⟨decl, found⟩ := Option.isSome_iff_exists.1 present
  have storage := kept decl found
  rw [described] at found
  unfold Quantity.boundValues? Quantity.variablePart at found
  split at found
  · cases found
    contradiction
  · split at found <;> cases found
    contradiction

/-- A run of the initialization returns zero and fills the memory. -/
theorem run_initialize_fills (wellFormed : problem.WellFormed)
    (host : Host α σ problem.program.table.sizes) (state : σ) (memory : problem.Contents) :
    ∃ after, problem.program.run host state memory Horizon.initializeName [] =
        ⟨.ok 0, after, state⟩ ∧
      problem.program.trace host state memory Horizon.initializeName [] = [] ∧
      Fills problem memory after := by
  let routine := Horizon.initializeRoutine problem.plan problem.initialization
  obtain ⟨depth, run_eq, trace_eq⟩ := run_initialize_eq wellFormed host state memory
  let scene := problem.program.scene host.recorded (depth + 2)
  let frame := Frame.ofCall routine [] 0
  let started := problem.startOf routine state memory
  let cleared := effects scene frame
    ((problem.plan.table.ofClass .workspace).map fun entry => .clear entry.1) started
  let filled := effects scene frame (Objective.initialization problem problem.plan) cleared
  let bounded := effects scene frame (Constraints.initialization problem problem.plan) filled
  obtain ⟨_, zeros, kept⟩ := @effects_clearWorkspace α σ _ problem scene frame started
  obtain ⟨filledMoves, blocks⟩ := @holds_initialization α σ _ problem scene frame wellFormed cleared
  obtain ⟨boundedMoves, bounds⟩ := @holds_configured α σ _ problem scene frame filled
  have outside {quantity : Quantity} (filledQuantity : IsFilled problem quantity) :
      quantity ∉ (configured problem).map Prod.fst := by
    rcases isHessian_of_isFilled filledQuantity with rfl | rfl | rfl | rfl <;> simp [configured]
  refine ⟨bounded.store.memory, run_eq, trace_eq, ?_, ?_, bounds, ?_⟩
  · exact blocks.of_changes boundedMoves.memory fun _ _ inside other => outside inside other.2
  · intro quantity workspace unfilled position
    cases present : problem.plan.has quantity with
    | false =>
        rw [has_plan, Option.isSome_eq_false_iff, Option.isNone_iff_eq_none] at present
        exact valueAt_of_absent present _ position
    | true =>
        rw [boundedMoves.memory _ _ fun inside => not_mem_configured workspace present inside.2,
          filledMoves.memory _ _ unfilled]
        exact zeros quantity workspace position
  · intro quantity storage keptIn other unbound position
    cases described : quantity.describe problem with
    | none => rw [valueAt_of_absent described, valueAt_of_absent described]
    | some decl =>
        have unfilled : ¬IsFilled problem quantity := fun inside =>
          other ((keptIn decl described).symm.trans
            (isKeptIn_workspace (isHessian_of_isFilled inside) decl described))
        rw [boundedMoves.memory _ _ fun inside => unbound inside.1 inside.2,
          filledMoves.memory _ _ unfilled]
        exact kept quantity storage keptIn other position

/-- A run of the initialization returns.  It leaves the known blocks, and the
configured bounds if constants are in place. -/
theorem run_initialize (wellFormed : problem.WellFormed)
    (host : Host α σ problem.program.table.sizes) (state : σ) (memory : problem.Contents) :
    let outcome := problem.program.run host state memory Horizon.initializeName []
    (∃ value, outcome.result = .ok value) ∧
      Initialized problem outcome.memory ∧
      (problem.program.HoldsConstants memory → BoundsHold problem outcome.memory) := by
  obtain ⟨after, run_eq, _, fills⟩ := run_initialize_fills wellFormed host state memory
  intro outcome
  have outcome_eq : outcome = ⟨.ok 0, after, state⟩ := run_eq
  rw [outcome_eq]
  refine ⟨⟨0, rfl⟩, ⟨fills.blocks, fun block listed zero => ?_⟩, fun constants => ?_⟩
  · rw [Option.mem_def] at listed
    refine fills.cleared .hessianS (isKeptIn_workspace (.inr (.inr (.inl rfl)))) ?_
    simp [IsFilled, blockSize?, listed, zero, Option.filter]
  · cases hardcoded : problem.flags.hardcodeConstraints with
    | false => exact fills.bounds hardcoded
    | true =>
        intro entry listed present position inside
        obtain ⟨doc, described⟩ := describe_configured listed present
        rw [Quantity.boundValues?, hardcoded, Bool.and_true, if_pos rfl] at described
        have keptConstant : problem.IsKeptIn entry.1 .constant := by
          intro decl found
          rw [described] at found
          cases found
          rfl
        rw [fills.kept _ _ keptConstant (by decide) (by simp [hardcoded]) position]
        exact boundsHold_of_constants hardcoded constants entry listed present position inside

end Problem

end RtiAssembly
