import RtiAssembly.Proofs.Solver.Initialization

/-!
# The state behind an initialization

The initialization decides what the workspace holds, and the stacked bounds
unless they are hardcoded; every other array outlasts it.  What it leaves behind
is a function of the arrays that outlast it.  A second run changes nothing, and
memories that differ only in what is decided end as the same memory.
-/

namespace RtiAssembly

open Statement

/-! ## Arrays that outlast an initialization -/

namespace Quantity

/-- The parts of the Hessian of the quadratic program. -/
def hessian : List Quantity :=
  [.hessianQ, .hessianR, .hessianS, .hessianQf]

/-- The configured bounds. -/
def stackedBounds : List Quantity :=
  [.lbValues, .ubValues, .lbAValues, .ubAValues]

theorem name_injective : Function.Injective Quantity.name := fun first second same =>
  List.inj_on_of_nodup_map nodup_map_name_all first.mem_all second.mem_all same

end Quantity

namespace Problem

variable {α σ : Type} [Scalar α] {problem : Problem α}

/-- Whether an array outlasts an initialization: those of the control loop do, except
for bounds that are not hardcoded, and so do constants. -/
def Outlasts (problem : Problem α) (decl : ArrayDecl α) : Prop :=
  decl.storage ≠ .workspace ∧
    (decl.storage = .variable → problem.flags.hardcodeConstraints = false →
      decl.name ∉ Quantity.stackedBounds.map Quantity.name)

/-- The state in which an initialization leaves a memory.  Bounds that are hardcoded
are constants. -/
structure KnownState (problem : Problem α) (before after : problem.Contents) : Prop where
  cleared : ∀ id, ∀ decl ∈ problem.program.table.get? id, decl.storage = .workspace →
    decl.name ∉ Quantity.hessian.map Quantity.name → after.content id = .replicate decl.size 0
  states : ∀ node < problem.dims.n,
    let nx := problem.dims.nx
    problem.part after .hessianQ (node * (nx * nx)) nx nx =
      problem.plan.blocks.q1.given?.getD (.zeros nx nx)
  controls : ∀ node < problem.dims.n,
    let nu := problem.dims.nu
    problem.part after .hessianR (node * (nu * nu)) nu nu =
      problem.plan.blocks.r1.given?.getD (.zeros nu nu)
  /-- A given block that holds zeros of either sign is left cleared. -/
  cross : ∀ node < problem.dims.n,
    let nx := problem.dims.nx
    let nu := problem.dims.nu
    problem.part after .hessianS (node * (nx * nu)) nx nu =
      (problem.plan.blocks.s1.given?.filter fun block => !block.isZero).getD (.zeros nx nu)
  terminal :
    let nx := problem.dims.nx
    problem.part after .hessianQf 0 nx nx = problem.plan.blocks.qN1.given?.getD (.zeros nx nx)
  bounds : problem.flags.hardcodeConstraints = false → BoundsHold problem after
  kept : ∀ id, ∀ decl ∈ problem.program.table.get? id, problem.Outlasts decl →
    after.content id = before.content id

/-! ## One state -/

/-- Stacked bounds that are where they are looked for have no other elements. -/
theorem BoundsHold.unique {first second : problem.Contents} (firstHold : BoundsHold problem first)
    (secondHold : BoundsHold problem second) (runtime : problem.flags.hardcodeConstraints = false)
    {quantity : Quantity} (listed : quantity ∈ Quantity.stackedBounds)
    (present : problem.plan.has quantity = true) (position : Nat) :
    problem.valueAt first quantity position = problem.valueAt second quantity position := by
  have stacked : (configured problem).map Prod.fst = Quantity.stackedBounds := rfl
  obtain ⟨entry, mem, rfl⟩ := List.mem_map.1 (stacked ▸ listed)
  obtain ⟨doc, described⟩ := describe_configured mem present
  have shape : problem.shapeOf? entry.1 = some (entry.2.length, 1) := by
    rw [shapeOf?, described, Quantity.boundValues?, runtime, Bool.and_false,
      if_neg Bool.false_ne_true]
    rfl
  rcases Nat.lt_or_ge position (problem.sizeOf entry.1) with inside | outside
  · rw [problem.sizeOf_eq shape, Nat.mul_one] at inside
    exact (firstHold entry mem present position inside).trans
      (secondHold entry mem present position inside).symm
  · rw [valueAt_of_le outside, valueAt_of_le outside]

/-- What an initialization leaves behind is decided by the arrays that outlast it. -/
theorem KnownState.unique {first second firstAfter secondAfter : problem.Contents}
    (firstKnown : KnownState problem first firstAfter)
    (secondKnown : KnownState problem second secondAfter)
    (same : ∀ id, ∀ decl ∈ problem.program.table.get? id, problem.Outlasts decl →
      first.content id = second.content id) : firstAfter = secondAfter := by
  refine memory_ext fun quantity position => ?_
  cases described : quantity.describe problem with
  | none => rw [valueAt_of_absent described, valueAt_of_absent described]
  | some decl =>
      have found : problem.program.table.get? (problem.plan.id quantity) = some decl :=
        (problem.get?_id_plan quantity).trans described
      have named : decl.name = quantity.name := (Quantity.heldBy_of_describe described).1
      by_cases outlasts : problem.Outlasts decl
      · rw [valueAt, valueAt, firstKnown.kept _ _ found outlasts,
          secondKnown.kept _ _ found outlasts, same _ _ found outlasts]
      · by_cases workspace : decl.storage = .workspace
        · by_cases hessian : quantity ∈ Quantity.hessian
          · obtain ⟨shapeQ, shapeR, shapeS, shapeQf, _⟩ := @shapeOf?_blocks α _ problem
            simp only [Quantity.hessian, List.mem_cons, List.not_mem_nil, or_false] at hessian
            rcases hessian with rfl | rfl | rfl | rfl
            · exact valueAt_eq_of_blocks shapeQ (fun node node_lt =>
                (firstKnown.states node node_lt).trans (secondKnown.states node node_lt).symm)
                position
            · exact valueAt_eq_of_blocks shapeR (fun node node_lt =>
                (firstKnown.controls node node_lt).trans (secondKnown.controls node node_lt).symm)
                position
            · exact valueAt_eq_of_blocks shapeS (fun node node_lt =>
                (firstKnown.cross node node_lt).trans (secondKnown.cross node node_lt).symm)
                position
            · exact valueAt_eq_of_part shapeQf
                (firstKnown.terminal.trans secondKnown.terminal.symm) position
          · have unlisted : decl.name ∉ Quantity.hessian.map Quantity.name := by
              rw [named, List.mem_map_of_injective Quantity.name_injective]
              exact hessian
            rw [valueAt, valueAt, firstKnown.cleared _ _ found workspace unlisted,
              secondKnown.cleared _ _ found workspace unlisted]
        · -- what neither outlasts the run nor is workspace is a bound
          have bound : problem.flags.hardcodeConstraints = false ∧
              quantity ∈ Quantity.stackedBounds := by
            rw [Outlasts, and_iff_right workspace, named,
              List.mem_map_of_injective Quantity.name_injective] at outlasts
            by_contra other
            exact outlasts fun _ runtime listed => other ⟨runtime, listed⟩
          have present : problem.plan.has quantity = true := by
            rw [has_plan, described, Option.isSome_some]
          exact (firstKnown.bounds bound.1).unique (secondKnown.bounds bound.1) bound.1 bound.2
            present position

/-- A given cross block is there, up to the signs of its zeros. -/
theorem KnownState.agrees_cross {before after : problem.Contents}
    (known : KnownState problem before after) (wellFormed : problem.WellFormed) {node : Nat}
    (node_lt : node < problem.dims.n) {block : Matrix α}
    (given : block ∈ problem.plan.blocks.s1.given?) :
    let dims := problem.dims
    block.Agrees (problem.part after .hessianS (node * (dims.nx * dims.nu)) dims.nx dims.nu) := by
  intro dims
  have stored := known.cross node node_lt
  obtain ⟨_, _, _, _, s1_eq, _, _⟩ := @blocks_plan α _ problem
  rw [s1_eq, Block.given?_ofOption, Option.mem_def] at given
  rw [s1_eq, Block.given?_ofOption, given, Option.filter_some] at stored
  have shape_eq : block.shape = (dims.nx, dims.nu) :=
    (KnownBlocks.shapes_ofProblem wellFormed).2.2.1 block given
  cases zero : block.isZero with
  | true =>
      rw [zero, Bool.not_true, if_neg Bool.false_ne_true] at stored
      have agrees := Matrix.agrees_zeros zero
      rw [show block.rows = dims.nx from congrArg Prod.fst shape_eq,
        show block.cols = dims.nu from congrArg Prod.snd shape_eq] at agrees
      exact stored ▸ agrees
  | false =>
      rw [zero, Bool.not_false, if_pos rfl] at stored
      rw [show problem.part after .hessianS _ _ _ = block from stored]
      exact ⟨rfl, fun _ _ _ _ => .refl _⟩

end Problem

end RtiAssembly
