import RtiAssembly.Proofs.Problem.Given
import RtiAssembly.Proofs.Solver.Accumulation

/-!
# The residual of the optimality conditions

The residual adds up the products of the gradients with the step, of the defects
with their multipliers and, for a fixed first state, of the bounds with theirs.
The multipliers of all bounds lie behind each other in one vector; the segments
in which the routine reads them cover that vector without gap or overlap.
-/

namespace RtiAssembly

open Statement

namespace Problem

variable {α σ : Type} [Scalar α] {problem : Problem α}

/-! ## Terms of the residual -/

/-- The bounds with the position of their first multiplier and their number: lower and
upper box bounds, then lower and upper affine bounds. -/
def boundSegments (problem : Problem α) : List (Quantity × Nat × Nat) :=
  let boxes := problem.boxDim
  let affine := problem.affineDim
  [(.qpLb, 0, boxes), (.qpUb, boxes, boxes), (.qpLbA, 2 * boxes, affine),
    (.qpUbA, 2 * boxes + affine, affine)]

/-- The rows of the bounds, each with the position of its multiplier. -/
def boundRows (problem : Problem α) : List ((Quantity × Nat) × Nat) :=
  problem.boundSegments.flatMap fun (bound, start, count) =>
    (List.range count).map fun row => ((bound, row), start + row)

/-- The products of the gradients with the step and of the defects with their
multipliers. -/
def equationTerms (problem : Problem α) (memory : problem.Contents) : List α :=
  let n := problem.dims.n
  let nx := problem.dims.nx
  let nu := problem.dims.nu
  [problem.dot memory .gradientQ 0 .qpx 0 (n * nx),
    problem.dot memory .gradientQf 0 .qpx (n * nx) nx,
    problem.dot memory .gradientR 0 .qpu 0 (n * nu)] ++
  (List.range (n * nx)).map fun row =>
    problem.valueAt memory .d row * problem.valueAt memory .qpLambda row

/-- The products of the bounds with their multipliers. -/
def boundTerms (problem : Problem α) (memory : problem.Contents) : List α :=
  problem.boundRows.map fun ((bound, row), multiplier) =>
    problem.valueAt memory bound row * problem.valueAt memory .qpMu multiplier

/-- The terms of the residual in the order in which they are added. -/
def optimalityTerms (problem : Problem α) (memory : problem.Contents) : List α :=
  (problem.equationTerms memory ++
    if problem.flags.initialStateFixed then problem.boundTerms memory else []).map Scalar.abs

/-- The statement that adds the magnitudes of the products of the elements of two
vectors. -/
def multiplied (problem : Problem α) (left right : Quantity) (rightStart count : Nat) :
    Statement α :=
  .loop "index" 0 count
    [.increase (Phases.ownScalar 0)
      (.abs (.mul (.read (problem.plan.flat left (.var "index") 1))
        (.read (problem.plan.flat right ((AffineIndex.var "index").plus rightStart) 1))))]

/-- The statements that add the products of the gradients and the defects. -/
def addEquations (problem : Problem α) : List (Statement α) :=
  let n := problem.dims.n
  let nx := problem.dims.nx
  let nu := problem.dims.nu
  let product (left right : Quantity) (start count : Nat) : List (Statement α) :=
    [.set (Phases.ownScalar 1)
        (.mul (.read (problem.plan.flat left (.const 0) count).transpose)
          (.read (problem.plan.flat right (.const start) count))),
      .increase (Phases.ownScalar 0) (.abs (.read (Phases.ownScalar 1)))]
  product .gradientQ .qpx 0 (n * nx) ++ product .gradientQf .qpx (n * nx) nx ++
    product .gradientR .qpu 0 (n * nu) ++ [problem.multiplied .d .qpLambda 0 (n * nx)]

/-- The statements that add the products of the bounds. -/
def addBounds (problem : Problem α) : List (Statement α) :=
  let boxes := problem.boxDim
  let affine := problem.affineDim
  [problem.multiplied .qpLb .qpMu 0 boxes, problem.multiplied .qpUb .qpMu boxes boxes] ++
    (if 0 < affine then
      [problem.multiplied .qpLbA .qpMu (2 * boxes) affine,
        problem.multiplied .qpUbA .qpMu (2 * boxes + affine) affine]
    else
      [])

/-- The residual starts from zero. -/
theorem body_optimalityRoutine :
    (Phases.optimalityRoutine problem problem.plan).body =
      .set (Phases.ownScalar 0) Horizon.zero :: (problem.addEquations ++
        if problem.flags.initialStateFixed then problem.addBounds else []) := by
  obtain ⟨gradientQ, gradientQf, gradientR, _, qpu, _⟩ := @shapeOf?_quadraticProgram α _ problem
  simp only [Phases.optimalityRoutine, Frame.whole_eq_flat gradientQ,
    Frame.whole_eq_flat gradientQf, Frame.whole_eq_flat gradientR, Frame.whole_eq_flat qpu]
  rfl

/-- Every multiplier of a bound belongs to exactly one row. -/
theorem multipliers_boundRows :
    problem.boundRows.map Prod.snd = List.range (problem.sizeOf .qpMu) := by
  obtain ⟨_, _, _, _, _, _, _, _, _, _, shape⟩ := @shapeOf?_quadraticProgram α _ problem
  have size_eq : problem.sizeOf .qpMu =
      problem.boxDim + problem.boxDim + problem.affineDim + problem.affineDim := by
    rw [problem.sizeOf_eq shape, boxDim]
    ring
  rw [size_eq, List.range_add, List.range_add, List.range_add]
  simp [boundRows, boundSegments, Function.comp_def, Nat.two_mul]

/-! ## Steps of the routine -/

section Steps

variable {scene : Scene α (σ × List (HostCall α problem.program.table.sizes))
    problem.program.table.sizes} {frame : Frame} {world : problem.Recorded σ}
  {region : Quantity → Nat → Prop}

/-- Adding the magnitude of a product of vectors. -/
theorem accumulates_product {left right : Quantity} {leftOffset rightOffset : AffineIndex}
    {count : Nat} (total : 1 ≤ (world.store.content (.stack (frame.height + 0))).size)
    (multipliedRoom : 1 ≤ (world.store.content (.stack (frame.height + 1))).size) :
    problem.Accumulates frame region
      [Scalar.abs (problem.dot world.store.memory left (frame.valueOf leftOffset) right
        (frame.valueOf rightOffset) count)] world
      (effects scene frame
        [.set (Phases.ownScalar 1)
            (.mul (.read (problem.plan.flat left leftOffset count).transpose)
              (.read (problem.plan.flat right rightOffset count))),
          .increase (Phases.ownScalar 0) (.abs (.read (Phases.ownScalar 1)))] world) := by
  let product : Expr α := .mul (.read (problem.plan.flat left leftOffset count).transpose)
    (.read (problem.plan.flat right rightOffset count))
  let value := problem.dot world.store.memory left (frame.valueOf leftOffset) right
    (frame.valueOf rightOffset) count
  let multiplied := (Statement.set (Phases.ownScalar 1) product).effect scene frame world
  have vector (quantity : Quantity) (offset : AffineIndex) :
      frame.shown world.store (problem.plan.flat quantity offset count) =
        problem.part world.store.memory quantity (frame.valueOf offset) count 1 :=
    Frame.valueIn_flat
  have product_eq : frame.valueIn world.store product =
      (problem.part world.store.memory left (frame.valueOf leftOffset) count 1).transpose.mul
        (problem.part world.store.memory right (frame.valueOf rightOffset) count 1) :=
    congrArg₂ Matrix.mul (Frame.shown_transpose.trans (congrArg _ (vector left leftOffset)))
      (vector right rightOffset)
  have puts := @Frame.putsOwn_scalar α _ _ _ scene frame world 1 multipliedRoom .set product value
    (by rw [product_eq]; rfl) (by rw [product_eq]; exact entry_mul_vectors _ _ _ _ _ _)
  have shown_eq : frame.valueIn multiplied.store (.read (Phases.ownScalar 1) : Expr α) =
      .ofFn 1 1 fun _ _ => value := by
    refine (frame.shown_own multiplied.store 1 1 1).trans ?_
    refine Matrix.ofFn_congr fun row row_lt col col_lt => ?_
    obtain rfl := Nat.lt_one_iff.1 row_lt
    obtain rfl := Nat.lt_one_iff.1 col_lt
    exact puts.inside Nat.one_pos
  have magnitude_eq : frame.valueIn multiplied.store (.abs (.read (Phases.ownScalar 1))) =
      (Matrix.ofFn 1 1 fun _ _ => value).abs := congrArg Matrix.abs shown_eq
  have increase := @accumulates_increase α σ _ problem scene frame region multiplied
    (le_of_le_of_eq total (puts.alike.size_content _).symm) (.abs (.read (Phases.ownScalar 1)))
    (Scalar.abs value) (by rw [magnitude_eq]; rfl)
    (by rw [magnitude_eq]; exact Matrix.entry_abs Nat.one_pos Nat.one_pos)
  rw [effects, effects_singleton]
  refine ⟨increase.alike.trans puts.alike, puts.memory ▸ increase.memory, ?_⟩
  exact increase.total.trans (congrArg (List.foldl _ · _) (puts.other Nat.zero_ne_one 0))

/-- Adding the magnitudes of the products of the elements of two vectors. -/
theorem accumulates_products {left right : Quantity} {rightStart count : Nat}
    (total : 1 ≤ (world.store.content (.stack (frame.height + 0))).size) :
    problem.Accumulates frame (fun _ _ => False)
      ((List.range count).map fun row => Scalar.abs
        (problem.valueAt world.store.memory left row *
          problem.valueAt world.store.memory right (rightStart + row))) world
      ((problem.multiplied left right rightStart count).effect scene frame world) := by
  rw [multiplied, effect_loop]
  refine accumulates_rounds fun round _ before alike memory => ?_
  let inner := frame.bind "index" round
  let elements := (problem.part before.store.memory left round 1 1).mul
    (problem.part before.store.memory right (round + rightStart) 1 1)
  have element (quantity : Quantity) (start : Nat) :
      (problem.part before.store.memory quantity start 1 1).entry 0 0 =
        problem.valueAt world.store.memory quantity start :=
    (Matrix.entry_ofFn _ Nat.one_pos Nat.one_pos).trans (memory quantity start not_false)
  have product_eq : elements.entry 0 0 = problem.valueAt world.store.memory left round *
      problem.valueAt world.store.memory right (rightStart + round) := by
    rw [Matrix.entry_mul_one rfl rfl, element, element, Nat.add_comm round]
  have reads (quantity : Quantity) (offset : AffineIndex) :
      inner.shown before.store (problem.plan.flat quantity offset 1) =
        problem.part before.store.memory quantity (inner.valueOf offset) 1 1 :=
    Frame.valueIn_flat
  have value_eq : inner.valueIn before.store
      (.abs (.mul (.read (problem.plan.flat left (.var "index") 1))
        (.read (problem.plan.flat right ((AffineIndex.var "index").plus rightStart) 1)))) =
      elements.abs := by
    have first := reads left (.var "index")
    have second := reads right ((AffineIndex.var "index").plus rightStart)
    rw [Frame.valueOf_bind] at first
    rw [Frame.valueOf_bind_plus] at second
    exact congrArg Matrix.abs (congrArg₂ Matrix.mul first second)
  have increase := @accumulates_increase α σ _ problem scene inner (fun _ _ => False) before
    (le_of_le_of_eq total (alike.size_content _).symm)
    (.abs (.mul (.read (problem.plan.flat left (.var "index") 1))
      (.read (problem.plan.flat right ((AffineIndex.var "index").plus rightStart) 1))))
    _ (by rw [value_eq]; rfl)
    (by rw [value_eq, Matrix.entry_abs Nat.one_pos Nat.one_pos, product_eq])
  rw [effects_singleton]
  exact ⟨increase.alike, increase.memory, increase.total⟩

/-- Statements one after the other, each with the terms that it adds. -/
theorem accumulates_parts {parts : List (List (Statement α) × List α)}
    (adds : ∀ part ∈ parts, ∀ before : problem.Recorded σ,
      before.store.Alike world.store → before.store.memory = world.store.memory →
      problem.Accumulates frame (fun _ _ => False) part.2 before
        (effects scene frame part.1 before)) :
    problem.Accumulates frame (fun _ _ => False) (parts.flatMap Prod.snd) world
      (effects scene frame (parts.flatMap Prod.fst) world) := by
  induction parts generalizing world with
  | nil =>
      rw [List.flatMap_nil, List.flatMap_nil, effects]
      exact .refl world
  | cons part rest ih =>
      have first := adds part List.mem_cons_self world (.refl _) rfl
      rw [List.flatMap_cons, List.flatMap_cons, effects_append]
      exact first.trans (ih fun other mem before alike same =>
        adds other (List.mem_cons_of_mem part mem) before (alike.trans first.alike)
          (same.trans first.memory_eq))

/-- Adding the products of the gradients and the defects. -/
theorem accumulates_equations
    (total : 1 ≤ (world.store.content (.stack (frame.height + 0))).size)
    (room : 1 ≤ (world.store.content (.stack (frame.height + 1))).size) :
    problem.Accumulates frame (fun _ _ => False)
      ((problem.equationTerms world.store.memory).map Scalar.abs) world
      (effects scene frame problem.addEquations world) := by
  let n := problem.dims.n
  let nx := problem.dims.nx
  let memory := world.store.memory
  let product (left right : Quantity) (start count : Nat) : List (Statement α) × List α :=
    ([.set (Phases.ownScalar 1)
        (.mul (.read (problem.plan.flat left (.const 0) count).transpose)
          (.read (problem.plan.flat right (.const start) count))),
      .increase (Phases.ownScalar 0) (.abs (.read (Phases.ownScalar 1)))],
      [Scalar.abs (problem.dot memory left 0 right start count)])
  let defects : List (Statement α) × List α :=
    ([problem.multiplied .d .qpLambda 0 (n * nx)], (List.range (n * nx)).map fun row =>
      Scalar.abs (problem.valueAt memory .d row * problem.valueAt memory .qpLambda (0 + row)))
  let parts := [product .gradientQ .qpx 0 (n * nx), product .gradientQf .qpx (n * nx) nx,
    product .gradientR .qpu 0 (n * problem.dims.nu), defects]
  have adds := @accumulates_parts α σ _ problem scene frame world parts (by
    intro part mem before alike same
    have sizes := alike.size_content
    have productAdds (left right : Quantity) (start count : Nat) :
        problem.Accumulates frame (fun _ _ => False) (product left right start count).2 before
          (effects scene frame (product left right start count).1 before) := by
      simp only [product, memory, ← same]
      exact @accumulates_product α σ _ problem scene frame before _ left right (.const 0)
        (.const start) count (le_of_le_of_eq total (sizes _).symm)
        (le_of_le_of_eq room (sizes _).symm)
    simp only [parts, List.mem_cons, List.not_mem_nil, or_false] at mem
    obtain rfl | rfl | rfl | rfl := mem
    · exact productAdds _ _ _ _
    · exact productAdds _ _ _ _
    · exact productAdds _ _ _ _
    · simp only [defects, memory, ← same, effects_singleton]
      exact accumulates_products (le_of_le_of_eq total (sizes _).symm))
  have terms_eq : parts.flatMap Prod.snd = (problem.equationTerms memory).map Scalar.abs := by
    simp [equationTerms, parts, product, defects, Function.comp_def, n, nx]
  rw [← terms_eq]
  exact adds

/-- Adding the products of the bounds with their multipliers. -/
theorem accumulates_bounds
    (total : 1 ≤ (world.store.content (.stack (frame.height + 0))).size) :
    problem.Accumulates frame (fun _ _ => False)
      ((problem.boundTerms world.store.memory).map Scalar.abs) world
      (effects scene frame problem.addBounds world) := by
  let memory := world.store.memory
  let part (segment : Quantity × Nat × Nat) : List (Statement α) × List α :=
    ([problem.multiplied segment.1 .qpMu segment.2.1 segment.2.2],
      (List.range segment.2.2).map fun row => Scalar.abs
        (problem.valueAt memory segment.1 row *
          problem.valueAt memory .qpMu (segment.2.1 + row)))
  have adds := @accumulates_parts α σ _ problem scene frame world
    (problem.boundSegments.map part) (by
      intro _ mem before alike same
      obtain ⟨segment, _, rfl⟩ := List.mem_map.1 mem
      simp only [part, memory, ← same, effects_singleton]
      exact accumulates_products (le_of_le_of_eq total (alike.size_content _).symm))
  have terms_eq : (problem.boundSegments.map part).flatMap Prod.snd =
      (problem.boundTerms memory).map Scalar.abs := by
    simp [boundTerms, boundRows, part, List.flatMap_map, List.map_flatMap, Function.comp_def]
  -- without affine bounds the loops over them have no rounds
  have effects_eq : effects scene frame ((problem.boundSegments.map part).flatMap Prod.fst) world =
      effects scene frame problem.addBounds world := by
    by_cases some : 0 < problem.affineDim
    · rw [addBounds, if_pos some]
      rfl
    · have none : problem.affineDim = 0 := Nat.eq_zero_of_not_pos some
      simp [addBounds, boundSegments, part, effects, multiplied, effect_loop, none]
  rw [← terms_eq, ← effects_eq]
  exact adds

/-- The body of the routine adds up the terms, starting from zero. -/
theorem effects_optimality
    (total : 1 ≤ (world.store.content (.stack (frame.height + 0))).size)
    (room : 1 ≤ (world.store.content (.stack (frame.height + 1))).size) :
    let after := effects scene frame (Phases.optimalityRoutine problem problem.plan).body world
    after.store.memory = world.store.memory ∧
      frame.ownAt after.store 0 0 =
        (problem.optimalityTerms world.store.memory).foldl (· + ·) 0 := by
  let cleared := (Statement.set (Phases.ownScalar 0) Horizon.zero).effect scene frame world
  let equations := effects scene frame problem.addEquations cleared
  have puts := @Frame.putsOwn_scalar α _ _ _ scene frame world 0 total .set Horizon.zero 0 rfl rfl
  have memory_eq : cleared.store.memory = world.store.memory := puts.memory
  have start_eq : frame.ownAt cleared.store 0 0 = 0 := puts.inside Nat.one_pos
  have roomCleared : 1 ≤ (cleared.store.content (.stack (frame.height + 0))).size ∧
      1 ≤ (cleared.store.content (.stack (frame.height + 1))).size :=
    ⟨le_of_le_of_eq total (puts.alike.size_content _).symm,
      le_of_le_of_eq room (puts.alike.size_content _).symm⟩
  have first : problem.Accumulates frame (fun _ _ => False)
      ((problem.equationTerms cleared.store.memory).map Scalar.abs) cleared equations :=
    accumulates_equations roomCleared.1 roomCleared.2
  have second : problem.Accumulates frame (fun _ _ => False)
      ((problem.boundTerms equations.store.memory).map Scalar.abs) equations
      (effects scene frame problem.addBounds equations) :=
    accumulates_bounds (le_of_le_of_eq roomCleared.1 (first.alike.size_content _).symm)
  have kept : equations.store.memory = cleared.store.memory := first.memory_eq
  rw [kept, memory_eq] at second
  rw [memory_eq] at first
  have terms_eq : problem.optimalityTerms world.store.memory =
      (problem.equationTerms world.store.memory).map Scalar.abs ++
        if problem.flags.initialStateFixed then
          (problem.boundTerms world.store.memory).map Scalar.abs
        else [] := by
    rw [optimalityTerms, List.map_append, apply_ite (List.map Scalar.abs), List.map_nil]
  have both : problem.Accumulates frame (fun _ _ => False)
      (problem.optimalityTerms world.store.memory) cleared
      (effects scene frame (if problem.flags.initialStateFixed then problem.addBounds else [])
        equations) := by
    rw [terms_eq]
    refine first.trans ?_
    cases problem.flags.initialStateFixed
    · rw [if_neg Bool.false_ne_true, if_neg Bool.false_ne_true, effects]
      exact .refl equations
    · rw [if_pos rfl, if_pos rfl]
      exact second
  rw [body_optimalityRoutine, effects, effects_append]
  exact ⟨both.memory_eq.trans memory_eq, both.total.trans (congrArg (List.foldl _ · _) start_eq)⟩

end Steps

/-- A run of the routine calls nothing, leaves the memory and the host as they are and
returns the sum of the terms. -/
theorem run_optimalityRoutine (wellFormed : problem.WellFormed)
    (host : Host α σ problem.program.table.sizes) (state : σ) (memory : problem.Contents) :
    let program := problem.program
    let outcome := program.run host state memory Phases.optimalityName []
    program.trace host state memory Phases.optimalityName [] = [] ∧
      outcome.memory = memory ∧ outcome.state = state ∧
      outcome.result = .ok ((problem.optimalityTerms memory).foldl (· + ·) 0) := by
  intro program outcome
  let routine := Phases.optimalityRoutine problem problem.plan
  have mem : routine ∈ program.routines := by
    rw [Problem.routines_program]
    simp [routine]
  have quiet : callsOf routine.body = [] := Problem.callsOf_optimalityRoutine
  obtain ⟨depth, run_eq, trace_eq⟩ := problem.run_of_quiet mem rfl
    (problem.safe_of_quiet wellFormed mem quiet) quiet host state memory
  let frame := Frame.ofCall routine [] 0
  have own (array : Nat) {decl : ArrayDecl α} (declared : routine.locals[array]? = some decl) :=
    @Problem.size_own α σ _ problem routine array decl declared state memory _ (.refl _)
  obtain ⟨memory_eq, total_eq⟩ := @Problem.effects_optimality α σ _ problem
    (problem.program.scene host.recorded (depth + 2)) frame (problem.startOf routine state memory)
    (le_of_le_of_eq (Nat.le_refl 1) (own 0 rfl).symm)
    (le_of_le_of_eq (Nat.le_refl 1) (own 1 rfl).symm)
  have outcome_eq : outcome = _ := run_eq
  refine ⟨trace_eq, ?_, ?_, ?_⟩
  · rw [outcome_eq]
    exact memory_eq
  · rw [outcome_eq]
  · rw [outcome_eq]
    exact congrArg Except.ok total_eq

end Problem

/-- The residual of the optimality conditions.  For the program of an accepted
description, any memory and any host, `getKKT` calls no external function, leaves
the memory and the host as they are and returns the sum of the magnitudes of its
terms, added from left to right.  For a fixed first state the terms use every
multiplier of a bound, each once. -/
theorem optimality_of_accepted {α σ : Type} [Scalar α] {description : Description α}
    {problem : Problem α} (accepted : description.validate.value = some problem)
    (host : Host α σ problem.program.table.sizes) (state : σ) (memory : problem.Contents) :
    let program := problem.program
    let outcome := program.run host state memory Phases.optimalityName []
    Plan.ofProblem problem = .ok problem.plan ∧
      problem.dims = description.dims ∧ problem.flags = description.flags ∧
      program.trace host state memory Phases.optimalityName [] = [] ∧
      outcome.memory = memory ∧ outcome.state = state ∧
      outcome.result = .ok ((problem.optimalityTerms memory).foldl (· + ·) 0) ∧
      problem.boundRows.map Prod.snd = List.range (problem.sizeOf .qpMu) := by
  intro program outcome
  have wellFormed := Description.wellFormed_of_validate accepted
  have keeps := Description.keeps_of_validate accepted
  obtain ⟨trace_eq, memory_eq, state_eq, result_eq⟩ :=
    Problem.run_optimalityRoutine wellFormed host state memory
  exact ⟨wellFormed.ofProblem_eq_ok, keeps.dims, keeps.flags, trace_eq, memory_eq, state_eq,
    result_eq, Problem.multipliers_boundRows⟩

/-- A small problem whose multipliers all differ, with three bounds that count among
the boxes and one among the affine bounds. -/
theorem optimality_twoIntervals :
    let problem := Problem.twoIntervals
    let program := problem.program
    let plan := problem.plan
    let host : Host ℚ Unit program.table.sizes :=
      fun _ passed memory state => ⟨7, passed, memory, state⟩
    let multipliers : List ℚ := (List.range 16).map fun row => ((row + 1 : Nat) : ℚ)
    let step := (program.initialMemory.overwrite (plan.id .gradientQ) #[1, -3]).overwrite
      (plan.id .qpx) #[2, 1, 0]
    let bounded := (step.overwrite (plan.id .qpUb) #[1, -1, 2, 0]).overwrite
      (plan.id .qpLbA) #[0, 0, 0, 1]
    let memory := bounded.overwrite (plan.id .qpMu) multipliers.toArray
    Description.twoIntervals.validate.value = some problem ∧
      (program.run host () memory Phases.optimalityName []).result =
        .ok (1 + (5 + 6 + 14) + 12) ∧
      (program.run host () memory Phases.optimalityName []).memory = memory ∧
      program.trace host () memory Phases.optimalityName [] = [] := by
  intro problem program plan host multipliers step bounded memory
  obtain ⟨_, _, _, trace_eq, memory_eq, _, result_eq, _⟩ :=
    optimality_of_accepted Description.validate_twoIntervals host () memory
  refine ⟨Description.validate_twoIntervals, result_eq.trans (congrArg Except.ok ?_), memory_eq,
    trace_eq⟩
  decide +kernel

end RtiAssembly
