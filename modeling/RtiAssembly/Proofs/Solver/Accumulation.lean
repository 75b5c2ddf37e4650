import RtiAssembly.Proofs.Solver.Blocks

/-!
# Accumulated numbers

A routine that returns a number keeps a total in the first of its own arrays and
adds one term after the other to it.  The terms are listed in the order in which
they are added, so that the total is one well-defined value in rounding
arithmetic.
-/

namespace RtiAssembly

open Statement

/-! ## Products of vectors -/

namespace Matrix

variable {α : Type} [Scalar α]

/-- A product with one row adds up its terms from left to right. -/
theorem entry_mul_row {left right : Matrix α} (row : left.rows = 1) {col : Nat}
    (col_lt : col < right.cols) :
    (left.mul right).entry 0 col = Scalar.sum (left.terms right 0 col) := by
  have small : left.isLargeProduct right = false := by
    simp [isLargeProduct, row]
  rw [mul, entry_ofFn _ (row ▸ Nat.one_pos) col_lt, productEntry, small]
  rfl

/-- A product of numbers. -/
theorem entry_mul_one {left right : Matrix α} (leftShape : left.shape = (1, 1))
    (rightShape : right.shape = (1, 1)) :
    (left.mul right).entry 0 0 = left.entry 0 0 * right.entry 0 0 := by
  have cols_eq : left.cols = 1 := congrArg Prod.snd leftShape
  have col_lt : 0 < right.cols := by
    rw [show right.cols = 1 from congrArg Prod.snd rightShape]
    exact Nat.one_pos
  rw [entry_mul_row (congrArg Prod.fst leftShape) col_lt, terms, cols_eq]
  rfl

theorem entry_abs {matrix : Matrix α} {row col : Nat} (row_lt : row < matrix.rows)
    (col_lt : col < matrix.cols) : matrix.abs.entry row col = Scalar.abs (matrix.entry row col) :=
  entry_ofFn _ row_lt col_lt

end Matrix

namespace Problem

variable {α σ : Type} [Scalar α] {problem : Problem α}

/-- The products of consecutive elements of two quantities, added up from left to
right. -/
def dot (problem : Problem α) (memory : problem.Contents) (left : Quantity) (leftStart : Nat)
    (right : Quantity) (rightStart count : Nat) : α :=
  Scalar.sum ((List.range count).map fun position =>
    problem.valueAt memory left (leftStart + position) *
      problem.valueAt memory right (rightStart + position))

/-- The product of a transposed vector with a vector. -/
theorem entry_mul_vectors (memory : problem.Contents) (left : Quantity) (leftStart : Nat)
    (right : Quantity) (rightStart count : Nat) :
    ((problem.part memory left leftStart count 1).transpose.mul
      (problem.part memory right rightStart count 1)).entry 0 0 =
      problem.dot memory left leftStart right rightStart count := by
  rw [Matrix.entry_mul_row rfl Nat.one_pos, Matrix.terms, dot]
  refine congrArg Scalar.sum (List.map_congr_left fun position mem => ?_)
  have inside : position < count := List.mem_range.1 mem
  have entry (quantity : Quantity) (start : Nat) :
      (problem.part memory quantity start count 1).entry position 0 =
        problem.valueAt memory quantity (start + position) := by
    rw [part, Matrix.entry_ofFn _ inside Nat.one_pos, Nat.mul_one, Nat.add_zero]
  rw [Matrix.entry_transpose, entry, entry]

/-! ## Steps that add to the total -/

/-- A step that changes elements of a region and adds terms to the total, one after
the other. -/
structure Accumulates (problem : Problem α) (frame : Frame) (region : Quantity → Nat → Prop)
    (terms : List α) (before after : problem.Recorded σ) : Prop where
  alike : after.store.Alike before.store
  memory : problem.Changes region before.store.memory after.store.memory
  total : frame.ownAt after.store 0 0 = terms.foldl (· + ·) (frame.ownAt before.store 0 0)

namespace Accumulates

variable {frame : Frame} {region : Quantity → Nat → Prop} {terms later : List α}
  {before between after : problem.Recorded σ}

theorem memory_eq (adds : problem.Accumulates frame (fun _ _ => False) terms before after) :
    after.store.memory = before.store.memory :=
  Problem.memory_ext fun quantity position => adds.memory quantity position not_false

theorem refl (world : problem.Recorded σ) : problem.Accumulates frame region [] world world :=
  ⟨.refl _, .refl _, rfl⟩

theorem trans (first : problem.Accumulates frame region terms before between)
    (second : problem.Accumulates frame region later between after) :
    problem.Accumulates frame region (terms ++ later) before after where
  alike := second.alike.trans first.alike
  memory := first.memory.trans second.memory
  total := by rw [second.total, first.total, List.foldl_append]

end Accumulates

/-- Rounds that add one term each. -/
theorem accumulates_rounds {frame : Frame} {region : Quantity → Nat → Prop}
    {step : problem.Recorded σ → Nat → problem.Recorded σ} {term : Nat → α} {count : Nat}
    {world : problem.Recorded σ}
    (adds : ∀ round < count, ∀ before : problem.Recorded σ,
      before.store.Alike world.store →
      problem.Changes region world.store.memory before.store.memory →
      problem.Accumulates frame region [term round] before (step before round)) :
    problem.Accumulates frame region ((List.range count).map term) world
      ((List.range count).foldl step world) := by
  induction count with
  | zero => exact .refl world
  | succ count ih =>
      have rounds := ih fun round round_lt => adds round (Nat.lt_succ_of_lt round_lt)
      have last := adds count (Nat.lt_succ_self count) _ rounds.alike rounds.memory
      rw [List.range_succ, List.map_append, List.foldl_append]
      exact rounds.trans last

/-- Increasing the total. -/
theorem accumulates_increase
    (scene : Scene α (σ × List (HostCall α problem.program.table.sizes))
      problem.program.table.sizes) {frame : Frame} {region : Quantity → Nat → Prop}
    {world : problem.Recorded σ}
    (room : 1 ≤ (world.store.content (.stack (frame.height + 0))).size) {value : Expr α} {term : α}
    (shape_eq : (frame.valueIn world.store value).shape = (1, 1))
    (entry_eq : (frame.valueIn world.store value).entry 0 0 = term) :
    problem.Accumulates frame region [term] world
      ((Statement.increase (Phases.ownScalar 0) value).effect scene frame world) := by
  have puts := Frame.putsOwn_scalar scene room .add shape_eq entry_eq
  exact ⟨puts.alike, fun quantity position _ => congrArg (problem.valueAt · quantity position)
    puts.memory, puts.inside Nat.one_pos⟩

end Problem

end RtiAssembly
