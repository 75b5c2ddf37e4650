import RtiAssembly.Routine.Window

/-!
# Sweeps

A sweep visits consecutive numbers, or the positions of a rectangle, one after
the other.  Nothing is listed beforehand, so that a computation which fails
early ends early, however far the sweep would have gone.  The main statements
say that a sweep visits the listed numbers and positions in their order.
-/

namespace RtiAssembly

variable {m : Type → Type} [Monad m]

/-- Visit `count` consecutive numbers. -/
@[specialize]
def sweep (visit : Nat → m Unit) (start : Nat) : (count : Nat) → m Unit
  | 0 => pure ()
  | count + 1 => do
      visit start
      sweep visit (start + 1) count

/-- A sweep visits the numbers of a range in order. -/
theorem sweep_eq_forM (visit : Nat → m Unit) (start count : Nat) :
    sweep visit start count = (List.range' start count).forM visit := by
  induction count generalizing start with
  | zero => rfl
  | succ count ih => simp only [sweep, List.range'_succ, List.forM_eq_forM, List.forM_cons, ih]

/-- Visit the positions of a rectangle, row by row. -/
@[inline]
def sweepPositions (visit : Nat → Nat → m Unit) (rows cols : Nat) : m Unit :=
  if cols = 0 then
    pure ()
  else
    sweep (fun row => sweep (visit row) 0 cols) 0 rows

/-- A sweep over a rectangle visits its positions in order. -/
theorem sweepPositions_eq_forM [LawfulMonad m] (visit : Nat → Nat → m Unit) (rows cols : Nat) :
    sweepPositions visit rows cols =
      (Window.positions rows cols).forM fun (row, col) => visit row col := by
  unfold sweepPositions Window.positions
  split
  · rfl
  · simp only [sweep_eq_forM, List.range_eq_range', List.forM_eq_forM]
    induction List.range' 0 rows with
    | nil => rfl
    | cons row rest ih =>
      simp only [List.forM_cons, List.flatMap_cons, List.forM_append, List.forM_map]
      rw [ih]

end RtiAssembly
