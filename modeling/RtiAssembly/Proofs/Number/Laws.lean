import RtiAssembly.Proofs.Matrix

/-!
# Laws of number systems

A known Hessian block and one that is computed at run time add the damping in
different ways.  That they hold the same numbers needs few laws, and rounding
does not break them: one and zero are neutral, up to the sign of a zero.
-/

namespace RtiAssembly

namespace Scalar

variable {α : Type} [Scalar α]

/-- The same number; zeros may differ in their sign. -/
def Alike (first second : α) : Prop :=
  first = second ∨ Scalar.same first second = true

theorem Alike.refl (value : α) : Alike value value :=
  .inl rfl

end Scalar

open Scalar

/-- The laws of zero and one that rounding arithmetic keeps. -/
class LawfulScalar (α : Type) [Scalar α] : Prop where
  one_mul : ∀ a : α, 1 * a = a
  /-- Nothing is added by a multiple of zero. -/
  add_zero_mul : ∀ a b : α, Scalar.isFinite b = true → Alike (a + 0 * b) a
  /-- Nothing is added by zero of either sign. -/
  add_of_isZero : ∀ a b : α, Scalar.isZero b = true → Alike (a + b) a

namespace Matrix

variable {α : Type} [Scalar α]

/-- Matrices of one shape with the same numbers. -/
structure Agrees (first second : Matrix α) : Prop where
  shape_eq : first.shape = second.shape
  entries : ∀ row < first.rows, ∀ col < first.cols,
    Alike (first.entry row col) (second.entry row col)

/-- Where only equal numbers compare as the same, matrices that agree are
equal. -/
theorem Agrees.eq {first second : Matrix α} (agrees : first.Agrees second)
    (exact_same : ∀ a b : α, Scalar.same a b = true → a = b) : first = second := by
  obtain ⟨shape_eq, entries⟩ := agrees
  have rows_eq : second.rows = first.rows := congrArg Prod.fst shape_eq.symm
  have cols_eq : second.cols = first.cols := congrArg Prod.snd shape_eq.symm
  calc first = ofFn first.rows first.cols first.entry := first.ofFn_entry.symm
    _ = ofFn first.rows first.cols second.entry := ofFn_congr fun row row_lt col col_lt =>
        (entries row row_lt col col_lt).elim id (exact_same _ _)
    _ = second := by rw [← rows_eq, ← cols_eq, second.ofFn_entry]

/-- A matrix of zeros of either sign. -/
theorem agrees_zeros {matrix : Matrix α} (zero : matrix.isZero = true) :
    matrix.Agrees (.zeros matrix.rows matrix.cols) := by
  refine ⟨rfl, fun row row_lt col col_lt => .inr ?_⟩
  have inside : row * matrix.cols + col < matrix.entries.size := by
    have row_le := Nat.mul_le_mul_right matrix.cols row_lt
    rw [Nat.succ_mul] at row_le
    rw [matrix.size_entries]
    omega
  rw [zeros, entry_ofFn _ row_lt col_lt, Matrix.entry, if_pos ⟨row_lt, col_lt⟩,
    Array.getD_eq_getD_getElem?, Array.getElem?_eq_getElem inside]
  exact Array.all_eq_true.1 zero _ inside

/-! ## Damping -/

/-- A matrix with an amount added to its diagonal as the routines do it; zero
leaves the matrix as it is. -/
def shifted (matrix : Matrix α) (amount : α) : Matrix α :=
  if Scalar.isZero amount then matrix else matrix.add (.scaledIdentity matrix.rows amount)

@[simp]
theorem shape_shifted (matrix : Matrix α) (amount : α) :
    (matrix.shifted amount).shape = matrix.shape := by
  unfold shifted
  split <;> rfl

/-- A square matrix plus a multiple of the identity. -/
def plusIdentity (matrix : Matrix α) (amount : α) : Matrix α :=
  matrix.add (.scaledIdentity matrix.rows amount)

@[simp]
theorem shape_plusIdentity (matrix : Matrix α) (amount : α) :
    (matrix.plusIdentity amount).shape = matrix.shape := rfl

theorem entry_plusIdentity {matrix : Matrix α} (square : matrix.cols = matrix.rows) (amount : α)
    {row col : Nat} (row_lt : row < matrix.rows) (col_lt : col < matrix.cols) :
    (matrix.plusIdentity amount).entry row col =
      matrix.entry row col + (if row = col then 1 else 0) * amount := by
  have identity : (scaledIdentity matrix.rows amount).entry row col =
      (if row = col then 1 else 0) * amount := entry_ofFn _ row_lt (square ▸ col_lt)
  rw [plusIdentity, add, entry_ofFn _ row_lt col_lt, identity]

variable [LawfulScalar α]

/-- Without damping nothing is added. -/
theorem agrees_plusIdentity_zero {matrix : Matrix α} (square : matrix.cols = matrix.rows)
    {amount : α} (finite : Scalar.isFinite amount = true) (zero : Scalar.isZero amount = true) :
    (matrix.plusIdentity amount).Agrees matrix := by
  refine ⟨rfl, fun row row_lt col col_lt => ?_⟩
  rw [entry_plusIdentity square amount row_lt col_lt]
  by_cases diagonal : row = col
  · rw [if_pos diagonal, LawfulScalar.one_mul]
    exact LawfulScalar.add_of_isZero _ _ zero
  · rw [if_neg diagonal]
    exact LawfulScalar.add_zero_mul _ _ finite

/-- The routines add the damping. -/
theorem agrees_shifted {matrix : Matrix α} (square : matrix.cols = matrix.rows) {amount : α}
    (finite : Scalar.isFinite amount = true) :
    (matrix.plusIdentity amount).Agrees (matrix.shifted amount) := by
  unfold shifted
  by_cases zero : Scalar.isZero amount = true
  · rw [if_pos zero]
    exact agrees_plusIdentity_zero square finite zero
  · rw [if_neg zero]
    exact ⟨rfl, fun _ _ _ _ => .refl _⟩

/-- A known block has the damping added when the program is generated. -/
theorem agrees_damped {matrix : Matrix α} (square : matrix.cols = matrix.rows) {amount : α}
    (finite : Scalar.isFinite amount = true) :
    (matrix.plusIdentity amount).Agrees (matrix.damped amount) := by
  unfold damped
  by_cases zero : Scalar.isZero amount = true
  · rw [if_pos zero]
    exact agrees_plusIdentity_zero square finite zero
  · rw [if_neg zero]
    refine ⟨rfl, fun row row_lt col col_lt => ?_⟩
    change row < matrix.rows at row_lt
    change col < matrix.cols at col_lt
    rw [entry_plusIdentity square amount row_lt col_lt, entry_ofFn _ row_lt col_lt]
    by_cases diagonal : row = col
    · rw [if_pos diagonal, if_pos diagonal, LawfulScalar.one_mul]
      exact .refl _
    · rw [if_neg diagonal, if_neg diagonal]
      exact LawfulScalar.add_zero_mul _ _ finite

end Matrix

/-! ## Rational numbers -/

/-- The rational numbers.  A written number is cut off behind twenty decimals. -/
instance : Scalar ℚ where
  abs value := |value|
  mulAdd left right addend := left * right + addend
  half := 1 / 2
  ofInt value := value
  less left right := left < right
  same left right := left == right
  isFinite _ := true
  truncate value := value.num.tdiv value.den
  spell spelling value :=
    .numeral (spelling.numeral (decide (value < 0)) ⟨value.num.natAbs * 10 ^ 20 / value.den, -20⟩)
  ofNumeral? numeral :=
    let fraction := numeral.fraction.getD []
    let magnitude : ℚ :=
      (Digit.value (numeral.whole ++ fraction) : ℚ) *
        10 ^ ((numeral.exponent.elim 0 Exponent.value) - (fraction.length : ℤ))
    some (if numeral.negative then -magnitude else magnitude)

theorem same_rat_iff (a b : ℚ) : Scalar.same a b = true ↔ a = b :=
  beq_iff_eq

instance : LawfulScalar ℚ where
  one_mul := Rat.one_mul
  add_zero_mul a b _ := .inl (by rw [Rat.zero_mul, Rat.add_zero])
  add_of_isZero a b zero := .inl (by rw [(same_rat_iff b 0).1 zero, Rat.add_zero])

end RtiAssembly
