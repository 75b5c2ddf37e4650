import RtiAssembly.Proofs.Number.Laws

/-!
# Exact number systems

Generated code computes one element at a time and folds known numbers, so the
order of its operations is not that of the matrix operations.  In rounding
arithmetic the results may differ in the last digit; an exact number system has
the laws under which they are the same.
-/

namespace RtiAssembly

/-- The laws of exact arithmetic that folding and reordering use. -/
class ExactScalar (α : Type) [Scalar α] : Prop where
  add_assoc : ∀ a b c : α, a + b + c = a + (b + c)
  zero_add : ∀ a : α, 0 + a = a
  add_zero : ∀ a : α, a + 0 = a
  zero_mul : ∀ a : α, 0 * a = 0
  mul_zero : ∀ a : α, a * 0 = 0
  one_mul : ∀ a : α, 1 * a = a
  mul_one : ∀ a : α, a * 1 = a
  neg_one_mul : ∀ a : α, -1 * a = -a
  mul_neg_one : ∀ a : α, a * -1 = -a
  add_neg : ∀ a b : α, a + -b = a - b
  sub_neg : ∀ a b : α, a - -b = a + b
  zero_sub : ∀ a : α, 0 - a = -a
  sub_zero : ∀ a : α, a - 0 = a
  mulAdd_eq : ∀ a b c : α, Scalar.mulAdd a b c = c + a * b
  /-- Only equal numbers compare as the same. -/
  eq_of_same : ∀ a b : α, Scalar.same a b = true → a = b
  ofInt_zero : (Scalar.ofInt 0 : α) = 0
  /-- A whole number has no fraction to lose. -/
  ofInt_truncate : ∀ n : Int,
    (Scalar.ofInt (Scalar.truncate (Scalar.ofInt n : α)) : α) = Scalar.ofInt n

/-- The laws of exact arithmetic under which products regroup. -/
class ExactProducts (α : Type) [Scalar α] : Prop extends ExactScalar α where
  mul_assoc : ∀ a b c : α, a * b * c = a * (b * c)
  neg_mul : ∀ a b : α, -a * b = -(a * b)

namespace ExactScalar

variable {α : Type} [Scalar α] [ExactScalar α]

theorem neg_neg (a : α) : - -a = a := by
  rw [← zero_sub, sub_neg, zero_add]

theorem add_sub (a b c : α) : a + b - c = a + (b - c) := by
  rw [← add_neg, add_assoc, add_neg]

end ExactScalar

namespace Scalar

variable {α : Type} [Scalar α]

/-- Dropping the fraction leaves a number as it is. -/
def IsWhole (value : α) : Prop :=
  Scalar.ofInt (Scalar.truncate value) = value

variable [ExactScalar α]

theorem isWhole_ofInt (n : Int) : IsWhole (Scalar.ofInt n : α) :=
  ExactScalar.ofInt_truncate n

theorem isWhole_zero : IsWhole (0 : α) := by
  have whole := isWhole_ofInt (α := α) 0
  rwa [ExactScalar.ofInt_zero] at whole

/-! ## Sums -/

/-- The sum of the first values of a sequence, from left to right. -/
def total (value : Nat → α) (count : Nat) : α :=
  (List.range count).foldl (fun sum position => sum + value position) 0

omit [ExactScalar α] in
theorem total_succ (value : Nat → α) (count : Nat) :
    total value (count + 1) = total value count + value count := by
  simp [total, List.range_succ]

theorem foldl_range' (value : Nat → α) (start : α) (first count : Nat) :
    (List.range' first count).foldl (fun sum position => sum + value position) start =
      start + (List.range' first count).foldl (fun sum position => sum + value position) 0 := by
  induction count generalizing start first with
  | zero => exact (ExactScalar.add_zero start).symm
  | succ count ih =>
      rw [List.range'_succ, List.foldl_cons, List.foldl_cons, ih, ih (0 + value first),
        ExactScalar.zero_add, ExactScalar.add_assoc]

/-- A sum can be cut into two. -/
theorem total_add (value : Nat → α) (first count : Nat) :
    total value (first + count) =
      total value first +
        (List.range' first count).foldl (fun sum position => sum + value position) 0 := by
  have split : List.range (first + count) = List.range first ++ List.range' first count := by
    have joined := @List.range'_append_1 0 first count
    rw [Nat.zero_add] at joined
    rw [List.range_eq_range', List.range_eq_range', joined]
  rw [total, split, List.foldl_append, foldl_range']
  rfl

theorem foldl_eq_sum (values : List α) : values.foldl (· + ·) 0 = Scalar.sum values := by
  cases values with
  | nil => rfl
  | cons first rest => rw [List.foldl_cons, ExactScalar.zero_add, Scalar.sum]

end Scalar

/-! ## Products -/

namespace Matrix

open Scalar

variable {α : Type} [Scalar α] [ExactScalar α]

/-- Terms that are multiplied and added in one step have the same sum. -/
theorem fusedSum_eq (left right : Matrix α) (row col first count : Nat) :
    left.fusedSum right row col first count =
      (List.range' first count).foldl
        (fun sum inner => sum + left.entry row inner * right.entry inner col) 0 := by
  simp only [fusedSum, ExactScalar.mulAdd_eq]

/-- Parts one after the other add up to their terms. -/
theorem foldl_partSums (left right : Matrix α) (row col parts : Nat) :
    ((List.range parts).map fun part =>
        left.fusedSum right row col (part * partLength)
          (min partLength (left.cols - part * partLength))).foldl (· + ·) 0 =
      total (fun inner => left.entry row inner * right.entry inner col)
        (min (parts * partLength) left.cols) := by
  induction parts with
  | zero => simp [total]
  | succ parts ih =>
      rw [List.range_succ, List.map_append, List.foldl_append, ih]
      simp only [List.map_cons, List.map_nil, List.foldl_cons, List.foldl_nil, fusedSum_eq]
      rcases Nat.le_total left.cols (parts * partLength) with covered | open_part
      · have none_left : min partLength (left.cols - parts * partLength) = 0 := by omega
        have stays : min ((parts + 1) * partLength) left.cols =
            min (parts * partLength) left.cols := by
          rw [Nat.succ_mul]
          omega
        rw [none_left, stays]
        exact ExactScalar.add_zero _
      · have grows : min ((parts + 1) * partLength) left.cols =
            parts * partLength + min partLength (left.cols - parts * partLength) := by
          rw [Nat.succ_mul]
          omega
        rw [Nat.min_eq_left open_part, grows, total_add]

/-- The entry of a product is the sum of its terms, however large it is. -/
theorem productEntry_eq (left right : Matrix α) (row col : Nat) :
    left.productEntry right row col =
      total (fun inner => left.entry row inner * right.entry inner col) left.cols := by
  unfold productEntry
  split
  · have covers : min ((left.cols + partLength - 1) / partLength * partLength) left.cols =
        left.cols := by
      unfold partLength
      omega
    rw [← foldl_eq_sum, partSums, foldl_partSums, covers]
  · rw [← foldl_eq_sum, terms, List.foldl_map]
    rfl

end Matrix

instance : ExactScalar ℚ where
  add_assoc := Rat.add_assoc
  zero_add := Rat.zero_add
  add_zero := Rat.add_zero
  zero_mul := Rat.zero_mul
  mul_zero := Rat.mul_zero
  one_mul := Rat.one_mul
  mul_one := Rat.mul_one
  neg_one_mul := neg_one_mul
  mul_neg_one a := mul_neg_one a
  add_neg a b := (sub_eq_add_neg a b).symm
  sub_neg := sub_neg_eq_add
  zero_sub := zero_sub
  sub_zero := sub_zero
  mulAdd_eq a b c := add_comm (a * b) c
  eq_of_same a b := (same_rat_iff a b).1
  ofInt_zero := Int.cast_zero
  ofInt_truncate n := by simp [Scalar.ofInt, Scalar.truncate]

instance : ExactProducts ℚ where
  mul_assoc := Rat.mul_assoc
  neg_mul := neg_mul

end RtiAssembly
