import RtiAssembly.Number.Double
import RtiAssembly.Proofs.Emission.Terms
import RtiAssembly.Proofs.Machine.Lookup
import RtiAssembly.Proofs.Program.Fitting

/-!
# Transposed expressions

The transpose of an expression is built without evaluating it: windows are read
the other way round, known matrices are transposed, and factors change places.
It has a value where the expression has one, and that value is the transposed
value.  Factors of single numbers are exchanged on the way, but sums keep their
order, so that this holds in rounding arithmetic too.
-/

namespace RtiAssembly

/-! ## Exchanging factors -/

/-- Number systems in which factors can be exchanged, also where a product is
added in one rounding.  Nothing is asked of sums. -/
class CommutativeScalar (α : Type) [Scalar α] : Prop where
  mul_comm : ∀ a b : α, a * b = b * a
  mulAdd_comm : ∀ a b addend : α, Scalar.mulAdd a b addend = Scalar.mulAdd b a addend

instance : CommutativeScalar ℚ where
  mul_comm := Rat.mul_comm
  mulAdd_comm a b addend := congrArg (· + addend) (Rat.mul_comm a b)

namespace Double

open Float.Model in
theorem unpacked_mul_comm (format : Format) (a b : UnpackedFloat) :
    a.mul format b = b.mul format a := by
  have signs (first second : UnpackedFloat.Sign) : first * second = second * first := by
    cases first <;> cases second <;> rfl
  cases a <;> cases b <;>
    simp only [UnpackedFloat.mul, signs, Nat.mul_comm, Int.add_comm]

protected theorem mul_comm (a b : Float) : a * b = b * a :=
  congrArg (fun product => Float.ofModel (Float.Model.pack product))
    (unpacked_mul_comm .binary64 a.toModel.unpack b.toModel.unpack)

protected theorem Dyadic.mul_comm (a b : Dyadic) : a.mul b = b.mul a := by
  simp only [Dyadic.mul, bne_comm, Nat.mul_comm, Int.add_comm]

theorem mulAdd_comm (a b addend : Float) : mulAdd a b addend = mulAdd b a addend := by
  have same : (a.isFinite && b.isFinite && a != 0 && b != 0) =
      (b.isFinite && a.isFinite && b != 0 && a != 0) := by
    ac_rfl
  unfold mulAdd
  rw [same, Dyadic.mul_comm, Double.mul_comm]

end Double

/-- The factors of rounded products can be exchanged. -/
instance : CommutativeScalar Float where
  mul_comm := Double.mul_comm
  mulAdd_comm := Double.mulAdd_comm

/-! ## Transposed matrices -/

namespace Matrix

section Laws

variable {α : Type} [Scalar α]

theorem transpose_ofFn (rows cols : Nat) (value : Nat → Nat → α) :
    (ofFn rows cols value).transpose = ofFn cols rows fun row col => value col row :=
  ofFn_congr fun _ row_lt _ col_lt => entry_ofFn value col_lt row_lt

@[simp]
theorem transpose_transpose (matrix : Matrix α) : matrix.transpose.transpose = matrix :=
  calc matrix.transpose.transpose = ofFn matrix.rows matrix.cols matrix.entry :=
        transpose_ofFn _ _ _
    _ = matrix := matrix.ofFn_entry

theorem transpose_add (left right : Matrix α) :
    (left.add right).transpose = left.transpose.add right.transpose := by
  rw [add, transpose_ofFn, add]
  simp only [entry_transpose]
  rfl

theorem transpose_sub (left right : Matrix α) :
    (left.sub right).transpose = left.transpose.sub right.transpose := by
  rw [sub, transpose_ofFn, sub]
  simp only [entry_transpose]
  rfl

theorem transpose_abs (matrix : Matrix α) : matrix.abs.transpose = matrix.transpose.abs := by
  rw [abs, transpose_ofFn, abs]
  simp only [entry_transpose]
  rfl

end Laws

/-! ### Products -/

section Products

variable {α : Type} [Scalar α] [CommutativeScalar α] {left right : Matrix α}

/-- An entry of a transposed product adds the same terms in the same order. -/
theorem terms_transpose (meet : left.cols = right.rows) (row col : Nat) :
    right.transpose.terms left.transpose col row = left.terms right row col := by
  have count_eq : right.transpose.cols = left.cols := meet.symm
  rw [terms, terms, count_eq]
  refine List.map_congr_left fun inner _ => ?_
  rw [entry_transpose, entry_transpose, CommutativeScalar.mul_comm]

theorem fusedSum_transpose (row col first count : Nat) :
    right.transpose.fusedSum left.transpose col row first count =
      left.fusedSum right row col first count := by
  simp only [fusedSum, entry_transpose]
  exact congrArg (fun step => (List.range' first count).foldl step 0)
    (funext fun sum => funext fun inner => CommutativeScalar.mulAdd_comm _ _ sum)

/-- An entry of a large transposed product adds the same parts in the same order. -/
theorem partSums_transpose (meet : left.cols = right.rows) (row col : Nat) :
    right.transpose.partSums left.transpose col row = left.partSums right row col := by
  have count_eq : right.transpose.cols = left.cols := meet.symm
  simp only [partSums, count_eq, fusedSum_transpose]

theorem productEntry_transpose (meet : left.cols = right.rows) (row col : Nat) :
    right.transpose.productEntry left.transpose col row = left.productEntry right row col := by
  have large_eq : right.transpose.isLargeProduct left.transpose = left.isLargeProduct right := by
    have count_eq : right.transpose.cols = left.cols := meet.symm
    simp only [isLargeProduct, count_eq]
    exact congrArg (· && decide (5 < left.cols)) (Bool.and_comm _ _)
  rw [productEntry, productEntry, large_eq, terms_transpose meet, partSums_transpose meet]

theorem transpose_mul (meet : left.cols = right.rows) :
    (left.mul right).transpose = right.transpose.mul left.transpose := by
  rw [mul, transpose_ofFn]
  exact ofFn_congr fun row _ col _ => (productEntry_transpose meet col row).symm

end Products

end Matrix

/-! ## Transposed windows -/

namespace Window

@[simp]
theorem transpose_transpose (window : Window) : window.transpose.transpose = window := by
  simp [transpose]

end Window

namespace Frame

variable {α : Type} {sizes : List Nat} {frame : Frame} {store : Store α sizes} {window : Window}

theorem locate_transpose (frame : Frame) (store : Store α sizes) (window : Window)
    (distance : Nat) :
    frame.locate store window.transpose distance = frame.locate store window distance := rfl

theorem check_eq_ok_iff :
    frame.check store window = .ok () ↔
      ∀ row < window.shape.1, ∀ col < window.shape.2,
        ∃ cell, frame.locate store window (window.position row col) = .ok cell := by
  constructor
  · exact fun checked _ row_lt _ col_lt => locate_of_check checked row_lt col_lt
  · intro found
    rw [check, sweepPositions_eq_forM]
    apply forM_eq_ok
    rintro ⟨row, col⟩ mem
    obtain ⟨row_lt, col_lt⟩ := Window.mem_positions.1 mem
    obtain ⟨cell, located⟩ := found row row_lt col col_lt
    simp only [located]
    rfl

/-- Elements are visited in another order, but they are the same ones. -/
theorem check_transpose (checked : frame.check store window = .ok ()) :
    frame.check store window.transpose = .ok () := by
  rw [check_eq_ok_iff] at checked ⊢
  intro row row_lt col col_lt
  rw [Window.shape_transpose] at row_lt col_lt
  rw [locate_transpose, Window.position_transpose]
  exact checked col col_lt row row_lt

variable [Scalar α]

theorem view_transpose (frame : Frame) (store : Store α sizes) (window : Window) :
    frame.view store window.transpose = (frame.view store window).transpose := by
  rw [view, view, Matrix.transpose_ofFn, Window.shape_transpose]
  simp only [locate_transpose, Window.position_transpose]
  rfl

end Frame

/-! ## Transposed expressions -/

namespace Expr

section Syntax

variable {α : Type}

/-- The windows that an expression reads, those of sums and differences from left
to right and those of products from right to left. -/
def swappedWindows : Expr α → List Window
  | .read window => [window]
  | .known _ => []
  | .add left right => left.swappedWindows ++ right.swappedWindows
  | .sub left right => left.swappedWindows ++ right.swappedWindows
  | .mul left right => right.swappedWindows ++ left.swappedWindows
  | .abs inner => inner.swappedWindows

theorem perm_swappedWindows (expr : Expr α) : expr.swappedWindows.Perm expr.windows := by
  induction expr with
  | read window => exact .refl _
  | known value => exact .refl _
  | add left right leftPerm rightPerm => exact leftPerm.append rightPerm
  | sub left right leftPerm rightPerm => exact leftPerm.append rightPerm
  | mul left right leftPerm rightPerm =>
      exact (rightPerm.append leftPerm).trans List.perm_append_comm
  | abs inner innerPerm => exact innerPerm

theorem sameShape?_swap (left right : Option (Nat × Nat)) :
    shape?.sameShape? (left.map Prod.swap) (right.map Prod.swap) =
      (shape?.sameShape? left right).map Prod.swap := by
  obtain _ | first := left
  · rfl
  · obtain _ | second := right
    · rfl
    · by_cases same : first = second <;> simp [shape?.sameShape?, same]

theorem productShape?_swap (left right : Option (Nat × Nat)) :
    shape?.productShape? (right.map Prod.swap) (left.map Prod.swap) =
      (shape?.productShape? left right).map Prod.swap := by
  obtain _ | first := left
  · cases right <;> rfl
  · obtain _ | second := right
    · rfl
    · by_cases meet : first.2 = second.1
      · simp [shape?.productShape?, meet]
      · simp [shape?.productShape?, meet, Ne.symm meet]

variable [Scalar α]

@[simp]
theorem transpose_transpose (expr : Expr α) : expr.transpose.transpose = expr := by
  induction expr with
  | read window => simp [transpose]
  | known value => simp [transpose]
  | add left right leftBack rightBack => rw [transpose, transpose, leftBack, rightBack]
  | sub left right leftBack rightBack => rw [transpose, transpose, leftBack, rightBack]
  | mul left right leftBack rightBack => rw [transpose, transpose, leftBack, rightBack]
  | abs inner innerBack => rw [transpose, transpose, innerBack]

/-- Rows and columns of the shape change places; where operands do not fit
together, those of the transposed expression do not either. -/
theorem shape?_transpose (expr : Expr α) : expr.transpose.shape? = expr.shape?.map Prod.swap := by
  induction expr with
  | read window => simp [transpose, shape?]
  | known value => rfl
  | add left right leftShape rightShape =>
      rw [transpose, shape?, shape?, leftShape, rightShape, sameShape?_swap]
  | sub left right leftShape rightShape =>
      rw [transpose, shape?, shape?, leftShape, rightShape, sameShape?_swap]
  | mul left right leftShape rightShape =>
      rw [transpose, shape?, shape?, leftShape, rightShape, productShape?_swap]
  | abs inner innerShape => exact innerShape

theorem windows_transpose (expr : Expr α) :
    expr.transpose.windows = expr.swappedWindows.map Window.transpose := by
  induction expr with
  | read window => rfl
  | known value => rfl
  | add left right leftWindows rightWindows =>
      rw [transpose, windows, leftWindows, rightWindows, swappedWindows, List.map_append]
  | sub left right leftWindows rightWindows =>
      rw [transpose, windows, leftWindows, rightWindows, swappedWindows, List.map_append]
  | mul left right leftWindows rightWindows =>
      rw [transpose, windows, leftWindows, rightWindows, swappedWindows, List.map_append]
  | abs inner innerWindows => exact innerWindows

end Syntax

end Expr

/-! ## Evaluation -/

namespace Frame

variable {α : Type} {sizes : List Nat} [Scalar α]

/-- What it means that an expression evaluates to a matrix: all elements that it
reads lie in their arrays, and only matrices that fit together are combined. -/
inductive Evaluates (frame : Frame) (store : Store α sizes) : Expr α → Matrix α → Prop
  | read {window : Window} (checked : frame.check store window = .ok ()) :
      Evaluates frame store (.read window) (frame.view store window)
  | known (value : Matrix α) : Evaluates frame store (.known value) value
  | add {left right : Expr α} {first second : Matrix α}
      (leftEvaluates : Evaluates frame store left first)
      (rightEvaluates : Evaluates frame store right second)
      (same : first.shape = second.shape) :
      Evaluates frame store (.add left right) (first.add second)
  | sub {left right : Expr α} {first second : Matrix α}
      (leftEvaluates : Evaluates frame store left first)
      (rightEvaluates : Evaluates frame store right second)
      (same : first.shape = second.shape) :
      Evaluates frame store (.sub left right) (first.sub second)
  | mul {left right : Expr α} {first second : Matrix α}
      (leftEvaluates : Evaluates frame store left first)
      (rightEvaluates : Evaluates frame store right second)
      (meet : first.cols = second.rows) :
      Evaluates frame store (.mul left right) (first.mul second)
  | abs {inner : Expr α} {value : Matrix α} (evaluates : Evaluates frame store inner value) :
      Evaluates frame store (.abs inner) value.abs

variable {frame : Frame} {store : Store α sizes} {expr : Expr α} {value : Matrix α}

theorem evaluate_eq_ok_iff :
    frame.evaluate store expr = .ok value ↔
      (∀ window ∈ expr.windows, frame.check store window = .ok ()) ∧
        expr.value (frame.view store) = value := by
  constructor
  · intro evaluated
    cases checked : expr.windows.forM (frame.check store) with
    | error fault =>
        rw [evaluate, checked] at evaluated
        contradiction
    | ok done =>
        rw [evaluate, checked] at evaluated
        exact ⟨eq_ok_of_forM checked, Except.ok.inj evaluated⟩
  · rintro ⟨passes, rfl⟩
    rw [evaluate, forM_eq_ok passes]
    rfl

theorem Evaluates.shape?_eq (evaluates : frame.Evaluates store expr value) :
    expr.shape? = some value.shape := by
  induction evaluates with
  | read checked => rfl
  | known value => rfl
  | add _ _ same leftShape rightShape =>
      rw [Expr.shape?, leftShape, rightShape]
      exact if_pos same
  | sub _ _ same leftShape rightShape =>
      rw [Expr.shape?, leftShape, rightShape]
      exact if_pos same
  | mul _ _ meet leftShape rightShape =>
      rw [Expr.shape?, leftShape, rightShape]
      exact if_pos meet
  | abs _ innerShape => exact innerShape

theorem Evaluates.evaluate_eq (evaluates : frame.Evaluates store expr value) :
    frame.evaluate store expr = .ok value := by
  rw [evaluate_eq_ok_iff]
  induction evaluates with
  | read checked => exact ⟨List.forall_mem_singleton.2 checked, rfl⟩
  | known value => exact ⟨fun _ mem => absurd mem List.not_mem_nil, rfl⟩
  | add _ _ _ leftEq rightEq =>
      exact ⟨List.forall_mem_append.2 ⟨leftEq.1, rightEq.1⟩, congrArg₂ Matrix.add leftEq.2 rightEq.2⟩
  | sub _ _ _ leftEq rightEq =>
      exact ⟨List.forall_mem_append.2 ⟨leftEq.1, rightEq.1⟩, congrArg₂ Matrix.sub leftEq.2 rightEq.2⟩
  | mul _ _ _ leftEq rightEq =>
      exact ⟨List.forall_mem_append.2 ⟨leftEq.1, rightEq.1⟩, congrArg₂ Matrix.mul leftEq.2 rightEq.2⟩
  | abs _ innerEq => exact ⟨innerEq.1, congrArg Matrix.abs innerEq.2⟩

theorem evaluates_of_shaped {shape : Nat × Nat} (shaped : expr.shape? = some shape)
    (passes : ∀ window ∈ expr.windows, frame.check store window = .ok ()) :
    frame.Evaluates store expr (expr.value (frame.view store)) := by
  have shapeOf {expr : Expr α} {shape : Nat × Nat} (shaped : expr.shape? = some shape) :
      (expr.value (frame.view store)).shape = shape := Expr.shape_value shaped fun _ => rfl
  induction expr generalizing shape with
  | read window => exact .read (passes window (List.mem_singleton_self window))
  | known value => exact .known value
  | add left right leftEvaluates rightEvaluates =>
      obtain ⟨leftShaped, rightShaped⟩ := Expr.shape?_of_same shaped
      obtain ⟨leftPasses, rightPasses⟩ := List.forall_mem_append.1 passes
      exact .add (leftEvaluates leftShaped leftPasses) (rightEvaluates rightShaped rightPasses)
        ((shapeOf leftShaped).trans (shapeOf rightShaped).symm)
  | sub left right leftEvaluates rightEvaluates =>
      obtain ⟨leftShaped, rightShaped⟩ := Expr.shape?_of_same shaped
      obtain ⟨leftPasses, rightPasses⟩ := List.forall_mem_append.1 passes
      exact .sub (leftEvaluates leftShaped leftPasses) (rightEvaluates rightShaped rightPasses)
        ((shapeOf leftShaped).trans (shapeOf rightShaped).symm)
  | mul left right leftEvaluates rightEvaluates =>
      obtain ⟨inner, leftShaped, rightShaped⟩ := Expr.shape?_of_product shaped
      obtain ⟨leftPasses, rightPasses⟩ := List.forall_mem_append.1 passes
      have cols_eq := congrArg Prod.snd (shapeOf leftShaped)
      have rows_eq := congrArg Prod.fst (shapeOf rightShaped)
      exact .mul (leftEvaluates leftShaped leftPasses) (rightEvaluates rightShaped rightPasses)
        (cols_eq.trans rows_eq.symm)
  | abs inner innerEvaluates => exact .abs (innerEvaluates shaped passes)

/-- An expression evaluates exactly if its operands fit together and the machine
computes its value. -/
theorem evaluates_iff :
    frame.Evaluates store expr value ↔
      expr.shape? = some value.shape ∧ frame.evaluate store expr = .ok value := by
  constructor
  · exact fun evaluates => ⟨evaluates.shape?_eq, evaluates.evaluate_eq⟩
  · rintro ⟨shaped, evaluated⟩
    obtain ⟨passes, rfl⟩ := evaluate_eq_ok_iff.1 evaluated
    exact evaluates_of_shaped shaped passes

variable [CommutativeScalar α]

theorem Evaluates.transpose (evaluates : frame.Evaluates store expr value) :
    frame.Evaluates store expr.transpose value.transpose := by
  induction evaluates with
  | read checked =>
      rw [← view_transpose]
      exact .read (check_transpose checked)
  | known value => exact .known _
  | add _ _ same leftTransposed rightTransposed =>
      rw [Matrix.transpose_add]
      exact .add leftTransposed rightTransposed (congrArg Prod.swap same)
  | sub _ _ same leftTransposed rightTransposed =>
      rw [Matrix.transpose_sub]
      exact .sub leftTransposed rightTransposed (congrArg Prod.swap same)
  | mul _ _ meet leftTransposed rightTransposed =>
      rw [Matrix.transpose_mul meet]
      exact .mul rightTransposed leftTransposed meet.symm
  | abs _ innerTransposed =>
      rw [Matrix.transpose_abs]
      exact .abs innerTransposed

end Frame

/-- Transposing an expression transposes its value.  Rows and columns of the shape
change places, and operands fit together exactly if they did before.  Transposing
twice gives the expression back.  The windows that are read are those of the
expression, each transposed, with the factors of a product in the other order.
Wherever the expression evaluates, its transpose evaluates to the transposed
matrix, and each entry of a product adds the same terms, or parts of a large sum,
in the same order. -/
theorem transpose_transposes {α : Type} [Scalar α] [CommutativeScalar α] (expr : Expr α) :
    expr.transpose.shape? = expr.shape?.map Prod.swap ∧
      (expr.transpose.shape? = none ↔ expr.shape? = none) ∧
      expr.transpose.transpose = expr ∧
      expr.transpose.windows = expr.swappedWindows.map Window.transpose ∧
      expr.swappedWindows.Perm expr.windows ∧
      (∀ {sizes : List Nat} (frame : Frame) (store : Store α sizes) (value : Matrix α),
        (frame.Evaluates store expr value ↔
            expr.shape? = some value.shape ∧ frame.evaluate store expr = .ok value) ∧
          (frame.Evaluates store expr value →
            frame.Evaluates store expr.transpose value.transpose ∧
              frame.evaluate store expr.transpose = .ok value.transpose)) ∧
      ∀ left right : Matrix α, left.cols = right.rows →
        (left.mul right).transpose = right.transpose.mul left.transpose ∧
          ∀ row col, right.transpose.terms left.transpose col row = left.terms right row col ∧
            right.transpose.partSums left.transpose col row = left.partSums right row col := by
  refine ⟨expr.shape?_transpose, ?_, expr.transpose_transpose, expr.windows_transpose,
    expr.perm_swappedWindows, fun frame store value => ⟨Frame.evaluates_iff, fun evaluates => ?_⟩,
    fun left right meet => ⟨Matrix.transpose_mul meet, fun row col => ?_⟩⟩
  · rw [expr.shape?_transpose, Option.map_eq_none_iff]
  · exact ⟨evaluates.transpose, evaluates.transpose.evaluate_eq⟩
  · exact ⟨Matrix.terms_transpose meet row col, Matrix.partSums_transpose meet row col⟩

/-- The rows of a block, weighted and shifted, become columns. -/
theorem transpose_transposes_weighting :
    let frame : Frame := ⟨"weigh", [], 0, [("i", 1)]⟩
    let store : Store ℚ [12] := ⟨⟨#[#[1, 2, 3, 4, 5, 6, 7, 8, 9, 10, 11, 12]], rfl⟩, #[]⟩
    let block : Window := ⟨.global 0, ⟨some ("i", 3), 1⟩, 2, 2, 3, false⟩
    let expr : Expr ℚ :=
      .sub (.mul (.read block) (.known (.ofRows 2 3 [[1, 2, 0], [0, 1, 1]])))
        (.read (.dense (.global 0) (.const 0) 2 3))
    let value := expr.value (frame.view store)
    frame.Evaluates store expr value ∧ value.toRows = [[4, 14, 3], [4, 20, 3]] ∧
      frame.evaluate store expr.transpose = .ok value.transpose ∧
      value.transpose.toRows = [[4, 4], [14, 20], [3, 3]] := by
  intro frame store block expr value
  have passes : ∀ window ∈ expr.windows, frame.check store window = .ok () := by decide
  have evaluates : frame.Evaluates store expr value :=
    Frame.evaluates_of_shaped (rfl : expr.shape? = some (2, 3)) passes
  obtain ⟨_, _, _, _, _, values, _⟩ := transpose_transposes expr
  refine ⟨evaluates, ?_, ((values frame store value).2 evaluates).2, ?_⟩
  · decide +kernel
  · decide +kernel

end RtiAssembly
