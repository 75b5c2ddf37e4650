import RtiAssembly.Proofs.Emission.Semantics
import RtiAssembly.Proofs.Number.Exact

/-!
# Values of terms

Folding known numbers keeps the value of a term, and the term of an element of
an expression has the value of that element.  Which elements of windows such a
term depends on is said by the expression alone.
-/

namespace RtiAssembly

namespace Term

variable {α : Type} [Scalar α] {read : Place → Option α} {left right inner : Term α} {a b : α}

/-! ## Known numbers -/

omit [Scalar α] in
theorem eq_number {value : α} (isNumber : inner.number? = some value) : inner = .number value := by
  cases inner <;> cases isNumber
  rfl

theorem value_of_number? {value : α} (isNumber : inner.number? = some value)
    (has : inner.value? read = some a) : a = value := by
  rw [eq_number isNumber, value?, Option.some.injEq] at has
  exact has.symm

variable [ExactScalar α]

theorem value_of_isNumber {value : α} (isNumber : inner.isNumber value = true)
    (has : inner.value? read = some a) : a = value := by
  obtain ⟨number, found, same⟩ := (Option.any_eq_true _ _).1 isNumber
  rw [value_of_number? found has]
  exact ExactScalar.eq_of_same _ _ same

theorem value_of_isZero (zero : inner.isZero = true) (has : inner.value? read = some a) :
    a = 0 := by
  have isNumber : inner.isNumber 0 = true := zero
  exact value_of_isNumber isNumber has

/-! ## Folding -/

omit [ExactScalar α] in
theorem value?_neg (has : inner.value? read = some a) : inner.neg.value? read = some (-a) := by
  unfold neg
  split
  · rename_i value found
    rw [value?, value_of_number? found has]
  · simp only [value?, has, Option.map_some]

omit [ExactScalar α] in
theorem value?_abs (has : inner.value? read = some a) :
    inner.abs.value? read = some (Scalar.abs a) := by
  unfold abs
  split
  · rename_i value found
    rw [value?, value_of_number? found has]
  · simp only [value?, has, Option.map_some]

omit [ExactScalar α] in
theorem value?_sum (first : left.value? read = some a) (second : right.value? read = some b) :
    (Term.sum left right).value? read = some (a + b) := by
  simp only [value?, first, second, Option.bind_eq_bind, Option.bind_some]

omit [ExactScalar α] in
theorem value?_difference (first : left.value? read = some a)
    (second : right.value? read = some b) :
    (Term.difference left right).value? read = some (a - b) := by
  simp only [value?, first, second, Option.bind_eq_bind, Option.bind_some]

theorem value?_add (first : left.value? read = some a) (second : right.value? read = some b) :
    (left.add right).value? read = some (a + b) := by
  unfold add
  split
  · rename_i x y leftNumber rightNumber
    rw [value?, value_of_number? leftNumber first, value_of_number? rightNumber second]
  · by_cases leftZero : left.isZero = true
    · rw [if_pos leftZero, second, value_of_isZero leftZero first, ExactScalar.zero_add]
    · rw [if_neg leftZero]
      by_cases rightZero : right.isZero = true
      · rw [if_pos rightZero, first, value_of_isZero rightZero second, ExactScalar.add_zero]
      · rw [if_neg rightZero]
        split
        · rename_i y rightNumber
          split
          · rw [value?_difference first rfl, ← value_of_number? rightNumber second,
              ExactScalar.sub_neg]
          · exact value?_sum first second
        · exact value?_sum first second

theorem value?_sub (first : left.value? read = some a) (second : right.value? read = some b) :
    (left.sub right).value? read = some (a - b) := by
  unfold sub
  split
  · rename_i x y leftNumber rightNumber
    rw [value?, value_of_number? leftNumber first, value_of_number? rightNumber second]
  · by_cases rightZero : right.isZero = true
    · rw [if_pos rightZero, first, value_of_isZero rightZero second, ExactScalar.sub_zero]
    · rw [if_neg rightZero]
      by_cases leftZero : left.isZero = true
      · rw [if_pos leftZero, value?_neg second, value_of_isZero leftZero first,
          ExactScalar.zero_sub]
      · rw [if_neg leftZero]
        split
        · rename_i y rightNumber
          split
          · rw [value?_add first rfl, ← value_of_number? rightNumber second, ExactScalar.add_neg]
          · exact value?_difference first second
        · exact value?_difference first second

theorem value?_mul (first : left.value? read = some a) (second : right.value? read = some b) :
    (left.mul right).value? read = some (a * b) := by
  unfold mul
  by_cases zero : (left.isZero || right.isZero) = true
  · rw [if_pos zero, value?]
    rcases Bool.or_eq_true_iff.1 zero with leftZero | rightZero
    · rw [value_of_isZero leftZero first, ExactScalar.zero_mul]
    · rw [value_of_isZero rightZero second, ExactScalar.mul_zero]
  · rw [if_neg zero]
    split
    · rename_i x y leftNumber rightNumber
      rw [value?, value_of_number? leftNumber first, value_of_number? rightNumber second]
    · split_ifs with leftOne rightOne leftMinus rightMinus
      · rw [second, value_of_isNumber leftOne first, ExactScalar.one_mul]
      · rw [first, value_of_isNumber rightOne second, ExactScalar.mul_one]
      · rw [value?_neg second, value_of_isNumber leftMinus first, ExactScalar.neg_one_mul]
      · rw [value?_neg first, value_of_isNumber rightMinus second, ExactScalar.mul_neg_one]
      · simp only [value?, first, second, Option.bind_eq_bind, Option.bind_some]

/-- The folded sum of products. -/
theorem value?_products {lefts rights : Nat → Term α} {x y : Nat → α} {count : Nat}
    (has : ∀ position < count, (lefts position).value? read = some (x position) ∧
      (rights position).value? read = some (y position)) :
    ((List.range count).foldl
        (fun (sum : Term α) position => sum.add ((lefts position).mul (rights position)))
        (.number 0)).value? read =
      some (Scalar.total (fun position => x position * y position) count) := by
  induction count with
  | zero => rfl
  | succ count ih =>
      obtain ⟨first, second⟩ := has count (Nat.lt_succ_self count)
      rw [List.range_succ, List.foldl_append, Scalar.total_succ]
      exact value?_add (ih fun position inside => has position (Nat.lt_succ_of_lt inside))
        (value?_mul first second)

end Term

/-! ## What an element depends on -/

namespace Expr

variable {α : Type}

/-- The elements of windows that one element of an expression depends on. -/
def readsAt : Expr α → (row col : Nat) → List (Window × Nat × Nat)
  | .read window, row, col => [(window, row, col)]
  | .known _, _, _ => []
  | .add left right, row, col => left.readsAt row col ++ right.readsAt row col
  | .sub left right, row, col => left.readsAt row col ++ right.readsAt row col
  | .mul left right, row, col =>
      (List.range (left.shape?.elim 0 Prod.snd)).flatMap fun inner =>
        left.readsAt row inner ++ right.readsAt inner col
  | .abs inner, row, col => inner.readsAt row col

/-! ### Shapes of operands -/

theorem shape?_of_same {left right : Option (Nat × Nat)} {shape : Nat × Nat}
    (same : shape?.sameShape? left right = some shape) :
    left = some shape ∧ right = some shape := by
  cases left <;> cases right <;> simp [shape?.sameShape?] at same ⊢
  obtain ⟨rfl, rfl⟩ := same
  exact ⟨rfl, rfl⟩

theorem shape?_of_product {left right : Option (Nat × Nat)} {shape : Nat × Nat}
    (product : shape?.productShape? left right = some shape) :
    ∃ inner, left = some (shape.1, inner) ∧ right = some (inner, shape.2) := by
  obtain _ | ⟨rows, inner⟩ := left
  · contradiction
  · obtain _ | ⟨rowsRight, cols⟩ := right
    · contradiction
    · simp [shape?.productShape?] at product
      obtain ⟨rfl, rfl⟩ := product
      exact ⟨_, rfl, rfl⟩

theorem mem_windows_of_readsAt {expr : Expr α} {row col : Nat} {read : Window × Nat × Nat}
    (mem : read ∈ expr.readsAt row col) : read.1 ∈ expr.windows := by
  induction expr generalizing row col with
  | read window => exact List.mem_singleton.2 (congrArg Prod.fst (List.mem_singleton.1 mem))
  | known value => cases mem
  | add left right leftIh rightIh =>
      exact List.mem_append.2 ((List.mem_append.1 mem).imp leftIh rightIh)
  | sub left right leftIh rightIh =>
      exact List.mem_append.2 ((List.mem_append.1 mem).imp leftIh rightIh)
  | mul left right leftIh rightIh =>
      obtain ⟨inner, _, mem⟩ := List.mem_flatMap.1 mem
      exact List.mem_append.2 ((List.mem_append.1 mem).imp leftIh rightIh)
  | abs inner ih => exact ih mem

/-- An element depends on elements inside the windows of its expression. -/
theorem inside_of_readsAt {expr : Expr α} {shape : Nat × Nat} (shaped : expr.shape? = some shape)
    {row col : Nat} (row_lt : row < shape.1) (col_lt : col < shape.2)
    {window : Window} {i j : Nat} (mem : (window, i, j) ∈ expr.readsAt row col) :
    window ∈ expr.windows ∧ i < window.shape.1 ∧ j < window.shape.2 := by
  constructor
  · exact mem_windows_of_readsAt mem
  induction expr generalizing shape row col with
  | read other =>
      obtain rfl := Option.some.inj shaped
      obtain ⟨rfl, rfl, rfl⟩ := by simpa [readsAt] using mem
      exact ⟨row_lt, col_lt⟩
  | known value => cases mem
  | add left right leftInside rightInside =>
      obtain ⟨leftShaped, rightShaped⟩ := shape?_of_same shaped
      rcases List.mem_append.1 mem with inLeft | inRight
      · exact leftInside leftShaped row_lt col_lt inLeft
      · exact rightInside rightShaped row_lt col_lt inRight
  | sub left right leftInside rightInside =>
      obtain ⟨leftShaped, rightShaped⟩ := shape?_of_same shaped
      rcases List.mem_append.1 mem with inLeft | inRight
      · exact leftInside leftShaped row_lt col_lt inLeft
      · exact rightInside rightShaped row_lt col_lt inRight
  | mul left right leftInside rightInside =>
      obtain ⟨inner, leftShaped, rightShaped⟩ := shape?_of_product shaped
      obtain ⟨position, position_mem, mem⟩ := List.mem_flatMap.1 mem
      rw [leftShaped, List.mem_range] at position_mem
      rcases List.mem_append.1 mem with inLeft | inRight
      · exact leftInside leftShaped row_lt position_mem inLeft
      · exact rightInside rightShaped position_mem col_lt inRight
  | abs inner innerInside => exact innerInside shaped row_lt col_lt mem

variable [Scalar α]

/-- An expression has the shape that is computed for it. -/
theorem shape_value {expr : Expr α} {shape : Nat × Nat} (shaped : expr.shape? = some shape)
    {view : Window → Matrix α} (shapes : ∀ window, (view window).shape = window.shape) :
    (expr.value view).shape = shape := by
  induction expr generalizing shape with
  | read window => exact (shapes window).trans (Option.some.inj shaped)
  | known value => exact Option.some.inj shaped
  | add left right leftShape _ => exact leftShape (shape?_of_same shaped).1
  | sub left right leftShape _ => exact leftShape (shape?_of_same shaped).1
  | mul left right leftShape rightShape =>
      obtain ⟨inner, leftShaped, rightShaped⟩ := shape?_of_product shaped
      have rows_eq := congrArg Prod.fst (leftShape leftShaped)
      have cols_eq := congrArg Prod.snd (rightShape rightShaped)
      exact Prod.ext rows_eq cols_eq
  | abs inner innerShape => exact innerShape shaped

end Expr

/-! ## Terms of elements -/

namespace Scope

variable {α : Type} [Scalar α] [ExactScalar α] {scope : Scope α} {read : Place → Option α}
  {view : Window → Matrix α}

/-- The term of an element has the value of the element. -/
theorem value?_element {expr : Expr α} {shape : Nat × Nat} (shaped : expr.shape? = some shape)
    (shapes : ∀ window, (view window).shape = window.shape)
    {row col : Nat} (row_lt : row < shape.1) (col_lt : col < shape.2)
    (reads : ∀ window i j, (window, i, j) ∈ expr.readsAt row col →
      (scope.read window i j).value? read = some ((view window).entry i j)) :
    (scope.element expr row col).value? read = some ((expr.value view).entry row col) := by
  induction expr generalizing shape row col with
  | read window => exact reads window row col (List.mem_singleton_self _)
  | known value => rfl
  | add left right leftValue rightValue =>
      obtain ⟨leftShaped, rightShaped⟩ := Expr.shape?_of_same shaped
      have first := leftValue leftShaped row_lt col_lt fun window i j mem =>
        reads window i j (List.mem_append_left _ mem)
      have second := rightValue rightShaped row_lt col_lt fun window i j mem =>
        reads window i j (List.mem_append_right _ mem)
      have leftShape := Expr.shape_value leftShaped shapes
      have rows_eq : (left.value view).rows = shape.1 := congrArg Prod.fst leftShape
      have cols_eq : (left.value view).cols = shape.2 := congrArg Prod.snd leftShape
      rw [Expr.value, Matrix.add, Matrix.entry_ofFn _ (rows_eq ▸ row_lt) (cols_eq ▸ col_lt)]
      exact Term.value?_add first second
  | sub left right leftValue rightValue =>
      obtain ⟨leftShaped, rightShaped⟩ := Expr.shape?_of_same shaped
      have first := leftValue leftShaped row_lt col_lt fun window i j mem =>
        reads window i j (List.mem_append_left _ mem)
      have second := rightValue rightShaped row_lt col_lt fun window i j mem =>
        reads window i j (List.mem_append_right _ mem)
      have leftShape := Expr.shape_value leftShaped shapes
      have rows_eq : (left.value view).rows = shape.1 := congrArg Prod.fst leftShape
      have cols_eq : (left.value view).cols = shape.2 := congrArg Prod.snd leftShape
      rw [Expr.value, Matrix.sub, Matrix.entry_ofFn _ (rows_eq ▸ row_lt) (cols_eq ▸ col_lt)]
      exact Term.value?_sub first second
  | mul left right leftValue rightValue =>
      obtain ⟨inner, leftShaped, rightShaped⟩ := Expr.shape?_of_product shaped
      have inner_eq : left.shape?.elim 0 Prod.snd = inner := by rw [leftShaped]; rfl
      have leftShape := Expr.shape_value leftShaped shapes
      have rightShape := Expr.shape_value rightShaped shapes
      have rows_eq : (left.value view).rows = shape.1 := congrArg Prod.fst leftShape
      have cols_eq : (right.value view).cols = shape.2 := congrArg Prod.snd rightShape
      have terms_eq : (left.value view).cols = inner := congrArg Prod.snd leftShape
      have has : ∀ position < inner,
          (scope.element left row position).value? read =
              some ((left.value view).entry row position) ∧
            (scope.element right position col).value? read =
              some ((right.value view).entry position col) := by
        intro position inside
        have listed : position ∈ List.range (left.shape?.elim 0 Prod.snd) := by
          rw [inner_eq]
          exact List.mem_range.2 inside
        refine ⟨leftValue leftShaped row_lt inside fun window i j mem => reads window i j ?_,
          rightValue rightShaped inside col_lt fun window i j mem => reads window i j ?_⟩
        · exact List.mem_flatMap.2 ⟨position, listed, List.mem_append_left _ mem⟩
        · exact List.mem_flatMap.2 ⟨position, listed, List.mem_append_right _ mem⟩
      rw [Expr.value, Matrix.mul, Matrix.entry_ofFn _ (rows_eq ▸ row_lt) (cols_eq ▸ col_lt),
        Matrix.productEntry_eq, terms_eq]
      simp only [Scope.element, inner_eq]
      exact Term.value?_products has
  | abs inner innerValue =>
      have value := innerValue shaped row_lt col_lt reads
      have innerShape := @Expr.shape_value α _ inner shape shaped view shapes
      have rows_eq : (inner.value view).rows = shape.1 := congrArg Prod.fst innerShape
      have cols_eq : (inner.value view).cols = shape.2 := congrArg Prod.snd innerShape
      rw [Expr.value, Matrix.abs, Matrix.entry_ofFn _ (rows_eq ▸ row_lt) (cols_eq ▸ col_lt)]
      exact Term.value?_abs value

end Scope

end RtiAssembly
