import RtiAssembly.Proofs.Emission.ReadingBack
import RtiAssembly.Proofs.Emission.Stores
import RtiAssembly.Proofs.Machine.Correctness

/-!
# The code of an element

Every element of an expression has a term.  A number that it is folded to is
what an evaluation of the expression computes for the element.  Its text is read
as an expression with that value, and an access in the text is an access to the
cell in which the evaluation finds an element of a window.

Nothing is assumed about the routine or the program beyond what holds whenever a
routine runs: constant arrays hold what they were declared with, the routine's
own arrays have their declared sizes, and integer variables have the values of
the indices in scope.
-/

namespace RtiAssembly

/-! ## Accesses -/

namespace Term

variable {α : Type}

/-- The places that a term reads. -/
def places : Term α → List Place
  | .number _ => []
  | .element place => [place]
  | .magnitude inner => inner.places
  | .negation inner => inner.places
  | .sum left right => left.places ++ right.places
  | .difference left right => left.places ++ right.places
  | .product left right => left.places ++ right.places

variable [Scalar α] {left right inner : Term α} {place : Place}

theorem access_mem_factor {term : Term α} :
    .access place ∈ term.factor ↔ .access place ∈ term.lexemes := by
  cases needs : term.needsParentheses with
  | true => simp [factor_of_loose needs]
  | false => rw [factor_of_tight needs]

/-- The accesses in a written term are the places that the term reads. -/
theorem access_mem_lexemes {term : Term α} :
    .access place ∈ term.lexemes ↔ place ∈ term.places := by
  induction term with
  | number value =>
      rw [lexemes_number, places]
      split <;> simp
  | element other => simp [lexemes_element, places]
  | magnitude inner ih => simp [lexemes_magnitude, places, ih]
  | negation inner ih => simp [lexemes_negation, places, access_mem_factor, ih]
  | sum left right leftIff rightIff => simp [lexemes_sum, places, leftIff, rightIff]
  | difference left right leftIff rightIff =>
      simp [lexemes_difference, places, access_mem_factor, leftIff, rightIff]
  | product left right leftIff rightIff =>
      simp [lexemes_product, places, access_mem_factor, leftIff, rightIff]

/-! ### Folding adds no access -/

theorem mem_places_neg (mem : place ∈ inner.neg.places) : place ∈ inner.places := by
  unfold neg at mem
  split at mem
  · cases mem
  · exact mem

theorem mem_places_abs (mem : place ∈ inner.abs.places) : place ∈ inner.places := by
  unfold abs at mem
  split at mem
  · cases mem
  · exact mem

theorem mem_places_add (mem : place ∈ (left.add right).places) :
    place ∈ left.places ∨ place ∈ right.places := by
  unfold add at mem
  split at mem
  · cases mem
  · split_ifs at mem
    · exact .inr mem
    · exact .inl mem
    · split at mem
      · split_ifs at mem
        · exact .inl (by simpa [places] using mem)
        · exact List.mem_append.1 mem
      · exact List.mem_append.1 mem

theorem mem_places_sub (mem : place ∈ (left.sub right).places) :
    place ∈ left.places ∨ place ∈ right.places := by
  unfold sub at mem
  split at mem
  · cases mem
  · split_ifs at mem
    · exact .inl mem
    · exact .inr (mem_places_neg mem)
    · split at mem
      · split_ifs at mem
        · exact .inl ((mem_places_add mem).resolve_right List.not_mem_nil)
        · exact List.mem_append.1 mem
      · exact List.mem_append.1 mem

theorem mem_places_mul (mem : place ∈ (left.mul right).places) :
    place ∈ left.places ∨ place ∈ right.places := by
  unfold mul at mem
  split at mem
  · cases mem
  · split at mem
    · cases mem
    · split_ifs at mem
      · exact .inr mem
      · exact .inl mem
      · exact .inr (mem_places_neg mem)
      · exact .inl (mem_places_neg mem)
      · exact List.mem_append.1 mem

/-- A folded sum of products reads what one of the factors reads. -/
theorem mem_places_products {lefts rights : Nat → Term α} {count : Nat}
    (mem : place ∈ ((List.range count).foldl
      (fun (sum : Term α) position => sum.add ((lefts position).mul (rights position)))
      (.number 0)).places) :
    ∃ position < count, place ∈ (lefts position).places ∨ place ∈ (rights position).places := by
  induction count with
  | zero => cases mem
  | succ count ih =>
      rw [List.range_succ, List.foldl_append] at mem
      rcases mem_places_add mem with earlier | last
      · obtain ⟨position, position_lt, here⟩ := ih earlier
        exact ⟨position, Nat.lt_succ_of_lt position_lt, here⟩
      · exact ⟨count, Nat.lt_succ_self count, mem_places_mul last⟩

end Term

/-! ## Terms of elements -/

namespace Scope

variable {α : Type} [Scalar α] {scope : Scope α} {place : Place}

theorem mem_places_read {window : Window} {row col : Nat}
    (mem : place ∈ (scope.read window row col).places) : place = window.place row col := by
  simp only [read] at mem
  split at mem
  · cases mem
  · exact List.mem_singleton.1 mem

/-- The term of an element reads only what is read for elements that the element
depends on. -/
theorem exists_read_of_mem_places {expr : Expr α} {row col : Nat}
    (mem : place ∈ (scope.element expr row col).places) :
    ∃ window i j, (window, i, j) ∈ expr.readsAt row col ∧
      place ∈ (scope.read window i j).places := by
  induction expr generalizing row col with
  | read window => exact ⟨window, row, col, List.mem_singleton_self _, mem⟩
  | known value => cases mem
  | add left right leftReads rightReads =>
      rcases Term.mem_places_add mem with inLeft | inRight
      · obtain ⟨window, i, j, listed, here⟩ := leftReads inLeft
        exact ⟨window, i, j, List.mem_append_left _ listed, here⟩
      · obtain ⟨window, i, j, listed, here⟩ := rightReads inRight
        exact ⟨window, i, j, List.mem_append_right _ listed, here⟩
  | sub left right leftReads rightReads =>
      rcases Term.mem_places_sub mem with inLeft | inRight
      · obtain ⟨window, i, j, listed, here⟩ := leftReads inLeft
        exact ⟨window, i, j, List.mem_append_left _ listed, here⟩
      · obtain ⟨window, i, j, listed, here⟩ := rightReads inRight
        exact ⟨window, i, j, List.mem_append_right _ listed, here⟩
  | mul left right leftReads rightReads =>
      obtain ⟨position, position_lt, inFactor⟩ := Term.mem_places_products mem
      have inRange := List.mem_range.2 position_lt
      rcases inFactor with inLeft | inRight
      · obtain ⟨window, i, j, listed, here⟩ := leftReads inLeft
        exact ⟨window, i, j,
          List.mem_flatMap.2 ⟨position, inRange, List.mem_append_left _ listed⟩, here⟩
      · obtain ⟨window, i, j, listed, here⟩ := rightReads inRight
        exact ⟨window, i, j,
          List.mem_flatMap.2 ⟨position, inRange, List.mem_append_right _ listed⟩, here⟩
  | abs inner innerReads => exact innerReads (Term.mem_places_abs mem)

end Scope

/-! ## Cells of accesses -/

namespace Frame

variable {α : Type} {sizes : List Nat} {frame : Frame} {store : Store α sizes} {window : Window}

/-- The arrays of a routine's own have their declared sizes. -/
def OwnsArrays (frame : Frame) (routine : Routine α) (store : Store α sizes) : Prop :=
  ∀ position decl, routine.locals[position]? = some decl →
    (store.content (.stack (frame.height + position))).size = decl.size

/-- They have them from the start of a call on, whatever is stored in them. -/
theorem ownsArrays_ofCall [Scalar α] (routine : Routine α) (bindings : List Binding)
    (store : Store α sizes) {other : Store α sizes}
    (alike : other.Alike
      (store.push (routine.locals.map fun decl => Array.replicate decl.size 0))) :
    (Frame.ofCall routine bindings store.stack.size).OwnsArrays routine other := by
  intro position decl found
  have own := (store.size_content_push
    (routine.locals.map fun decl => Array.replicate decl.size (0 : α))).2 position
  rw [alike.size_content, ofCall, own, List.getD_eq_getElem?_getD, List.getElem?_map, found]
  exact Array.size_replicate

variable {σ : Type} {program : Program α} {routine : Routine α}
  {running : Running α σ program.table.sizes}

/-- An array that takes no index has no element but its first one. -/
theorem eq_zero_of_isSingle (owns : frame.OwnsArrays routine running.world.store) {base : Base}
    {origin : Cell} (starts : frame.origin? base = some origin)
    (single : (Emission.symbols program routine base).isSingle = true) {distance : Nat}
    (inside : (origin.plus distance).position <
      (running.world.store.content (origin.plus distance).buffer).size) : distance = 0 := by
  cases base with
  | global id => contradiction
  | parameter position => contradiction
  | own position =>
      cases starts
      cases found : routine.locals[position]? with
      | none =>
          simp only [Emission.symbols, found] at single
          contradiction
      | some decl =>
          simp only [Emission.symbols, found, beq_iff_eq] at single
          have size_eq := owns position decl found
          rw [single] at size_eq
          simp only [Cell.plus, size_eq] at inside
          omega

/-- An access to an element of a window is an access to the cell of the element. -/
theorem reach?_of_locate (owns : frame.OwnsArrays routine running.world.store)
    (counted : frame.CountedBy running.counters) {row col : Nat} {cell : Cell}
    (located : frame.locate running.world.store window (window.position row col) = .ok cell) :
    (frame.activation routine).reach? program 1 running (window.place row col) = some cell := by
  obtain ⟨origin, offset, base, index, rfl, inside⟩ := of_locate located
  exact reach?_of_index counted base index
    (fun single => eq_zero_of_isSingle owns base single inside) inside

variable [Scalar α]

/-- The term of an element of a window has the value of its cell. -/
theorem value?_read_of_locate (shapes : program.GivesShapes)
    (keeps : program.KeepsConstants running.world.store.memory)
    (owns : frame.OwnsArrays routine running.world.store)
    (counted : frame.CountedBy running.counters) {row col : Nat} {cell : Cell}
    (located : frame.locate running.world.store window (window.position row col) = .ok cell) :
    ((Scope.mk program.table routine.locals).read window row col).value?
        ((frame.activation routine).read? program running) =
      some (running.world.store.read cell) := by
  simp only [Scope.read]
  split
  · rename_i content given constant
    obtain ⟨origin, offset, base, index, cell_eq, inside⟩ := of_locate located
    rw [Term.value?, read_of_content? shapes keeps given constant base index cell_eq inside]
  · rw [Term.value?, Activation.read?, reach?_of_locate owns counted located, Option.map_some]

end Frame

/-! ## Code of elements -/

/-- A term says what a value is: as a number, or as a text that can be read in
one way only. -/
structure Term.Tells {α : Type} [Scalar α] (symbols : Symbols) (read : Place → Option α)
    (term : Term α) (value : α) : Prop where
  /-- A number is the value. -/
  number : ∀ number, term.number? = some number → number = value
  /-- The text is made of the lexemes of the term. -/
  spelled : Spells symbols term.lexemes (term.text symbols)
  /-- A numeral has no sign of its own. -/
  unsigned : ∀ number, .numeral number ∈ term.lexemes → Scalar.less number 0 = false
  /-- No minus sign stands next to another one. -/
  apart : term.lexemes.IsChain Lexeme.Apart
  /-- There is exactly one expression that the text is read as, and it has the
  value. -/
  reading : ∃ tree, Reads .additive term.lexemes tree ∧ tree.value? read = some value ∧
    ∀ other, Reads .additive term.lexemes other → other = tree

/-- A term that has a value tells it. -/
theorem Term.tells_of_value? {α : Type} [Scalar α] [ExactProducts α] [SignedLiterals α]
    (symbols : Symbols) {read : Place → Option α} {term : Term α} {value : α}
    (has : term.value? read = some value) : term.Tells symbols read value := by
  obtain ⟨tree, reads, same⟩ := term.means_lexemes.1
  exact
    { number := fun number isNumber => (value_of_number? isNumber has).symm
      spelled := term.spells
      unsigned := fun _ mem => term.less_of_numeral_mem mem
      apart := term.separated_lexemes.1.apart
      reading := ⟨tree, reads, (same read).trans has, fun other readsOther =>
        readsOther.unique reads⟩ }

/-- An expression whose operands fit together and whose windows lie inside their
arrays has a value of its shape.  The code of an element tells the element of the
value, and every access in it is an access to the cell that the evaluation locates
for an element of a window of the expression. -/
theorem elements_read_back {α σ : Type} [Scalar α] [ExactProducts α] [SignedLiterals α]
    {program : Program α} {routine : Routine α} {frame : Frame}
    {running : Running α σ program.table.sizes} (shapes : program.GivesShapes)
    (keeps : program.KeepsConstants running.world.store.memory)
    (owns : frame.OwnsArrays routine running.world.store)
    (counted : frame.CountedBy running.counters) {expr : Expr α} {shape : Nat × Nat}
    (shaped : expr.shape? = some shape)
    (inBounds : ∀ window ∈ expr.windows, frame.check running.world.store window = .ok ()) :
    ∃ value, frame.evaluate running.world.store expr = .ok value ∧ value.shape = shape ∧
      ∀ row < shape.1, ∀ col < shape.2,
        let term := (Scope.mk program.table routine.locals).element expr row col
        term.Tells (Emission.symbols program routine)
            ((frame.activation routine).read? program running) (value.entry row col) ∧
          ∀ place, .access place ∈ term.lexemes →
            ∃ window ∈ expr.windows, ∃ i < window.shape.1, ∃ j < window.shape.2,
              place = window.place i j ∧
                ∃ cell, frame.locate running.world.store window (window.position i j) = .ok cell ∧
                  (frame.activation routine).reach? program 1 running place = some cell := by
  have shapeOfView (window : Window) :
      (frame.view running.world.store window).shape = window.shape := rfl
  refine ⟨expr.value (frame.view running.world.store), ?_, Expr.shape_value shaped shapeOfView,
    fun row row_lt col col_lt => ⟨?_, fun place mem => ?_⟩⟩
  · rw [Frame.evaluate, forM_eq_ok inBounds]
    rfl
  · refine Term.tells_of_value? _
      (Scope.value?_element shaped shapeOfView row_lt col_lt fun window i j listed => ?_)
    obtain ⟨inExpr, i_lt, j_lt⟩ := Expr.inside_of_readsAt shaped row_lt col_lt listed
    obtain ⟨cell, located⟩ := Frame.locate_of_check (inBounds window inExpr) i_lt j_lt
    rw [Frame.entry_view i_lt j_lt located]
    exact Frame.value?_read_of_locate shapes keeps owns counted located
  · obtain ⟨window, i, j, listed, isRead⟩ :=
      Scope.exists_read_of_mem_places (Term.access_mem_lexemes.1 mem)
    obtain rfl := Scope.mem_places_read isRead
    obtain ⟨inExpr, i_lt, j_lt⟩ := Expr.inside_of_readsAt shaped row_lt col_lt listed
    obtain ⟨cell, located⟩ := Frame.locate_of_check (inBounds window inExpr) i_lt j_lt
    exact ⟨window, inExpr, i, i_lt, j, j_lt, rfl, cell, located,
      Frame.reach?_of_locate owns counted located⟩

/-! ## A difference of products -/

/-- A routine that subtracts a weighted sum from a variable of its own. -/
def Program.weighing : Program ℚ where
  moduleName := "ocp"
  dims := ⟨1, 1, 1, 1, 1, 0⟩
  table := ⟨[.ofContent "w" (.ofRows 1 3 [[-1, 0, 2]]) none, .real .variable "x" 6 1 ""]⟩
  externals := []
  routines :=
    [{ name := "weigh"
       doc := none
       parameters := []
       locals := [.own "t" 1 1 .real]
       result := none
       body := [] }]
  numQpVars := 0
  rowCounts := []

/-- The subtracted sum is read as a whole, and its first term with its sign. -/
theorem elements_read_back_weighing :
    let program := Program.weighing
    let routine := program.routines[0]
    let frame : Frame := ⟨"weigh", [], 0, [("i", 1)]⟩
    let memory := program.initialMemory.overwrite 1 #[1, 2, 3, 4, 5, 6]
    let running : Running ℚ Unit program.table.sizes :=
      ⟨⟨⟨memory, #[#[7]]⟩, ()⟩, fun _ => 1, 0⟩
    let expr : Expr ℚ :=
      .sub (.read (.dense (.own 0) (.const 0) 1 1))
        (.mul (.read (.dense (.global 0) (.const 0) 1 3))
          (.read (.vector (.global 1) ((AffineIndex.var "i").scaled 3) 3)))
    let term := (Scope.mk program.table routine.locals).element expr 0 0
    (∀ window ∈ expr.windows, frame.check running.world.store window = .ok ()) ∧
      term.Tells (Emission.symbols program routine)
        ((frame.activation routine).read? program running) (-1) := by
  intro program routine frame memory running expr term
  have inBounds : ∀ window ∈ expr.windows, frame.check running.world.store window = .ok () := by
    decide
  have shapes : program.GivesShapes := by
    intro id decl found content given
    match id with
    | 0 =>
        cases found
        cases given
        rfl
    | 1 =>
        cases found
        contradiction
    | id + 2 => contradiction
  have keeps : program.KeepsConstants running.world.store.memory := by
    intro id decl found constant
    match id with
    | 0 =>
        cases found
        rfl
    | 1 =>
        cases found
        contradiction
    | id + 2 => contradiction
  have owns : frame.OwnsArrays routine running.world.store :=
    Frame.ownsArrays_ofCall routine [] ⟨memory, #[]⟩ rfl
  have counted : frame.CountedBy running.counters := by
    intro name value found
    simp only [frame, List.lookup] at found
    split at found
    · exact Option.some.inj found
    · contradiction
  obtain ⟨value, evaluated, shape_eq, elements⟩ :=
    elements_read_back shapes keeps owns counted (rfl : expr.shape? = some (1, 1)) inBounds
  have tells := (elements 0 Nat.zero_lt_one 0 Nat.zero_lt_one).1
  have value_eq : value.entry 0 0 = -1 := by
    cases evaluated
    decide +kernel
  rw [value_eq] at tells
  exact ⟨inBounds, tells⟩

end RtiAssembly
