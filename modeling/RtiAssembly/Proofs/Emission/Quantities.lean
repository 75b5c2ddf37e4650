import RtiAssembly.Proofs.Emission.Functions
import RtiAssembly.Proofs.Program.Targets

/-!
# Statements of a solver and their obligations

The routines of a solver are put together from few kinds of statements:
assignments to quantities, copies, inputs of node functions, and evaluations
from one buffer to another.  Each kind meets what its code relies on, because
different quantities are different arrays and only configured bounds are ever
constants.
-/

namespace RtiAssembly

/-! ## Statements one after the other -/

section Lists

variable {α : Type} {program : Program α} {routine : Routine α} {extremes : Program.Extremes}
  {filled more : List Nat}

theorem Base.IsFilled.mono {base : Base} (isFilled : base.IsFilled filled) (sub : filled ⊆ more) :
    base.IsFilled more := by
  cases base with
  | global _ => trivial
  | parameter _ => trivial
  | own _ => exact sub isFilled

@[simp]
theorem Statement.filledAfter_append (locals : List (ArrayDecl α))
    (first second : List (Statement α)) (filled : List Nat) :
    filledAfter locals filled (first ++ second) =
      filledAfter locals (filledAfter locals filled first) second := by
  induction first generalizing filled with
  | nil => rfl
  | cons statement rest ih => exact ih _

variable [Scalar α]

theorem Program.AssignsInOrder.mono {target : Window} {op : AssignOp} {value : Expr α}
    (assigns : program.AssignsInOrder routine filled target op value) (sub : filled ⊆ more) :
    program.AssignsInOrder routine more target op value where
  stores := assigns.stores
  whole := assigns.whole
  old_filled := assigns.old_filled.imp_right fun old => old.mono sub
  reads_filled window mem := (assigns.reads_filled window mem).mono sub
  ordered := assigns.ordered

mutual

/-- What is orderly stays so when more arrays are filled. -/
theorem Statement.IsOrderly.mono {extremes : Program.Extremes} {filled more : List Nat}
    (sub : filled ⊆ more) : (statement : Statement α) →
    statement.IsOrderly program routine extremes filled →
    statement.IsOrderly program routine extremes more
  | .assign _ _ _, orderly => Program.AssignsInOrder.mono orderly sub
  | .clear _, orderly => orderly
  | .loop _ _ _ body, orderly => ⟨orderly.1, Statement.AreOrderly.mono sub body orderly.2⟩
  | .call (.routine _) _ _, orderly => orderly
  | .call (.external _) _ _, orderly => orderly
  | .comment _, orderly => orderly

theorem Statement.AreOrderly.mono {extremes : Program.Extremes} {filled more : List Nat}
    (sub : filled ⊆ more) : (statements : List (Statement α)) →
    Statement.AreOrderly program routine extremes filled statements →
    Statement.AreOrderly program routine extremes more statements
  | [], orderly => orderly
  | statement :: rest, orderly =>
      ⟨Statement.IsOrderly.mono sub statement orderly.1,
        Statement.AreOrderly.mono
          (fun _ mem => List.mem_append.2 ((List.mem_append.1 mem).imp_right fun old => sub old))
          rest orderly.2⟩

end

@[simp]
theorem Statement.areOrderly_append {first second : List (Statement α)} :
    AreOrderly program routine extremes filled (first ++ second) ↔
      AreOrderly program routine extremes filled first ∧
        AreOrderly program routine extremes (filledAfter routine.locals filled first) second := by
  induction first generalizing filled with
  | nil => exact ⟨fun orderly => ⟨trivial, orderly⟩, And.right⟩
  | cons statement rest ih =>
      rw [List.cons_append, AreOrderly, AreOrderly, ih, filledAfter, and_assoc]

/-- Statements that rely on no array that the others fill. -/
theorem Statement.AreOrderly.append {first second : List (Statement α)}
    (orderly : AreOrderly program routine extremes filled first)
    (later : AreOrderly program routine extremes filled second) :
    AreOrderly program routine extremes filled (first ++ second) :=
  areOrderly_append.2 ⟨orderly, later.mono (subset_filledAfter _ _ _) _⟩

/-- Statements are orderly if each of them is. -/
theorem Statement.areOrderly_of_forall {statements : List (Statement α)}
    (each : ∀ statement ∈ statements, statement.IsOrderly program routine extremes filled) :
    AreOrderly program routine extremes filled statements := by
  induction statements with
  | nil => trivial
  | cons statement rest ih =>
      refine ⟨each statement List.mem_cons_self, ?_⟩
      exact (ih fun other mem => each other (List.mem_cons_of_mem statement mem)).mono
        (List.subset_append_right _ _) _

/-- A routine without a result. -/
theorem Program.isOrderly_of_body
    (body : Statement.AreOrderly program routine (parameterExtremes routine) [] routine.body)
    (noResult : routine.result = none) : program.IsOrderly routine where
  body := body
  result _ mem := absurd (noResult ▸ mem) (Option.not_mem_none _)

end Lists

/-! ## What statements fill -/

section Fills

variable {α : Type} {locals : List (ArrayDecl α)}

@[simp]
theorem Window.covered?_own {position rows cols : Nat} {decl : ArrayDecl α}
    (found : locals[position]? = some decl) (shape_eq : (decl.rows, decl.cols) = (rows, cols)) :
    (Window.dense (.own position) (.const 0) rows cols).covered? locals = some position := by
  cases shape_eq
  exact Window.covered?_eq_some.2 ⟨decl, found, rfl⟩

@[simp]
theorem Statement.fills_set (target : Window) (value : Expr α) :
    (Statement.set target value).fills locals = (target.covered? locals).toList := rfl

@[simp]
theorem Statement.fills_increase (target : Window) (value : Expr α) :
    (Statement.increase target value).fills locals = [] := rfl

@[simp]
theorem Statement.fills_decrease (target : Window) (value : Expr α) :
    (Statement.decrease target value).fills locals = [] := rfl

@[simp]
theorem Statement.fills_invoke (function : External) (arguments : List Argument)
    (status : Option Window) :
    (Statement.invoke function arguments status : Statement α).fills locals =
      (status.bind (Window.covered? locals)).toList := rfl

@[simp]
theorem Plan.fills_copy (plan : Plan α) (target source : Quantity)
    (targetOffset sourceOffset : AffineIndex) (length : Nat) :
    (plan.copy target targetOffset source sourceOffset length).fills locals = [] := rfl

end Fills

/-! ## Quantities -/

namespace Quantity

variable {α : Type} [Scalar α] {problem : Problem α}

/-- The configured bounds. -/
def bounds : List Quantity :=
  [.lbValues, .ubValues, .lbAValues, .ubAValues]

omit [Scalar α] in
theorem storage_of_variablePart {quantity : Quantity} {present : Bool} {rows cols : Nat}
    {doc : String} {decl : ArrayDecl α}
    (described : quantity.variablePart present rows cols doc = some decl) :
    decl.kind = .real ∧ decl.storage = .variable := by
  unfold variablePart at described
  split at described <;> cases described
  exact ⟨rfl, rfl⟩

omit [Scalar α] in
theorem storage_of_workspace? {quantity : Quantity} {present : Bool} {rows cols : Nat}
    {doc : String} {decl : ArrayDecl α}
    (described : quantity.workspace? present rows cols doc = some decl) :
    decl.kind = .real ∧ decl.storage = .workspace := by
  unfold workspace? at described
  split at described <;> cases described
  exact ⟨rfl, rfl⟩

omit [Scalar α] in
/-- Bounds are constants only if they are hardcoded. -/
theorem storage_of_boundValues? {quantity : Quantity} {present : Bool} {values : List α}
    {doc : String} {decl : ArrayDecl α}
    (described : quantity.boundValues? problem present values doc = some decl) :
    decl.kind = .real ∧ (decl.storage = .variable ∨
      decl.storage = .constant ∧ problem.flags.hardcodeConstraints = true) := by
  unfold boundValues? at described
  split at described
  · rename_i hardcoded
    cases described
    exact ⟨rfl, .inr ⟨rfl, (Bool.and_eq_true_iff.1 hardcoded).2⟩⟩
  · exact (storage_of_variablePart described).imp_right .inl

/-- Quantities are real, and only hardcoded bounds are constants. -/
theorem variable_of_describe {quantity : Quantity} {decl : ArrayDecl α}
    (described : quantity.describe problem = some decl) :
    decl.kind = .real ∧
      ((quantity ∈ bounds → problem.flags.hardcodeConstraints = false) →
        decl.storage ≠ .constant) := by
  cases quantity <;>
    first
    | exact (storage_of_variablePart described).imp_right fun storage _ => by simp [storage]
    | exact (storage_of_workspace? described).imp_right fun storage _ => by simp [storage]
    | refine (storage_of_boundValues? described).imp_right fun known supplied => ?_
      rcases known with storage | ⟨_, hardcoded⟩
      · simp [storage]
      · simp [supplied (by decide)] at hardcoded

end Quantity

namespace Problem

variable {α : Type} [Scalar α] {problem : Problem α}

/-- A quantity that the problem has, and not as a constant. -/
structure Supplies (problem : Problem α) (quantity : Quantity) : Prop where
  present : problem.plan.has quantity = true
  supplied : quantity ∈ Quantity.bounds → problem.flags.hardcodeConstraints = false

theorem givesShapes_program : problem.program.GivesShapes := by
  intro id decl found
  obtain ⟨quantity, _, described⟩ := List.mem_filterMap.1 (List.mem_of_getElem? found)
  exact (Quantity.heldBy_of_describe described).2

theorem kindOf_quantity (locals : List (ArrayDecl α)) (quantity : Quantity) :
    Scope.kindOf ⟨problem.program.table, locals⟩ (.global (problem.plan.id quantity)) = .real := by
  have found : problem.program.table.get? (problem.plan.id quantity) =
      quantity.describe problem := problem.get?_id_plan quantity
  simp only [Scope.kindOf, found]
  cases described : quantity.describe problem with
  | none => rfl
  | some decl => exact (Quantity.variable_of_describe described).1

variable {quantity : Quantity}

theorem supplies_of_notMem (present : problem.plan.has quantity = true)
    (other : quantity ∉ Quantity.bounds) : problem.Supplies quantity :=
  ⟨present, fun listed => absurd listed other⟩

theorem Supplies.mayStore (supplies : problem.Supplies quantity) :
    problem.program.MayStore (.global (problem.plan.id quantity)) := by
  rintro ⟨id, decl, isGlobal, found, constant⟩
  cases isGlobal
  have described : quantity.describe problem = some decl :=
    (problem.get?_id_plan quantity).symm.trans found
  exact (Quantity.variable_of_describe described).2 supplies.supplied constant

/-- Different quantities are different arrays. -/
theorem Supplies.base_ne (supplies : problem.Supplies quantity) {source : Quantity}
    (ne : source ≠ quantity) :
    Base.global (problem.plan.id source) ≠ .global (problem.plan.id quantity) := by
  rw [Ne, Base.global.injEq, eq_comm, problem.id_plan_inj supplies.present]
  exact ne.symm

variable {routine : Routine α} {extremes : Program.Extremes} {filled : List Nat}

/-- An assignment to a quantity that reads other arrays. -/
theorem Supplies.assigns (supplies : problem.Supplies quantity) {target : Window} {op : AssignOp}
    {value : Expr α} (base_eq : target.base = .global (problem.plan.id quantity))
    (reads : ∀ window ∈ value.windows,
      window.base.IsFilled filled ∧ window.base ≠ .global (problem.plan.id quantity)) :
    problem.program.AssignsInOrder routine filled target op value where
  stores := base_eq ▸ supplies.mayStore
  whole := .inl (base_eq ▸ kindOf_quantity _ quantity)
  old_filled := .inr (base_eq ▸ trivial)
  reads_filled window mem := (reads window mem).1
  ordered := .inr (.inr (.inl fun window mem => base_eq ▸ (reads window mem).2))

/-- An assignment to a quantity that reads part of another. -/
theorem Supplies.moves (supplies : problem.Supplies quantity) {target window : Window}
    {op : AssignOp} {source : Quantity}
    (base_eq : target.base = .global (problem.plan.id quantity))
    (source_eq : window.base = .global (problem.plan.id source)) (ne : source ≠ quantity) :
    problem.program.AssignsInOrder routine filled target op (.read window) :=
  supplies.assigns base_eq
    (List.forall_mem_singleton.2 (source_eq ▸ ⟨trivial, supplies.base_ne ne⟩))

theorem Supplies.copies (supplies : problem.Supplies quantity) {source : Quantity}
    (ne : source ≠ quantity) (targetOffset sourceOffset : AffineIndex) (length : Nat) :
    (problem.plan.copy quantity targetOffset source sourceOffset length).IsOrderly problem.program
      routine extremes filled :=
  supplies.moves rfl rfl ne

theorem Supplies.loads (supplies : problem.Supplies quantity)
    (isBuffer : quantity ∉ [.x, .u, .od]) (node : AffineIndex) (withControl : Bool) :
    Statement.AreOrderly problem.program routine extremes filled
      (problem.plan.loadNodeInput problem.dims quantity node withControl) := by
  simp only [List.mem_cons, List.not_mem_nil, or_false, not_or] at isBuffer
  obtain ⟨notState, notControl, notOnline⟩ := isBuffer
  refine Statement.areOrderly_of_forall fun statement mem => ?_
  simp only [Plan.loadNodeInput, List.mem_append, List.mem_singleton, List.mem_ite_nil_right] at mem
  rcases mem with (rfl | ⟨_, rfl⟩) | ⟨_, rfl⟩
  · exact supplies.copies (Ne.symm notState) _ _ _
  · exact supplies.copies (Ne.symm notControl) _ _ _
  · exact supplies.copies (Ne.symm notOnline) _ _ _

/-- Whole quantities are passed as whole arrays. -/
theorem Supplies.passes (supplies : problem.Supplies quantity) :
    problem.program.PassesWholeArrays [problem.plan.passWhole quantity] := by
  intro argument mem window passed
  rw [List.mem_singleton.1 mem] at passed
  cases passed
  obtain ⟨decl, described⟩ := Option.isSome_iff_exists.1
    ((problem.has_plan quantity).symm.trans supplies.present)
  refine ⟨problem.plan.id quantity, decl, (problem.get?_id_plan quantity).trans described,
    (Quantity.variable_of_describe described).2 supplies.supplied, ?_⟩
  rw [Plan.whole, ArrayTable.whole, ArrayTable.rowsOf, ArrayTable.colsOf, problem.get?_id_plan,
    described]
  rfl

omit [Scalar α] in
theorem passesWholeArrays_cons {program : Program α} {argument : Argument}
    {arguments : List Argument} (first : program.PassesWholeArrays [argument])
    (rest : program.PassesWholeArrays arguments) :
    program.PassesWholeArrays (argument :: arguments) := by
  intro other mem
  rcases List.mem_cons.1 mem with rfl | later
  · exact first other List.mem_cons_self
  · exact rest other later

omit [Scalar α] in
theorem passesWholeArrays_nil {program : Program α} : program.PassesWholeArrays [] :=
  fun _ mem => absurd mem List.not_mem_nil

theorem Supplies.evaluates (supplies : problem.Supplies quantity) {output : Quantity}
    (suppliesOutput : problem.Supplies output) (function : External) :
    (problem.plan.evaluate function quantity output).IsOrderly problem.program routine extremes
      filled :=
  ⟨passesWholeArrays_cons supplies.passes suppliesOutput.passes,
    fun _ absent => absurd absent (Option.not_mem_none _)⟩

end Problem

end RtiAssembly
