import RtiAssembly.Program.Certificate
import RtiAssembly.Proofs.Storage.Plan

/-!
# Windows that fit

Whether a window lies inside its array is a comparison of numbers once the
shape of the array is known.  The statements here bring the window check of a
planned program to these comparisons, one for each way of building a window,
and carry the result from statements to the references that they make.
-/

namespace RtiAssembly

namespace AffineIndex

@[simp]
theorem evalIn?_const (constant : Nat) (lookup : String → Option Nat) :
    (const constant).evalIn? lookup = some constant := rfl

@[simp]
theorem evalIn?_var (name : String) (lookup : String → Option Nat) :
    (var name).evalIn? lookup = lookup name := by
  simp [var, evalIn?]

@[simp]
theorem evalIn?_scaled (index : AffineIndex) (factor : Nat) (lookup : String → Option Nat) :
    (index.scaled factor).evalIn? lookup = (index.evalIn? lookup).map (· * factor) := by
  rcases index with ⟨_ | ⟨name, coefficient⟩, constant⟩
  · rfl
  · simp only [scaled, evalIn?, Option.map_some, Option.map_map]
    congr 1
    funext value
    simp only [Function.comp_apply]
    ring

@[simp]
theorem evalIn?_plus (index : AffineIndex) (amount : Nat) (lookup : String → Option Nat) :
    (index.plus amount).evalIn? lookup = (index.evalIn? lookup).map (· + amount) := by
  rcases index with ⟨_ | ⟨name, coefficient⟩, constant⟩
  · rfl
  · simp only [plus, evalIn?, Option.map_map]
    simp only [Function.comp_def, Nat.add_assoc]

end AffineIndex

namespace Window

@[simp]
theorem shape_dense (base : Base) (offset : AffineIndex) (rows cols : Nat) :
    (dense base offset rows cols).shape = (rows, cols) := rfl

@[simp]
theorem size_dense (base : Base) (offset : AffineIndex) (rows cols : Nat) :
    (dense base offset rows cols).size = rows * cols := rfl

@[simp]
theorem shape_transpose (window : Window) : window.transpose.shape = window.shape.swap := by
  unfold transpose shape
  cases window.transposed <;> rfl

@[simp]
theorem position_transpose (window : Window) (row col : Nat) :
    window.transpose.position row col = window.position col row := by
  unfold position transpose
  cases window.transposed <;> rfl

@[simp]
theorem extent_transpose (window : Window) : window.transpose.extent = window.extent := rfl

@[simp]
theorem extent_dense (base : Base) (offset : AffineIndex) (rows cols : Nat) :
    (dense base offset rows cols).extent = rows * cols := by
  unfold extent dense
  cases rows with
  | zero => simp
  | succ rows => by_cases none : cols = 0 <;> simp [none, Nat.succ_mul]

end Window

/-! ## Statements one after the other -/

namespace Program

variable {α : Type} {program : Program α} {routine : Routine α} {extremes : Extremes}

@[simp]
theorem fitsStatements_append (first second : List (Statement α)) :
    program.fitsStatements routine extremes (first ++ second) =
      (program.fitsStatements routine extremes first &&
        program.fitsStatements routine extremes second) := by
  induction first with
  | nil => simp [fitsStatements]
  | cons statement rest ih => simp [fitsStatements, ih, Bool.and_assoc]

/-- A list of statements fits if each of them does. -/
theorem fitsStatements_eq_true_iff {statements : List (Statement α)} :
    program.fitsStatements routine extremes statements = true ↔
      ∀ statement ∈ statements, program.fitsStatement routine extremes statement = true := by
  induction statements with
  | nil => simp [fitsStatements]
  | cons statement rest ih => simp [fitsStatements, ih]

/-- Where all windows are in bounds, every routine fits. -/
theorem fitsRoutine_of_inBounds {uses : Bool}
    (inBounds : (program.certify uses).windowsInBounds = true) :
    ∀ routine ∈ program.routines, program.fitsRoutine routine = true := by
  simp only [certify, Bool.and_eq_true] at inBounds
  intro routine mem
  by_contra unfit
  have listed : routine ∈ program.unfitRoutines :=
    List.mem_filter.2 ⟨mem, by simpa using unfit⟩
  rw [List.isEmpty_iff.1 inBounds.2] at listed
  contradiction

@[simp]
theorem fits_transpose (window : Window) :
    program.fits routine extremes window.transpose = program.fits routine extremes window := rfl

/-- A parameter fits as a whole. -/
theorem fits_parameter {position rows cols : Nat} {name : String}
    (declared : routine.parameters[position]? = some ⟨name, .array rows cols⟩) :
    program.fits routine extremes (.dense (.parameter position) (.const 0) rows cols) = true := by
  simp only [fits, Window.extent_dense]
  simp [Window.dense, baseSize?, declared]

/-- A window at the start of an array of the routine's own fits if the array
has room for it. -/
theorem fits_own {position rows cols : Nat} :
    program.fits routine extremes (.dense (.own position) (.const 0) rows cols) =
      (routine.locals[position]?).any fun decl => rows * cols ≤ decl.size := by
  simp only [fits, Window.extent_dense]
  simp only [Window.dense, baseSize?, AffineIndex.evalIn?_const]
  cases routine.locals[position]? <;> simp

@[simp]
theorem fits_run {name : String} {arguments : List Argument} :
    program.fitsStatement routine extremes (.run name arguments) =
      arguments.all (program.fitsArgument routine extremes) := by
  simp [Statement.run, fitsStatement]

/-- An index can be passed if it has a value in scope. -/
@[simp]
theorem fits_index (index : AffineIndex) :
    program.fitsArgument routine extremes (.index index) =
      (index.evalIn? extremes.lookup).isSome := by
  rcases index with ⟨_ | ⟨name, coefficient⟩, constant⟩
  · rfl
  · simp [fitsArgument, AffineIndex.variableName?, AffineIndex.evalIn?]

@[simp]
theorem lookup_cons (name other : String) (largest : Nat) :
    Extremes.lookup ((name, largest) :: extremes) other =
      if name == other then some largest else extremes.lookup other := by
  unfold Extremes.lookup
  rw [List.find?_cons]
  cases name == other <;> rfl

/-! ## Fitting windows are declared -/

theorem declaresBase_of_fits {window : Window}
    (fitting : program.fits routine extremes window = true) :
    program.declaresBase routine window.base = true := by
  unfold fits at fitting
  split at fitting
  · rename_i size offset sized _
    unfold declaresBase
    cases base : window.base with
    | global id =>
        rw [base] at sized
        obtain ⟨decl, found, _⟩ := Option.map_eq_some_iff.1 sized
        exact decide_eq_true (List.getElem?_eq_some_iff.1 found).1
    | own position =>
        rw [base] at sized
        obtain ⟨decl, found, _⟩ := Option.map_eq_some_iff.1 sized
        simpa using (List.getElem?_eq_some_iff.1 found).1
    | parameter position =>
        rw [base] at sized
        obtain ⟨parameter, found, kind⟩ := Option.bind_eq_some_iff.1 sized
        simp only [found, Option.any_some, Parameter.isArray]
        split at kind
        · rfl
        · contradiction
  · contradiction

end Program

mutual

/-- Whether a statement clears nothing and runs each of its loops. -/
def Statement.isPlain {α : Type} : Statement α → Bool
  | .assign _ _ _ => true
  | .clear _ => false
  | .loop _ start stop body => start < stop && Statement.arePlain body
  | .call _ _ _ => true
  | .comment _ => true

/-- Whether statements clear nothing and run each of their loops. -/
def Statement.arePlain {α : Type} : List (Statement α) → Bool
  | [] => true
  | statement :: rest => statement.isPlain && Statement.arePlain rest

end

namespace Statement

variable {α : Type}

@[simp]
theorem arePlain_append (first second : List (Statement α)) :
    arePlain (first ++ second) = (arePlain first && arePlain second) := by
  induction first with
  | nil => rfl
  | cons statement rest ih => simp [arePlain, ih, Bool.and_assoc]

/-- Statements are plain if each of them is. -/
theorem arePlain_eq_true_iff {statements : List (Statement α)} :
    arePlain statements = true ↔ ∀ statement ∈ statements, statement.isPlain = true := by
  induction statements with
  | nil => simp [arePlain]
  | cons statement rest ih => simp [arePlain, ih]

@[simp]
theorem clearedOf_append (first second : List (Statement α)) :
    clearedOf (first ++ second) = clearedOf first ++ clearedOf second := by
  induction first with
  | nil => rfl
  | cons statement rest ih => simp [clearedOf, ih]

@[simp]
theorem windowsOf_append (first second : List (Statement α)) :
    windowsOf (first ++ second) = windowsOf first ++ windowsOf second := by
  induction first with
  | nil => rfl
  | cons statement rest ih => simp [windowsOf, ih]

mutual

theorem cleared_of_isPlain : (statement : Statement α) → statement.isPlain = true →
    statement.cleared = []
  | .assign _ _ _, _ => rfl
  | .loop _ _ _ body, plain => by
      rw [isPlain, Bool.and_eq_true] at plain
      exact clearedOf_of_arePlain body plain.2
  | .call _ _ _, _ => rfl
  | .comment _, _ => rfl

/-- Plain statements clear nothing. -/
theorem clearedOf_of_arePlain : (statements : List (Statement α)) →
    arePlain statements = true → clearedOf statements = []
  | [], _ => rfl
  | statement :: rest, plain => by
      rw [arePlain, Bool.and_eq_true] at plain
      rw [clearedOf, cleared_of_isPlain statement plain.1, clearedOf_of_arePlain rest plain.2]
      rfl

end

end Statement

namespace Program

variable {α : Type} {program : Program α} {routine : Routine α}

mutual

/-- The check looks into every loop that runs, so all windows of a fitting
statement are declared. -/
theorem declared_of_fitsStatement {extremes : Extremes} : (statement : Statement α) →
    statement.isPlain = true → program.fitsStatement routine extremes statement = true →
    ∀ window ∈ statement.windows, program.declaresBase routine window.base = true
  | .assign target op value, _, fitting, window, mem => by
      simp only [fitsStatement, Bool.and_eq_true, List.all_eq_true] at fitting
      rcases List.mem_cons.1 mem with rfl | read
      · exact declaresBase_of_fits fitting.1.2
      · exact declaresBase_of_fits (fitting.2 window read)
  | .loop name start stop body, running, fitting, window, mem => by
      simp only [Statement.isPlain, Bool.and_eq_true, decide_eq_true_eq] at running
      simp only [fitsStatement, Bool.or_eq_true, decide_eq_true_eq] at fitting
      have bodyFits := fitting.resolve_left (Nat.not_le.2 running.1)
      exact declared_of_fitsStatements body running.2 bodyFits window mem
  | .call callee arguments status, _, fitting, window, mem => by
      simp only [fitsStatement, Bool.and_eq_true, List.all_eq_true] at fitting
      rcases List.mem_append.1 mem with passed | returned
      · obtain ⟨argument, argumentMem, isWindow⟩ := List.mem_filterMap.1 passed
        cases argument with
        | reference reference =>
            cases isWindow
            exact declaresBase_of_fits (fitting.1 _ argumentMem)
        | index _ => contradiction
      · rw [Option.mem_toList] at returned
        cases returned
        simp only [Option.all_some, Bool.and_eq_true] at fitting
        exact declaresBase_of_fits fitting.2.2
  | .comment _, _, _, _, mem => by cases mem

theorem declared_of_fitsStatements {extremes : Extremes} : (statements : List (Statement α)) →
    Statement.arePlain statements = true →
    program.fitsStatements routine extremes statements = true →
    ∀ window ∈ Statement.windowsOf statements,
      program.declaresBase routine window.base = true
  | [], _, _, _, mem => by cases mem
  | statement :: rest, running, fitting, window, mem => by
      simp only [Statement.arePlain, Bool.and_eq_true] at running
      simp only [fitsStatements, Bool.and_eq_true] at fitting
      rcases List.mem_append.1 mem with here | later
      · exact declared_of_fitsStatement statement running.1 fitting.1 window here
      · exact declared_of_fitsStatements rest running.2 fitting.2 window later

end

end Program

section Planned

variable {α : Type} [Scalar α] {problem : Problem α}

/-! ## Shapes of quantities -/

/-- The shape of the array that holds a quantity. -/
def Problem.shapeOf? (problem : Problem α) (quantity : Quantity) : Option (Nat × Nat) :=
  (quantity.describe problem).map fun decl => (decl.rows, decl.cols)

/-- The program of a problem. -/
def Problem.program (problem : Problem α) : Program α :=
  .ofPlan problem problem.plan

namespace Quantity

omit [Scalar α] in
theorem shape_variablePart (quantity : Quantity) (present : Bool) (rows cols : Nat)
    (doc : String) :
    (quantity.variablePart (α := α) present rows cols doc).map
        (fun decl => (decl.rows, decl.cols)) =
      if present then some (rows, cols) else none := by
  cases present <;> rfl

omit [Scalar α] in
theorem shape_workspace? (quantity : Quantity) (present : Bool) (rows cols : Nat)
    (doc : String) :
    (quantity.workspace? (α := α) present rows cols doc).map
        (fun decl => (decl.rows, decl.cols)) =
      if present then some (rows, cols) else none := by
  cases present <;> rfl

omit [Scalar α] in
theorem shape_boundValues? (quantity : Quantity) (present : Bool) (values : List α)
    (doc : String) :
    (quantity.boundValues? problem present values doc).map
        (fun decl => (decl.rows, decl.cols)) =
      if present then some (values.length, 1) else none := by
  unfold boundValues?
  cases present <;> cases problem.flags.hardcodeConstraints <;> rfl

end Quantity

namespace Problem

open Quantity

/-- What the control loop supplies: the trajectory and the references. -/
@[simp]
theorem shapeOf?_trajectory :
    problem.shapeOf? .x = some (problem.dims.n + 1, problem.dims.nx) ∧
    problem.shapeOf? .u = some (problem.dims.n, problem.dims.nu) ∧
    problem.shapeOf? .od =
      (if 0 < problem.dims.nod then some (problem.dims.n + 1, problem.dims.nod) else none) ∧
    problem.shapeOf? .y = some (problem.dims.n, problem.dims.ny) ∧
    problem.shapeOf? .yN = some (problem.dims.nyn, 1) := by
  simp [shapeOf?, describe, shape_variablePart]

/-- What the control loop supplies: weightings and linear terms. -/
@[simp]
theorem shapeOf?_weighting :
    problem.shapeOf? .w =
      (if problem.weight.isNone then
        some (if problem.flags.variableWeighting then problem.dims.n * problem.dims.ny
          else problem.dims.ny, problem.dims.ny)
      else none) ∧
    problem.shapeOf? .wN =
      (if problem.terminalWeight.isNone then some (problem.dims.nyn, problem.dims.nyn)
      else none) ∧
    problem.shapeOf? .wlx =
      (if hasRuntimeLinearTerms problem then
        some (if hasLinearTermsPerNode problem then (problem.dims.n + 1) * problem.dims.nx
          else problem.dims.nx, 1)
      else none) ∧
    problem.shapeOf? .wlu =
      (if hasRuntimeLinearTerms problem then
        some (if hasLinearTermsPerNode problem then problem.dims.n * problem.dims.nu
          else problem.dims.nu, 1)
      else none) := by
  simp [shapeOf?, describe, shape_variablePart]

/-- What the control loop supplies about the first state. -/
@[simp]
theorem shapeOf?_initialState :
    problem.shapeOf? .x0 =
      (if problem.estimatesInitialState then none else some (problem.dims.nx, 1)) ∧
    problem.shapeOf? .xAC =
      (if problem.estimatesInitialState then some (problem.dims.nx, 1) else none) ∧
    problem.shapeOf? .sAC =
      (if problem.estimatesInitialState then some (problem.dims.nx, problem.dims.nx)
      else none) ∧
    problem.shapeOf? .wL =
      (if problem.flags.useArrivalCost then some (problem.dims.nx, problem.dims.nx)
      else none) ∧
    problem.shapeOf? .dxAC =
      (if problem.estimatesInitialState then some (problem.dims.nx, 1) else none) := by
  simp [shapeOf?, describe, shape_variablePart, shape_workspace?]
  cases problem.estimatesInitialState <;> simp

/-- The configured bounds. -/
@[simp]
theorem shapeOf?_bounds :
    problem.shapeOf? .lbValues = some (problem.boxBounds.lower.length, 1) ∧
    problem.shapeOf? .ubValues = some (problem.boxBounds.upper.length, 1) ∧
    problem.shapeOf? .lbAValues =
      (if 0 < problem.affineDim then some (problem.affineBounds.lower.length, 1)
      else none) ∧
    problem.shapeOf? .ubAValues =
      (if 0 < problem.affineDim then some (problem.affineBounds.upper.length, 1)
      else none) := by
  simp [shapeOf?, describe, shape_boundValues?]

/-- The buffers and results of the evaluation of the objective. -/
@[simp]
theorem shapeOf?_evaluation :
    problem.shapeOf? .d = some (problem.dims.n * problem.dims.nx, 1) ∧
    problem.shapeOf? .state =
      some (1, problem.dims.nx + problem.dims.nu + problem.dims.nod) ∧
    problem.shapeOf? .objValueIn =
      some (1, problem.dims.nx + problem.dims.nu + problem.dims.nod) ∧
    problem.shapeOf? .objValueOut =
      some (1, max (EvaluationLayout.ofProblem problem).stageWidth
        (EvaluationLayout.ofProblem problem).terminalWidth) ∧
    problem.shapeOf? .dy = some (problem.dims.n * problem.dims.ny, 1) ∧
    problem.shapeOf? .dyN = some (problem.dims.nyn, 1) := by
  simp [shapeOf?, describe, shape_workspace?]

/-- The blocks of the Hessian and of the gradient weighting. -/
@[simp]
theorem shapeOf?_blocks :
    problem.shapeOf? .hessianQ =
      some (problem.dims.n * problem.dims.nx, problem.dims.nx) ∧
    problem.shapeOf? .hessianR =
      some (problem.dims.n * problem.dims.nu, problem.dims.nu) ∧
    problem.shapeOf? .hessianS =
      some (problem.dims.n * problem.dims.nx, problem.dims.nu) ∧
    problem.shapeOf? .hessianQf = some (problem.dims.nx, problem.dims.nx) ∧
    problem.shapeOf? .q2 =
      (if (KnownBlocks.ofProblem problem).states.isNone then
        some (problem.dims.n * problem.dims.nx, problem.dims.ny)
      else none) ∧
    problem.shapeOf? .r2 =
      (if (KnownBlocks.ofProblem problem).controls.isNone then
        some (problem.dims.n * problem.dims.nu, problem.dims.ny)
      else none) ∧
    problem.shapeOf? .qN2 =
      (if (KnownBlocks.ofProblem problem).terminal.isNone then
        some (problem.dims.nx, problem.dims.nyn)
      else none) := by
  simp [shapeOf?, describe, shape_workspace?]

/-- The vectors of the quadratic program. -/
@[simp]
theorem shapeOf?_quadraticProgram :
    problem.shapeOf? .gradientQ = some (problem.dims.n * problem.dims.nx, 1) ∧
    problem.shapeOf? .gradientQf = some (problem.dims.nx, 1) ∧
    problem.shapeOf? .gradientR = some (problem.dims.n * problem.dims.nu, 1) ∧
    problem.shapeOf? .qpx = some ((problem.dims.n + 1) * problem.dims.nx, 1) ∧
    problem.shapeOf? .qpu = some (problem.dims.n * problem.dims.nu, 1) ∧
    problem.shapeOf? .qpLb =
      some (problem.dims.n * (problem.dims.nu + problem.dims.nx), 1) ∧
    problem.shapeOf? .qpUb =
      some (problem.dims.n * (problem.dims.nu + problem.dims.nx), 1) ∧
    problem.shapeOf? .qpLbA = some (max problem.affineDim 1, 1) ∧
    problem.shapeOf? .qpUbA = some (max problem.affineDim 1, 1) ∧
    problem.shapeOf? .qpLambda = some (problem.dims.n * problem.dims.nx, 1) ∧
    problem.shapeOf? .qpMu =
      some (2 * problem.dims.n * (problem.dims.nx + problem.dims.nu) + 2 * problem.affineDim,
        1) := by
  simp [shapeOf?, describe, shape_workspace?]

/-- The buffers and results of the evaluation of the constraints. -/
@[simp]
theorem shapeOf?_constraints :
    problem.shapeOf? .conValueIn =
      (if problem.hasConstraints then
        some (1, problem.dims.nx + problem.dims.nu + problem.dims.nod)
      else none) ∧
    problem.shapeOf? .conValueOut =
      (if problem.hasConstraints then some (1, constraintWidth problem) else none) ∧
    problem.shapeOf? .pacEvH =
      (if problem.path.isSome then some (problem.dims.n * problem.pathDim, 1) else none) ∧
    problem.shapeOf? .pacEvHx =
      (if problem.path.any (·.jacX.isNone) then
        some (problem.dims.n * problem.pathDim, problem.dims.nx)
      else none) ∧
    problem.shapeOf? .pacEvHu =
      (if problem.path.any (·.jacU.isNone) then
        some (problem.dims.n * problem.pathDim, problem.dims.nu)
      else none) ∧
    problem.shapeOf? .pocEvH =
      (if 0 < problem.pointDim then some (problem.pointDim, 1) else none) ∧
    problem.shapeOf? .pocEvHx =
      (if 0 < problem.pointDim then some (problem.pointDim, problem.dims.nx) else none) ∧
    problem.shapeOf? .pocEvHu =
      (if 0 < problem.pointDim then some (problem.pointDim, problem.dims.nu)
      else none) := by
  simp [shapeOf?, describe, shape_workspace?]

end Problem

@[simp]
theorem Problem.has_eq (quantity : Quantity) :
    problem.plan.has quantity = (problem.shapeOf? quantity).isSome := by
  simp [has_plan, shapeOf?]

theorem Problem.rowsOf_eq (quantity : Quantity) :
    problem.plan.table.rowsOf (problem.plan.id quantity) =
      (problem.shapeOf? quantity).elim 0 Prod.fst := by
  rw [ArrayTable.rowsOf, get?_id_plan, shapeOf?]
  cases quantity.describe problem <;> rfl

theorem Problem.colsOf_eq (quantity : Quantity) :
    problem.plan.table.colsOf (problem.plan.id quantity) =
      (problem.shapeOf? quantity).elim 0 Prod.snd := by
  rw [ArrayTable.colsOf, get?_id_plan, shapeOf?]
  cases quantity.describe problem <;> rfl

theorem Problem.baseSize?_eq (routine : Routine α) (quantity : Quantity) :
    problem.program.baseSize? routine (.global (problem.plan.id quantity)) =
      (problem.shapeOf? quantity).map fun (rows, cols) => rows * cols := by
  have found : problem.program.table.get? (problem.plan.id quantity) =
      quantity.describe problem := problem.get?_id_plan quantity
  simp only [Program.baseSize?, found, shapeOf?, Option.map_map]
  rfl

/-! ## Windows over quantities -/

omit [Scalar α] in
@[simp]
theorem Plan.shape_flat (plan : Plan α) (quantity : Quantity) (offset : AffineIndex)
    (length : Nat) : (plan.flat quantity offset length).shape = (length, 1) := rfl

omit [Scalar α] in
@[simp]
theorem Plan.shape_dense (plan : Plan α) (quantity : Quantity) (offset : AffineIndex)
    (rows cols : Nat) : (plan.dense quantity offset rows cols).shape = (rows, cols) := rfl

omit [Scalar α] in
@[simp]
theorem Plan.size_flat (plan : Plan α) (quantity : Quantity) (offset : AffineIndex)
    (length : Nat) : (plan.flat quantity offset length).size = length :=
  Nat.mul_one length

@[simp]
theorem Problem.size_whole (quantity : Quantity) :
    (problem.plan.whole quantity).size =
      (problem.shapeOf? quantity).elim 0 fun (rows, cols) => rows * cols := by
  rw [Plan.whole, ArrayTable.whole, Window.size_dense, rowsOf_eq, colsOf_eq]
  cases problem.shapeOf? quantity <;> rfl

@[simp]
theorem Problem.size_rows (quantity : Quantity) (first : AffineIndex) (count : Nat) :
    (problem.plan.rows quantity first count).size =
      count * (problem.shapeOf? quantity).elim 0 Prod.snd := by
  rw [Plan.rows, ArrayTable.rows, Window.size_dense, colsOf_eq]

@[simp]
theorem Problem.shape_whole (quantity : Quantity) :
    (problem.plan.whole quantity).shape = (problem.shapeOf? quantity).getD (0, 0) := by
  rw [Plan.whole, ArrayTable.whole, Window.shape_dense, rowsOf_eq, colsOf_eq]
  cases problem.shapeOf? quantity <;> rfl

@[simp]
theorem Problem.shape_rows (quantity : Quantity) (first : AffineIndex) (count : Nat) :
    (problem.plan.rows quantity first count).shape =
      (count, (problem.shapeOf? quantity).elim 0 Prod.snd) := by
  rw [Plan.rows, ArrayTable.rows, Window.shape_dense, colsOf_eq]

namespace Program

variable {routine : Routine α} {extremes : Extremes} {quantity : Quantity}
  {offset : AffineIndex}

@[simp]
theorem fits_dense {rows cols : Nat} :
    problem.program.fits routine extremes (problem.plan.dense quantity offset rows cols) = true ↔
      ∃ shape ∈ problem.shapeOf? quantity, ∃ start ∈ offset.evalIn? extremes.lookup,
        start + rows * cols ≤ shape.1 * shape.2 := by
  unfold fits Plan.dense ArrayTable.dense
  simp only [Window.extent_dense]
  simp only [Window.dense, Problem.baseSize?_eq]
  cases problem.shapeOf? quantity <;> cases offset.evalIn? extremes.lookup <;> simp

@[simp]
theorem fits_flat {length : Nat} :
    problem.program.fits routine extremes (problem.plan.flat quantity offset length) = true ↔
      ∃ shape ∈ problem.shapeOf? quantity, ∃ start ∈ offset.evalIn? extremes.lookup,
        start + length ≤ shape.1 * shape.2 := by
  have asMatrix :
      problem.program.fits routine extremes (problem.plan.dense quantity offset length 1) = true ↔
        ∃ shape ∈ problem.shapeOf? quantity, ∃ start ∈ offset.evalIn? extremes.lookup,
          start + length * 1 ≤ shape.1 * shape.2 := fits_dense
  rwa [Nat.mul_one] at asMatrix

/-- The whole of a quantity fits as soon as it is there. -/
@[simp]
theorem fits_whole :
    problem.program.fits routine extremes (problem.plan.whole quantity) =
      (problem.shapeOf? quantity).isSome := by
  unfold fits Plan.whole ArrayTable.whole
  simp only [Window.extent_dense]
  simp only [Window.dense, Problem.baseSize?_eq, Problem.rowsOf_eq, Problem.colsOf_eq,
    AffineIndex.evalIn?_const]
  cases problem.shapeOf? quantity <;> simp

/-- Whole rows fit if they are rows of the quantity. -/
theorem fits_rows {count : Nat} {shape : Nat × Nat} {start : Nat}
    (known : problem.shapeOf? quantity = some shape)
    (index : offset.evalIn? extremes.lookup = some start) (room : start + count ≤ shape.1) :
    problem.program.fits routine extremes (problem.plan.rows quantity offset count) = true := by
  unfold fits Plan.rows ArrayTable.rows
  simp only [Window.extent_dense]
  simp only [Window.dense, Problem.baseSize?_eq, Problem.colsOf_eq, AffineIndex.evalIn?_scaled,
    known, index, Option.map_some, Option.elim_some]
  rw [decide_eq_true_iff, ← Nat.add_mul]
  exact Nat.mul_le_mul_right _ room

@[simp]
theorem fits_copy {source : Quantity} {sourceOffset : AffineIndex} {length : Nat} :
    problem.program.fitsStatement routine extremes
        (problem.plan.copy quantity offset source sourceOffset length) =
      (problem.program.fits routine extremes (problem.plan.flat quantity offset length) &&
        problem.program.fits routine extremes
          (problem.plan.flat source sourceOffset length)) := by
  simp [Plan.copy, Statement.set, fitsStatement, Expr.shape?, Expr.windows, Plan.flat,
    ArrayTable.flat, Window.vector]

@[simp]
theorem fits_passWhole :
    problem.program.fitsArgument routine extremes (problem.plan.passWhole quantity) =
      problem.program.fits routine extremes (problem.plan.whole quantity) := rfl

@[simp]
theorem fits_passFlat {length : Nat} :
    problem.program.fitsArgument routine extremes (problem.plan.passFlat quantity offset length) =
      problem.program.fits routine extremes (problem.plan.flat quantity offset length) := rfl

@[simp]
theorem fits_passRows {count : Nat} :
    problem.program.fitsArgument routine extremes (problem.plan.passRows quantity offset count) =
      problem.program.fits routine extremes (problem.plan.rows quantity offset count) := rfl

@[simp]
theorem fits_evaluate {function : External} {input output : Quantity} :
    problem.program.fitsStatement routine extremes
        (problem.plan.evaluate function input output) =
      ((problem.shapeOf? input).isSome && (problem.shapeOf? output).isSome) := by
  simp [Plan.evaluate, Statement.invoke, fitsStatement]

/-- The input of a node fits into a buffer for state, control and online data. -/
theorem fits_loadNodeInput {buffer : Quantity} {node : AffineIndex} {value : Nat}
    {withControl : Bool}
    (room : problem.shapeOf? buffer =
      some (1, problem.dims.nx + problem.dims.nu + problem.dims.nod))
    (index : node.evalIn? extremes.lookup = some value) (value_le : value ≤ problem.dims.n)
    (value_lt : withControl = true → value < problem.dims.n) :
    problem.program.fitsStatements routine extremes
      (problem.plan.loadNodeInput problem.dims buffer node withControl) = true := by
  have state := block_le problem.dims.nx (Nat.lt_add_one_of_le value_le)
  have online := block_le problem.dims.nod (Nat.lt_add_one_of_le value_le)
  cases withControl with
  | false =>
      by_cases present : 0 < problem.dims.nod <;>
        simp [Plan.loadNodeInput, fitsStatements, room, index, present] <;> omega
  | true =>
      have control := block_le problem.dims.nu (value_lt rfl)
      by_cases present : 0 < problem.dims.nod <;>
        simp [Plan.loadNodeInput, fitsStatements, room, index, present] <;> omega

end Program

end Planned

end RtiAssembly
