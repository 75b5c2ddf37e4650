import Mathlib
import RtiAssembly.Problem.Validation
import RtiAssembly.Proofs.Number.Laws

/-!
# Accepted problems are well formed

Validation promises more than its result type says: dimensions are positive,
known matrices have their shapes, and bounds cover every row.  Assembly relies
on exactly these promises.  `WellFormed` lists them, and every problem that
validation produces has them.
-/

namespace RtiAssembly

/-! ## Checks without errors -/

@[simp]
theorem hasErrors_nil : hasErrors [] = false := rfl

@[simp]
theorem hasErrors_append (first second : List Diagnostic) :
    hasErrors (first ++ second) = (hasErrors first || hasErrors second) := by
  simp [hasErrors]

@[simp]
theorem hasErrors_error (code : DiagnosticCode) (subject message : String) :
    hasErrors [.error code subject message] = true := rfl

@[simp]
theorem hasErrors_warning (code : DiagnosticCode) (subject message : String) :
    hasErrors [.warning code subject message] = false := rfl

@[simp]
theorem hasErrors_withHint (diagnostic : Diagnostic) (hint : String) :
    hasErrors [diagnostic.withHint hint] = hasErrors [diagnostic] := rfl

theorem hasErrors_flatMap {β : Type} (items : List β) (found : β → List Diagnostic) :
    hasErrors (items.flatMap found) = items.any fun item => hasErrors (found item) := by
  induction items with
  | nil => rfl
  | cons item rest ih => simp [ih]

namespace Checked

variable {β γ : Type}

@[simp]
theorem value_pure (value : β) : (pure value : Checked β).value = value := rfl

@[simp]
theorem diagnostics_pure (value : β) : (pure value : Checked β).diagnostics = [] := rfl

@[simp]
theorem value_bind (first : Checked β) (next : β → Checked γ) :
    (first >>= next).value = (next first.value).value := rfl

@[simp]
theorem diagnostics_bind (first : Checked β) (next : β → Checked γ) :
    (first >>= next).diagnostics = first.diagnostics ++ (next first.value).diagnostics := rfl

@[simp]
theorem value_refuse (diagnostic : Diagnostic) :
    (refuse diagnostic : Checked (Option β)).value = none := rfl

@[simp]
theorem diagnostics_refuse (diagnostic : Diagnostic) :
    (refuse diagnostic : Checked (Option β)).diagnostics = [diagnostic] := rfl

@[simp]
theorem diagnostics_report (diagnostic : Diagnostic) :
    (report diagnostic).diagnostics = [diagnostic] := rfl

/-- A conditional finding is an error exactly if its condition holds and it
is one. -/
@[simp]
theorem hasErrors_reportIf (condition : Bool) (diagnostic : Diagnostic) :
    hasErrors (reportIf condition diagnostic).diagnostics =
      (condition && hasErrors [diagnostic]) := by
  cases condition <;> rfl

@[simp]
theorem hasErrors_forAll (items : List β) (check : β → Checked Unit) :
    hasErrors (forAll items check).diagnostics =
      items.any fun item => hasErrors (check item).diagnostics :=
  hasErrors_flatMap items _

end Checked

/-! ## Shapes and lengths -/

/-- A block of `size` numbers behind `index` blocks lies in `blocks` blocks. -/
theorem block_le {index blocks : Nat} (size : Nat) (inside : index < blocks) :
    index * size + size ≤ blocks * size := by
  rw [← Nat.succ_mul]
  exact Nat.mul_le_mul_right size inside

/-- A known path constraint fits the dimensions. -/
structure PathConstraint.Fits {α : Type} (path : PathConstraint α) (dims : Dimensions) :
    Prop where
  dim_pos : 0 < path.dim
  length_lower : path.bounds.lower.length = dims.n * path.dim
  length_upper : path.bounds.upper.length = dims.n * path.dim
  shape_jacX : ∀ jacobian ∈ path.jacX, jacobian.shape = (path.dim, dims.nx)
  shape_jacU : ∀ jacobian ∈ path.jacU, jacobian.shape = (path.dim, dims.nu)

/-- A path constraint has as many bounds on an interval as it has rows. -/
theorem PathConstraint.Fits.length_pathRows {α : Type} {path : PathConstraint α}
    {dims : Dimensions} (fits : path.Fits dims) {node : Nat} (node_lt : node < dims.n) :
    (Validation.pathRows path node).lower.length = path.dim ∧
      (Validation.pathRows path node).upper.length = path.dim := by
  have room : node * path.dim + path.dim ≤ dims.n * path.dim := block_le path.dim node_lt
  simp only [Validation.pathRows, List.length_take, List.length_drop, fits.length_lower,
    fits.length_upper]
  omega

/-- A known point constraint fits the dimensions at its node. -/
structure PointConstraint.Fits {α : Type} (point : PointConstraint α) (dims : Dimensions)
    (node : Nat) : Prop where
  node_le : node ≤ dims.n
  dim_pos : 0 < point.dim
  width_eq : point.width = point.dim * Validation.outputsPerRow dims node
  length_lower : point.bounds.lower.length = point.dim
  length_upper : point.bounds.upper.length = point.dim

/-- What assembly relies on in a problem. -/
structure Problem.WellFormed {α : Type} (problem : Problem α) : Prop where
  n_pos : 0 < problem.dims.n
  nx_pos : 0 < problem.dims.nx
  nu_pos : 0 < problem.dims.nu
  ny_pos : 0 < problem.dims.ny
  nyn_pos : 0 < problem.dims.nyn
  /-- An arrival cost comes with a free initial state. -/
  arrival_free : problem.flags.useArrivalCost = true → problem.flags.initialStateFixed = false
  shape_weight :
    ∀ weight ∈ problem.weight, weight.shape = (problem.dims.ny, problem.dims.ny)
  shape_terminalWeight :
    ∀ weight ∈ problem.terminalWeight, weight.shape = (problem.dims.nyn, problem.dims.nyn)
  shape_jacX :
    ∀ jacobian ∈ problem.jacX, jacobian.shape = (problem.dims.ny, problem.dims.nx)
  shape_jacU :
    ∀ jacobian ∈ problem.jacU, jacobian.shape = (problem.dims.ny, problem.dims.nu)
  shape_jacXEnd :
    ∀ jacobian ∈ problem.jacXEnd, jacobian.shape = (problem.dims.nyn, problem.dims.nx)
  length_linear : ∀ x u, problem.linearTerms = .given x u →
    x.length = problem.dims.nx ∧ u.length = problem.dims.nu
  length_boxLower : problem.boxBounds.lower.length = problem.boxDim
  length_boxUpper : problem.boxBounds.upper.length = problem.boxDim
  path_fits : ∀ path ∈ problem.path, path.Fits problem.dims
  point_fits : ∀ entry ∈ problem.points.entries, entry.2.Fits problem.dims entry.1
  rowCounts_eq :
    problem.rowCounts = Validation.rowCounts problem.dims.n problem.path problem.points
  affineBounds_eq :
    problem.affineBounds = Validation.affineBounds problem.dims.n problem.path problem.points

namespace Validation

variable {α : Type} [Scalar α]

/-! ## What single checks promise -/

theorem shape_ofRows (rows cols : Nat) (values : List (List α)) :
    (Matrix.ofRows rows cols values).shape = (rows, cols) := rfl

theorem shape_of_checkMatrix {code : DiagnosticCode} {subject : String} {rows cols : Nat}
    {values : List (List α)} {matrix : Matrix α}
    (checked : (checkMatrix code subject rows cols values).value = some matrix) :
    matrix.shape = (rows, cols) := by
  unfold checkMatrix at checked
  split at checked
  · contradiction
  · split at checked
    · contradiction
    · cases checked
      exact shape_ofRows rows cols values

theorem shape_of_onOption {code : DiagnosticCode} {subject : String} {rows cols : Nat}
    {values : Option (List (List α))} {matrix : Matrix α}
    (checked : (Checked.onOption (checkMatrix code subject rows cols) values).value =
      some matrix) :
    matrix.shape = (rows, cols) := by
  cases values with
  | none => contradiction
  | some values => exact shape_of_checkMatrix checked

theorem shape_of_checkWeight {description : Description α} {weight : Matrix α}
    (checked : (checkWeight description).value = some weight) :
    weight.shape = (description.dims.ny, description.dims.ny) := by
  unfold checkWeight at checked
  split at checked
  · contradiction
  · split at checked
    · contradiction
    · exact shape_of_checkMatrix checked

theorem shape_of_checkTerminalWeight {description : Description α} {weight : Matrix α}
    (checked : (checkTerminalWeight description).value = some weight) :
    weight.shape = (description.dims.nyn, description.dims.nyn) := by
  unfold checkTerminalWeight at checked
  split at checked
  · contradiction
  · exact shape_of_checkMatrix checked

omit [Scalar α] in
theorem length_of_checkVector {subject : String} {length : Nat} {values vector : List α}
    (checked : (checkVector subject length values).value = some vector) :
    vector.length = length := by
  unfold checkVector at checked
  split at checked
  · contradiction
  · rename_i fits
    cases checked
    simpa using fits

omit [Scalar α] in
theorem length_of_checkLinearTerms {description : Description α} {x u : List α}
    (checked : (checkLinearTerms description).value = .given x u) :
    x.length = description.dims.nx ∧ u.length = description.dims.nu := by
  unfold checkLinearTerms at checked
  split at checked
  · contradiction
  · contradiction
  · simp only [Checked.value_bind] at checked
    split at checked
    · rename_i states controls
      cases checked
      exact ⟨length_of_checkVector states, length_of_checkVector controls⟩
    · contradiction

omit [Scalar α] in
@[simp]
theorem length_checkSide (subject : String) (length : Nat) (default : α)
    (side : Option (List α)) :
    (checkSide subject length default side).value.length = length := by
  unfold checkSide
  split
  · simp
  · split
    · assumption
    · simp

theorem length_checkSides (subject : String) (length : Nat) (lower upper : Option (List α)) :
    (checkSides subject length lower upper).value.lower.length = length ∧
      (checkSides subject length lower upper).value.upper.length = length := by
  simp [checkSides]

/-- Stacked bounds of nodes with equally many rows. -/
theorem length_checkNodes (map : String) (length : Nat)
    (bounds : NodeMap (Description.BoundPair α)) (nodes : List Nat) :
    (checkNodes map length bounds nodes).value.lower.length = nodes.length * length ∧
      (checkNodes map length bounds nodes).value.upper.length = nodes.length * length := by
  have each : ∀ node ∈ nodes,
      (checkNodeBounds (nodeSubject map node) length (bounds.get? node)).value.lower.length =
          length ∧
        (checkNodeBounds (nodeSubject map node) length (bounds.get? node)).value.upper.length =
          length :=
    fun node _ => length_checkSides _ _ _ _
  simp only [checkNodes, stack, List.map_map, List.length_flatMap, Function.comp_def]
  constructor
  · rw [List.map_congr_left fun node mem => (each node mem).1]
    simp [List.map_const']
  · rw [List.map_congr_left fun node mem => (each node mem).2]
    simp [List.map_const']

theorem length_checkBoxBounds (description : Description α) :
    let dims := description.dims
    (checkBoxBounds description).value.lower.length = dims.n * (dims.nu + dims.nx) ∧
      (checkBoxBounds description).value.upper.length = dims.n * (dims.nu + dims.nx) := by
  have controls := length_checkNodes "bounds.u" description.dims.nu description.bounds.u
    (List.range description.dims.n)
  have states := length_checkNodes "bounds.x" description.dims.nx description.bounds.x
    (List.range' 1 description.dims.n)
  simp only [List.length_range, List.length_range'] at controls states
  simp [checkBoxBounds, stack, controls, states, Nat.mul_add]

omit [Scalar α] in
/-- Stacked path bounds cover every interval. -/
theorem length_stackPath {n dim : Nat} {values stacked : List α}
    (covers : stackPath n dim values = some stacked) : stacked.length = n * dim := by
  unfold stackPath at covers
  split at covers
  · rename_i shared
    cases covers
    simp [shared]
  · split at covers
    · cases covers
      assumption
    · contradiction

theorem fits_of_checkPath {dims : Dimensions} {spec : Description.PathConstraint α}
    {path : PathConstraint α} (checked : (checkPath dims spec).value = some path) :
    path.Fits dims := by
  unfold checkPath at checked
  split at checked
  · contradiction
  · split at checked
    · contradiction
    · rename_i dim_ne
      split at checked
      · rename_i lower upper lowerCovers upperCovers
        cases checked
        exact {
          dim_pos := Nat.pos_of_ne_zero dim_ne
          length_lower := length_stackPath lowerCovers
          length_upper := length_stackPath upperCovers
          shape_jacX := fun _ known => shape_of_onOption known
          shape_jacU := fun _ known => shape_of_onOption known }
      · contradiction

theorem fits_of_checkPoint {dims : Dimensions} {node : Nat}
    {spec : Description.PointConstraint α} {point : PointConstraint α}
    (checked : (checkPoint dims node spec).value = some point) : point.Fits dims node := by
  unfold checkPoint at checked
  split at checked
  · contradiction
  · rename_i inside
    split at checked
    · contradiction
    · dsimp only at checked
      split at checked
      · contradiction
      · rename_i divides
        split at checked
        · contradiction
        · rename_i dim_ne
          cases checked
          have lengths := length_checkSides (nodeSubject "pointConstraints" node)
            (spec.outputWidth / outputsPerRow dims node) (some spec.lower) (some spec.upper)
          exact {
            node_le := Nat.le_of_not_lt inside
            dim_pos := Nat.pos_of_ne_zero dim_ne
            width_eq := (Nat.div_mul_cancel (Nat.dvd_of_mod_eq_zero (by simpa using divides))).symm
            length_lower := lengths.1
            length_upper := lengths.2 }

theorem fits_of_checkPoints {description : Description α} {node : Nat}
    {point : PointConstraint α}
    (mem : (node, point) ∈ (checkPoints description).value.entries) :
    point.Fits description.dims node := by
  obtain ⟨⟨specNode, spec⟩, _, made⟩ := List.mem_filterMap.1 mem
  obtain ⟨checked, value, entry_eq⟩ := Option.map_eq_some_iff.1 made
  cases entry_eq
  exact fits_of_checkPoint value

/-- Dimensions without errors are positive. -/
theorem dims_pos_of_checkDims {dims : Dimensions}
    (clean : hasErrors (checkDims dims).diagnostics = false) :
    0 < dims.n ∧ 0 < dims.nx ∧ 0 < dims.nu ∧ 0 < dims.ny ∧ 0 < dims.nyn := by
  simp only [checkDims, Checked.hasErrors_forAll, Checked.hasErrors_reportIf, List.any_cons,
    List.any_nil, hasErrors_error, Bool.and_true, Bool.or_false, Bool.or_eq_false_iff,
    beq_eq_false_iff_ne] at clean
  omega

theorem initialState_free_of_checkFlags {flags : Flags α}
    (clean : hasErrors (checkFlags flags).diagnostics = false)
    (arrival : flags.useArrivalCost = true) : flags.initialStateFixed = false := by
  simp only [checkFlags, Checked.diagnostics_bind, hasErrors_append, Checked.hasErrors_reportIf,
    hasErrors_withHint, hasErrors_error, Bool.and_true, Bool.or_eq_false_iff, arrival,
    Bool.true_and] at clean
  exact clean.2.1

theorem clean_of_checkFrame {description : Description α}
    (clean : hasErrors (checkFrame description).diagnostics = false) :
    hasErrors (checkDims description.dims).diagnostics = false ∧
      hasErrors (checkFlags description.flags).diagnostics = false := by
  simp only [checkFrame, Checked.diagnostics_bind, hasErrors_append, Bool.or_eq_false_iff]
    at clean
  exact ⟨clean.1, clean.2.2⟩

/-- The content of a clean frame gives a well-formed problem. -/
theorem wellFormed_checkContent {description : Description α}
    (clean : hasErrors (checkFrame description).diagnostics = false) :
    (checkContent description).value.WellFormed := by
  obtain ⟨cleanDims, cleanFlags⟩ := clean_of_checkFrame clean
  obtain ⟨n_pos, nx_pos, nu_pos, ny_pos, nyn_pos⟩ := dims_pos_of_checkDims cleanDims
  have boxes := length_checkBoxBounds description
  exact {
    n_pos, nx_pos, nu_pos, ny_pos, nyn_pos
    arrival_free := initialState_free_of_checkFlags cleanFlags
    shape_weight := fun _ known => shape_of_checkWeight known
    shape_terminalWeight := fun _ known => shape_of_checkTerminalWeight known
    shape_jacX := fun _ known => shape_of_onOption known
    shape_jacU := fun _ known => shape_of_onOption known
    shape_jacXEnd := fun _ known => shape_of_onOption known
    length_linear := fun _ _ known => length_of_checkLinearTerms known
    length_boxLower := boxes.1
    length_boxUpper := boxes.2
    path_fits := by
      intro path known
      change (Checked.onOption (checkPath description.dims) description.pathConstraint).value =
        some path at known
      cases given : description.pathConstraint with
      | none => rw [given] at known; contradiction
      | some spec => rw [given] at known; exact fits_of_checkPath known
    point_fits := fun _ mem => fits_of_checkPoints mem
    rowCounts_eq := rfl
    affineBounds_eq := rfl }

end Validation

namespace Description

variable {α : Type} [Scalar α] {description : Description α}

/-- A description has a problem exactly if no finding is an error. -/
theorem validate_isSome_iff :
    description.validate.value.isSome ↔
      hasErrors description.validate.diagnostics = false := by
  unfold validate Validation.check
  cases frameErrors : hasErrors (Validation.checkFrame description).diagnostics with
  | true => simp [frameErrors]
  | false =>
      cases contentErrors : hasErrors (Validation.checkContent description).diagnostics with
      | true => simp [frameErrors, contentErrors]
      | false => simp [frameErrors, contentErrors]

/-- An accepted problem is the content of its description, and no check of the
description found an error. -/
theorem checkContent_of_validate {problem : Problem α}
    (accepted : description.validate.value = some problem) :
    hasErrors (Validation.checkFrame description).diagnostics = false ∧
      hasErrors (Validation.checkContent description).diagnostics = false ∧
      problem = (Validation.checkContent description).value := by
  unfold validate Validation.check at accepted
  cases frameErrors : hasErrors (Validation.checkFrame description).diagnostics with
  | true => simp [frameErrors] at accepted
  | false =>
      cases contentErrors : hasErrors (Validation.checkContent description).diagnostics with
      | true => simp [frameErrors, contentErrors] at accepted
      | false =>
          simp [frameErrors, contentErrors] at accepted
          exact ⟨rfl, rfl, accepted.symm⟩

/-- Accepted problems are well formed. -/
theorem wellFormed_of_validate {problem : Problem α}
    (accepted : description.validate.value = some problem) : problem.WellFormed := by
  obtain ⟨clean, _, rfl⟩ := checkContent_of_validate accepted
  exact Validation.wellFormed_checkContent clean

end Description

/-! ## A small problem -/

/-- Two intervals with one state and one control: the stage derivative by the
state is known, all else is supplied at run time.  There is a path constraint,
and a point constraint on an inner node and on the terminal one. -/
def Description.twoIntervals : Description ℚ where
  moduleName := "ocp"
  dims := ⟨2, 1, 1, 1, 1, 1⟩
  flags := .default
  objective :=
    { weight := .runtime
      terminalWeight := .runtime
      jacobianX := some [[1]]
      jacobianU := none
      terminalJacobianX := none
      crossTerm := true
      linearTerms := .runtime }
  bounds := ⟨.empty, .empty⟩
  pathConstraint := some ⟨"path", 1, [0], [1], none, none⟩
  pointConstraints :=
    { entries := [(1, ⟨"inner", 3, [0], [1]⟩), (2, ⟨"terminal", 2, [0], [1]⟩)]
      ascending := by decide }

/-- The problem of the small description. -/
def Problem.twoIntervals : Problem ℚ :=
  (Validation.checkContent Description.twoIntervals).value

theorem Description.validate_twoIntervals :
    Description.twoIntervals.validate.value = some Problem.twoIntervals := rfl

theorem Problem.wellFormed_twoIntervals : Problem.twoIntervals.WellFormed :=
  Description.wellFormed_of_validate Description.validate_twoIntervals

end RtiAssembly
