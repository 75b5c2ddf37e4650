import RtiAssembly.Proofs.Problem.Bounds

/-!
# Accepted descriptions

Validation is a sequence of checks, some of which are skipped once others have
failed.  What it accepts has a description of its own: `WellFormed` lists what
the parts of a description have to satisfy, and a description has a problem
exactly if it satisfies all of it.
-/

namespace RtiAssembly

/-! ## Well-formed parts -/

/-- A letter of the ASCII alphabet or an underscore. -/
def IsLetter (c : Char) : Prop :=
  ('a' ≤ c ∧ c ≤ 'z') ∨ ('A' ≤ c ∧ c ≤ 'Z') ∨ c = '_'

/-- A name that starts with a letter and goes on with letters and digits. -/
def IsIdentifier (name : String) : Prop :=
  ∃ first rest, name.toList = first :: rest ∧ IsLetter first ∧
    ∀ c ∈ rest, IsLetter c ∨ ('0' ≤ c ∧ c ≤ '9')

namespace Description

variable {α : Type} [Scalar α]

/-- Rows that form a matrix of finite numbers. -/
structure IsFiniteMatrix (rows cols : Nat) (values : List (List α)) : Prop where
  length_values : values.length = rows
  length_row : ∀ row ∈ values, row.length = cols
  finite : ∀ row ∈ values, ∀ entry ∈ row, Scalar.isFinite entry = true

/-- A side of a bound; an absent one has the same value everywhere. -/
def filledSide (default : α) (length : Nat) (side : Option (List α)) : List α :=
  side.getD (List.replicate length default)

/-- The sides that are present have the length of the bounded quantity, and no
lower bound lies above its upper bound. -/
structure BoundPair.Fits (pair : BoundPair α) (length : Nat) : Prop where
  length_lower : ∀ lower ∈ pair.lower, lower.length = length
  length_upper : ∀ upper ∈ pair.upper, upper.length = length
  ordered : ∀ index : Nat,
    ∀ lower ∈ (filledSide (-Scalar.unbounded) length pair.lower)[index]?,
    ∀ upper ∈ (filledSide Scalar.unbounded length pair.upper)[index]?,
      Scalar.less upper lower = false

/-- The bounds of a node; a node without an entry has no side. -/
def boundsAt (bounds : NodeMap (BoundPair α)) (node : Nat) : BoundPair α :=
  (bounds.get? node).getD ⟨none, none⟩

/-- A path constraint with rows has bounds for one interval or for each, the
bounds of no interval are crossed, and known derivatives have their shapes. -/
structure PathConstraint.Fits (spec : PathConstraint α) (dims : Dimensions) : Prop where
  length_lower : spec.lower.length = spec.dim ∨ spec.lower.length = dims.n * spec.dim
  length_upper : spec.upper.length = spec.dim ∨ spec.upper.length = dims.n * spec.dim
  ordered : ∀ node < dims.n, ∀ row < spec.dim,
    ∀ lower ∈ spec.lower[spec.place spec.lower node row]?,
    ∀ upper ∈ spec.upper[spec.place spec.upper node row]?,
      Scalar.less upper lower = false
  jacobianX : ∀ rows ∈ spec.jacobianX, IsFiniteMatrix spec.dim dims.nx rows
  jacobianU : ∀ rows ∈ spec.jacobianU, IsFiniteMatrix spec.dim dims.nu rows

/-- A point constraint stands on the horizon, its outputs divide into rows, and
if there are any, its bounds fit them. -/
structure PointConstraint.Fits (spec : PointConstraint α) (dims : Dimensions) (node : Nat) :
    Prop where
  node_le : node ≤ dims.n
  named : IsIdentifier spec.name
  divides : (if node < dims.n then 1 + dims.nx + dims.nu else 1 + dims.nx) ∣ spec.outputWidth
  bounds : 0 < spec.dim dims node →
    BoundPair.Fits ⟨some spec.lower, some spec.upper⟩ (spec.dim dims node)

/-- What a description has to satisfy before its shapes mean anything. -/
structure WellFramed (description : Description α) : Prop where
  n_pos : 0 < description.dims.n
  nx_pos : 0 < description.dims.nx
  nu_pos : 0 < description.dims.nu
  ny_pos : 0 < description.dims.ny
  nyn_pos : 0 < description.dims.nyn
  named : IsIdentifier description.moduleName
  damping_finite : Scalar.isFinite description.flags.levenbergMarquardt = true
  damping_nonneg : Scalar.less description.flags.levenbergMarquardt 0 = false
  arrival_free :
    ¬(description.flags.useArrivalCost = true ∧ description.flags.initialStateFixed = true)

/-- What the content of a description has to satisfy. -/
structure WellFilled (description : Description α) : Prop where
  weight : ∀ rows, description.objective.weight = .given rows →
    description.flags.variableWeighting = false ∧
      IsFiniteMatrix description.dims.ny description.dims.ny rows
  terminalWeight : ∀ rows, description.objective.terminalWeight = .given rows →
    IsFiniteMatrix description.dims.nyn description.dims.nyn rows
  jacobianX : ∀ rows ∈ description.objective.jacobianX,
    IsFiniteMatrix description.dims.ny description.dims.nx rows
  jacobianU : ∀ rows ∈ description.objective.jacobianU,
    IsFiniteMatrix description.dims.ny description.dims.nu rows
  terminalJacobianX : ∀ rows ∈ description.objective.terminalJacobianX,
    IsFiniteMatrix description.dims.nyn description.dims.nx rows
  linearTerms : ∀ x u, description.objective.linearTerms = .given x u →
    x.length = description.dims.nx ∧ u.length = description.dims.nu
  controlNodes : ∀ entry ∈ description.bounds.u.entries, entry.1 < description.dims.n
  stateNodes : ∀ entry ∈ description.bounds.x.entries, entry.1 ≤ description.dims.n
  controlBounds : ∀ node < description.dims.n,
    (boundsAt description.bounds.u node).Fits description.dims.nu
  stateBounds : ∀ node, 1 ≤ node → node ≤ description.dims.n →
    (boundsAt description.bounds.x node).Fits description.dims.nx
  pathName : ∀ spec ∈ description.pathConstraint, IsIdentifier spec.name
  path : ∀ spec ∈ description.pathConstraint, 0 < spec.dim → spec.Fits description.dims
  points : ∀ entry ∈ description.pointConstraints.entries,
    entry.2.Fits description.dims entry.1

/-- A description whose parts fit together. -/
structure WellFormed (description : Description α) : Prop extends
  WellFramed description, WellFilled description

end Description

/-! ## Single checks -/

theorem startsIdentifier_iff (c : Char) : startsIdentifier c = true ↔ IsLetter c := by
  have code_eq (d : Char) : c = d ↔ c.val = d.val := Char.ext_iff
  simp only [startsIdentifier, IsLetter, Char.isAlpha, Char.isUpper, Char.isLower, Bool.or_eq_true,
    Bool.and_eq_true, decide_eq_true_eq, beq_iff_eq, Char.le_def]
  tauto

theorem continuesIdentifier_iff (c : Char) :
    continuesIdentifier c = true ↔ IsLetter c ∨ ('0' ≤ c ∧ c ≤ '9') := by
  rw [← startsIdentifier_iff]
  simp only [startsIdentifier, continuesIdentifier, Char.isAlphanum, Char.isDigit, Bool.or_eq_true,
    Bool.and_eq_true, decide_eq_true_eq, beq_iff_eq, Char.le_def]
  tauto

theorem isIdentifier_iff (name : String) : isIdentifier name = true ↔ IsIdentifier name := by
  unfold isIdentifier IsIdentifier
  cases name.toList with
  | nil => simp
  | cons first rest =>
      simp [startsIdentifier_iff, continuesIdentifier_iff]

namespace Validation

open Description

variable {α : Type} [Scalar α]

/-- A name is refused exactly if it is no identifier. -/
theorem clean_identifier_iff (subject name : String) :
    hasErrors (Checked.reportIf (!isIdentifier name) (noIdentifier subject name)).diagnostics =
      false ↔ IsIdentifier name := by
  rw [Checked.hasErrors_reportIf, noIdentifier, hasErrors_error, Bool.and_true,
    Bool.not_eq_false', isIdentifier_iff]

theorem clean_checkDims_iff (dims : Dimensions) :
    hasErrors (checkDims dims).diagnostics = false ↔
      0 < dims.n ∧ 0 < dims.nx ∧ 0 < dims.nu ∧ 0 < dims.ny ∧ 0 < dims.nyn := by
  simp only [checkDims, Checked.hasErrors_forAll, Checked.hasErrors_reportIf, List.any_cons,
    List.any_nil, hasErrors_error, Bool.and_true, Bool.or_false, Bool.or_eq_false_iff,
    beq_eq_false_iff_ne, Nat.pos_iff_ne_zero]

theorem clean_checkFlags_iff (flags : Flags α) :
    hasErrors (checkFlags flags).diagnostics = false ↔
      (Scalar.isFinite flags.levenbergMarquardt = true ∧
        Scalar.less flags.levenbergMarquardt 0 = false) ∧
      ¬(flags.useArrivalCost = true ∧ flags.initialStateFixed = true) := by
  simp only [checkFlags, Checked.diagnostics_bind, hasErrors_append, Checked.hasErrors_reportIf,
    hasErrors_withHint, hasErrors_error, hasErrors_warning, Bool.and_true, Bool.and_false,
    Bool.or_false, Bool.or_eq_false_iff, Bool.not_eq_false', ← Bool.and_eq_true,
    Bool.not_eq_true]

theorem clean_checkFrame_iff (description : Description α) :
    hasErrors (checkFrame description).diagnostics = false ↔ description.WellFramed := by
  simp only [checkFrame, Checked.diagnostics_bind, hasErrors_append, Bool.or_eq_false_iff,
    clean_checkDims_iff, clean_identifier_iff, clean_checkFlags_iff]
  constructor
  · rintro ⟨⟨n_pos, nx_pos, nu_pos, ny_pos, nyn_pos⟩, named, ⟨finite, nonneg⟩, free⟩
    exact ⟨n_pos, nx_pos, nu_pos, ny_pos, nyn_pos, named, finite, nonneg, free⟩
  · rintro ⟨n_pos, nx_pos, nu_pos, ny_pos, nyn_pos, named, finite, nonneg, free⟩
    exact ⟨⟨n_pos, nx_pos, nu_pos, ny_pos, nyn_pos⟩, named, ⟨finite, nonneg⟩, free⟩

/-! ## Objective -/

theorem clean_checkMatrix_iff (code : DiagnosticCode) (subject : String) (rows cols : Nat)
    (values : List (List α)) :
    hasErrors (checkMatrix code subject rows cols values).diagnostics = false ↔
      IsFiniteMatrix rows cols values := by
  unfold checkMatrix
  split
  · rename_i misshapen
    simp only [Checked.diagnostics_refuse, wrongShape, hasErrors_error, Bool.true_eq_false,
      false_iff]
    rintro ⟨length_values, length_row, _⟩
    simp only [length_values, bne_self_eq_false, Bool.false_or, List.any_eq_true, bne_iff_ne]
      at misshapen
    obtain ⟨row, mem, differs⟩ := misshapen
    exact differs (length_row row mem)
  · rename_i shaped
    simp only [Bool.or_eq_true, bne_iff_ne, List.any_eq_true, not_or, not_not, not_exists,
      not_and] at shaped
    split
    · rename_i infinite
      simp only [Checked.diagnostics_refuse, hasErrors_error, Bool.true_eq_false, false_iff]
      rintro ⟨_, _, finite⟩
      simp only [List.any_eq_true, List.mem_flatten, Bool.not_eq_true'] at infinite
      obtain ⟨entry, ⟨row, mem, entry_mem⟩, isInfinite⟩ := infinite
      rw [finite row mem entry entry_mem] at isInfinite
      contradiction
    · rename_i finite
      simp only [Checked.diagnostics_pure, hasErrors_nil, true_iff]
      simp only [List.any_eq_true, List.mem_flatten, Bool.not_eq_true', not_exists, not_and,
        Bool.not_eq_false] at finite
      exact ⟨shaped.1, shaped.2, fun row mem entry entry_mem => finite entry ⟨row, mem, entry_mem⟩⟩

theorem clean_onOption_iff {β γ : Type} (check : β → Checked (Option γ)) (item : Option β) :
    hasErrors (Checked.onOption check item).diagnostics = false ↔
      ∀ value ∈ item, hasErrors (check value).diagnostics = false := by
  cases item with
  | none => simp [Checked.onOption]
  | some value => simp [Checked.onOption]

theorem clean_checkWeight_iff (description : Description α) :
    hasErrors (checkWeight description).diagnostics = false ↔
      ∀ rows, description.objective.weight = .given rows →
        description.flags.variableWeighting = false ∧
          IsFiniteMatrix description.dims.ny description.dims.ny rows := by
  unfold checkWeight
  cases description.objective.weight with
  | runtime => simp
  | given rows =>
      cases varies : description.flags.variableWeighting with
      | true => simp
      | false => simp [clean_checkMatrix_iff]

theorem clean_checkTerminalWeight_iff (description : Description α) :
    hasErrors (checkTerminalWeight description).diagnostics = false ↔
      ∀ rows, description.objective.terminalWeight = .given rows →
        IsFiniteMatrix description.dims.nyn description.dims.nyn rows := by
  unfold checkTerminalWeight
  cases description.objective.terminalWeight with
  | runtime => simp
  | given rows => simp [clean_checkMatrix_iff]

omit [Scalar α] in
theorem clean_checkVector_iff (subject : String) (length : Nat) (values : List α) :
    hasErrors (checkVector subject length values).diagnostics = false ↔
      values.length = length := by
  unfold checkVector
  split
  · rename_i differs
    simpa using differs
  · rename_i fits
    simpa using fits

omit [Scalar α] in
theorem clean_checkLinearTerms_iff (description : Description α) :
    hasErrors (checkLinearTerms description).diagnostics = false ↔
      ∀ x u, description.objective.linearTerms = .given x u →
        x.length = description.dims.nx ∧ u.length = description.dims.nu := by
  unfold checkLinearTerms
  cases description.objective.linearTerms with
  | none => simp
  | runtime => simp
  | given x u =>
      simp only [Checked.diagnostics_bind, hasErrors_append, Bool.or_eq_false_iff,
        clean_checkVector_iff]
      constructor
      · rintro ⟨length_x, length_u, _⟩ _ _ ⟨⟩
        exact ⟨length_x, length_u⟩
      · intro lengths
        obtain ⟨length_x, length_u⟩ := lengths x u rfl
        refine ⟨length_x, length_u, ?_⟩
        split
        · rfl
        · rfl

/-! ## Bounds -/

theorem areCrossed_eq_false_iff (bounds : BoundValues α) :
    areCrossed bounds = false ↔
      ∀ index : Nat, ∀ lower ∈ bounds.lower[index]?, ∀ upper ∈ bounds.upper[index]?,
        Scalar.less upper lower = false := by
  simp only [areCrossed, List.any_eq_false, Bool.not_eq_true]
  constructor
  · intro each index lower lower_at upper upper_at
    have mem : (lower, upper) ∈ bounds.lower.zip bounds.upper :=
      List.mem_of_getElem? (List.getElem?_zip_eq_some.2 ⟨lower_at, upper_at⟩)
    exact each _ mem
  · intro each pair mem
    obtain ⟨index, found⟩ := List.getElem?_of_mem mem
    obtain ⟨lower_at, upper_at⟩ := List.getElem?_zip_eq_some.1 found
    exact each index _ lower_at _ upper_at

omit [Scalar α] in
theorem clean_checkSide_iff (subject : String) (length : Nat) (default : α)
    (side : Option (List α)) :
    hasErrors (checkSide subject length default side).diagnostics = false ↔
      ∀ values ∈ side, values.length = length := by
  unfold checkSide
  cases side with
  | none => simp
  | some values =>
      by_cases fits : values.length = length
      · simp [fits]
      · simp [fits]

omit [Scalar α] in
/-- A side without errors is used as it is given. -/
theorem value_checkSide_eq {subject : String} {length : Nat} {default : α}
    {side : Option (List α)} (fits : ∀ values ∈ side, values.length = length) :
    (checkSide subject length default side).value = filledSide default length side := by
  cases side with
  | none => rfl
  | some values => simp [checkSide, filledSide, fits values rfl]

theorem clean_checkSides_iff (subject : String) (length : Nat) (lower upper : Option (List α)) :
    hasErrors (checkSides subject length lower upper).diagnostics = false ↔
      BoundPair.Fits ⟨lower, upper⟩ length := by
  simp only [checkSides, Checked.diagnostics_bind, hasErrors_append, Bool.or_eq_false_iff,
    Checked.diagnostics_pure, hasErrors_nil, and_true, clean_checkSide_iff,
    Checked.hasErrors_reportIf, crossedBounds, hasErrors_error, Bool.and_true]
  constructor
  · rintro ⟨length_lower, length_upper, ordered⟩
    rw [value_checkSide_eq length_lower, value_checkSide_eq length_upper,
      areCrossed_eq_false_iff] at ordered
    exact ⟨length_lower, length_upper, ordered⟩
  · rintro ⟨length_lower, length_upper, ordered⟩
    rw [value_checkSide_eq length_lower, value_checkSide_eq length_upper,
      areCrossed_eq_false_iff]
    exact ⟨length_lower, length_upper, ordered⟩

theorem clean_checkNodes_iff (map : String) (length : Nat)
    (bounds : NodeMap (BoundPair α)) (nodes : List Nat) :
    hasErrors (checkNodes map length bounds nodes).diagnostics = false ↔
      ∀ node ∈ nodes, (boundsAt bounds node).Fits length := by
  have each (node : Nat) :
      hasErrors (checkNodeBounds (nodeSubject map node) length (bounds.get? node)).diagnostics =
        false ↔ (boundsAt bounds node).Fits length := by
    unfold checkNodeBounds boundsAt
    rw [clean_checkSides_iff]
    cases bounds.get? node with
    | none => rfl
    | some pair => rfl
  simp only [checkNodes, List.flatMap_map, hasErrors_flatMap, List.any_eq_false,
    Bool.not_eq_true, each]

theorem clean_checkBoxBounds_iff (description : Description α) :
    hasErrors (checkBoxBounds description).diagnostics = false ↔
      (∀ entry ∈ description.bounds.u.entries, entry.1 < description.dims.n) ∧
      (∀ entry ∈ description.bounds.x.entries, entry.1 ≤ description.dims.n) ∧
      (∀ node < description.dims.n,
        (boundsAt description.bounds.u node).Fits description.dims.nu) ∧
      ∀ node, 1 ≤ node → node ≤ description.dims.n →
        (boundsAt description.bounds.x node).Fits description.dims.nx := by
  have stateNode (n node : Nat) :
      hasErrors (checkStateNode n node).diagnostics = decide (n < node) := by
    unfold checkStateNode
    by_cases outside : n < node
    · simp [outside]
    · simp [outside]
  have states (node : Nat) : node ∈ List.range' 1 description.dims.n ↔
      1 ≤ node ∧ node ≤ description.dims.n := by
    rw [List.mem_range'_1]
    omega
  simp only [checkBoxBounds, checkControlNode, Checked.diagnostics_bind, hasErrors_append,
    Bool.or_eq_false_iff, Checked.hasErrors_forAll, Checked.hasErrors_reportIf, hasErrors_error,
    Bool.and_true, stateNode, List.any_map, List.any_eq_false, Function.comp_apply,
    decide_eq_true_eq, Nat.not_le, Nat.not_lt, clean_checkNodes_iff, List.mem_range, states,
    and_imp, Checked.diagnostics_pure, hasErrors_nil, and_true]

/-! ## Constraints -/

omit [Scalar α] in
theorem stackPath_isSome_iff (n dim : Nat) (values : List α) :
    (∃ stacked, stackPath n dim values = some stacked) ↔
      values.length = dim ∨ values.length = n * dim := by
  unfold stackPath
  split
  · rename_i shared
    simp [shared]
  · rename_i different
    split
    · rename_i each
      simp [each]
    · rename_i short
      simp [different, short]

/-- Stacked path bounds are crossed exactly if those of some interval are. -/
theorem areCrossed_stackPath_iff {n : Nat} {spec : Description.PathConstraint α}
    {lower upper : List α} (lowerCovers : stackPath n spec.dim spec.lower = some lower)
    (upperCovers : stackPath n spec.dim spec.upper = some upper) :
    areCrossed ⟨lower, upper⟩ = false ↔
      ∀ node < n, ∀ row < spec.dim,
        ∀ low ∈ spec.lower[spec.place spec.lower node row]?,
        ∀ high ∈ spec.upper[spec.place spec.upper node row]?, Scalar.less high low = false := by
  rw [areCrossed_eq_false_iff]
  constructor
  · intro each node node_lt row row_lt
    rw [← getElem?_stackPath lowerCovers node_lt row_lt,
      ← getElem?_stackPath upperCovers node_lt row_lt]
    exact each _
  · intro each index low low_at high high_at
    have index_lt : index < n * spec.dim := by
      rw [← length_stackPath lowerCovers]
      exact (List.getElem?_eq_some_iff.1 low_at).1
    have dim_pos : 0 < spec.dim := Nat.pos_of_mul_pos_left (Nat.zero_lt_of_lt index_lt)
    have node_lt : index / spec.dim < n := (Nat.div_lt_iff_lt_mul dim_pos).2 index_lt
    have row_lt : index % spec.dim < spec.dim := Nat.mod_lt index dim_pos
    have index_eq : index = index / spec.dim * spec.dim + index % spec.dim :=
      (Nat.div_add_mod' index spec.dim).symm
    rw [index_eq] at low_at high_at
    refine each _ node_lt _ row_lt low ?_ high ?_
    · rwa [← getElem?_stackPath lowerCovers node_lt row_lt]
    · rwa [← getElem?_stackPath upperCovers node_lt row_lt]

theorem clean_checkPath_iff (dims : Dimensions) (spec : Description.PathConstraint α) :
    hasErrors (checkPath dims spec).diagnostics = false ↔
      IsIdentifier spec.name ∧ (0 < spec.dim → spec.Fits dims) := by
  unfold checkPath
  by_cases named : isIdentifier spec.name = true
  · have isName : IsIdentifier spec.name := (isIdentifier_iff _).1 named
    by_cases empty : spec.dim = 0
    · simp [named, isName, empty]
    · have dim_pos : 0 < spec.dim := Nat.pos_of_ne_zero empty
      simp only [named, Bool.not_true, Bool.false_eq_true, if_false, if_neg empty, isName, dim_pos,
        forall_const, true_and]
      have lower_iff := stackPath_isSome_iff dims.n spec.dim spec.lower
      have upper_iff := stackPath_isSome_iff dims.n spec.dim spec.upper
      cases lowerCovers : stackPath dims.n spec.dim spec.lower with
      | none =>
          simp only [lowerCovers, reduceCtorEq, exists_false, false_iff] at lower_iff
          simp only [Checked.diagnostics_refuse, hasErrors_error, Bool.true_eq_false, false_iff]
          exact fun fits => lower_iff fits.length_lower
      | some lower =>
          cases upperCovers : stackPath dims.n spec.dim spec.upper with
          | none =>
              simp only [upperCovers, reduceCtorEq, exists_false, false_iff] at upper_iff
              simp only [Checked.diagnostics_refuse, hasErrors_error, Bool.true_eq_false, false_iff]
              exact fun fits => upper_iff fits.length_upper
          | some upper =>
              simp only [Checked.diagnostics_bind, hasErrors_append, Bool.or_eq_false_iff,
                Checked.hasErrors_reportIf, crossedBounds, hasErrors_error, Bool.and_true,
                clean_onOption_iff, clean_checkMatrix_iff, Checked.diagnostics_pure,
                hasErrors_nil, and_true, areCrossed_stackPath_iff lowerCovers upperCovers]
              have length_lower := lower_iff.1 ⟨lower, lowerCovers⟩
              have length_upper := upper_iff.1 ⟨upper, upperCovers⟩
              constructor
              · rintro ⟨ordered, jacobianX, jacobianU⟩
                exact ⟨length_lower, length_upper, ordered, jacobianX, jacobianU⟩
              · rintro ⟨_, _, ordered, jacobianX, jacobianU⟩
                exact ⟨ordered, jacobianX, jacobianU⟩
  · have noName : ¬IsIdentifier spec.name := fun isName => named ((isIdentifier_iff _).2 isName)
    simp [named, noName, noIdentifier]

theorem clean_checkPoint_iff (dims : Dimensions) (node : Nat)
    (spec : Description.PointConstraint α) :
    hasErrors (checkPoint dims node spec).diagnostics = false ↔ spec.Fits dims node := by
  unfold checkPoint
  dsimp only
  split
  · rename_i outside
    simp only [Checked.diagnostics_refuse, hasErrors_error, Bool.true_eq_false, false_iff]
    exact fun fits => Nat.not_le_of_lt outside fits.node_le
  · rename_i inside
    split
    · rename_i unnamed
      simp only [Checked.diagnostics_refuse, noIdentifier, hasErrors_error, Bool.true_eq_false,
        false_iff]
      intro fits
      rw [(isIdentifier_iff _).2 fits.named] at unnamed
      contradiction
    · rename_i named
      have isName : IsIdentifier spec.name := (isIdentifier_iff _).1 (by simpa using named)
      split
      · rename_i remainder
        simp only [Checked.diagnostics_refuse, hasErrors_error, Bool.true_eq_false, false_iff]
        exact fun fits => remainder (Nat.mod_eq_zero_of_dvd fits.divides)
      · rename_i divided
        have divides : outputsPerRow dims node ∣ spec.outputWidth :=
          Nat.dvd_of_mod_eq_zero (not_not.1 divided)
        have node_le : node ≤ dims.n := Nat.le_of_not_lt inside
        split
        · rename_i empty
          have dim_eq : spec.dim dims node = 0 := empty
          simp only [Checked.diagnostics_pure, hasErrors_nil, true_iff]
          exact ⟨node_le, isName, divides, fun dim_pos => absurd dim_eq (Nat.ne_of_gt dim_pos)⟩
        · rename_i filled
          simp only [Checked.diagnostics_bind, Checked.diagnostics_pure, List.append_nil,
            clean_checkSides_iff]
          constructor
          · exact fun bounds => ⟨node_le, isName, divides, fun _ => bounds⟩
          · exact fun fits => fits.bounds (Nat.pos_of_ne_zero filled)

theorem clean_checkPoints_iff (description : Description α) :
    hasErrors (checkPoints description).diagnostics = false ↔
      ∀ entry ∈ description.pointConstraints.entries,
        entry.2.Fits description.dims entry.1 := by
  simp only [checkPoints, hasErrors_flatMap, List.any_eq_false, Bool.not_eq_true,
    clean_checkPoint_iff]

/-! ## Whole descriptions -/

theorem clean_checkContent_iff (description : Description α) :
    hasErrors (checkContent description).diagnostics = false ↔ description.WellFilled := by
  simp only [checkContent, Checked.diagnostics_bind, hasErrors_append, Bool.or_eq_false_iff,
    clean_checkWeight_iff, clean_checkTerminalWeight_iff, clean_onOption_iff,
    clean_checkMatrix_iff, clean_checkLinearTerms_iff, clean_checkBoxBounds_iff,
    clean_checkPath_iff, clean_checkPoints_iff, Checked.diagnostics_pure, hasErrors_nil, and_true]
  constructor
  · rintro ⟨weight, terminalWeight, jacobianX, jacobianU, terminalJacobianX, linearTerms,
      ⟨controlNodes, stateNodes, controlBounds, stateBounds⟩, path, points⟩
    exact {
      weight, terminalWeight, jacobianX, jacobianU, terminalJacobianX, linearTerms, controlNodes
      stateNodes, controlBounds, stateBounds, points
      pathName := fun spec given => (path spec given).1
      path := fun spec given => (path spec given).2 }
  · intro filled
    exact ⟨filled.weight, filled.terminalWeight, filled.jacobianX, filled.jacobianU,
      filled.terminalJacobianX, filled.linearTerms,
      ⟨filled.controlNodes, filled.stateNodes, filled.controlBounds, filled.stateBounds⟩,
      fun spec given => ⟨filled.pathName spec given, filled.path spec given⟩, filled.points⟩

/-- The findings of a validation hold an error exactly if those of the frame or
of the content do. -/
theorem clean_check_iff (description : Description α) :
    hasErrors (check description).diagnostics = false ↔
      hasErrors (checkFrame description).diagnostics = false ∧
        hasErrors (checkContent description).diagnostics = false := by
  unfold check
  cases frameErrors : hasErrors (checkFrame description).diagnostics with
  | true => simp [frameErrors]
  | false => simp [frameErrors]

end Validation

namespace Description

variable {α : Type} [Scalar α]

/-- Validation returns a problem exactly if it finds no error, and it finds none
exactly in well-formed descriptions. -/
theorem accepted_iff_wellFormed (description : Description α) :
    (description.validate.value.isSome ↔
        hasErrors description.validate.diagnostics = false) ∧
      (description.validate.value.isSome ↔ description.WellFormed) := by
  refine ⟨validate_isSome_iff, validate_isSome_iff.trans ?_⟩
  have checks : hasErrors description.validate.diagnostics = false ↔
      description.WellFramed ∧ description.WellFilled := by
    rw [← Validation.clean_checkFrame_iff, ← Validation.clean_checkContent_iff]
    exact Validation.clean_check_iff description
  rw [checks]
  exact ⟨fun ⟨framed, filled⟩ => ⟨framed, filled⟩, fun formed => ⟨formed.1, formed.2⟩⟩

end Description

end RtiAssembly
