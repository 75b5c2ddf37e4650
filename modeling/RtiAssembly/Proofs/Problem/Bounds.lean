import RtiAssembly.Proofs.Problem.Rows
import RtiAssembly.Proofs.Storage.Plan

/-!
# Configured bounds

A description gives the bounds of a path constraint once or for every interval,
and those of a point constraint at its node.  Validation stacks them row by row;
the main statements say which bound an affine row gets.
-/

namespace RtiAssembly

/-- An element of a piece stands behind all elements of the pieces before. -/
theorem getElem?_flatMap_behind {β : Type} (pieces : Nat → List β) {count piece place : Nat}
    (piece_lt : piece < count) (inside : place < (pieces piece).length) :
    ((List.range count).flatMap pieces)[
        ((List.range piece).map fun other => (pieces other).length).sum + place]? =
      (pieces piece)[place]? := by
  have before_eq (count : Nat) : ((List.range count).flatMap pieces).length =
      ((List.range count).map fun other => (pieces other).length).sum := List.length_flatMap
  induction count with
  | zero => contradiction
  | succ count ih =>
      rw [List.range_succ, List.flatMap_append, List.flatMap_singleton]
      rcases Nat.lt_succ_iff_lt_or_eq.1 piece_lt with earlier | rfl
      · rw [List.getElem?_append_left, ih earlier]
        have found := ih earlier
        rw [List.getElem?_eq_getElem inside] at found
        exact (List.getElem?_eq_some_iff.1 found).1
      · rw [List.getElem?_append_right (by rw [before_eq]; exact Nat.le_add_right _ _), before_eq,
          Nat.add_sub_cancel_left]

/-! ## Rows of a problem -/

namespace Problem.WellFormed

variable {α : Type} {problem : Problem α}

/-- An affine row has the bounds of its place among the rows of its node. -/
theorem getElem?_affineBounds (wellFormed : problem.WellFormed) {node : Nat}
    (node_le : node ≤ problem.dims.n) {place : Nat}
    (inside : place < problem.pathRowsOf node + problem.pointRowsOf node) :
    let rows := Validation.affineRows problem.dims.n problem.path problem.points node
    problem.affineBounds.lower[problem.affineOffset node + place]? = rows.lower[place]? ∧
      problem.affineBounds.upper[problem.affineOffset node + place]? = rows.upper[place]? := by
  let rows := Validation.affineRows problem.dims.n problem.path problem.points
  have length_eq (other : Nat) : (rows other).lower.length =
        problem.pathRowsOf other + problem.pointRowsOf other ∧
      (rows other).upper.length = problem.pathRowsOf other + problem.pointRowsOf other :=
    wellFormed.length_affineRows other
  have offset_eq : problem.affineOffset node = ((List.range node).map fun other =>
      problem.pathRowsOf other + problem.pointRowsOf other).sum := by
    rw [affineOffset_eq_sum, wellFormed.rowCounts_eq_map, ← List.map_take, List.take_range,
      Nat.min_eq_left (Nat.le_succ_of_le node_le)]
  have node_lt : node < problem.dims.n + 1 := Nat.lt_succ_of_le node_le
  rw [wellFormed.affineBounds_eq]
  simp only [Validation.affineBounds, Validation.stack, List.flatMap_map]
  constructor
  · have found := getElem?_flatMap_behind (fun other => (rows other).lower) node_lt
      (by rw [(length_eq node).1]; exact inside)
    simpa only [(length_eq _).1, ← offset_eq] using found
  · have found := getElem?_flatMap_behind (fun other => (rows other).upper) node_lt
      (by rw [(length_eq node).2]; exact inside)
    simpa only [(length_eq _).2, ← offset_eq] using found

/-- The rows of the path constraint on an interval have its bounds there. -/
theorem getElem?_pathBounds (wellFormed : problem.WellFormed) {path : PathConstraint α}
    (known : problem.path = some path) {node : Nat} (node_lt : node < problem.dims.n) {row : Nat}
    (row_lt : row < path.dim) :
    problem.affineBounds.lower[problem.affineOffset node + row]? =
        path.bounds.lower[node * path.dim + row]? ∧
      problem.affineBounds.upper[problem.affineOffset node + row]? =
        path.bounds.upper[node * path.dim + row]? := by
  have length_eq := (wellFormed.path_fits path known).length_pathRows node_lt
  have inside : row < problem.pathRowsOf node + problem.pointRowsOf node := by
    rw [pathRowsOf, if_pos node_lt, pathDim, known, Option.elim_some]
    exact Nat.lt_add_right _ row_lt
  obtain ⟨lower, upper⟩ := wellFormed.getElem?_affineBounds (Nat.le_of_lt node_lt) inside
  rw [lower, upper]
  simp only [Validation.affineRows, known, if_pos node_lt, Validation.stack,
    List.cons_append, List.nil_append, List.flatMap_cons]
  rw [List.getElem?_append_left (length_eq.1.symm ▸ row_lt),
    List.getElem?_append_left (length_eq.2.symm ▸ row_lt)]
  simp only [Validation.pathRows]
  rw [List.getElem?_take_of_lt row_lt, List.getElem?_take_of_lt row_lt, List.getElem?_drop,
    List.getElem?_drop]
  exact ⟨rfl, rfl⟩

/-- The rows of a point constraint have its bounds. -/
theorem getElem?_pointBounds (wellFormed : problem.WellFormed) {node : Nat}
    {point : PointConstraint α} (found : problem.points.get? node = some point) {row : Nat}
    (row_lt : row < point.dim) :
    problem.affineBounds.lower[problem.pointOffset node + row]? = point.bounds.lower[row]? ∧
      problem.affineBounds.upper[problem.pointOffset node + row]? = point.bounds.upper[row]? := by
  have fits := wellFormed.fits_of_get? found
  have count_eq : problem.pointRowsOf node = point.dim := by
    rw [pointRowsOf, found, Option.elim_some]
  have inside : problem.pathRowsOf node + row <
      problem.pathRowsOf node + problem.pointRowsOf node := by omega
  obtain ⟨lower, upper⟩ := wellFormed.getElem?_affineBounds fits.node_le inside
  rw [← Nat.add_assoc] at lower upper
  rw [pointOffset, lower, upper]
  simp only [Validation.affineRows, found, Option.map_some, Option.toList_some, Validation.stack]
  unfold pathRowsOf pathDim
  cases known : problem.path with
  | none => simp
  | some path =>
      by_cases interval : node < problem.dims.n
      · obtain ⟨lowerCount, upperCount⟩ :=
          (wellFormed.path_fits path known).length_pathRows interval
        simp only [interval, if_true, Option.elim_some, List.cons_append, List.nil_append,
          List.flatMap_cons, List.flatMap_nil, List.append_nil]
        rw [List.getElem?_append_right (lowerCount ▸ Nat.le_add_right _ _), lowerCount,
          List.getElem?_append_right (upperCount ▸ Nat.le_add_right _ _), upperCount,
          Nat.add_sub_cancel_left]
        exact ⟨rfl, rfl⟩
      · simp [interval]

end Problem.WellFormed

/-! ## Rows of a description -/

/-- The place of a configured path bound: a side that is given once holds for
every interval. -/
def Description.PathConstraint.place {α : Type} (spec : Description.PathConstraint α)
    (side : List α) (node row : Nat) : Nat :=
  if side.length = spec.dim then row else node * spec.dim + row

/-- Number of rows of a point constraint at its node. -/
def Description.PointConstraint.dim {α : Type} (spec : Description.PointConstraint α)
    (dims : Dimensions) (node : Nat) : Nat :=
  spec.outputWidth / Validation.outputsPerRow dims node

namespace Validation

variable {α : Type} [Scalar α]

omit [Scalar α] in
/-- A bound of an interval stands at the place that the description gives it. -/
theorem getElem?_stackPath {n : Nat} {spec : Description.PathConstraint α}
    {values stacked : List α} (covers : stackPath n spec.dim values = some stacked)
    {node row : Nat} (node_lt : node < n) (row_lt : row < spec.dim) :
    stacked[node * spec.dim + row]? = values[spec.place values node row]? := by
  unfold stackPath at covers
  unfold Description.PathConstraint.place
  split at covers
  · rename_i shared
    cases covers
    rw [if_pos shared]
    have flat_eq : (List.replicate n values).flatten =
        (List.range n).flatMap fun _ => values := by
      rw [List.flatMap_def, List.map_const', List.length_range]
    have found := @getElem?_flatMap_behind α (fun _ => values) n node row node_lt
      (by rw [shared]; exact row_lt)
    rw [flat_eq]
    simpa [List.map_const', shared] using found
  · rename_i different
    split at covers
    · cases covers
      rw [if_neg different]
    · contradiction

/-- A path constraint without errors, with the bounds that it was given. -/
theorem path_of_checkPath {dims : Dimensions} {spec : Description.PathConstraint α}
    (clean : hasErrors (checkPath dims spec).diagnostics = false) (dim_pos : 0 < spec.dim) :
    ∃ path lower upper, (checkPath dims spec).value = some path ∧ path.name = spec.name ∧
      path.dim = spec.dim ∧ path.bounds = ⟨lower, upper⟩ ∧
      stackPath dims.n spec.dim spec.lower = some lower ∧
      stackPath dims.n spec.dim spec.upper = some upper := by
  have dim_ne : spec.dim ≠ 0 := Nat.ne_of_gt dim_pos
  unfold checkPath at clean ⊢
  split at clean
  · simp [noIdentifier] at clean
  · rename_i named
    rw [if_neg named, if_neg dim_ne]
    cases lower : stackPath dims.n spec.dim spec.lower with
    | none => simp [lower] at clean
    | some lowerRows =>
        cases upper : stackPath dims.n spec.dim spec.upper with
        | none => simp [lower, upper] at clean
        | some upperRows => exact ⟨_, lowerRows, upperRows, rfl, rfl, rfl, rfl, rfl, rfl⟩

omit [Scalar α] in
/-- A side that is found without errors is the given one. -/
theorem value_checkSide {subject : String} {length : Nat} {default : α} {values : List α}
    (clean : hasErrors (checkSide subject length default (some values)).diagnostics = false) :
    (checkSide subject length default (some values)).value = values := by
  unfold checkSide at clean ⊢
  by_cases fits : values.length = length
  · simp only [if_pos fits]
    rfl
  · simp [fits] at clean

/-- A point constraint without errors, with the bounds that it was given. -/
theorem point_of_checkPoint {dims : Dimensions} {node : Nat}
    {spec : Description.PointConstraint α}
    (clean : hasErrors (checkPoint dims node spec).diagnostics = false)
    (dim_pos : 0 < spec.dim dims node) :
    (checkPoint dims node spec).value =
      some ⟨spec.name, spec.outputWidth, spec.dim dims node, ⟨spec.lower, spec.upper⟩⟩ := by
  have dim_ne : spec.outputWidth / outputsPerRow dims node ≠ 0 := Nat.ne_of_gt dim_pos
  unfold checkPoint at clean ⊢
  dsimp only at clean ⊢
  split at clean
  · simp at clean
  · rename_i inside
    split at clean
    · simp [noIdentifier] at clean
    · rename_i named
      split at clean
      · simp at clean
      · rename_i divides
        rw [if_neg inside, if_neg named, if_neg divides, if_neg dim_ne]
        simp only [checkSides, Checked.diagnostics_bind, hasErrors_append, Bool.or_eq_false_iff,
          Checked.diagnostics_pure] at clean
        simp only [checkSides, Checked.value_bind, Checked.value_pure,
          value_checkSide clean.1.1, value_checkSide clean.1.2.1]
        rfl

/-- A path constraint without errors keeps its name if it has rows at all. -/
theorem name_checkPath {dims : Dimensions} {spec : Description.PathConstraint α}
    (clean : hasErrors (checkPath dims spec).diagnostics = false) :
    (checkPath dims spec).value.map PathConstraint.name =
      if 0 < spec.dim then some spec.name else none := by
  split
  · rename_i dim_pos
    obtain ⟨path, _, _, value, name_eq, _⟩ := path_of_checkPath clean dim_pos
    rw [value, Option.map_some, name_eq]
  · rename_i none_left
    have value : (checkPath dims spec).value = none := by
      unfold checkPath
      split
      · rfl
      · rw [if_pos (Nat.eq_zero_of_not_pos none_left)]
        rfl
    rw [value, Option.map_none]

/-- A point constraint without errors keeps its name if it has rows at all. -/
theorem name_checkPoint {dims : Dimensions} {node : Nat} {spec : Description.PointConstraint α}
    (clean : hasErrors (checkPoint dims node spec).diagnostics = false) :
    (checkPoint dims node spec).value.map PointConstraint.name =
      if 0 < spec.dim dims node then some spec.name else none := by
  split
  · rename_i dim_pos
    rw [point_of_checkPoint clean dim_pos, Option.map_some]
  · rename_i none_left
    have dim_eq : spec.outputWidth / outputsPerRow dims node = 0 :=
      Nat.eq_zero_of_not_pos none_left
    have value : (checkPoint dims node spec).value = none := by
      unfold checkPoint
      dsimp only
      split
      · rfl
      · split
        · rfl
        · split
          · rfl
          · rfl
    rw [value, Option.map_none]

/-- No finding about a constraint is an error if none about the content is. -/
theorem clean_of_checkContent {description : Description α}
    (clean : hasErrors (checkContent description).diagnostics = false) :
    (∀ spec ∈ description.pathConstraint,
        hasErrors (checkPath description.dims spec).diagnostics = false) ∧
      ∀ entry ∈ description.pointConstraints.entries,
        hasErrors (checkPoint description.dims entry.1 entry.2).diagnostics = false := by
  simp only [checkContent, Checked.diagnostics_bind, hasErrors_append, Bool.or_eq_false_iff]
    at clean
  obtain ⟨_, _, _, _, _, _, _, path, points, _⟩ := clean
  constructor
  · intro spec given
    rw [Option.mem_def] at given
    rw [given] at path
    exact path
  · intro entry mem
    have each : hasErrors (description.pointConstraints.entries.flatMap fun entry =>
        (checkPoint description.dims entry.1 entry.2).diagnostics) = false := points
    rw [hasErrors_flatMap, List.any_eq_false] at each
    exact Bool.eq_false_iff.2 (each entry mem)

end Validation

namespace Description

variable {α : Type} [Scalar α] {description : Description α} {problem : Problem α}

/-- The path constraint of an accepted description has the configured bounds. -/
theorem path_of_validate (accepted : description.validate.value = some problem)
    {spec : Description.PathConstraint α} (given : description.pathConstraint = some spec)
    (dim_pos : 0 < spec.dim) :
    ∃ path, problem.path = some path ∧ path.name = spec.name ∧ path.dim = spec.dim ∧
      ∀ node < problem.dims.n, ∀ row < spec.dim,
        path.bounds.lower[node * spec.dim + row]? = spec.lower[spec.place spec.lower node row]? ∧
          path.bounds.upper[node * spec.dim + row]? =
            spec.upper[spec.place spec.upper node row]? := by
  obtain ⟨_, clean, rfl⟩ := checkContent_of_validate accepted
  obtain ⟨path, lower, upper, value, name_eq, dim_eq, bounds_eq, lowerCovers, upperCovers⟩ :=
    Validation.path_of_checkPath ((Validation.clean_of_checkContent clean).1 spec given) dim_pos
  refine ⟨path, ?_, name_eq, dim_eq, fun node node_lt row row_lt => ?_⟩
  · change (Checked.onOption (Validation.checkPath description.dims)
      description.pathConstraint).value = some path
    rw [given]
    exact value
  · rw [bounds_eq]
    exact ⟨Validation.getElem?_stackPath lowerCovers node_lt row_lt,
      Validation.getElem?_stackPath upperCovers node_lt row_lt⟩

/-- The path constraint of an accepted problem is the described one, unless that has no
rows. -/
theorem pathName_of_validate (accepted : description.validate.value = some problem) :
    (problem.path.map fun path => path.name) =
      (description.pathConstraint.filter fun spec => 0 < spec.dim).map (·.name) := by
  obtain ⟨_, clean, rfl⟩ := checkContent_of_validate accepted
  have value : (Validation.checkContent description).value.path = (Checked.onOption
      (Validation.checkPath description.dims) description.pathConstraint).value := rfl
  rw [value]
  cases given : description.pathConstraint with
  | none => rfl
  | some spec =>
      refine (Validation.name_checkPath
        ((Validation.clean_of_checkContent clean).1 spec given)).trans ?_
      by_cases dim_pos : 0 < spec.dim <;> simp only [dim_pos, if_true, if_false, Option.filter_some,
        decide_true, decide_false, Option.map_some, Option.map_none, Bool.false_eq_true]

/-- The point constraints of an accepted problem are the described ones that have rows,
in the order of their nodes. -/
theorem pointNames_of_validate (accepted : description.validate.value = some problem) :
    (problem.points.entries.map fun (node, point) => (node, point.name)) =
      (description.pointConstraints.entries.filter fun (node, spec) =>
        0 < spec.dim description.dims node).map fun (node, spec) => (node, spec.name) := by
  obtain ⟨_, clean, rfl⟩ := checkContent_of_validate accepted
  have named := (Validation.clean_of_checkContent clean).2
  have value : (Validation.checkContent description).value.points.entries =
      description.pointConstraints.entries.filterMap fun entry =>
        ((Validation.checkPoint description.dims entry.1 entry.2).value).map (entry.1, ·) := rfl
  rw [value, ← List.filterMap_eq_filter, List.map_filterMap, List.map_filterMap]
  refine List.filterMap_congr fun entry mem => ?_
  have name_eq := Validation.name_checkPoint (named entry mem)
  have pair_eq : ((Validation.checkPoint description.dims entry.1 entry.2).value.map
      (entry.1, ·)).map (fun (node, point) => (node, point.name)) =
        ((Validation.checkPoint description.dims entry.1 entry.2).value.map fun point =>
          point.name).map (entry.1, ·) := by
    rw [Option.map_map, Option.map_map]
    rfl
  rw [pair_eq, name_eq]
  by_cases dim_pos : 0 < entry.2.dim description.dims entry.1 <;> simp [dim_pos]

/-- A point constraint of an accepted description has the configured bounds. -/
theorem point_of_validate (accepted : description.validate.value = some problem) {node : Nat}
    {spec : Description.PointConstraint α}
    (given : description.pointConstraints.get? node = some spec)
    (dim_pos : 0 < spec.dim problem.dims node) :
    problem.points.get? node =
      some ⟨spec.name, spec.outputWidth, spec.dim problem.dims node,
        ⟨spec.lower, spec.upper⟩⟩ := by
  obtain ⟨_, clean, rfl⟩ := checkContent_of_validate accepted
  obtain ⟨⟨key, value⟩, entryFound, rfl⟩ := Option.map_eq_some_iff.1 given
  have key_eq : key = node := by simpa using List.find?_some entryFound
  subst key_eq
  have mem := List.mem_of_find?_eq_some entryFound
  have made := Validation.point_of_checkPoint
    ((Validation.clean_of_checkContent clean).2 _ mem) dim_pos
  refine NodeMap.get?_of_mem (List.mem_filterMap.2 ⟨_, mem, ?_⟩)
  exact congrArg (Option.map (Prod.mk key)) made

end Description

end RtiAssembly
