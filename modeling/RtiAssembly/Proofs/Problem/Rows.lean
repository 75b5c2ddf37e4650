import RtiAssembly.Proofs.Problem.WellFormed
import RtiAssembly.Storage.Quantity

/-!
# Affine rows

The rows of the affine constraints are numbered node by node, and on each node
the rows of the path constraint come before those of the point constraint.
What a node contributes is counted in one place and located in another; the
statements here tie both together.
-/

namespace RtiAssembly

/-- An entry is found under its key, since no key occurs twice. -/
theorem NodeMap.get?_of_mem {β : Type} {map : NodeMap β} {key : Nat} {value : β}
    (mem : (key, value) ∈ map.entries) : map.get? key = some value := by
  obtain ⟨entries, ascending⟩ := map
  unfold get?
  induction entries with
  | nil => cases mem
  | cons first rest ih =>
      rw [List.pairwise_cons] at ascending
      rcases List.mem_cons.1 mem with rfl | later
      · simp
      · have before := ascending.1 _ later
        have other : (first.1 == key) = false := beq_false_of_ne (Nat.ne_of_lt before)
        simp only [List.find?_cons, other]
        exact ih ascending.2 later

/-- A value that is found under a key is an entry. -/
theorem NodeMap.mem_of_get? {β : Type} {map : NodeMap β} {key : Nat} {value : β}
    (found : map.get? key = some value) : (key, value) ∈ map.entries := by
  obtain ⟨entry, entryFound, rfl⟩ := Option.map_eq_some_iff.1 found
  have same := List.find?_some entryFound
  rw [← eq_of_beq same]
  exact List.mem_of_find?_eq_some entryFound

theorem le_foldl_max (values : List Nat) (start : Nat) :
    start ≤ values.foldl max start ∧ ∀ value ∈ values, value ≤ values.foldl max start := by
  induction values generalizing start with
  | nil => simp
  | cons first rest ih =>
      obtain ⟨fromStart, others⟩ := ih (max start first)
      simp only [List.foldl_cons, List.mem_cons, forall_eq_or_imp]
      exact ⟨Nat.le_trans (Nat.le_max_left _ _) fromStart,
        Nat.le_trans (Nat.le_max_right _ _) fromStart, others⟩

namespace Problem

variable {α : Type} {problem : Problem α}

/-- Number of rows of the path constraint on a node; the terminal node has none. -/
def pathRowsOf (problem : Problem α) (node : Nat) : Nat :=
  if node < problem.dims.n then problem.pathDim else 0

/-- Number of rows of the point constraint on a node. -/
def pointRowsOf (problem : Problem α) (node : Nat) : Nat :=
  (problem.points.get? node).elim 0 PointConstraint.dim

namespace WellFormed

theorem rowCounts_eq_map (wellFormed : problem.WellFormed) :
    problem.rowCounts = (List.range (problem.dims.n + 1)).map fun node =>
      problem.pathRowsOf node + problem.pointRowsOf node :=
  wellFormed.rowCounts_eq

theorem affineOffset_eq_sum (problem : Problem α) (node : Nat) :
    problem.affineOffset node = (problem.rowCounts.take node).sum :=
  rfl

/-- The rows of a node end where those of the next node begin. -/
theorem affineOffset_succ (wellFormed : problem.WellFormed) {node : Nat}
    (inside : node ≤ problem.dims.n) :
    problem.affineOffset (node + 1) =
      problem.affineOffset node + (problem.pathRowsOf node + problem.pointRowsOf node) := by
  have found : problem.rowCounts[node]? =
      some (problem.pathRowsOf node + problem.pointRowsOf node) := by
    rw [wellFormed.rowCounts_eq_map, List.getElem?_map,
      List.getElem?_range (Nat.lt_succ_of_le inside)]
    rfl
  rw [affineOffset_eq_sum, List.take_add_one, found, Option.toList_some, List.sum_append,
    affineOffset_eq_sum, List.sum_singleton]

/-- Behind the terminal node all rows are counted. -/
theorem affineOffset_last (wellFormed : problem.WellFormed) :
    problem.affineOffset (problem.dims.n + 1) = problem.affineDim := by
  have length_eq : problem.rowCounts.length = problem.dims.n + 1 := by
    simp [wellFormed.rowCounts_eq_map]
  rw [affineOffset, affineDim, ← length_eq, List.take_length]

theorem affineOffset_mono {first second : Nat} (le : first ≤ second) :
    problem.affineOffset first ≤ problem.affineOffset second := by
  rw [affineOffset_eq_sum, affineOffset_eq_sum,
    ← List.take_append_drop first (problem.rowCounts.take second), List.take_take,
    Nat.min_eq_left le, List.sum_append]
  exact Nat.le_add_right _ _

/-- The rows of a node lie among all rows. -/
theorem affineRows_le (wellFormed : problem.WellFormed) {node : Nat}
    (inside : node ≤ problem.dims.n) :
    problem.affineOffset node + problem.pathRowsOf node + problem.pointRowsOf node ≤
      problem.affineDim := by
  have next := wellFormed.affineOffset_succ inside
  have total := wellFormed.affineOffset_last
  have before : problem.affineOffset (node + 1) ≤ problem.affineOffset (problem.dims.n + 1) :=
    affineOffset_mono (Nat.succ_le_succ inside)
  omega

end WellFormed

/-! ## Point constraints -/

theorem pointRowsOf_of_mem {node : Nat} {point : PointConstraint α}
    (mem : (node, point) ∈ problem.points.entries) :
    problem.pointRowsOf node = point.dim := by
  rw [pointRowsOf, NodeMap.get?_of_mem mem]
  rfl

/-- The first row of the point constraint of a node, behind those of the path
constraint. -/
def pointOffset (problem : Problem α) (node : Nat) : Nat :=
  problem.affineOffset node + problem.pathRowsOf node

/-- The rows of all point constraints are those of the entries. -/
theorem pointDim_eq_sum (problem : Problem α) :
    problem.pointDim = (problem.points.entries.map fun entry => entry.2.dim).sum := by
  rw [pointDim, NodeMap.values, List.map_map]
  rfl

/-! ## Owners of rows -/

/-- The constraint that an affine row belongs to. -/
inductive RowOwner
  /-- The path constraint on a node. -/
  | path (node : Nat)
  /-- The point constraint of a node. -/
  | point (node : Nat)

/-- The node of an owner. -/
def RowOwner.node : RowOwner → Nat
  | .path node => node
  | .point node => node

/-- The rows of a constraint: a segment on each node that it belongs to. -/
def Owns (problem : Problem α) : RowOwner → Nat → Prop
  | .path node, row => node < problem.dims.n ∧ problem.affineOffset node ≤ row ∧
      row < problem.affineOffset node + problem.pathDim
  | .point node, row => ∃ point ∈ problem.points.get? node,
      problem.pointOffset node ≤ row ∧ row < problem.pointOffset node + point.dim

/-- A row lies among those of the node of its owner. -/
theorem Owns.inside (wellFormed : problem.WellFormed) {owner : RowOwner} {row : Nat}
    (owns : problem.Owns owner row) : owner.node ≤ problem.dims.n ∧
      problem.affineOffset owner.node ≤ row ∧ row < problem.affineOffset (owner.node + 1) := by
  cases owner with
  | path node =>
      obtain ⟨inside, first_le, row_lt⟩ := owns
      have next := wellFormed.affineOffset_succ (Nat.le_of_lt inside)
      rw [pathRowsOf, if_pos inside] at next
      exact ⟨Nat.le_of_lt inside, first_le, by simp only [RowOwner.node]; omega⟩
  | point node =>
      obtain ⟨point, found, first_le, row_lt⟩ := owns
      have mem := NodeMap.mem_of_get? found
      have inside : node ≤ problem.dims.n := (wellFormed.point_fits _ mem).node_le
      have next := wellFormed.affineOffset_succ inside
      rw [pointRowsOf_of_mem mem] at next
      unfold pointOffset at first_le row_lt
      exact ⟨inside, by simp only [RowOwner.node]; omega, by simp only [RowOwner.node]; omega⟩

/-- Every row lies among those of some node. -/
theorem exists_node {count row : Nat} (inside : row < problem.affineOffset count) :
    ∃ node < count, problem.affineOffset node ≤ row ∧ row < problem.affineOffset (node + 1) := by
  induction count with
  | zero => simp [affineOffset] at inside
  | succ count ih =>
      rcases Nat.lt_or_ge row (problem.affineOffset count) with before | behind
      · obtain ⟨node, node_lt, rows⟩ := ih before
        exact ⟨node, Nat.lt_succ_of_lt node_lt, rows⟩
      · exact ⟨count, Nat.lt_succ_self count, behind, inside⟩

/-- The segments of the constraints leave no row out. -/
theorem exists_owner (wellFormed : problem.WellFormed) {row : Nat}
    (inside : row < problem.affineDim) : ∃ owner, problem.Owns owner row := by
  rw [← wellFormed.affineOffset_last] at inside
  obtain ⟨node, node_lt, first_le, row_lt⟩ := exists_node inside
  rw [wellFormed.affineOffset_succ (Nat.le_of_lt_succ node_lt)] at row_lt
  rcases Nat.lt_or_ge row (problem.pointOffset node) with before | behind
  · unfold pointOffset pathRowsOf at before
    by_cases interval : node < problem.dims.n
    · rw [if_pos interval] at before
      exact ⟨.path node, interval, first_le, before⟩
    · rw [if_neg interval] at before
      omega
  · unfold pointRowsOf at row_lt
    unfold pointOffset at behind
    cases found : problem.points.get? node with
    | none =>
        rw [found, Option.elim_none] at row_lt
        omega
    | some point =>
        rw [found, Option.elim_some] at row_lt
        exact ⟨.point node, point, found, behind, by unfold pointOffset; omega⟩

/-- No row belongs to two constraints. -/
theorem owner_unique (wellFormed : problem.WellFormed) {first second : RowOwner} {row : Nat}
    (one : problem.Owns first row) (other : problem.Owns second row) : first = second := by
  obtain ⟨_, firstRows⟩ := one.inside wellFormed
  obtain ⟨_, secondRows⟩ := other.inside wellFormed
  have apart {earlier later : Nat} (lt : earlier < later)
      (before : row < problem.affineOffset (earlier + 1)) : row < problem.affineOffset later :=
    Nat.lt_of_lt_of_le before (WellFormed.affineOffset_mono lt)
  have same : first.node = second.node := by
    rcases Nat.lt_trichotomy first.node second.node with lt | same | lt
    · exact absurd (apart lt firstRows.2) (Nat.not_lt_of_le secondRows.1)
    · exact same
    · exact absurd (apart lt secondRows.2) (Nat.not_lt_of_le firstRows.1)
  have split {node : Nat} (path : problem.Owns (.path node) row)
      (point : problem.Owns (.point node) row) : False := by
    obtain ⟨inside, _, row_lt⟩ := path
    obtain ⟨_, _, behind, _⟩ := point
    rw [pointOffset, pathRowsOf, if_pos inside] at behind
    omega
  cases first <;> cases second <;> cases same
  · rfl
  · exact (split one other).elim
  · exact (split other one).elim
  · rfl

/-- The segments of the constraints are a partition of the affine rows. -/
theorem owns_partition (wellFormed : problem.WellFormed) :
    (∀ owner row, problem.Owns owner row → row < problem.affineDim) ∧
      ∀ row < problem.affineDim, ∃! owner, problem.Owns owner row := by
  constructor
  · intro owner row owns
    obtain ⟨inside, _, row_lt⟩ := owns.inside wellFormed
    rw [← wellFormed.affineOffset_last]
    exact Nat.lt_of_lt_of_le row_lt (WellFormed.affineOffset_mono (Nat.succ_le_succ inside))
  · intro row inside
    obtain ⟨owner, owns⟩ := exists_owner wellFormed inside
    exact ⟨owner, owns, fun other otherOwns => owner_unique wellFormed otherOwns owns⟩

/-! ## Outputs of constraint functions -/

/-- The output buffer has room for the path constraint. -/
theorem outputWidth_le {path : PathConstraint α} (known : problem.path = some path) :
    path.outputWidth problem.dims.nx problem.dims.nu ≤ Quantity.constraintWidth problem := by
  rw [Quantity.constraintWidth, known]
  exact (le_foldl_max _ _).1

/-- The output buffer has room for every point constraint. -/
theorem width_le {node : Nat} {point : PointConstraint α}
    (mem : (node, point) ∈ problem.points.entries) :
    point.width ≤ Quantity.constraintWidth problem := by
  refine (le_foldl_max _ _).2 _ ?_
  rw [NodeMap.values, List.map_map]
  exact List.mem_map.2 ⟨(node, point), mem, rfl⟩

/-- Whoever has a point constraint has constraints. -/
theorem hasConstraints_of_mem {node : Nat} {point : PointConstraint α}
    (mem : (node, point) ∈ problem.points.entries) : problem.hasConstraints = true := by
  have occupied : problem.points.isEmpty = false := by
    rw [NodeMap.isEmpty, List.isEmpty_eq_false_iff]
    exact List.ne_nil_of_mem mem
  rw [hasConstraints, occupied, Bool.not_false, Bool.or_true]

end Problem

end RtiAssembly
