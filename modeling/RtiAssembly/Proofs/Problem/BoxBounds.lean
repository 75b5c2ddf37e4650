import RtiAssembly.Proofs.Problem.Acceptance

/-!
# Configured box bounds

A description gives bounds of controls and states by node, side by side, and
leaves out what is unbounded.  Validation fills what is missing and stacks the
bounds: controls of all intervals, then the states behind the initial one.  The
main statements say which bound a box row gets, and what it does not depend on.
-/

namespace RtiAssembly

/-! ## Bounds of a description -/

namespace Description

variable {α : Type} [Scalar α]

/-- The configured lower bound of a component at a node.  A node without an entry
and an entry without the side are unbounded. -/
def lowerBound (bounds : NodeMap (BoundPair α)) (node component : Nat) : α :=
  (((bounds.get? node).bind BoundPair.lower).bind fun values => values[component]?).getD
    (-Scalar.unbounded)

/-- The configured upper bound of a component at a node. -/
def upperBound (bounds : NodeMap (BoundPair α)) (node component : Nat) : α :=
  (((bounds.get? node).bind BoundPair.upper).bind fun values => values[component]?).getD
    Scalar.unbounded

omit [Scalar α] in
/-- A component of a side that is filled where it is absent. -/
theorem getElem?_filledSide {default : α} {length : Nat} {side : Option (List α)}
    (fits : ∀ values ∈ side, values.length = length) {component : Nat}
    (component_lt : component < length) :
    (filledSide default length side)[component]? =
      some ((side.bind fun values => values[component]?).getD default) := by
  cases side with
  | none => simp [filledSide, component_lt]
  | some values =>
      have inside : component < values.length := fits values rfl ▸ component_lt
      simp [filledSide, inside]

end Description

namespace Validation

open Description

variable {α : Type} [Scalar α]

/-- The sides of a node are the given ones, filled where they are absent. -/
theorem value_checkNodeBounds (subject : String) {length : Nat}
    {bounds : NodeMap (BoundPair α)} {node : Nat} (fits : (boundsAt bounds node).Fits length) :
    (checkNodeBounds subject length (bounds.get? node)).value =
      ⟨filledSide (-Scalar.unbounded) length ((bounds.get? node).bind BoundPair.lower),
        filledSide Scalar.unbounded length ((bounds.get? node).bind BoundPair.upper)⟩ := by
  unfold boundsAt at fits
  cases found : bounds.get? node with
  | none => rfl
  | some pair =>
      rw [found] at fits
      simp only [checkNodeBounds, checkSides, Checked.value_bind, Checked.value_pure,
        Option.bind_some]
      exact congrArg₂ BoundValues.mk (value_checkSide_eq fits.length_lower)
        (value_checkSide_eq fits.length_upper)

/-- The bounds of a node have all components that are configured for it. -/
theorem getElem?_checkNodeBounds (subject : String) {length : Nat}
    {bounds : NodeMap (BoundPair α)} {node : Nat} (fits : (boundsAt bounds node).Fits length)
    {component : Nat} (component_lt : component < length) :
    let sides := (checkNodeBounds subject length (bounds.get? node)).value
    sides.lower[component]? = some (lowerBound bounds node component) ∧
      sides.upper[component]? = some (upperBound bounds node component) := by
  intro sides
  have sides_eq : sides = _ := value_checkNodeBounds subject fits
  have present : ∀ pair ∈ bounds.get? node, boundsAt bounds node = pair := by
    intro pair found
    rw [boundsAt, Option.mem_def.1 found]
    rfl
  rw [sides_eq]
  constructor
  · refine getElem?_filledSide (fun values given => ?_) component_lt
    obtain ⟨pair, found, side⟩ := Option.bind_eq_some_iff.1 given
    exact (present pair found ▸ fits).length_lower values side
  · refine getElem?_filledSide (fun values given => ?_) component_lt
    obtain ⟨pair, found, side⟩ := Option.bind_eq_some_iff.1 given
    exact (present pair found ▸ fits).length_upper values side

/-- Stacked bounds of consecutive nodes, each with all components. -/
theorem getElem?_checkNodes (map : String) {length : Nat} {bounds : NodeMap (BoundPair α)}
    {first count : Nat}
    (fits : ∀ node, first ≤ node → node < first + count → (boundsAt bounds node).Fits length)
    {place component : Nat} (place_lt : place < count) (component_lt : component < length) :
    let stacked := (checkNodes map length bounds (List.range' first count)).value
    stacked.lower[place * length + component]? =
        some (lowerBound bounds (first + place) component) ∧
      stacked.upper[place * length + component]? =
        some (upperBound bounds (first + place) component) := by
  let pieces (place : Nat) : BoundValues α :=
    (checkNodeBounds (nodeSubject map (first + place)) length (bounds.get? (first + place))).value
  have nodes_eq : List.range' first count = (List.range count).map (first + ·) :=
    List.range'_eq_map_range
  have counts (place : Nat) : (pieces place).lower.length = length ∧
      (pieces place).upper.length = length := length_checkSides _ _ _ _
  have offset_eq : ((List.range place).map fun _ => length).sum = place * length := by
    simp [List.map_const']
  obtain ⟨lower, upper⟩ := getElem?_checkNodeBounds (nodeSubject map (first + place))
    (fits (first + place) (Nat.le_add_right _ _) (Nat.add_lt_add_left place_lt _)) component_lt
  simp only [checkNodes, stack, nodes_eq, List.map_map, List.flatMap_map]
  constructor
  · have found := getElem?_flatMap_behind (fun other => (pieces other).lower) place_lt
      ((counts place).1.symm ▸ component_lt)
    simp only [(counts _).1, offset_eq] at found
    exact found.trans lower
  · have found := getElem?_flatMap_behind (fun other => (pieces other).upper) place_lt
      ((counts place).2.symm ▸ component_lt)
    simp only [(counts _).2, offset_eq] at found
    exact found.trans upper

/-- The bounds of nodes depend on the entries of these nodes only. -/
theorem value_checkNodes_congr (map : String) (length : Nat)
    {bounds other : NodeMap (BoundPair α)} {nodes : List Nat}
    (same : ∀ node ∈ nodes, other.get? node = bounds.get? node) :
    (checkNodes map length other nodes).value = (checkNodes map length bounds nodes).value := by
  have checked_eq : (nodes.map fun node =>
      checkNodeBounds (nodeSubject map node) length (other.get? node)) =
        nodes.map fun node =>
          checkNodeBounds (nodeSubject map node) length (bounds.get? node) := by
    refine List.map_congr_left fun node mem => ?_
    rw [same node mem]
  simp only [checkNodes, checked_eq]

end Validation

namespace Description

open Validation

variable {α : Type} [Scalar α] {description : Description α} {problem : Problem α}

/-- The box bounds of an accepted description are the configured ones, controls
before states. -/
theorem boxBounds_of_validate (accepted : description.validate.value = some problem) :
    let dims := problem.dims
    let stacked := problem.boxBounds
    (∀ node < dims.n, ∀ component < dims.nu,
      stacked.lower[node * dims.nu + component]? =
          some (lowerBound description.bounds.u node component) ∧
        stacked.upper[node * dims.nu + component]? =
          some (upperBound description.bounds.u node component)) ∧
      ∀ node, 1 ≤ node → node ≤ dims.n → ∀ component < dims.nx,
        stacked.lower[dims.n * dims.nu + ((node - 1) * dims.nx + component)]? =
            some (lowerBound description.bounds.x node component) ∧
          stacked.upper[dims.n * dims.nu + ((node - 1) * dims.nx + component)]? =
            some (upperBound description.bounds.x node component) := by
  have formed := (accepted_iff_wellFormed description).2.1 (accepted ▸ rfl)
  obtain ⟨_, _, rfl⟩ := checkContent_of_validate accepted
  intro dims stacked
  let controls := (checkNodes "bounds.u" dims.nu description.bounds.u
    (List.range' 0 dims.n)).value
  let states := (checkNodes "bounds.x" dims.nx description.bounds.x
    (List.range' 1 dims.n)).value
  have stacked_eq : stacked = ⟨controls.lower ++ states.lower, controls.upper ++ states.upper⟩ := by
    simp [stacked, checkContent, checkBoxBounds, stack, controls, states, dims,
      List.range_eq_range']
  have counts : controls.lower.length = dims.n * dims.nu ∧
      controls.upper.length = dims.n * dims.nu := by
    simpa only [List.length_range'] using
      length_checkNodes "bounds.u" dims.nu description.bounds.u (List.range' 0 dims.n)
  rw [stacked_eq]
  constructor
  · intro node node_lt component component_lt
    obtain ⟨lower, upper⟩ := @getElem?_checkNodes α _ "bounds.u" dims.nu description.bounds.u 0
      dims.n (fun other _ other_lt => formed.controlBounds other (Nat.zero_add dims.n ▸ other_lt))
      node component node_lt component_lt
    rw [Nat.zero_add] at lower upper
    have inside : node * dims.nu + component < dims.n * dims.nu :=
      Nat.lt_of_lt_of_le (Nat.add_lt_add_left component_lt _) (block_le dims.nu node_lt)
    rw [List.getElem?_append_left (counts.1.symm ▸ inside),
      List.getElem?_append_left (counts.2.symm ▸ inside)]
    exact ⟨lower, upper⟩
  · intro node node_pos node_le component component_lt
    obtain ⟨lower, upper⟩ := @getElem?_checkNodes α _ "bounds.x" dims.nx description.bounds.x 1
      dims.n (fun other other_pos other_lt =>
        formed.stateBounds other other_pos (Nat.lt_one_add_iff.1 other_lt))
      (node - 1) component (by omega) component_lt
    rw [Nat.add_sub_cancel' node_pos] at lower upper
    rw [← counts.1, List.getElem?_append_right (Nat.le_add_right _ _), Nat.add_sub_cancel_left,
      counts.1, ← counts.2, List.getElem?_append_right (Nat.le_add_right _ _),
      Nat.add_sub_cancel_left]
    exact ⟨lower, upper⟩

/-! ## What an accepted problem does not depend on -/

/-- A description without errors is accepted with its content. -/
theorem value_validate (frame : hasErrors (checkFrame description).diagnostics = false)
    (content : hasErrors (checkContent description).diagnostics = false) :
    description.validate.value = some (checkContent description).value := by
  unfold validate check
  simp [frame, content]

/-- The description with other bounds of the states. -/
def withStateBounds (description : Description α) (bounds : NodeMap (BoundPair α)) :
    Description α :=
  { description with bounds := { description.bounds with x := bounds } }

/-- State bounds of the initial node have no influence on what is generated. -/
theorem validate_withStateBounds (accepted : description.validate.value = some problem)
    {bounds : NodeMap (BoundPair α)}
    (same : ∀ node, node ≠ 0 → bounds.get? node = description.bounds.x.get? node) :
    (description.withStateBounds bounds).validate.value = some problem := by
  have formed := (accepted_iff_wellFormed description).2.1 (accepted ▸ rfl)
  have at_eq (node : Nat) (node_pos : 1 ≤ node) :
      boundsAt bounds node = boundsAt description.bounds.x node := by
    rw [boundsAt, boundsAt, same node (Nat.ne_of_gt node_pos)]
  have otherFormed : (description.withStateBounds bounds).WellFormed :=
    { formed with
      stateNodes := fun entry mem => by
        have found : bounds.get? entry.1 = some entry.2 := NodeMap.get?_of_mem mem
        rcases Nat.eq_zero_or_pos entry.1 with zero | positive
        · exact zero ▸ Nat.zero_le _
        · rw [same entry.1 (Nat.ne_of_gt positive)] at found
          exact formed.stateNodes _ (NodeMap.mem_of_get? found)
      stateBounds := fun node node_pos node_le =>
        (at_eq node node_pos).symm ▸ formed.stateBounds node node_pos node_le }
  obtain ⟨other, value⟩ := Option.isSome_iff_exists.1
    ((accepted_iff_wellFormed (description.withStateBounds bounds)).2.2 otherFormed)
  obtain ⟨_, _, rfl⟩ := checkContent_of_validate accepted
  obtain ⟨_, _, rfl⟩ := checkContent_of_validate value
  have states_eq : (checkNodes "bounds.x" description.dims.nx bounds
      (List.range' 1 description.dims.n)).value =
        (checkNodes "bounds.x" description.dims.nx description.bounds.x
          (List.range' 1 description.dims.n)).value :=
    value_checkNodes_congr _ _ fun node mem =>
      same node (Nat.ne_of_gt (List.mem_range'_1.1 mem).1)
  have box_eq : (checkBoxBounds (description.withStateBounds bounds)).value =
      (checkBoxBounds description).value := by
    simp only [checkBoxBounds, withStateBounds, Checked.value_bind, Checked.value_pure, states_eq]
  rw [value]
  simp only [checkContent, Checked.value_bind, Checked.value_pure, box_eq]
  rfl

/-- The description with bounds that are constants, or filled in by the
initialization. -/
def withHardcodedBounds (description : Description α) (hardcoded : Bool) : Description α :=
  { description with
    flags := { description.flags with hardcodeConstraints := hardcoded } }

/-- Where the bounds are kept does not matter to what is accepted. -/
theorem validate_withHardcodedBounds (accepted : description.validate.value = some problem)
    (hardcoded : Bool) :
    (description.withHardcodedBounds hardcoded).validate.value =
      some { problem with
        flags := { problem.flags with hardcodeConstraints := hardcoded } } := by
  obtain ⟨frame, content, rfl⟩ := checkContent_of_validate accepted
  have frame_eq : checkFrame (description.withHardcodedBounds hardcoded) =
      checkFrame description := rfl
  have content_eq : (checkContent (description.withHardcodedBounds hardcoded)).diagnostics =
      (checkContent description).diagnostics := rfl
  rw [value_validate (frame_eq ▸ frame) (content_eq ▸ content)]
  rfl

end Description

end RtiAssembly
