import RtiAssembly.Proofs.Description.Representable
import RtiAssembly.Proofs.Json.NodeKeys
import RtiAssembly.Provenance

/-!
# The arrangement of a text leaves no trace

All records of a description store each field in a place of its own, so texts
that differ only in blanks and in the order of members describe the same
problem, or none.  Their canonical texts, digests and manifests are the same.
-/

namespace RtiAssembly

open Json

namespace Description

variable {α : Type} [Scalar α]

theorem stable_readVector : Stable (readVector (α := α)) :=
  stable_readList stable_readScalar

theorem stable_readRows : Stable (readRows (α := α)) :=
  stable_readList stable_readVector

theorem orderly_dims : (Dimensions.schema α).Orderly where
  stable := by
    simp only [Dimensions.schema, List.forall_mem_cons]
    have size := stable_readSize (α := α)
    exact ⟨stable_storing size, stable_storing size, stable_storing size, stable_storing size,
      stable_storing size, stable_storing size, by simp⟩
  commute := by
    simp only [Dimensions.schema, List.pairwise_cons, List.forall_mem_cons]
    and_intros
    all_goals first | exact commute_storing fun _ _ _ => rfl | simp

theorem stable_mode : Stable (readVariant α SensitivityMode.variants) :=
  stable_readVariant (by simp [SensitivityMode.variants, Variant.Stable])

theorem orderly_flags : (flagsSchema (α := α)).Orderly where
  stable := by
    simp only [flagsSchema, List.forall_mem_cons]
    have truth := stable_readBool (α := α)
    exact ⟨stable_storing truth, stable_storing truth, stable_storing truth, stable_storing truth,
      stable_storing stable_mode, stable_storing stable_readScalar, stable_storing truth, by simp⟩
  commute := by
    simp only [flagsSchema, List.pairwise_cons, List.forall_mem_cons]
    and_intros
    all_goals first | exact commute_storing fun _ _ _ => rfl | simp

theorem stable_weighting : Stable (readVariant α (weightingVariants (α := α))) := by
  refine stable_readVariant ?_
  simp only [weightingVariants, List.forall_mem_cons]
  exact ⟨stable_readRows.map _, trivial, by simp⟩

theorem orderly_givenTerms : (givenTermsSchema (α := α)).Orderly where
  stable := by
    simp only [givenTermsSchema, List.forall_mem_cons]
    exact ⟨stable_storing stable_readVector, stable_storing stable_readVector, by simp⟩
  commute := by
    simp only [givenTermsSchema, List.pairwise_cons, List.forall_mem_cons]
    and_intros
    all_goals first | exact commute_storing fun _ _ _ => rfl | simp

theorem stable_linear : Stable (readVariant α (linearVariants (α := α))) := by
  refine stable_readVariant ?_
  simp only [linearVariants, List.forall_mem_cons]
  exact ⟨trivial, trivial, orderly_givenTerms.stable_read.map _, by simp⟩

theorem orderly_objective : (objectiveSchema (α := α)).Orderly where
  stable := by
    simp only [objectiveSchema, List.forall_mem_cons]
    have rows := stable_readOption (stable_readRows (α := α))
    exact ⟨stable_storing stable_weighting, stable_storing stable_weighting, stable_storing rows,
      stable_storing rows, stable_storing rows, stable_storing stable_readBool,
      stable_storing stable_linear, by simp⟩
  commute := by
    simp only [objectiveSchema, List.pairwise_cons, List.forall_mem_cons]
    and_intros
    all_goals first | exact commute_storing fun _ _ _ => rfl | simp

theorem orderly_boundPair : (boundPairSchema (α := α)).Orderly where
  stable := by
    simp only [boundPairSchema, List.forall_mem_cons]
    have vector := stable_readOption (stable_readVector (α := α))
    exact ⟨stable_storing vector, stable_storing vector, by simp⟩
  commute := by
    simp only [boundPairSchema, List.pairwise_cons, List.forall_mem_cons]
    and_intros
    all_goals first | exact commute_storing fun _ _ _ => rfl | simp

theorem orderly_bounds : (boundsSchema (α := α)).Orderly where
  stable := by
    simp only [boundsSchema, List.forall_mem_cons]
    have pair := (orderly_boundPair (α := α)).stable_read (α := α)
    have map := stable_readNodeMap (α := α) pair
    exact ⟨stable_storing map, stable_storing map, by simp⟩
  commute := by
    simp only [boundsSchema, List.pairwise_cons, List.forall_mem_cons]
    and_intros
    all_goals first | exact commute_storing fun _ _ _ => rfl | simp

theorem orderly_path : (pathSchema (α := α)).Orderly where
  stable := by
    simp only [pathSchema, List.forall_mem_cons]
    have rows := stable_readOption (stable_readRows (α := α))
    exact ⟨stable_storing stable_readString, stable_storing stable_readSize,
      stable_storing stable_readVector, stable_storing stable_readVector, stable_storing rows,
      stable_storing rows, by simp⟩
  commute := by
    simp only [pathSchema, List.pairwise_cons, List.forall_mem_cons]
    and_intros
    all_goals first | exact commute_storing fun _ _ _ => rfl | simp

theorem orderly_point : (pointSchema (α := α)).Orderly where
  stable := by
    simp only [pointSchema, List.forall_mem_cons]
    exact ⟨stable_storing stable_readString, stable_storing stable_readSize,
      stable_storing stable_readVector, stable_storing stable_readVector, by simp⟩
  commute := by
    simp only [pointSchema, List.pairwise_cons, List.forall_mem_cons]
    and_intros
    all_goals first | exact commute_storing fun _ _ _ => rfl | simp

theorem orderly_schema : (schema (α := α)).Orderly where
  stable := by
    simp only [schema, List.forall_mem_cons]
    exact ⟨stable_storing stable_readString, stable_storing orderly_dims.stable_read,
      stable_storing orderly_flags.stable_read, stable_storing orderly_objective.stable_read,
      stable_storing orderly_bounds.stable_read,
      stable_storing (stable_readOption orderly_path.stable_read),
      stable_storing (stable_readNodeMap orderly_point.stable_read), by simp⟩
  commute := by
    simp only [schema, List.pairwise_cons, List.forall_mem_cons]
    and_intros
    all_goals first | exact commute_storing fun _ _ _ => rfl | simp

/-! ## Rearranged texts -/

/-- Texts of rearranged values are both refused, or both are read as the same
description; then nothing that is derived from it tells the texts apart. -/
theorem rearranged_read_alike (first second : String) (value other : Json)
    (isText : value.IsText first) (otherIsText : other.IsText second)
    (rearranged : Rearranged value other) :
    (∃ cause otherCause, (ofText first : Reading (Description α)) = .error cause ∧
        (ofText second : Reading (Description α)) = .error otherCause) ∨
      ∃ found same : Description α, ofText first = .ok found ∧ ofText second = .ok same ∧
        found = same ∧ found.canonical = same.canonical ∧
        (Provenance.ofDescription found).digest = (Provenance.ofDescription same).digest ∧
        (Provenance.ofDescription found).manifest = (Provenance.ofDescription same).manifest := by
  have agree : Reading.Agree (ofText first : Reading (Description α)) (ofText second) := by
    rw [ofText, ofText, ofText_of_isText isText, ofText_of_isText otherIsText]
    exact (orderly_schema.stable_read value other rearranged isText.formed
      otherIsText.formed).bind fun _ => .refl _
  cases found : (ofText first : Reading (Description α)) with
  | ok description =>
      exact .inr ⟨description, description, rfl, (agree description).1 found, rfl, rfl, rfl, rfl⟩
  | error cause =>
      cases same : (ofText second : Reading (Description α)) with
      | ok description =>
          rw [(agree description).2 same] at found
          contradiction
      | error otherCause => exact .inl ⟨cause, otherCause, rfl, rfl⟩

/-- The canonical tree of the small description with its members in reverse order. -/
def reversedTree : Json :=
  .ofFields
    [("pointConstraints", nodeMapJson pointJson twoIntervals.pointConstraints),
      ("pathConstraint", .ofOption (twoIntervals.pathConstraint.map pathJson)),
      ("bounds", boundsJson twoIntervals.bounds),
      ("objective", objectiveJson twoIntervals.objective),
      ("flags", flagsJson twoIntervals.flags),
      ("dims", twoIntervals.dims.toJson),
      ("moduleName", .ofString twoIntervals.moduleName)]

theorem rearranged_reversedTree : Rearranged twoIntervals.toJson reversedTree :=
  rearranged_ofFields (by decide) (List.reverse_perm _).symm

theorem wellFormed_reversedTree : reversedTree.WellFormed :=
  wellFormed_ofFields (by
    simp [wellFormed_ofString, wellFormed_dimsJson, wellFormed_flagsJson,
      wellFormed_objectiveJson, wellFormed_boundsJson, wellFormed_map wellFormed_pathJson,
      wellFormed_nodeMapJson wellFormed_pointJson])

/-- With other blanks and the members in reverse order the description is still read. -/
theorem reversed_read_alike :
    twoIntervals.toJson.IsText twoIntervals.canonical ∧
      reversedTree.IsText ("\n" ++ reversedTree.compact ++ "\t\n") ∧
      Rearranged twoIntervals.toJson reversedTree ∧
      ofText ("\n" ++ reversedTree.compact ++ "\t\n") = .ok twoIntervals := by
  have isText : twoIntervals.toJson.IsText twoIntervals.canonical :=
    isText_compact (wellFormed_toJson _)
  have otherIsText : reversedTree.IsText ("\n" ++ reversedTree.compact ++ "\t\n") :=
    (isText_compact wellFormed_reversedTree).padded (by simp [isBlank]) (by simp [isBlank])
  have isRead := ofText_canonical isRepresentable_twoIntervals readsBack_twoIntervals
  refine ⟨isText, otherIsText, rearranged_reversedTree, ?_⟩
  rcases rearranged_read_alike (α := ℚ) _ _ _ _ isText otherIsText rearranged_reversedTree with
    ⟨_, _, refused, _⟩ | ⟨found, same, foundRead, sameRead, rfl, _⟩
  · rw [isRead] at refused
    contradiction
  · rw [isRead] at foundRead
    cases foundRead
    exact sameRead

end Description

end RtiAssembly
