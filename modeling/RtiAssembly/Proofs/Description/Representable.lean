import RtiAssembly.Proofs.Description.RoundTrip
import RtiAssembly.Proofs.Json.Conditions

/-!
# The canonical text loses nothing

Every description that is read from a text is representable: its sizes have
sixty-four bits, and its numbers are finite because a numeral out of range is
refused.  Every representable description is read from its canonical text, if
its numbers are those that their numerals denote.
-/

namespace RtiAssembly

namespace Description

open Json

variable {α : Type} [Scalar α]

/-- All of these numbers are finite. -/
def AreFinite (numbers : List α) : Prop :=
  ∀ number ∈ numbers, Scalar.isFinite number = true

/-- All of these sizes have sixty-four bits. -/
def Fit (sizes : List Nat) : Prop :=
  ∀ size ∈ sizes, size < 2 ^ 64

theorem areFinite_append {first second : List α} :
    AreFinite (first ++ second) ↔ AreFinite first ∧ AreFinite second :=
  List.forall_mem_append

theorem areFinite_flatMap {β : Type} {values : List β} {numbers : β → List α} :
    AreFinite (values.flatMap numbers) ↔ ∀ value ∈ values, AreFinite (numbers value) := by
  simp only [AreFinite, List.mem_flatMap]
  grind

theorem areFinite_getD {values : Option (List α)} :
    AreFinite (values.getD []) ↔ ∀ given ∈ values, AreFinite given := by
  cases values with
  | none => simp [AreFinite]
  | some given => simp

theorem areFinite_flatten {rows : List (List α)} :
    AreFinite rows.flatten ↔ ∀ row ∈ rows, AreFinite row := by
  simp only [AreFinite, List.mem_flatten]
  grind

theorem areFinite_rowsNumbers {rows : Option (List (List α))} :
    AreFinite (rowsNumbers rows) ↔ ∀ given ∈ rows, ∀ row ∈ given, AreFinite row := by
  cases rows with
  | none => simp [rowsNumbers, AreFinite]
  | some given => simp [rowsNumbers, areFinite_flatten]

section

variable (readsFinite : ∀ written (value : α), Scalar.ofNumeral? written = some value →
  Scalar.isFinite value = true) (finite_zero : Scalar.isFinite (0 : α) = true)

include readsFinite

theorem yields_readVector : Yields (readVector (α := α)) AreFinite :=
  yields_readList (yields_readScalar readsFinite)

theorem yields_readRows : Yields (readRows (α := α)) (fun rows => ∀ row ∈ rows, AreFinite row) :=
  yields_readList (yields_readVector readsFinite)

omit readsFinite in
theorem yields_dims : Yields ((Dimensions.schema α).read α) (fun dims => Fit dims.sizes) := by
  have keeps (name : String) (required : Bool) (store : Nat → Dimensions → Dimensions)
      (stores : ∀ size dims, size < 2 ^ 64 → Fit dims.sizes → Fit (store size dims).sizes) :
      (Field.storing name required (readSize α) store).Keeps fun dims => Fit dims.sizes :=
    keeps_storing yields_readSize stores
  refine Schema.yields_read (by simp [Dimensions.schema, Dimensions.sizes, Fit]) ?_
  simp only [Dimensions.schema, List.forall_mem_cons]
  refine ⟨keeps _ _ _ ?_, keeps _ _ _ ?_, keeps _ _ _ ?_, keeps _ _ _ ?_, keeps _ _ _ ?_,
    keeps _ _ _ ?_, by simp⟩
  all_goals
    simp only [Fit, Dimensions.sizes, List.forall_mem_cons]
    tauto

include finite_zero in
theorem yields_flags : Yields (flagsSchema.read α)
    (fun flags : Flags α => Scalar.isFinite flags.levenbergMarquardt = true) := by
  have keeps {β : Type} (name : String) (read : Json → Reading β)
      (store : β → Flags α → Flags α)
      (same : ∀ value flags, (store value flags).levenbergMarquardt = flags.levenbergMarquardt) :
      (Field.storing name false read store).Keeps
        fun flags : Flags α => Scalar.isFinite flags.levenbergMarquardt = true := by
    intro value record filled before isFilled
    obtain ⟨given, _, rfl⟩ := Reading.map_eq_ok.1 isFilled
    rwa [same]
  refine Schema.yields_read finite_zero ?_
  simp only [flagsSchema, List.forall_mem_cons]
  refine ⟨keeps _ _ _ fun _ _ => rfl, keeps _ _ _ fun _ _ => rfl, keeps _ _ _ fun _ _ => rfl,
    keeps _ _ _ fun _ _ => rfl, keeps _ _ _ fun _ _ => rfl, ?_, keeps _ _ _ fun _ _ => rfl,
    by simp⟩
  exact keeps_storing (yields_readScalar readsFinite) fun _ _ given _ => given

theorem yields_weighting : Yields (readVariant α weightingVariants)
    (fun weighting : Weighting α => AreFinite weighting.numbers) := by
  refine yields_readVariant ?_
  simp only [weightingVariants, List.forall_mem_cons]
  refine ⟨?_, by simp [Variant.Yields, Weighting.numbers, AreFinite], by simp⟩
  intro value result isRead
  obtain ⟨rows, rowsRead, rfl⟩ := Reading.map_eq_ok.1 isRead
  exact areFinite_flatten.2 (yields_readRows readsFinite value rows rowsRead)

theorem yields_linear : Yields (readVariant α linearVariants)
    (fun terms : LinearTerms α => AreFinite terms.numbers) := by
  have given : Yields (givenTermsSchema.read α)
      (fun terms : List α × List α => AreFinite terms.1 ∧ AreFinite terms.2) := by
    refine Schema.yields_read (by simp [givenTermsSchema, AreFinite]) ?_
    simp only [givenTermsSchema, List.forall_mem_cons]
    refine ⟨?_, ?_, by simp⟩
    · exact keeps_storing (yields_readVector readsFinite) fun _ _ given before => ⟨given, before.2⟩
    · exact keeps_storing (yields_readVector readsFinite) fun _ _ given before => ⟨before.1, given⟩
  refine yields_readVariant ?_
  simp only [linearVariants, List.forall_mem_cons]
  refine ⟨by simp [Variant.Yields, LinearTerms.numbers, AreFinite],
    by simp [Variant.Yields, LinearTerms.numbers, AreFinite], ?_, by simp⟩
  intro value result isRead
  obtain ⟨terms, termsRead, rfl⟩ := Reading.map_eq_ok.1 isRead
  exact areFinite_append.2 (given value terms termsRead)

theorem yields_objective : Yields (objectiveSchema.read α)
    (fun objective : Objective α => AreFinite objective.numbers) := by
  have weighting := yields_weighting readsFinite
  have rows := yields_readOption (yields_readRows readsFinite)
  refine Schema.yields_read ?_ ?_
  · simp [objectiveSchema, Objective.numbers, Weighting.numbers, LinearTerms.numbers,
      rowsNumbers, AreFinite]
  simp only [objectiveSchema, List.forall_mem_cons]
  refine ⟨keeps_storing weighting ?_, keeps_storing weighting ?_, keeps_storing rows ?_,
    keeps_storing rows ?_, keeps_storing rows ?_, ?_,
    keeps_storing (yields_linear readsFinite) ?_, by simp⟩
  case refine_6 =>
    intro value record filled before isFilled
    obtain ⟨given, _, rfl⟩ := Reading.map_eq_ok.1 isFilled
    exact before
  all_goals
    simp only [Objective.numbers, areFinite_append, areFinite_rowsNumbers]
    tauto

theorem yields_boundPair : Yields (boundPairSchema.read α)
    (fun pair : BoundPair α => AreFinite pair.numbers) := by
  have vector := yields_readOption (yields_readVector readsFinite)
  refine Schema.yields_read (by simp [boundPairSchema, BoundPair.numbers, AreFinite]) ?_
  simp only [boundPairSchema, List.forall_mem_cons]
  refine ⟨keeps_storing vector ?_, keeps_storing vector ?_, by simp⟩
  all_goals
    simp only [BoundPair.numbers, areFinite_append, areFinite_getD]
    tauto

/-- The entries of a map are representable. -/
def EntriesFit {β : Type} (numbers : β → List α) (map : NodeMap β) : Prop :=
  ∀ entry ∈ map.entries, entry.1 < 2 ^ 64 ∧ AreFinite (numbers entry.2)

theorem yields_bounds : Yields (boundsSchema.read α) (fun bounds : Bounds α =>
    EntriesFit BoundPair.numbers bounds.x ∧ EntriesFit BoundPair.numbers bounds.u) := by
  have map := yields_readNodeMap (α := α) (yields_boundPair readsFinite)
  refine Schema.yields_read (by simp [boundsSchema, EntriesFit, NodeMap.empty]) ?_
  simp only [boundsSchema, List.forall_mem_cons]
  refine ⟨?_, ?_, by simp⟩
  · exact keeps_storing map fun _ _ given before => ⟨given, before.2⟩
  · exact keeps_storing map fun _ _ given before => ⟨before.1, given⟩

theorem yields_path : Yields (pathSchema.read α)
    (fun path : PathConstraint α => path.dim < 2 ^ 64 ∧ AreFinite path.numbers) := by
  have vector := yields_readVector readsFinite
  have rows := yields_readOption (yields_readRows readsFinite)
  refine Schema.yields_read ?_ ?_
  · simp [pathSchema, PathConstraint.numbers, rowsNumbers, AreFinite]
  simp only [pathSchema, List.forall_mem_cons]
  refine ⟨?_, keeps_storing yields_readSize ?_, keeps_storing vector ?_, keeps_storing vector ?_,
    keeps_storing rows ?_, keeps_storing rows ?_, by simp⟩
  case refine_1 =>
    intro value record filled before isFilled
    obtain ⟨given, _, rfl⟩ := Reading.map_eq_ok.1 isFilled
    exact before
  all_goals
    simp only [PathConstraint.numbers, areFinite_append, areFinite_rowsNumbers]
    tauto

theorem yields_point : Yields (pointSchema.read α)
    (fun point : PointConstraint α => point.outputWidth < 2 ^ 64 ∧ AreFinite point.numbers) := by
  have vector := yields_readVector readsFinite
  refine Schema.yields_read (by simp [pointSchema, PointConstraint.numbers, AreFinite]) ?_
  simp only [pointSchema, List.forall_mem_cons]
  refine ⟨?_, keeps_storing yields_readSize ?_, keeps_storing vector ?_, keeps_storing vector ?_,
    by simp⟩
  case refine_1 =>
    intro value record filled before isFilled
    obtain ⟨given, _, rfl⟩ := Reading.map_eq_ok.1 isFilled
    exact before
  all_goals
    simp only [PointConstraint.numbers, areFinite_append]
    tauto

/-- The parts of a description are representable. -/
structure PartsFit (description : Description α) : Prop where
  dims : Fit description.dims.sizes
  flags : Scalar.isFinite description.flags.levenbergMarquardt = true
  objective : AreFinite description.objective.numbers
  states : EntriesFit BoundPair.numbers description.bounds.x
  controls : EntriesFit BoundPair.numbers description.bounds.u
  path : ∀ path ∈ description.pathConstraint, path.dim < 2 ^ 64 ∧ AreFinite path.numbers
  points : ∀ entry ∈ description.pointConstraints.entries,
    entry.1 < 2 ^ 64 ∧ entry.2.outputWidth < 2 ^ 64 ∧ AreFinite entry.2.numbers

omit readsFinite in
theorem PartsFit.isRepresentable {description : Description α} (parts : description.PartsFit) :
    description.IsRepresentable := by
  have nodes {β : Type} {numbers : β → List α} {map : NodeMap β}
      (fits : EntriesFit numbers map) :
      Fit map.nodes ∧ AreFinite (map.values.flatMap numbers) := by
    refine ⟨fun node mem => ?_, areFinite_flatMap.2 fun value mem => ?_⟩
    · obtain ⟨entry, entry_mem, rfl⟩ := List.mem_map.1 mem
      exact (fits entry entry_mem).1
    · obtain ⟨entry, entry_mem, rfl⟩ := List.mem_map.1 mem
      exact (fits entry entry_mem).2
  have points : EntriesFit PointConstraint.numbers description.pointConstraints :=
    fun entry mem => ⟨(parts.points entry mem).1, (parts.points entry mem).2.2⟩
  have widths : Fit (description.pointConstraints.values.map PointConstraint.outputWidth) := by
    intro width mem
    obtain ⟨point, point_mem, rfl⟩ := List.mem_map.1 mem
    obtain ⟨entry, entry_mem, rfl⟩ := List.mem_map.1 point_mem
    exact (parts.points entry entry_mem).2.1
  have path : Fit (description.pathConstraint.elim [] fun path => [path.dim]) ∧
      AreFinite (description.pathConstraint.elim [] PathConstraint.numbers) := by
    cases given : description.pathConstraint with
    | none => simp [Fit, AreFinite]
    | some path =>
        have fits := parts.path path given
        exact ⟨List.forall_mem_singleton.2 fits.1, fits.2⟩
  constructor
  · simp only [Description.numbers, List.cons_append, List.forall_mem_cons,
      List.forall_mem_append]
    exact ⟨parts.flags, ⟨⟨⟨parts.objective, (nodes parts.states).2⟩, (nodes parts.controls).2⟩,
      path.2⟩, (nodes points).2⟩
  · simp only [Description.sizes, List.forall_mem_append]
    exact ⟨⟨⟨⟨⟨parts.dims, (nodes parts.states).1⟩, (nodes parts.controls).1⟩, path.1⟩,
      (nodes points).1⟩, widths⟩

include finite_zero in
theorem yields_description : Yields (schema.read α) (PartsFit (α := α)) := by
  have dims := yields_dims (α := α)
  have flags := yields_flags readsFinite finite_zero
  have objective := yields_objective readsFinite
  have bounds := yields_bounds readsFinite
  have path := yields_readOption (yields_path readsFinite)
  have points := yields_readNodeMap (α := α) (yields_point readsFinite)
  refine Schema.yields_read ?_ ?_
  · constructor
    case flags => exact finite_zero
    all_goals simp [schema, Dimensions.schema, objectiveSchema, boundsSchema, Dimensions.sizes,
      Objective.numbers, Weighting.numbers, LinearTerms.numbers, rowsNumbers, EntriesFit,
      NodeMap.empty, Fit, AreFinite]
  simp only [schema, List.forall_mem_cons]
  refine ⟨?_, keeps_storing dims fun _ _ given before => { before with dims := given },
    keeps_storing flags fun _ _ given before => { before with flags := given },
    keeps_storing objective fun _ _ given before => { before with objective := given },
    keeps_storing bounds fun _ _ given before =>
      { before with states := given.1, controls := given.2 },
    keeps_storing path fun _ _ given before => { before with path := given },
    keeps_storing points fun _ _ given before => { before with points := given }, by simp⟩
  intro value record filled before isFilled
  obtain ⟨given, _, rfl⟩ := Reading.map_eq_ok.1 isFilled
  exact { before with }

include finite_zero in
/-- Every description that is read from a text is representable. -/
theorem isRepresentable_of_ofText {text : String} {description : Description α}
    (isRead : ofText text = .ok description) : description.IsRepresentable := by
  rw [ofText, ofDocument] at isRead
  obtain ⟨found, foundRead, isRead⟩ := Reading.bind_eq_ok.1 isRead
  split at isRead
  · contradiction
  · cases isRead
    exact (yields_description readsFinite finite_zero _ _ foundRead).isRepresentable

end

/-! ## The canonical text loses nothing -/

variable [WellSpelled α]

/-- The document of a canonical text is the canonical tree. -/
theorem ofText_canonical_document (description : Description α) :
    Document.ofText description.canonical = ⟨description.toJson, false⟩ :=
  ofText_of_isText (isText_compact (wellFormed_toJson description))

theorem ofText_canonical {description : Description α}
    (representable : description.IsRepresentable) (readBack : description.NumbersReadBack) :
    ofText description.canonical = .ok description := by
  rw [ofText, ofText_canonical_document, ofDocument, read_toJson representable readBack]
  rfl

/-- What is read from a text is representable, and every representable
description whose numbers read back is read from its canonical text.  No other
such description has this text, and reading and writing it again leaves it as it
is. -/
theorem canonical_loses_nothing
    (readsFinite : ∀ written (value : α), Scalar.ofNumeral? written = some value →
      Scalar.isFinite value = true) (finite_zero : Scalar.isFinite (0 : α) = true)
    (description : Description α) (representable : description.IsRepresentable)
    (readBack : description.NumbersReadBack) :
    (∀ text (found : Description α), ofText text = .ok found → found.IsRepresentable) ∧
      ofText description.canonical = .ok description ∧
      (∀ other : Description α, other.IsRepresentable → other.NumbersReadBack →
        other.canonical = description.canonical → other = description) ∧
      (ofText description.canonical : Reading (Description α)).map canonical =
        .ok description.canonical := by
  have isRead := ofText_canonical representable readBack
  refine ⟨fun _ _ found => isRepresentable_of_ofText readsFinite finite_zero found, isRead, ?_, ?_⟩
  · intro other otherRepresentable otherReadBack same
    have otherRead := ofText_canonical otherRepresentable otherReadBack
    rw [same, isRead] at otherRead
    exact (Except.ok.inj otherRead).symm
  · rw [isRead]
    rfl

theorem readsBack_zero : Scalar.ReadsBack (0 : ℚ) := by
  refine ⟨⟨false, [0], some [0], none⟩, ?_, ?_⟩
  · decide +kernel
  · norm_num [Scalar.ofNumeral?, Digit.value]

theorem readsBack_one : Scalar.ReadsBack (1 : ℚ) := by
  have magnitude : Digit.value (1 :: List.replicate 20 0) = 10 ^ 20 := by decide +kernel
  refine ⟨⟨false, [1], some (List.replicate 20 0), none⟩, ?_, ?_⟩
  · decide +kernel
  · norm_num [Scalar.ofNumeral?, magnitude]

theorem isRepresentable_twoIntervals : twoIntervals.IsRepresentable where
  finite _ _ := rfl
  fits := by decide +kernel

theorem readsBack_twoIntervals : twoIntervals.NumbersReadBack := by
  have each : ∀ number ∈ twoIntervals.numbers, number = 0 ∨ number = 1 := by decide +kernel
  intro number mem _
  rcases each number mem with rfl | rfl
  · exact readsBack_zero
  · exact readsBack_one

/-- A description with constraints at several nodes is read from its canonical text. -/
theorem canonical_twoIntervals : ofText twoIntervals.canonical = .ok twoIntervals :=
  (canonical_loses_nothing (fun _ _ _ => rfl) rfl twoIntervals isRepresentable_twoIntervals
    readsBack_twoIntervals).2.1

end Description

end RtiAssembly
