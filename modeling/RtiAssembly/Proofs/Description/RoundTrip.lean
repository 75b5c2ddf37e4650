import RtiAssembly.Description.Canonical
import RtiAssembly.Description.Reading
import RtiAssembly.Proofs.Json.Records
import RtiAssembly.Proofs.Problem.WellFormed

/-!
# Canonical texts are read back

The canonical text of a description is written from the description alone and
read through the schemas of its records.  Both sides name the same fields in the
same order, so the text gives the description back, whatever names, maps,
matrices and alternatives it holds.  What a text cannot hold are numbers without
a numeral and sizes beyond sixty-four bits.
-/

namespace RtiAssembly

open Json

/-! ## The numbers and sizes of a description -/

/-- The sizes among the dimensions. -/
def Dimensions.sizes (dims : Dimensions) : List Nat :=
  [dims.n, dims.nx, dims.nu, dims.ny, dims.nyn, dims.nod]

/-- The nodes of a map. -/
def NodeMap.nodes {β : Type} (map : NodeMap β) : List Nat :=
  map.entries.map Prod.fst

namespace Description

variable {α : Type}

/-- The numbers of an optional matrix. -/
def rowsNumbers (rows : Option (List (List α))) : List α :=
  (rows.getD []).flatten

/-- The numbers of a weighting. -/
def Weighting.numbers : Weighting α → List α
  | .given rows => rows.flatten
  | .runtime => []

/-- The numbers of linear terms. -/
def LinearTerms.numbers : LinearTerms α → List α
  | .none => []
  | .runtime => []
  | .given x u => x ++ u

/-- The numbers of an objective. -/
def Objective.numbers (objective : Objective α) : List α :=
  objective.weight.numbers ++ objective.terminalWeight.numbers ++
    rowsNumbers objective.jacobianX ++ rowsNumbers objective.jacobianU ++
    rowsNumbers objective.terminalJacobianX ++ objective.linearTerms.numbers

/-- The numbers of a pair of bounds. -/
def BoundPair.numbers (pair : BoundPair α) : List α :=
  pair.lower.getD [] ++ pair.upper.getD []

/-- The numbers of a path constraint. -/
def PathConstraint.numbers (path : PathConstraint α) : List α :=
  path.lower ++ path.upper ++ rowsNumbers path.jacobianX ++ rowsNumbers path.jacobianU

/-- The numbers of a point constraint. -/
def PointConstraint.numbers (point : PointConstraint α) : List α :=
  point.lower ++ point.upper

/-- All numbers of a description. -/
def numbers (description : Description α) : List α :=
  description.flags.levenbergMarquardt :: description.objective.numbers ++
    description.bounds.x.values.flatMap BoundPair.numbers ++
    description.bounds.u.values.flatMap BoundPair.numbers ++
    description.pathConstraint.elim [] PathConstraint.numbers ++
    description.pointConstraints.values.flatMap PointConstraint.numbers

/-- All sizes and node numbers of a description. -/
def sizes (description : Description α) : List Nat :=
  description.dims.sizes ++ description.bounds.x.nodes ++ description.bounds.u.nodes ++
    description.pathConstraint.elim [] (fun path => [path.dim]) ++
    description.pointConstraints.nodes ++
    description.pointConstraints.values.map PointConstraint.outputWidth

variable [Scalar α]

/-- What a text can hold: finite numbers, and sizes of sixty-four bits. -/
structure IsRepresentable (description : Description α) : Prop where
  finite : ∀ number ∈ description.numbers, Scalar.isFinite number = true
  fits : ∀ size ∈ description.sizes, size < 2 ^ 64

/-- The finite numbers of a description are those that their numerals denote. -/
def NumbersReadBack (description : Description α) : Prop :=
  ∀ number ∈ description.numbers, Scalar.isFinite number = true → Scalar.ReadsBack number

/-! ## Trees without defects -/

section Trees

variable [WellSpelled α]

theorem wellFormed_scalarJson (value : α) : (scalarJson value).WellFormed := by
  unfold scalarJson
  split
  · rename_i written spelled
    exact WellSpelled.wellFormed_spell _ _ _ spelled
  · trivial

theorem wellFormed_vectorJson (values : List α) : (vectorJson values).WellFormed := by
  refine wellFormed_ofList fun item mem => ?_
  obtain ⟨value, _, rfl⟩ := List.mem_map.1 mem
  exact wellFormed_scalarJson value

theorem wellFormed_rowsJson (rows : List (List α)) : (rowsJson rows).WellFormed := by
  refine wellFormed_ofList fun item mem => ?_
  obtain ⟨row, _, rfl⟩ := List.mem_map.1 mem
  exact wellFormed_vectorJson row

omit [Scalar α] [WellSpelled α] in
theorem wellFormed_map {β : Type} {toJson : β → Json} (each : ∀ value, (toJson value).WellFormed)
    (value : Option β) : (ofOption (value.map toJson)).WellFormed := by
  refine wellFormed_ofOption fun present mem => ?_
  obtain ⟨given, _, rfl⟩ := Option.map_eq_some_iff.1 mem
  exact each given

omit [Scalar α] [WellSpelled α] in
theorem wellFormed_nodeMapJson {β : Type} {toJson : β → Json}
    (each : ∀ value, (toJson value).WellFormed) (map : NodeMap β) :
    (nodeMapJson toJson map).WellFormed := by
  refine wellFormed_ofFields fun field mem => ?_
  obtain ⟨entry, _, rfl⟩ := List.mem_map.1 mem
  exact each entry.2

theorem wellFormed_dimsJson (dims : Dimensions) : dims.toJson.WellFormed :=
  wellFormed_ofFields (by simp [wellFormed_ofNat])

theorem wellFormed_flagsJson (flags : Flags α) : (flagsJson flags).WellFormed :=
  wellFormed_ofFields (by
    simp [Json.WellFormed, wellFormed_ofString, wellFormed_scalarJson])

theorem wellFormed_weightingJson (weighting : Weighting α) :
    (weightingJson weighting).WellFormed := by
  cases weighting with
  | given rows => exact wellFormed_ofFields (by simp [wellFormed_rowsJson])
  | runtime => exact wellFormed_ofString _

theorem wellFormed_linearJson (terms : LinearTerms α) : (linearJson terms).WellFormed := by
  cases terms with
  | none => exact wellFormed_ofString _
  | runtime => exact wellFormed_ofString _
  | given x u =>
      have inner : (ofFields [("x", vectorJson x), ("u", vectorJson u)]).WellFormed :=
        wellFormed_ofFields (by simp [wellFormed_vectorJson])
      exact wellFormed_ofFields (by simp [inner])

theorem wellFormed_objectiveJson (objective : Objective α) :
    (objectiveJson objective).WellFormed :=
  wellFormed_ofFields (by
    simp [Json.WellFormed, wellFormed_weightingJson, wellFormed_linearJson,
      wellFormed_map wellFormed_rowsJson])

theorem wellFormed_boundPairJson (pair : BoundPair α) : (boundPairJson pair).WellFormed :=
  wellFormed_ofFields (by simp [wellFormed_map wellFormed_vectorJson])

theorem wellFormed_boundsJson (bounds : Bounds α) : (boundsJson bounds).WellFormed :=
  wellFormed_ofFields (by simp [wellFormed_nodeMapJson wellFormed_boundPairJson])

theorem wellFormed_pathJson (path : PathConstraint α) : (pathJson path).WellFormed :=
  wellFormed_ofFields (by
    simp [wellFormed_ofString, wellFormed_ofNat, wellFormed_vectorJson,
      wellFormed_map wellFormed_rowsJson])

theorem wellFormed_pointJson (point : PointConstraint α) : (pointJson point).WellFormed :=
  wellFormed_ofFields (by simp [wellFormed_ofString, wellFormed_ofNat, wellFormed_vectorJson])

/-- The canonical tree of a description has no defect. -/
theorem wellFormed_toJson (description : Description α) : description.toJson.WellFormed :=
  wellFormed_ofFields (by
    simp [wellFormed_ofString, wellFormed_dimsJson, wellFormed_flagsJson,
      wellFormed_objectiveJson, wellFormed_boundsJson, wellFormed_map wellFormed_pathJson,
      wellFormed_nodeMapJson wellFormed_pointJson])

end Trees

/-! ## Fields have different names -/

theorem distinct_dimsSchema : ((Dimensions.schema α).fields.map Field.name).Nodup := by
  simp [Dimensions.schema, Field.storing]

theorem distinct_flagsSchema : ((flagsSchema (α := α)).fields.map Field.name).Nodup := by
  simp [flagsSchema, Field.storing]

theorem distinct_givenTermsSchema : ((givenTermsSchema (α := α)).fields.map Field.name).Nodup := by
  simp [givenTermsSchema, Field.storing]

theorem distinct_objectiveSchema : ((objectiveSchema (α := α)).fields.map Field.name).Nodup := by
  simp [objectiveSchema, Field.storing]

theorem distinct_boundPairSchema : ((boundPairSchema (α := α)).fields.map Field.name).Nodup := by
  simp [boundPairSchema, Field.storing]

theorem distinct_boundsSchema : ((boundsSchema (α := α)).fields.map Field.name).Nodup := by
  simp [boundsSchema, Field.storing]

theorem distinct_pathSchema : ((pathSchema (α := α)).fields.map Field.name).Nodup := by
  simp [pathSchema, Field.storing]

theorem distinct_pointSchema : ((pointSchema (α := α)).fields.map Field.name).Nodup := by
  simp [pointSchema, Field.storing]

theorem distinct_descriptionSchema : ((schema (α := α)).fields.map Field.name).Nodup := by
  simp [schema, Field.storing]

/-! ## Reading each part back -/

theorem readBool_boolean (value : Bool) : readBool α (.boolean value) = .ok value := rfl

theorem readScalar_scalarJson {value : α} (readsBack : Scalar.ReadsBack value) :
    readScalar α (scalarJson value) = .ok value := by
  obtain ⟨written, spelled, denotes⟩ := readsBack
  rw [scalarJson, spelled]
  dsimp only
  rw [readScalar, denotes]

theorem readVector_vectorJson {values : List α}
    (readsBack : ∀ value ∈ values, Scalar.ReadsBack value) :
    readVector (vectorJson values) = .ok values :=
  readList_ofList fun value mem => readScalar_scalarJson (readsBack value mem)

theorem readRows_rowsJson {rows : List (List α)}
    (readsBack : ∀ value ∈ rows.flatten, Scalar.ReadsBack value) :
    readRows (rowsJson rows) = .ok rows :=
  readList_ofList fun row mem => readVector_vectorJson fun value value_mem =>
    readsBack value (List.mem_flatten.2 ⟨row, mem, value_mem⟩)

theorem readOption_rows {rows : Option (List (List α))}
    (readsBack : ∀ value ∈ rowsNumbers rows, Scalar.ReadsBack value) :
    readOption readRows (ofOption (rows.map rowsJson)) = .ok rows := by
  refine readOption_ofOption fun given mem => ⟨readRows_rowsJson ?_, Json.noConfusion⟩
  cases mem
  exact readsBack

theorem readOption_vector {values : Option (List α)}
    (readsBack : ∀ value ∈ values.getD [], Scalar.ReadsBack value) :
    readOption readVector (ofOption (values.map vectorJson)) = .ok values := by
  refine readOption_ofOption fun given mem => ⟨readVector_vectorJson ?_, Json.noConfusion⟩
  cases mem
  exact readsBack

theorem readNodeMap_nodeMapJson {β : Type} {read : Json → Reading β} {toJson : β → Json}
    {map : NodeMap β} (fits : ∀ node ∈ map.nodes, node < 2 ^ 64)
    (each : ∀ value ∈ map.values, read (toJson value) = .ok value) :
    readNodeMap α read (nodeMapJson toJson map) = .ok map :=
  readNodes_entries (fun _ mem => ⟨fits _ (List.mem_map_of_mem mem),
    each _ (List.mem_map_of_mem mem)⟩) .empty map rfl

theorem read_dimsJson {dims : Dimensions} (fits : ∀ size ∈ dims.sizes, size < 2 ^ 64) :
    (Dimensions.schema α).read α dims.toJson = .ok dims := by
  simp only [Dimensions.sizes, List.forall_mem_cons] at fits
  obtain ⟨n, nx, nu, ny, nyn, nod, _⟩ := fits
  refine Schema.read_ofFields distinct_dimsSchema ?_
  exact .cons (fill_storing (readSize_ofNat n) _)
    (.cons (fill_storing (readSize_ofNat nx) _)
      (.cons (fill_storing (readSize_ofNat nu) _)
        (.cons (fill_storing (readSize_ofNat ny) _)
          (.cons (fill_storing (readSize_ofNat nyn) _)
            (.cons (fill_storing (readSize_ofNat nod) _) (.nil _))))))

theorem readVariant_label (mode : SensitivityMode) :
    readVariant α SensitivityMode.variants (ofString mode.label) = .ok mode := by
  cases mode with
  | forward => exact readVariant_unit rfl
  | backward => exact readVariant_unit rfl
  | inexact => exact readVariant_unit rfl

theorem read_flagsJson {flags : Flags α} (readsBack : Scalar.ReadsBack flags.levenbergMarquardt) :
    flagsSchema.read α (flagsJson flags) = .ok flags := by
  refine Schema.read_ofFields distinct_flagsSchema ?_
  exact .cons (fill_storing (readBool_boolean _) _)
    (.cons (fill_storing (readBool_boolean _) _)
      (.cons (fill_storing (readBool_boolean _) _)
        (.cons (fill_storing (readBool_boolean _) _)
          (.cons (fill_storing (readVariant_label _) _)
            (.cons (fill_storing (readScalar_scalarJson readsBack) _)
              (.cons (fill_storing (readBool_boolean _) _) (.nil _)))))))

theorem readVariant_weightingJson {weighting : Weighting α}
    (readsBack : ∀ number ∈ weighting.numbers, Scalar.ReadsBack number) :
    readVariant α weightingVariants (weightingJson weighting) = .ok weighting := by
  cases weighting with
  | runtime => exact readVariant_unit rfl
  | given rows =>
      refine readVariant_carrying rfl ?_
      rw [readRows_rowsJson readsBack]
      rfl

theorem readVariant_linearJson {terms : LinearTerms α}
    (readsBack : ∀ number ∈ terms.numbers, Scalar.ReadsBack number) :
    readVariant α linearVariants (linearJson terms) = .ok terms := by
  cases terms with
  | none => exact readVariant_unit rfl
  | runtime => exact readVariant_unit rfl
  | given x u =>
      simp only [LinearTerms.numbers, List.forall_mem_append] at readsBack
      have content : givenTermsSchema.read α
          (ofFields [("x", vectorJson x), ("u", vectorJson u)]) = .ok (x, u) := by
        refine Schema.read_ofFields distinct_givenTermsSchema ?_
        exact .cons (fill_storing (readVector_vectorJson readsBack.1) _)
          (.cons (fill_storing (readVector_vectorJson readsBack.2) _) (.nil _))
      refine readVariant_carrying rfl ?_
      rw [content]
      rfl

theorem read_objectiveJson {objective : Objective α}
    (readsBack : ∀ number ∈ objective.numbers, Scalar.ReadsBack number) :
    objectiveSchema.read α (objectiveJson objective) = .ok objective := by
  simp only [Objective.numbers, List.forall_mem_append] at readsBack
  obtain ⟨⟨⟨⟨⟨weight, terminalWeight⟩, jacobianX⟩, jacobianU⟩, terminalJacobianX⟩, linear⟩ :=
    readsBack
  refine Schema.read_ofFields distinct_objectiveSchema ?_
  exact .cons (fill_storing (readVariant_weightingJson weight) _)
    (.cons (fill_storing (readVariant_weightingJson terminalWeight) _)
      (.cons (fill_storing (readOption_rows jacobianX) _)
        (.cons (fill_storing (readOption_rows jacobianU) _)
          (.cons (fill_storing (readOption_rows terminalJacobianX) _)
            (.cons (fill_storing (readBool_boolean _) _)
              (.cons (fill_storing (readVariant_linearJson linear) _) (.nil _)))))))

theorem read_boundPairJson {pair : BoundPair α}
    (readsBack : ∀ number ∈ pair.numbers, Scalar.ReadsBack number) :
    boundPairSchema.read α (boundPairJson pair) = .ok pair := by
  simp only [BoundPair.numbers, List.forall_mem_append] at readsBack
  refine Schema.read_ofFields distinct_boundPairSchema ?_
  exact .cons (fill_storing (readOption_vector readsBack.1) _)
    (.cons (fill_storing (readOption_vector readsBack.2) _) (.nil _))

/-- The values of a map read back if their numbers do. -/
theorem readNodeMap_of_numbers {β : Type} {read : Json → Reading β} {toJson : β → Json}
    {numbers : β → List α} {map : NodeMap β} (fits : ∀ node ∈ map.nodes, node < 2 ^ 64)
    (readsBack : ∀ number ∈ map.values.flatMap numbers, Scalar.ReadsBack number)
    (each : ∀ value ∈ map.values, (∀ number ∈ numbers value, Scalar.ReadsBack number) →
      read (toJson value) = .ok value) :
    readNodeMap α read (nodeMapJson toJson map) = .ok map :=
  readNodeMap_nodeMapJson fits fun value mem => each value mem fun number number_mem =>
    readsBack number (List.mem_flatMap.2 ⟨value, mem, number_mem⟩)

theorem read_boundsJson {bounds : Bounds α}
    (fitsX : ∀ node ∈ bounds.x.nodes, node < 2 ^ 64)
    (fitsU : ∀ node ∈ bounds.u.nodes, node < 2 ^ 64)
    (readsBackX : ∀ number ∈ bounds.x.values.flatMap BoundPair.numbers, Scalar.ReadsBack number)
    (readsBackU : ∀ number ∈ bounds.u.values.flatMap BoundPair.numbers, Scalar.ReadsBack number) :
    boundsSchema.read α (boundsJson bounds) = .ok bounds := by
  have states := readNodeMap_of_numbers fitsX readsBackX fun _ _ => read_boundPairJson
  have controls := readNodeMap_of_numbers fitsU readsBackU fun _ _ => read_boundPairJson
  refine Schema.read_ofFields distinct_boundsSchema ?_
  exact .cons (fill_storing states _) (.cons (fill_storing controls _) (.nil _))

theorem read_pathJson {path : PathConstraint α} (dim_fits : path.dim < 2 ^ 64)
    (readsBack : ∀ number ∈ path.numbers, Scalar.ReadsBack number) :
    pathSchema.read α (pathJson path) = .ok path := by
  simp only [PathConstraint.numbers, List.forall_mem_append] at readsBack
  obtain ⟨⟨⟨lower, upper⟩, jacobianX⟩, jacobianU⟩ := readsBack
  refine Schema.read_ofFields distinct_pathSchema ?_
  exact .cons (fill_storing (readString_ofString _) _)
    (.cons (fill_storing (readSize_ofNat dim_fits) _)
      (.cons (fill_storing (readVector_vectorJson lower) _)
        (.cons (fill_storing (readVector_vectorJson upper) _)
          (.cons (fill_storing (readOption_rows jacobianX) _)
            (.cons (fill_storing (readOption_rows jacobianU) _) (.nil _))))))

theorem read_pointJson {point : PointConstraint α} (width_fits : point.outputWidth < 2 ^ 64)
    (readsBack : ∀ number ∈ point.numbers, Scalar.ReadsBack number) :
    pointSchema.read α (pointJson point) = .ok point := by
  simp only [PointConstraint.numbers, List.forall_mem_append] at readsBack
  refine Schema.read_ofFields distinct_pointSchema ?_
  exact .cons (fill_storing (readString_ofString _) _)
    (.cons (fill_storing (readSize_ofNat width_fits) _)
      (.cons (fill_storing (readVector_vectorJson readsBack.1) _)
        (.cons (fill_storing (readVector_vectorJson readsBack.2) _) (.nil _))))

/-- The canonical tree of a description is read as that description. -/
theorem read_toJson {description : Description α} (representable : description.IsRepresentable)
    (readBack : description.NumbersReadBack) :
    schema.read α description.toJson = .ok description := by
  have numbers : ∀ number ∈ description.numbers, Scalar.ReadsBack number :=
    fun number mem => readBack number mem (representable.finite number mem)
  have sizes := representable.fits
  simp only [Description.numbers, List.cons_append, List.forall_mem_cons,
    List.forall_mem_append] at numbers
  simp only [Description.sizes, List.forall_mem_append] at sizes
  obtain ⟨damping, ⟨⟨⟨objective, boundsX⟩, boundsU⟩, path⟩, points⟩ := numbers
  obtain ⟨⟨⟨⟨⟨dims, nodesX⟩, nodesU⟩, pathDim⟩, pointNodes⟩, widths⟩ := sizes
  have pathRead : readOption (pathSchema.read α)
      (ofOption (description.pathConstraint.map pathJson)) = .ok description.pathConstraint := by
    refine readOption_ofOption fun spec given => ⟨?_, Json.noConfusion⟩
    rw [Option.mem_def] at given
    rw [given] at path pathDim
    exact read_pathJson (pathDim _ List.mem_cons_self) path
  have pointsRead := readNodeMap_of_numbers pointNodes points fun point mem =>
    read_pointJson (widths _ (List.mem_map_of_mem mem))
  refine Schema.read_ofFields distinct_descriptionSchema ?_
  exact .cons (fill_storing (readString_ofString _) _)
    (.cons (fill_storing (read_dimsJson dims) _)
      (.cons (fill_storing (read_flagsJson damping) _)
        (.cons (fill_storing (read_objectiveJson objective) _)
          (.cons (fill_storing (read_boundsJson nodesX nodesU boundsX boundsU) _)
            (.cons (fill_storing pathRead _)
              (.cons (fill_storing pointsRead _) (.nil _)))))))

end Description

end RtiAssembly
