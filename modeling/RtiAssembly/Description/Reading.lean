import RtiAssembly.Description.Basic
import RtiAssembly.Json.Record

/-!
# Reading problem descriptions

The schemas of all records of a description.  Records refuse unknown fields,
except for given linear terms, which skip them.
-/

namespace RtiAssembly

open Json

/-- The form of the dimensions. -/
def Dimensions.schema (α : Type) [Scalar α] : Schema Dimensions where
  title := "struct Dimensions"
  fields :=
    [.storing "n" true (readSize α) fun n dims => { dims with n },
      .storing "nx" true (readSize α) fun nx dims => { dims with nx },
      .storing "nu" true (readSize α) fun nu dims => { dims with nu },
      .storing "ny" true (readSize α) fun ny dims => { dims with ny },
      .storing "nyn" true (readSize α) fun nyn dims => { dims with nyn },
      .storing "nod" false (readSize α) fun nod dims => { dims with nod }]
  blank := ⟨0, 0, 0, 0, 0, 0⟩
  skipsUnknown := false

/-- The names of the sensitivity modes. -/
def SensitivityMode.variants : List (Variant SensitivityMode) :=
  [.unit "forward" .forward, .unit "backward" .backward, .unit "inexact" .inexact]

namespace Description

variable {α : Type} [Scalar α]

/-- Read a vector. -/
def readVector (value : Json) : Reading (List α) :=
  readList α (readScalar α) value

/-- Read a matrix, row by row. -/
def readRows (value : Json) : Reading (List (List α)) :=
  readList α readVector value

/-- The form of the features. -/
def flagsSchema : Schema (Flags α) where
  title := "struct FeatureFlags"
  fields :=
    [.storing "useArrivalCost" false (readBool α) fun useArrivalCost flags =>
        { flags with useArrivalCost },
      .storing "variableWeighting" false (readBool α) fun variableWeighting flags =>
        { flags with variableWeighting },
      .storing "hardcodeConstraints" false (readBool α) fun hardcodeConstraints flags =>
        { flags with hardcodeConstraints },
      .storing "initialStateFixed" false (readBool α) fun initialStateFixed flags =>
        { flags with initialStateFixed },
      .storing "sensitivityMode" false (readVariant α SensitivityMode.variants)
        fun sensitivityMode flags => { flags with sensitivityMode },
      .storing "levenbergMarquardt" false (readScalar α) fun levenbergMarquardt flags =>
        { flags with levenbergMarquardt },
      .storing "liftedGradientUpdate" false (readBool α) fun liftedGradientUpdate flags =>
        { flags with liftedGradientUpdate }]
  blank := .default
  skipsUnknown := false

/-- The alternatives of a weighting. -/
def weightingVariants : List (Variant (Weighting α)) :=
  [.carrying "given" .newtype fun value => (readRows value).map .given,
    .unit "runtime" .runtime]

/-- The form of given linear terms. -/
def givenTermsSchema : Schema (List α × List α) where
  title := "struct variant LinearTermSpec::Given"
  fields :=
    [.storing "x" true readVector fun x terms => (x, terms.2),
      .storing "u" true readVector fun u terms => (terms.1, u)]
  blank := ([], [])
  skipsUnknown := true

/-- The alternatives of the linear terms. -/
def linearVariants : List (Variant (LinearTerms α)) :=
  [.unit "none" .none,
    .unit "runtime" .runtime,
    .carrying "given" .fields fun value =>
      (givenTermsSchema.read α value).map fun terms => .given terms.1 terms.2]

/-- The form of the objective. -/
def objectiveSchema : Schema (Objective α) where
  title := "struct ObjectiveSpec"
  fields :=
    [.storing "weight" true (readVariant α weightingVariants) fun weight objective =>
        { objective with weight },
      .storing "terminalWeight" true (readVariant α weightingVariants)
        fun terminalWeight objective => { objective with terminalWeight },
      .storing "jacobianX" false (readOption readRows) fun jacobianX objective =>
        { objective with jacobianX },
      .storing "jacobianU" false (readOption readRows) fun jacobianU objective =>
        { objective with jacobianU },
      .storing "terminalJacobianX" false (readOption readRows)
        fun terminalJacobianX objective => { objective with terminalJacobianX },
      .storing "crossTerm" false (readBool α) fun crossTerm objective =>
        { objective with crossTerm },
      .storing "linearTerms" false (readVariant α linearVariants)
        fun linearTerms objective => { objective with linearTerms }]
  blank := ⟨.runtime, .runtime, none, none, none, true, .none⟩
  skipsUnknown := false

/-- The form of a pair of bounds. -/
def boundPairSchema : Schema (BoundPair α) where
  title := "struct BoundPair"
  fields :=
    [.storing "lower" false (readOption readVector) fun lower pair => { pair with lower },
      .storing "upper" false (readOption readVector) fun upper pair => { pair with upper }]
  blank := ⟨none, none⟩
  skipsUnknown := false

/-- The form of the bounds. -/
def boundsSchema : Schema (Bounds α) where
  title := "struct BoundsSpec"
  fields :=
    [.storing "x" false (readNodeMap α (boundPairSchema.read α)) fun x bounds =>
        { bounds with x },
      .storing "u" false (readNodeMap α (boundPairSchema.read α)) fun u bounds =>
        { bounds with u }]
  blank := ⟨.empty, .empty⟩
  skipsUnknown := false

/-- The form of a path constraint. -/
def pathSchema : Schema (PathConstraint α) where
  title := "struct PathConstraintSpec"
  fields :=
    [.storing "name" true (readString α) fun name path => { path with name },
      .storing "dim" true (readSize α) fun dim path => { path with dim },
      .storing "lower" true readVector fun lower path => { path with lower },
      .storing "upper" true readVector fun upper path => { path with upper },
      .storing "jacobianX" false (readOption readRows) fun jacobianX path =>
        { path with jacobianX },
      .storing "jacobianU" false (readOption readRows) fun jacobianU path =>
        { path with jacobianU }]
  blank := ⟨"", 0, [], [], none, none⟩
  skipsUnknown := false

/-- The form of a point constraint. -/
def pointSchema : Schema (PointConstraint α) where
  title := "struct PointConstraintSpec"
  fields :=
    [.storing "name" true (readString α) fun name point => { point with name },
      .storing "outputWidth" true (readSize α) fun outputWidth point =>
        { point with outputWidth },
      .storing "lower" true readVector fun lower point => { point with lower },
      .storing "upper" true readVector fun upper point => { point with upper }]
  blank := ⟨"", 0, [], []⟩
  skipsUnknown := false

/-- The form of a whole description. -/
def schema : Schema (Description α) where
  title := "struct ProblemConfig"
  fields :=
    [.storing "moduleName" false (readString α) fun moduleName description =>
        { description with moduleName },
      .storing "dims" true ((Dimensions.schema α).read α) fun dims description =>
        { description with dims },
      .storing "flags" false (flagsSchema.read α) fun flags description =>
        { description with flags },
      .storing "objective" true (objectiveSchema.read α) fun objective description =>
        { description with objective },
      .storing "bounds" false (boundsSchema.read α) fun bounds description =>
        { description with bounds },
      .storing "pathConstraint" false (readOption (pathSchema.read α))
        fun pathConstraint description => { description with pathConstraint },
      .storing "pointConstraints" false (readNodeMap α (pointSchema.read α))
        fun pointConstraints description => { description with pointConstraints }]
  blank :=
    { moduleName := "rti"
      dims := (Dimensions.schema α).blank
      flags := .default
      objective := objectiveSchema.blank
      bounds := boundsSchema.blank
      pathConstraint := none
      pointConstraints := .empty }
  skipsUnknown := false

/-- The description that a document holds; nothing may follow it. -/
def ofDocument (document : Document) : Reading (Description α) := do
  let description ← schema.read α document.value
  if document.continues then .broken .malformed else pure description

/-- The description written in a text. -/
def ofText (text : String) : Reading (Description α) :=
  ofDocument (Document.ofText text)

end Description

end RtiAssembly
