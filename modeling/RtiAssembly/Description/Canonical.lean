import RtiAssembly.Description.Basic
import RtiAssembly.Json.Text

/-!
# The canonical form of a description

Every description has one canonical text: compact, with every field in the
order of its declaration, defaults filled in and absent values as `null`.  The
text depends only on the description, so its digest identifies the problem.
-/

namespace RtiAssembly

open Json

/-- The canonical tree of the dimensions. -/
def Dimensions.toJson (dims : Dimensions) : Json :=
  .ofFields
    [("n", .ofNat dims.n), ("nx", .ofNat dims.nx), ("nu", .ofNat dims.nu),
      ("ny", .ofNat dims.ny), ("nyn", .ofNat dims.nyn), ("nod", .ofNat dims.nod)]

/-- The name of a sensitivity mode. -/
def SensitivityMode.label : SensitivityMode → String
  | .forward => "forward"
  | .backward => "backward"
  | .inexact => "inexact"

namespace Description

variable {α : Type} [Scalar α]

/-- The canonical tree of a scalar; only finite numbers have one. -/
def scalarJson (value : α) : Json :=
  match Scalar.spell .canonical value with
  | .numeral written => .numeral written
  | _ => .null

/-- The canonical tree of a vector. -/
def vectorJson (values : List α) : Json :=
  .ofList (values.map scalarJson)

/-- The canonical tree of a matrix. -/
def rowsJson (rows : List (List α)) : Json :=
  .ofList (rows.map vectorJson)

/-- The canonical tree of a map over nodes. -/
def nodeMapJson {β : Type} (toJson : β → Json) (map : NodeMap β) : Json :=
  .ofFields (map.entries.map fun (node, value) =>
    (Digit.text (Digit.ofNat node), toJson value))

/-- The canonical tree of the features. -/
def flagsJson (flags : Flags α) : Json :=
  .ofFields
    [("useArrivalCost", .boolean flags.useArrivalCost),
      ("variableWeighting", .boolean flags.variableWeighting),
      ("hardcodeConstraints", .boolean flags.hardcodeConstraints),
      ("initialStateFixed", .boolean flags.initialStateFixed),
      ("sensitivityMode", .ofString flags.sensitivityMode.label),
      ("levenbergMarquardt", scalarJson flags.levenbergMarquardt),
      ("liftedGradientUpdate", .boolean flags.liftedGradientUpdate)]

/-- The canonical tree of a weighting. -/
def weightingJson : Weighting α → Json
  | .given rows => .ofFields [("given", rowsJson rows)]
  | .runtime => .ofString "runtime"

/-- The canonical tree of the linear terms. -/
def linearJson : LinearTerms α → Json
  | .none => .ofString "none"
  | .runtime => .ofString "runtime"
  | .given x u => .ofFields [("given", .ofFields [("x", vectorJson x), ("u", vectorJson u)])]

/-- The canonical tree of the objective. -/
def objectiveJson (objective : Objective α) : Json :=
  .ofFields
    [("weight", weightingJson objective.weight),
      ("terminalWeight", weightingJson objective.terminalWeight),
      ("jacobianX", .ofOption (objective.jacobianX.map rowsJson)),
      ("jacobianU", .ofOption (objective.jacobianU.map rowsJson)),
      ("terminalJacobianX", .ofOption (objective.terminalJacobianX.map rowsJson)),
      ("crossTerm", .boolean objective.crossTerm),
      ("linearTerms", linearJson objective.linearTerms)]

/-- The canonical tree of a pair of bounds. -/
def boundPairJson (pair : BoundPair α) : Json :=
  .ofFields
    [("lower", .ofOption (pair.lower.map vectorJson)),
      ("upper", .ofOption (pair.upper.map vectorJson))]

/-- The canonical tree of the bounds. -/
def boundsJson (bounds : Bounds α) : Json :=
  .ofFields [("x", nodeMapJson boundPairJson bounds.x), ("u", nodeMapJson boundPairJson bounds.u)]

/-- The canonical tree of a path constraint. -/
def pathJson (path : PathConstraint α) : Json :=
  .ofFields
    [("name", .ofString path.name),
      ("dim", .ofNat path.dim),
      ("lower", vectorJson path.lower),
      ("upper", vectorJson path.upper),
      ("jacobianX", .ofOption (path.jacobianX.map rowsJson)),
      ("jacobianU", .ofOption (path.jacobianU.map rowsJson))]

/-- The canonical tree of a point constraint. -/
def pointJson (point : PointConstraint α) : Json :=
  .ofFields
    [("name", .ofString point.name),
      ("outputWidth", .ofNat point.outputWidth),
      ("lower", vectorJson point.lower),
      ("upper", vectorJson point.upper)]

/-- The canonical tree of a description. -/
def toJson (description : Description α) : Json :=
  .ofFields
    [("moduleName", .ofString description.moduleName),
      ("dims", description.dims.toJson),
      ("flags", flagsJson description.flags),
      ("objective", objectiveJson description.objective),
      ("bounds", boundsJson description.bounds),
      ("pathConstraint", .ofOption (description.pathConstraint.map pathJson)),
      ("pointConstraints", nodeMapJson pointJson description.pointConstraints)]

/-- The canonical text of a description. -/
def canonical (description : Description α) : String :=
  description.toJson.compact

end Description

end RtiAssembly
