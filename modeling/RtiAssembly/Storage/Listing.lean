import RtiAssembly.Routine.Listing
import RtiAssembly.Storage.Plan

/-!
# Listings of storage plans

The readable text of a plan: arrays by storage class, then the decision on each
Gauss-Newton block.
-/

namespace RtiAssembly

/-- A text filled up with spaces to a given width. -/
def padRight (width : Nat) (text : String) : String :=
  text ++ String.ofList (List.replicate (width - text.length) ' ')

/-- The storage classes of module arrays in the order of listings. -/
def StorageClass.listed : List StorageClass :=
  [.variable, .constant, .workspace]

namespace Plan

variable {α : Type}

/-- The line of an array; a kind other than real is shown. -/
def arrayLine (decl : ArrayDecl α) : String :=
  let kind := if decl.kind = .real then "" else " " ++ decl.kind.label
  "  " ++ padRight 12 decl.name ++ " " ++ shapeText decl.rows decl.cols ++ kind ++ "\n"

/-- The line of a block. -/
def blockLine (name : String) (block : Block α) : String :=
  let decision :=
    match block with
    | .given value => "given " ++ shapeText value.rows value.cols
    | .computed quantity => "computed in " ++ quantity.name
  "  " ++ padRight 4 name ++ " " ++ decision ++ "\n"

/-- The listing of a plan. -/
def listing (plan : Plan α) : String :=
  let classes := StorageClass.listed.map fun storage =>
    storage.label ++ "\n" ++
      String.join ((plan.table.ofClass storage).map fun (_, decl) => arrayLine decl)
  String.join classes ++ "BLOCKS\n" ++
    String.join (plan.blocks.named.map fun (name, block) => blockLine name block)

end Plan

end RtiAssembly
