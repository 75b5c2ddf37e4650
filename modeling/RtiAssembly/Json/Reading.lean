import RtiAssembly.Json.Mismatch
import RtiAssembly.NodeMap

/-!
# Reading values of a known form

Readers for single values, sequences, maps over nodes and choices between named
variants.  A reader walks its tree in the order of the text, so the first
problem that the text shows is the one reported.
-/

namespace RtiAssembly.Json

/-! ## Skipped values -/

mutual

/-- Check the form of a value that is not looked at. -/
def skip : Json → Except Defect Unit
  | .null => .ok ()
  | .boolean _ => .ok ()
  | .numeral _ => .ok ()
  | .string quoted => quoted.skip
  | .array items => skipItems items
  | .object members => skipMembers members
  | .absent defect => .error defect
  | .brokenNumeral _ => .error .malformed
  | .brokenWord defect => .error defect

/-- Check the form of items that are not looked at. -/
def skipItems : Items → Except Defect Unit
  | .closed => .ok ()
  | .broken defect => .error defect
  | .cons head tail => do
      skip head
      skipItems tail

/-- Check the form of members that are not looked at. -/
def skipMembers : Members → Except Defect Unit
  | .closed => .ok ()
  | .broken defect => .error defect
  | .dangling defect => .error defect
  | .cons key value tail => do
      key.skip
      skip value
      skipMembers tail

end

/-! ## Single values -/

section Values

variable (α : Type) [Scalar α]

/-- Read a size: a nonnegative integer. -/
def readSize (value : Json) : Reading Nat :=
  match value with
  | .numeral written =>
      match written.integer? with
      | some (.ofNat size) => .ok size
      | some (.negSucc below) =>
          .refuse (.invalidValue (.integer (.negSucc below)) "usize")
      | none => unexpected α value "usize"
  | _ => unexpected α value "usize"

/-- Read a scalar. -/
def readScalar (value : Json) : Reading α :=
  match value with
  | .numeral written =>
      match Scalar.ofNumeral? written with
      | some scalar => .ok scalar
      | none => .broken .malformed
  | _ => unexpected α value "f64"

/-- Read a truth value. -/
def readBool (value : Json) : Reading Bool :=
  match value with
  | .boolean value => .ok value
  | _ => unexpected α value "a boolean"

/-- Read a text. -/
def readString (value : Json) : Reading String :=
  match value with
  | .string quoted => .ofDefect quoted.text?
  | _ => unexpected α value "a string"

/-- Read `null` or something else. -/
def readOption {β : Type} (read : Json → Reading β) (value : Json) : Reading (Option β) :=
  match value with
  | .null => .ok none
  | _ => (read value).map some

/-- Read the items of an array. -/
def Items.readAll {β : Type} (read : Json → Reading β) : Items → Reading (List β)
  | .closed => .ok []
  | .broken defect => .broken defect
  | .cons head tail => do
      let first ← read head
      let rest ← Items.readAll read tail
      pure (first :: rest)

/-- Read a sequence. -/
def readList {β : Type} (read : Json → Reading β) (value : Json) : Reading (List β) :=
  match value with
  | .array items => items.readAll read
  | _ => unexpected α value "a sequence"

/-! ## Maps over nodes -/

/-- Read a node number between quotes. -/
def readNode (key : Quoted) : Reading Nat :=
  let lead := key.lead
  if lead.head?.any startsNumeral then
    match scanNumeral lead with
    | .error defect => .broken defect
    | .ok (written, rest) => do
        let node ← readSize α (.numeral written)
        if rest.head? = some '"' then pure node else .broken .malformed
  else
    .broken .malformed

/-- Read the members of a map over nodes; the last value of a node counts. -/
def Members.readNodes {β : Type} (read : Json → Reading β) :
    NodeMap β → Members → Reading (NodeMap β)
  | map, .closed => .ok map
  | _, .broken defect => .broken defect
  | _, .dangling defect => .broken defect
  | map, .cons key value tail => do
      let node ← readNode α key
      let entry ← read value
      Members.readNodes read (map.insert node entry) tail

/-- Read a map over nodes. -/
def readNodeMap {β : Type} (read : Json → Reading β) (value : Json) : Reading (NodeMap β) :=
  match value with
  | .object members => members.readNodes α read .empty
  | _ => unexpected α value "a map"

/-! ## Variants -/

/-- How the content of a variant is laid out. -/
inductive Payload
  | newtype
  | fields
  deriving DecidableEq, Repr

/-- What is expected where a variant stands without its content. -/
def Payload.expected : Payload → String
  | .newtype => "newtype variant"
  | .fields => "struct variant"

/-- A named alternative of a choice: a value of its own, or one with content. -/
inductive Variant (β : Type)
  | unit (name : String) (value : β)
  | carrying (name : String) (payload : Payload) (read : Json → Reading β)

/-- The name of an alternative. -/
def Variant.name {β : Type} : Variant β → String
  | .unit name _ => name
  | .carrying name _ _ => name

/-- The alternative that a key names. -/
def findVariant {β : Type} (variants : List (Variant β)) (key : Quoted) :
    Reading (Variant β) := do
  let name ← Reading.ofDefect key.text?
  match variants.find? fun variant => variant.name == name with
  | some variant => pure variant
  | none => .refuse (.unknownVariant name (variants.map Variant.name))

/-- Read an alternative written as a plain string. -/
def readUnitVariant {β : Type} (variants : List (Variant β)) (key : Quoted) : Reading β := do
  match ← findVariant variants key with
  | .unit _ value => pure value
  | .carrying _ payload _ => .refuse (.invalidType .unitVariant payload.expected)

/-- Read the content of an alternative. -/
def Variant.readContent {β : Type} (variant : Variant β) (content : Json) : Reading β :=
  match variant with
  | .unit _ value =>
      match content with
      | .null => .ok value
      | _ => unexpected α content "unit"
  | .carrying _ _ read => read content

/-- Read a choice: a string, or an object with the one member that names it. -/
def readVariant {β : Type} (variants : List (Variant β)) (value : Json) : Reading β :=
  match value with
  | .string key => readUnitVariant variants key
  | .object members =>
      match members with
      | .cons key content tail => do
          let variant ← findVariant variants key
          let result ← variant.readContent α content
          match tail with
          | .closed => pure result
          | .broken defect => .broken defect
          | _ => .broken .malformed
      | .closed => .broken .malformed
      | .broken defect => .broken defect
      | .dangling _ => .broken .malformed
  | .absent defect => .broken defect
  | _ => .broken .malformed

end Values

end RtiAssembly.Json
