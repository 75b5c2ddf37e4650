import RtiAssembly.Json.Tree
import RtiAssembly.Number.Scalar
import RtiAssembly.Quotation

/-!
# Why a text does not describe what it should

A text is refused because it is no JSON, or because its content does not have
the expected form.  Every cause has its own constructor; the words are in
`Mismatch.message`.
-/

namespace RtiAssembly.Json

/-- What stands in a text where something else is expected. -/
inductive Found
  | null
  | boolean (value : Bool)
  | integer (value : Int)
  | real (value : Spelled)
  | string (value : String)
  | sequence
  | map
  | unitVariant
  deriving DecidableEq, Repr

/-- The description of what stands in a text. -/
def Found.describe : Found → String
  | .null => "null"
  | .boolean value => "boolean `" ++ (if value then "true" else "false") ++ "`"
  | .integer value => "integer `" ++ toString value ++ "`"
  | .real value => "floating point `" ++ value.text ++ "`"
  | .string value => "string " ++ Quotation.quote value
  | .sequence => "sequence"
  | .map => "map"
  | .unitVariant => "unit variant"

/-- A content that does not have the expected form. -/
inductive Mismatch
  | missingField (name : String)
  | unknownField (name : String) (expected : List String)
  | duplicateField (name : String)
  | unknownVariant (name : String) (expected : List String)
  | invalidType (found : Found) (expected : String)
  | invalidValue (found : Found) (expected : String)
  | invalidLength (length : Nat) (expected : String)
  deriving DecidableEq, Repr

namespace Mismatch

/-- A list of alternatives: two are joined by a word, more follow one. -/
def alternatives (names : List String) : String :=
  let quoted := names.map fun name => "`" ++ name ++ "`"
  match quoted with
  | [] => "there are no alternatives"
  | [name] => name
  | [first, second] => first ++ " or " ++ second
  | names => "one of " ++ ", ".intercalate names

/-- The words for a mismatch. -/
def message : Mismatch → String
  | .missingField name => "missing field `" ++ name ++ "`"
  | .unknownField name expected =>
      "unknown field `" ++ name ++ "`, expected " ++ alternatives expected
  | .duplicateField name => "duplicate field `" ++ name ++ "`"
  | .unknownVariant name expected =>
      "unknown variant `" ++ name ++ "`, expected " ++ alternatives expected
  | .invalidType found expected =>
      "invalid type: " ++ found.describe ++ ", expected " ++ expected
  | .invalidValue found expected =>
      "invalid value: " ++ found.describe ++ ", expected " ++ expected
  | .invalidLength length expected =>
      "invalid length " ++ toString length ++ ", expected " ++ expected

end Mismatch

/-- Why a text is refused. -/
inductive ReadError
  | defect (defect : Defect)
  | mismatch (cause : Mismatch)
  deriving DecidableEq, Repr

/-- The words for a refusal. -/
def ReadError.message : ReadError → String
  | .defect .malformed => "expected value"
  | .defect .truncated => "EOF while parsing a value"
  | .mismatch cause => cause.message

/-- The result of reading a value of type `β`. -/
abbrev Reading (β : Type) := Except ReadError β

/-- Refuse a text for a defect. -/
def Reading.broken {β : Type} (defect : Defect) : Reading β :=
  .error (.defect defect)

/-- Refuse a text for its content. -/
def Reading.refuse {β : Type} (cause : Mismatch) : Reading β :=
  .error (.mismatch cause)

/-- A result whose only failures are defects. -/
def Reading.ofDefect {β : Type} (result : Except Defect β) : Reading β :=
  result.mapError .defect

/-- What a numeral is found to be; a numeral out of range is malformed. -/
def Found.ofNumeral? (α : Type) [Scalar α] (written : Numeral) : Option Found :=
  match written.integer? with
  | some value => some (.integer value)
  | none =>
      (Scalar.ofNumeral? written : Option α).map fun value =>
        .real (Scalar.spell Spelling.canonical value)

/-- Refuse a value because something else is expected in its place.  A string
or numeral is read to its end first; a container is refused at its start. -/
def unexpected (α : Type) [Scalar α] {β : Type} (value : Json) (expected : String) : Reading β :=
  match value with
  | .null => .refuse (.invalidType .null expected)
  | .boolean value => .refuse (.invalidType (.boolean value) expected)
  | .numeral written =>
      match Found.ofNumeral? α written with
      | some found => .refuse (.invalidType found expected)
      | none => .broken .malformed
  | .string quoted =>
      match quoted.text? with
      | .ok text => .refuse (.invalidType (.string text) expected)
      | .error defect => .broken defect
  | .array _ => .refuse (.invalidType .sequence expected)
  | .object _ => .refuse (.invalidType .map expected)
  | .absent defect => .broken defect
  | .brokenNumeral defect => .broken defect
  | .brokenWord defect => .broken defect

end RtiAssembly.Json
