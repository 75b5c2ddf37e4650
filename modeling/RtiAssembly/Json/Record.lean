import RtiAssembly.Json.Reading

/-!
# Reading records

A record is written as an object of named fields or as an array of its fields
in order.  Its schema lists the fields with the readers that fill them in,
starting from a blank record that holds the defaults.
-/

namespace RtiAssembly.Json

/-- A field of a record of type `ρ`. -/
structure Field (ρ : Type) where
  name : String
  required : Bool
  /-- Read the field and put it into the record. -/
  fill : Json → ρ → Reading ρ

/-- A field with its reader and the update that stores what was read. -/
def Field.storing {ρ β : Type} (name : String) (required : Bool) (read : Json → Reading β)
    (store : β → ρ → ρ) : Field ρ where
  name := name
  required := required
  fill value record := (read value).map (store · record)

/-- The form of a record of type `ρ`. -/
structure Schema (ρ : Type) where
  /-- What a message calls the record. -/
  title : String
  fields : List (Field ρ)
  /-- The record before any field is read. -/
  blank : ρ
  /-- Whether fields of other names are skipped rather than refused. -/
  skipsUnknown : Bool

namespace Schema

variable {ρ : Type}

/-- The field of a given name. -/
def field? (schema : Schema ρ) (name : String) : Option (Field ρ) :=
  schema.fields.find? fun field => field.name == name

/-- Refuse the record if a required field has not been seen. -/
def complete (schema : Schema ρ) (seen : List String) (record : ρ) : Reading ρ :=
  match schema.fields.find? fun field => field.required && !seen.contains field.name with
  | some field => .refuse (.missingField field.name)
  | none => .ok record

/-- Read the members of an object; a field may occur only once. -/
def readMembers (schema : Schema ρ) (seen : List String) (record : ρ) : Members → Reading ρ
  | .closed => schema.complete seen record
  | .broken defect => .broken defect
  | .dangling defect => .broken defect
  | .cons key value tail => do
      let name ← Reading.ofDefect key.text?
      match schema.field? name with
      | some field =>
          if seen.contains name then
            .refuse (.duplicateField name)
          else
            let filled ← field.fill value record
            readMembers schema (name :: seen) filled tail
      | none =>
          if schema.skipsUnknown then
            Reading.ofDefect value.skip
            readMembers schema seen record tail
          else
            .refuse (.unknownField name (schema.fields.map Field.name))

/-- What a sequence of wrong length is measured against. -/
def expectedLength (schema : Schema ρ) : String :=
  schema.title ++ " with " ++ toString schema.fields.length ++ " elements"

/-- Read fields in order from an array; fields left out at the end keep their
defaults, and nothing may follow the last field. -/
def readItems (schema : Schema ρ) (position : Nat) (record : ρ) :
    List (Field ρ) → Items → Reading ρ
  | [], .closed => .ok record
  | [], .broken defect => .broken defect
  | [], .cons _ _ => .broken .malformed
  | field :: fields, .closed =>
      if field.required then
        .refuse (.invalidLength position schema.expectedLength)
      else
        readItems schema (position + 1) record fields .closed
  | _ :: _, .broken defect => .broken defect
  | field :: fields, .cons head tail => do
      let filled ← field.fill head record
      readItems schema (position + 1) filled fields tail

/-- Read a record. -/
def read (α : Type) [Scalar α] (schema : Schema ρ) (value : Json) : Reading ρ :=
  match value with
  | .object members => schema.readMembers [] schema.blank members
  | .array items => schema.readItems 0 schema.blank schema.fields items
  | _ => unexpected α value schema.title

end Schema

end RtiAssembly.Json
