import RtiAssembly.Matrix

/-!
# Array declarations

Every array has a name, a shape, the kind of its elements and a storage class
that says who owns its content.
-/

namespace RtiAssembly

/-- Who owns the content of an array. -/
inductive StorageClass
  /-- Supplied or read by the control loop in every cycle. -/
  | variable
  /-- Owned by the solver, kept from call to call. -/
  | workspace
  /-- Owned by one call of a routine. -/
  | own
  /-- Known when the program is generated. -/
  | constant
  deriving DecidableEq, Repr

/-- The label of a storage class in listings. -/
def StorageClass.label : StorageClass → String
  | .variable => "VARIABLE"
  | .workspace => "WORKSPACE"
  | .own => "LOCAL"
  | .constant => "CONSTANT"

/-- The kind of the elements of an array. -/
inductive ElementKind
  | real
  | int
  | bool
  deriving DecidableEq, Repr

/-- The label of an element kind in listings. -/
def ElementKind.label : ElementKind → String
  | .real => "Real"
  | .int => "Int"
  | .bool => "Bool"

/-- A declared array. -/
structure ArrayDecl (α : Type) where
  name : String
  rows : Nat
  cols : Nat
  kind : ElementKind
  storage : StorageClass
  /-- The content of an array known when the program is generated. -/
  given : Option (Matrix α)
  doc : Option String

namespace ArrayDecl

variable {α : Type}

/-- An array of real numbers. -/
def real (storage : StorageClass) (name : String) (rows cols : Nat) (doc : String) :
    ArrayDecl α :=
  ⟨name, rows, cols, .real, storage, none, some doc⟩

/-- A constant with the shape of its content. -/
def ofContent (name : String) (content : Matrix α) (doc : Option String) : ArrayDecl α :=
  ⟨name, content.rows, content.cols, .real, .constant, some content, doc⟩

/-- An array of a routine's own. -/
def own (name : String) (rows cols : Nat) (kind : ElementKind) : ArrayDecl α :=
  ⟨name, rows, cols, kind, .own, none, none⟩

/-- Number of elements. -/
def size (decl : ArrayDecl α) : Nat :=
  decl.rows * decl.cols

/-- The initial content, row by row: the given one, or zeros. -/
def initial [Scalar α] (decl : ArrayDecl α) : Array α :=
  match decl.given with
  | some content => (Matrix.ofFn decl.rows decl.cols content.entry).entries
  | none => Array.replicate decl.size 0

/-- The initial content has an entry for every element. -/
theorem size_initial [Scalar α] (decl : ArrayDecl α) : decl.initial.size = decl.size := by
  unfold initial
  split
  · exact (Matrix.ofFn _ _ _).size_entries
  · exact Array.size_replicate

end ArrayDecl

end RtiAssembly
