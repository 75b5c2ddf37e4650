import RtiAssembly.Routine.Declaration

/-!
# Memory

The contents of the arrays of a module.  How many elements each array has is
part of the type, so nothing that works on a memory can resize it.
-/

namespace RtiAssembly

/-- Contents of arrays with the given numbers of elements, row by row. -/
structure Memory (α : Type) (sizes : List Nat) where
  arrays : Array (Array α)
  sizes_arrays : arrays.toList.map Array.size = sizes

namespace Memory

variable {α : Type} {sizes : List Nat}

/-- Changing the elements of one array keeps all numbers of elements. -/
theorem map_size_modify (arrays : Array (Array α)) (id : Nat) (change : Array α → Array α)
    (size_change : ∀ content, (change content).size = content.size) :
    (arrays.modify id change).toList.map Array.size = arrays.toList.map Array.size := by
  apply List.ext_getElem
  · simp
  · intro position _ _
    simp only [List.getElem_map, Array.getElem_toList, Array.getElem_modify]
    split
    · exact size_change _
    · rfl

/-- The memory in which every array has its initial content. -/
def initial [Scalar α] (decls : List (ArrayDecl α)) : Memory α (decls.map ArrayDecl.size) where
  arrays := (decls.map ArrayDecl.initial).toArray
  sizes_arrays := by simp [ArrayDecl.size_initial]

/-- The content of the array at a position; nothing outside the table. -/
def content (memory : Memory α sizes) (id : Nat) : Array α :=
  memory.arrays.getD id #[]

/-- Apply a change that keeps the number of elements to one array. -/
def modify (memory : Memory α sizes) (id : Nat) (change : Array α → Array α)
    (size_change : ∀ content, (change content).size = content.size) : Memory α sizes where
  arrays := memory.arrays.modify id change
  sizes_arrays := by rw [map_size_modify _ _ _ size_change, memory.sizes_arrays]

/-- Write one element; outside the array nothing changes. -/
def write (memory : Memory α sizes) (id position : Nat) (value : α) : Memory α sizes :=
  memory.modify id (fun content => content.setIfInBounds position value)
    fun _ => Array.size_setIfInBounds

/-- Set every element of an array to zero. -/
def clear [Scalar α] (memory : Memory α sizes) (id : Nat) : Memory α sizes :=
  memory.modify id (fun content => content.map fun _ => 0) fun _ => Array.size_map

/-- Overwrite the first elements of an array.  Values behind its end are
dropped, and elements without a new value stay. -/
def overwrite (memory : Memory α sizes) (id : Nat) (values : Array α) : Memory α sizes :=
  memory.modify id
    (fun content => content.mapIdx fun position old => values.getD position old)
    fun _ => Array.size_mapIdx

end Memory

end RtiAssembly
