import RtiAssembly.Proofs.Emission.Terms
import RtiAssembly.Proofs.Machine.Cells
import RtiAssembly.Proofs.Machine.Safety
import RtiAssembly.Proofs.Storage.Plan

/-!
# Code in step with an evaluation

Running code and an evaluation see the same memory and arrays of the same sizes;
they differ at most in what stands in cells to which the code has not stored
anything yet.  In such a pair of states an element of a window is the same cell
on both sides, and the term of an element of a window has its value.
-/

namespace RtiAssembly

/-! ## Stores that agree -/

namespace Store

variable {α : Type} {sizes : List Nat} [Scalar α]

/-- The store of running code agrees with the store of an evaluation, except in
cells that are not set yet. -/
structure Synced (unset : Cell → Prop) (store code : Store α sizes) : Prop where
  memory_eq : code.memory = store.memory
  alike : code.Alike store
  read_eq : ∀ cell, ¬unset cell → code.read cell = store.read cell

namespace Synced

variable {unset : Cell → Prop} {store code : Store α sizes}

theorem refl (unset : Cell → Prop) (store : Store α sizes) : store.Synced unset store :=
  ⟨rfl, .refl _, fun _ _ => rfl⟩

theorem mono (synced : store.Synced unset code) {other : Cell → Prop}
    (fewer : ∀ cell, unset cell → other cell) : store.Synced other code :=
  ⟨synced.memory_eq, synced.alike, fun cell set => synced.read_eq cell fun here =>
    set (fewer cell here)⟩

/-- Where everything is set, the stores are the same. -/
theorem eq (synced : store.Synced (fun _ => False) code) : code = store :=
  ext_read synced.alike fun cell => synced.read_eq cell id

/-- Storing a value in a cell on both sides sets the cell. -/
theorem write (synced : store.Synced unset code) {cell : Cell}
    (inside : cell.position < (store.content cell.buffer).size) (value : α) :
    (store.write cell value).Synced (fun other => unset other ∧ other ≠ cell)
      (code.write cell value) := by
  have codeInside : cell.position < (code.content cell.buffer).size := by
    rwa [synced.alike.size_content]
  refine ⟨?_, ?_, fun other set => ?_⟩
  · unfold Store.write
    cases cell.buffer with
    | global id =>
        simp only
        rw [synced.memory_eq]
    | stack position => exact synced.memory_eq
  · exact (alike_write code cell value).trans
      (synced.alike.trans (alike_write store cell value).symm)
  · rw [read_write codeInside, read_write inside]
    by_cases here : other = cell
    · rw [if_pos here, if_pos here]
    · rw [if_neg here, if_neg here]
      exact synced.read_eq other fun notSet => set ⟨notSet, here⟩

/-- Combining a cell with a value on both sides sets the cell, if its old content
does not matter or was set. -/
theorem combine (synced : store.Synced unset code) {cell : Cell}
    (inside : cell.position < (store.content cell.buffer).size) {op : AssignOp}
    (known : op = .set ∨ ¬unset cell) (value : α) :
    (store.write cell (op.combine (store.read cell) value)).Synced
      (fun other => unset other ∧ other ≠ cell)
      (code.write cell (op.combine (code.read cell) value)) := by
  have same : op.combine (code.read cell) value = op.combine (store.read cell) value := by
    rcases known with rfl | set
    · rfl
    · rw [synced.read_eq cell set]
  rw [same]
  exact synced.write inside _

end Synced

/-- Storing what a cell holds changes nothing. -/
theorem write_read {store : Store α sizes} {cell : Cell}
    (inside : cell.position < (store.content cell.buffer).size) :
    store.write cell (store.read cell) = store := by
  refine ext_read (alike_write store cell _) fun other => ?_
  rw [read_write inside]
  split
  · rename_i here
    rw [here]
  · rfl

end Store

/-! ## Constant arrays -/

/-- An array with given content starts with its entries, row by row. -/
theorem ArrayDecl.getD_initial {α : Type} [Scalar α] {decl : ArrayDecl α} {content : Matrix α}
    (given : decl.given = some content) (agrees : decl.Agrees) {position : Nat}
    (inside : position < decl.size) :
    decl.initial.getD position 0 =
      content.entry (position / content.cols) (position % content.cols) := by
  have cols_eq : content.cols = decl.cols := congrArg Prod.snd (agrees content given)
  have position_lt : position < decl.rows * decl.cols := inside
  rw [cols_eq]
  simp only [initial, given, Matrix.ofFn, Array.getD_eq_getD_getElem?,
    Array.getElem?_ofFn, dif_pos position_lt, Option.getD_some]

namespace Program

variable {α : Type} (program : Program α)

/-- Whether a buffer is a constant array of the module. -/
def IsConstant (buffer : Buffer) : Prop :=
  ∃ id decl, buffer = .global id ∧ program.table.get? id = some decl ∧ decl.storage = .constant

/-- The given content of every array has the declared shape. -/
def GivesShapes : Prop :=
  ∀ id decl, program.table.get? id = some decl → decl.Agrees

/-- The constant arrays hold what they were declared with. -/
def KeepsConstants [Scalar α] (memory : program.Contents) : Prop :=
  ∀ id decl, program.table.get? id = some decl → decl.storage = .constant →
    memory.content id = decl.initial

variable {program} [Scalar α]

theorem keepsConstants_initial : program.KeepsConstants program.initialMemory := by
  intro id decl found _
  have listed : program.table.arrays[id]? = some decl := found
  simp [initialMemory, Memory.initial, Memory.content, Array.getD_eq_getD_getElem?, listed]

/-- What keeps the constant arrays keeps what they hold. -/
theorem KeepsConstants.congr {memory other : program.Contents}
    (keeps : program.KeepsConstants memory)
    (same : ∀ id, program.IsConstant (.global id) → other.content id = memory.content id) :
    program.KeepsConstants other := by
  intro id decl found constant
  rw [same id ⟨id, decl, rfl, found, constant⟩]
  exact keeps id decl found constant

/-- The number that stands in the code for an element of a constant array. -/
theorem KeepsConstants.entry {memory : program.Contents} (keeps : program.KeepsConstants memory)
    (shapes : program.GivesShapes) {id : Nat} {decl : ArrayDecl α} {content : Matrix α}
    (found : program.table.get? id = some decl) (constant : decl.storage = .constant)
    (given : decl.given = some content) {position : Nat}
    (inside : position < (memory.content id).size) :
    (memory.content id).getD position 0 =
      content.entry (position / content.cols) (position % content.cols) := by
  rw [keeps id decl found constant] at inside ⊢
  rw [ArrayDecl.size_initial] at inside
  exact ArrayDecl.getD_initial given (shapes id decl found) inside

end Program

/-! ## Elements of windows -/

theorem Activation.reach?_eq {α σ : Type} {sizes : List Nat} {program : Program α}
    {active : Activation α} {count : Nat} {running : Running α σ sizes} {place : Place}
    {origin cell : Cell} (base : active.origin? place.base = some origin)
    (cell_eq : (if (Emission.symbols program active.routine place.base).isSingle then origin
      else origin.plus (place.index.valueWith running.counters)) = cell)
    (inside : cell.position + count ≤ (running.world.store.content cell.buffer).size) :
    active.reach? program count running place = some cell := by
  subst cell_eq
  simp only [reach?, base, Option.bind_eq_bind, Option.bind_some]
  exact if_pos inside

namespace Frame

variable {α : Type}

/-- The activation of code that runs in a frame. -/
def activation (frame : Frame) (routine : Routine α) : Activation α :=
  ⟨routine, frame.origin?⟩

/-- Integer variables have the values of the indices in scope. -/
def CountedBy (frame : Frame) (counters : String → Nat) : Prop :=
  ∀ name value, frame.scope.lookup name = some value → counters name = value

/-- The cell of an element of a window. -/
def cellAt (frame : Frame) (window : Window) (row col : Nat) : Cell :=
  (frame.startOf window).plus (window.position row col)

theorem CountedBy.valueWith {frame : Frame} {counters : String → Nat}
    (counted : frame.CountedBy counters) {index : AffineIndex} {value : Nat}
    (known : (index.evalIn? fun name => frame.scope.lookup name) = some value) :
    index.valueWith counters = value := by
  rcases index with ⟨_ | ⟨name, coefficient⟩, constant⟩
  · exact Option.some.inj known
  · obtain ⟨found, lookup_eq, rfl⟩ := Option.map_eq_some_iff.1 known
    have counter_eq := counted name found lookup_eq
    simp only [AffineIndex.valueWith, AffineIndex.evalIn?, counter_eq, Option.map_some,
      Option.getD_some]

theorem valueWith_plus (index : AffineIndex) (amount : Nat) (counters : String → Nat) :
    (index.plus amount).valueWith counters = index.valueWith counters + amount := by
  rcases index with ⟨_ | ⟨name, coefficient⟩, constant⟩
  · rfl
  · exact (Nat.add_assoc _ _ _).symm

variable {program : Program α} {routine : Routine α} {extremes : Program.Extremes}
  {frame : Frame} {store : Store α program.table.sizes} {window : Window}

theorem cellAt_eq {origin : Cell} {offset : Nat}
    (base : frame.origin? window.base = some origin)
    (index : (window.offset.evalIn? fun name => frame.scope.lookup name) = some offset)
    (row col : Nat) :
    frame.cellAt window row col = origin.plus (offset + window.position row col) := by
  rw [cellAt, startOf_eq base index, Cell.plus, Cell.plus, Cell.plus, Nat.add_assoc]

/-- Where a fitting window starts, and how much room it has. -/
theorem Suits.room (suits : frame.Suits program routine extremes store)
    (fitting : program.fits routine extremes window = true) :
    ∃ origin size offset, frame.origin? window.base = some origin ∧
      program.baseSize? routine window.base = some size ∧
      (window.offset.evalIn? fun name => frame.scope.lookup name) = some offset ∧
      offset + window.extent ≤ size ∧
      origin.position + size ≤ (store.content origin.buffer).size := by
  unfold Program.fits at fitting
  split at fitting
  · rename_i size largest sized index
    obtain ⟨origin, base, room⟩ := suits.holds _ _ sized
    obtain ⟨offset, offset_eq, offset_le⟩ := suits.within.exists_evalIn? index
    have inside := of_decide_eq_true fitting
    exact ⟨origin, size, offset, base, sized, offset_eq, by omega, room⟩
  · contradiction

theorem inside_of_fits (suits : frame.Suits program routine extremes store)
    (fitting : program.fits routine extremes window = true) {row col : Nat}
    (row_lt : row < window.shape.1) (col_lt : col < window.shape.2) :
    (frame.cellAt window row col).position <
      (store.content (frame.cellAt window row col).buffer).size := by
  obtain ⟨origin, size, offset, base, _, index, fits, room⟩ := suits.room fitting
  have position_lt := Window.position_lt row_lt col_lt
  have start_eq := startOf_eq base index
  simp only [cellAt, start_eq, Cell.plus]
  omega

/-- Only the single variables of a routine take no index. -/
theorem baseSize_of_isSingle {base : Base} {size : Nat}
    (single : (Emission.symbols program routine base).isSingle = true)
    (sized : program.baseSize? routine base = some size) : size = 1 := by
  cases base with
  | global id => contradiction
  | parameter position => contradiction
  | own position =>
      obtain ⟨decl, found, rfl⟩ := Option.map_eq_some_iff.1 sized
      simp only [Emission.symbols, found, beq_iff_eq] at single
      exact single

variable {σ : Type} {running : Running α σ program.table.sizes}

/-- What the code accesses for an element of a window that starts at a cell. -/
theorem reach?_of_index (counted : frame.CountedBy running.counters) {origin : Cell}
    {offset : Nat} (base : frame.origin? window.base = some origin)
    (index : (window.offset.evalIn? fun name => frame.scope.lookup name) = some offset)
    {row col : Nat}
    (first : (Emission.symbols program routine window.base).isSingle = true →
      offset + window.position row col = 0)
    (inside : origin.position + (offset + window.position row col) <
      (running.world.store.content origin.buffer).size) :
    (frame.activation routine).reach? program 1 running (window.place row col) =
      some (origin.plus (offset + window.position row col)) := by
  have value_eq : (window.place row col).index.valueWith running.counters =
      offset + window.position row col := by
    rw [Window.place, Window.element, valueWith_plus, counted.valueWith index]
  refine Activation.reach?_eq base ?_ inside
  rw [value_eq]
  split
  · rename_i single
    rw [first single]
    rfl
  · rfl

/-- An element of a fitting window is the same cell for the code. -/
theorem reach?_place (suits : frame.Suits program routine extremes store)
    (fitting : program.fits routine extremes window = true)
    (counted : frame.CountedBy running.counters) (alike : running.world.store.Alike store)
    {row col : Nat} (row_lt : row < window.shape.1) (col_lt : col < window.shape.2) :
    (frame.activation routine).reach? program 1 running (window.place row col) =
      some (frame.cellAt window row col) := by
  obtain ⟨origin, size, offset, base, sized, index, fits, room⟩ := suits.room fitting
  have position_lt := Window.position_lt row_lt col_lt
  rw [cellAt_eq base index]
  refine reach?_of_index counted base index (fun single => ?_) ?_
  · have size_eq := baseSize_of_isSingle single sized
    omega
  · rw [alike.size_content]
    omega

variable [Scalar α]

/-- A constant index has its constant as its value. -/
theorem evalIn?_of_isConst {index : AffineIndex} (constant : index.isConst = true)
    {lookup : String → Option Nat} {value : Nat} (known : index.evalIn? lookup = some value) :
    value = index.constant := by
  rcases index with ⟨_ | ⟨name, coefficient⟩, amount⟩
  · exact (Option.some.inj known).symm
  · obtain ⟨found, _, rfl⟩ := Option.map_eq_some_iff.1 known
    have coefficient_eq : coefficient = 0 := by simpa [AffineIndex.isConst] using constant
    rw [coefficient_eq, Nat.zero_mul, Nat.zero_add]

/-- An element of a constant array at a fixed position holds the number that the
code has for it. -/
theorem read_of_content? (shapes : program.GivesShapes)
    (keeps : program.KeepsConstants store.memory) {locals : List (ArrayDecl α)}
    {content : Matrix α}
    (given : (Scope.mk program.table locals).content? window.base = some content)
    {row col : Nat} (constant : (window.place row col).index.isConst = true) {origin : Cell}
    {offset : Nat} (base : frame.origin? window.base = some origin)
    (index : (window.offset.evalIn? fun name => frame.scope.lookup name) = some offset)
    {cell : Cell} (cell_eq : cell = origin.plus (offset + window.position row col))
    (inside : cell.position < (store.content cell.buffer).size) :
    store.read cell =
      content.entry ((window.place row col).index.constant / content.cols)
        ((window.place row col).index.constant % content.cols) := by
  cases global : window.base with
  | own _ => rw [global] at given; contradiction
  | parameter _ => rw [global] at given; contradiction
  | global id =>
      rw [global] at given base
      cases base
      simp only [Scope.content?] at given
      split at given
      · rename_i decl found
        split at given
        · rename_i storage
          have offset_const : window.offset.isConst = true := constant
          have offset_eq := evalIn?_of_isConst offset_const index
          have here : cell = ⟨.global id, (window.place row col).index.constant⟩ := by
            rw [cell_eq, Cell.plus, Nat.zero_add, offset_eq]
            rfl
          subst here
          exact keeps.entry shapes found storage given inside
        · contradiction
      · contradiction

/-- The term of an element of a window has the value of the element. -/
theorem value?_read (shapes : program.GivesShapes)
    (suits : frame.Suits program routine extremes store)
    (fitting : program.fits routine extremes window = true)
    (keeps : program.KeepsConstants store.memory)
    (counted : frame.CountedBy running.counters) {unset : Cell → Prop}
    (synced : store.Synced unset running.world.store)
    {row col : Nat} (row_lt : row < window.shape.1) (col_lt : col < window.shape.2)
    (set : ¬unset (frame.cellAt window row col)) :
    ((Scope.mk program.table routine.locals).read window row col).value?
        ((frame.activation routine).read? program running) =
      some (store.read (frame.cellAt window row col)) := by
  simp only [Scope.read]
  split
  · rename_i content given constant
    obtain ⟨origin, size, offset, base, _, index, _, _⟩ := suits.room fitting
    have inside := inside_of_fits suits fitting row_lt col_lt
    rw [Term.value?, read_of_content? shapes keeps given constant base index
      (cellAt_eq base index row col) inside]
  · rw [Term.value?, Activation.read?,
      reach?_place suits fitting counted synced.alike row_lt col_lt,
      Option.map_some, synced.read_eq _ set]

end Frame

end RtiAssembly
