import RtiAssembly.Emission.Usage
import RtiAssembly.Proofs.Emission.Elements
import RtiAssembly.Proofs.Machine.Writes

/-!
# Arrays that code names

An instruction names the arrays that it stores to, reads, clears or passes on, and its
text depends on what these are called and on nothing else.  Code names fewer arrays than
the statements it is written for: an element of a constant array at a fixed position is
written as a number, and terms that vanish take their reads along.
-/

namespace RtiAssembly

/-! ## Arrays that instructions name -/

/-- The element whose address is passed. -/
def Operand.place? : Operand → Option Place
  | .address place => some place
  | .index _ => none

mutual

/-- The arrays that an instruction names: those that it stores to or clears, those
that stored values read, and those that are passed to a call. -/
def Instruction.bases {α : Type} : Instruction α → List Base
  | .store target _ value _ => target.base :: value.places.map Place.base
  | .stage _ stores =>
      stores.flatMap fun (target, value) => target.base :: value.places.map Place.base
  | .clear id => [.global id]
  | .loop _ _ _ body => Instruction.basesOf body
  | .call _ operands status =>
      (operands.filterMap Operand.place? ++ status.toList).map Place.base
  | .comment _ => []

/-- The arrays that a list of instructions names. -/
def Instruction.basesOf {α : Type} : List (Instruction α) → List Base
  | [] => []
  | first :: rest => first.bases ++ Instruction.basesOf rest

end

theorem Instruction.basesOf_eq {α : Type} (instructions : List (Instruction α)) :
    basesOf instructions = instructions.flatMap bases := by
  induction instructions with
  | nil => rfl
  | cons first rest ih => rw [basesOf, ih, List.flatMap_cons]

/-! ## Names in the text -/

section Texts

variable {α : Type} [Scalar α] {symbols other : Symbols}

theorem Place.text_congr {place : Place} (same : symbols place.base = other place.base) :
    place.text symbols = place.text other := by
  rw [text, text, same]

theorem Place.address_congr {place : Place} (same : symbols place.base = other place.base) :
    place.address symbols = place.address other := by
  rw [address, address, same]

theorem Operand.text_congr {operand : Operand}
    (same : ∀ place ∈ operand.place?, symbols place.base = other place.base) :
    operand.text symbols = operand.text other := by
  cases operand with
  | address place => exact Place.address_congr (same place rfl)
  | index value => rfl

namespace Term

omit [Scalar α] in
theorem element_mem_enclose {needed : Bool} {tokens : List (TermToken α)} {place : Place}
    (mem : .element place ∈ enclose needed tokens) : .element place ∈ tokens := by
  cases needed with
  | false => exact mem
  | true => simpa [enclose] using mem

/-- The elements in a written term are the places that the term reads. -/
theorem mem_places_of_token {term : Term α} {place : Place}
    (mem : .element place ∈ term.tokens) : place ∈ term.places := by
  induction term with
  | number value => simp [tokens] at mem
  | element here => simpa [tokens, places] using mem
  | magnitude inner ih => exact ih (by simpa [tokens] using mem)
  | negation inner ih => exact ih (element_mem_enclose (by simpa [tokens] using mem))
  | sum left right leftIh rightIh =>
      have split : .element place ∈ left.tokens ∨ .element place ∈ right.tokens := by
        simpa [tokens] using mem
      exact List.mem_append.2 (split.imp leftIh rightIh)
  | difference left right leftIh rightIh =>
      have split : .element place ∈ left.tokens ∨
          .element place ∈ enclose right.needsParentheses right.tokens := by
        simpa [tokens] using mem
      exact List.mem_append.2 (split.imp leftIh fun inRight =>
        rightIh (element_mem_enclose inRight))
  | product left right leftIh rightIh =>
      have split : .element place ∈ enclose left.needsParentheses left.tokens ∨
          .element place ∈ enclose right.needsParentheses right.tokens := by
        simpa [tokens] using mem
      exact List.mem_append.2 (split.imp (fun inLeft => leftIh (element_mem_enclose inLeft))
        fun inRight => rightIh (element_mem_enclose inRight))

theorem text_congr {term : Term α}
    (same : ∀ place ∈ term.places, symbols place.base = other place.base) :
    term.text symbols = term.text other := by
  unfold text
  congr 1
  refine List.map_congr_left fun token mem => ?_
  cases token with
  | element place => exact Place.text_congr (same place (mem_places_of_token mem))
  | _ => rfl

end Term

namespace Instruction

theorem storedText_congr {isWhole : Bool} {value : Term α}
    (same : ∀ place ∈ value.places, symbols place.base = other place.base) :
    storedText symbols isWhole value = storedText other isWhole value := by
  unfold storedText
  split
  · rfl
  · exact Term.text_congr same

theorem stageText_congr {indent : String} {op : AssignOp} {stores : List (Place × Term α)}
    (same : ∀ base ∈ (Instruction.stage op stores).bases, symbols base = other base) :
    stageText symbols indent op stores = stageText other indent op stores := by
  have named {position : Nat} (inside : position < stores.length) :
      ∀ base ∈ stores[position].1.base :: stores[position].2.places.map Place.base,
        symbols base = other base :=
    fun base mem => same base (List.mem_flatMap.2 ⟨_, List.getElem_mem inside, mem⟩)
  dsimp only [stageText]
  congr 3
  · -- the values that are computed first
    refine congrArg _ (congrArg _ (List.mapIdx_eq_mapIdx_iff.2 fun position inside => ?_))
    have known := named inside
    generalize stores[position] = store at known
    simp only [Term.text_congr fun place mem =>
      known _ (List.mem_cons_of_mem _ (List.mem_map_of_mem mem))]
  · -- the stores behind them
    refine congrArg _ (List.mapIdx_eq_mapIdx_iff.2 fun position inside => ?_)
    have known := named inside
    generalize stores[position] = store at known
    simp only [Place.text_congr (known _ List.mem_cons_self)]

omit [Scalar α] in
theorem callText_congr {moduleName : String} {callee : Callee} {operands : List Operand}
    {status : Option Place}
    (same : ∀ base ∈ (Instruction.call callee operands status : Instruction α).bases,
      symbols base = other base) :
    callText moduleName symbols callee operands status =
      callText moduleName other callee operands status := by
  have passed : operands.map (Operand.text symbols) = operands.map (Operand.text other) := by
    refine List.map_congr_left fun operand mem => Operand.text_congr fun place isPlace => ?_
    refine same _ (List.mem_map_of_mem (List.mem_append_left _ ?_))
    exact List.mem_filterMap.2 ⟨operand, mem, isPlace⟩
  cases status with
  | none => simp only [callText, passed]
  | some place =>
      have returned : place.text symbols = place.text other := by
        refine Place.text_congr (same _ (List.mem_map_of_mem (List.mem_append_right _ ?_)))
        exact List.mem_singleton_self place
      simp only [callText, passed, returned]

mutual

theorem lines_congr (moduleName indent : String) : (instruction : Instruction α) →
    (∀ base ∈ instruction.bases, symbols base = other base) →
    lines moduleName symbols indent instruction = lines moduleName other indent instruction
  | .store target op value isWhole, same => by
      have stored : storedText symbols isWhole value = storedText other isWhole value :=
        storedText_congr fun place mem =>
          same _ (List.mem_cons_of_mem _ (List.mem_map_of_mem mem))
      rw [lines, lines, stored, Place.text_congr (same _ List.mem_cons_self)]
  | .stage op stores, same => by
      rw [lines, lines, stageText_congr same]
  | .clear id, same => by
      rw [lines, lines, same _ (List.mem_singleton_self _)]
  | .loop name start stop body, same => by
      rw [lines, lines, linesOf_congr moduleName (indent ++ "    ") body same]
  | .call callee operands status, same => by
      rw [lines, lines, callText_congr same]
  | .comment _, _ => rfl

/-- The text of instructions depends on the names of the arrays that they name. -/
theorem linesOf_congr (moduleName indent : String) : (instructions : List (Instruction α)) →
    (∀ base ∈ basesOf instructions, symbols base = other base) →
    linesOf moduleName symbols indent instructions = linesOf moduleName other indent instructions
  | [], _ => rfl
  | first :: rest, same => by
      rw [linesOf, linesOf,
        lines_congr moduleName indent first fun base mem => same base (List.mem_append_left _ mem),
        linesOf_congr moduleName indent rest fun base mem =>
          same base (List.mem_append_right _ mem)]

end

end Instruction

end Texts

/-! ## What code names is named by a statement -/

section Named

variable {α : Type} {table : ArrayTable α} {id : Nat} {decl : ArrayDecl α}

theorem ArrayTable.constant?_eq (found : table.get? id = some decl)
    (constant : decl.storage = .constant) {window : Window} (base : window.base = .global id) :
    table.constant? window = some (id, decl) := by
  simp only [constant?, base, found, constant, if_true]

theorem ArrayTable.mem_named (found : table.get? id = some decl)
    (constant : decl.storage = .constant) {window : Window} (base : window.base = .global id) :
    id ∈ table.named window := by
  rw [named, constant?_eq found constant base]
  exact List.mem_singleton_self id

/-- A read of a constant array either names it or has a fixed position in an array with
given content. -/
theorem ArrayTable.mem_namedByRead (found : table.get? id = some decl)
    (constant : decl.storage = .constant) {window : Window} (base : window.base = .global id) :
    id ∈ table.namedByRead window ↔ ¬(decl.given.isSome = true ∧ window.offset.isConst = true) := by
  rw [namedByRead, constant?_eq found constant base]
  simp only [Bool.and_eq_true]
  split
  · rename_i folds
    simp [folds]
  · rename_i stays
    simp [stays]

namespace Scope

variable {scope : Scope α}

theorem content?_eq (found : scope.table.get? id = some decl)
    (constant : decl.storage = .constant) : scope.content? (.global id) = decl.given := by
  simp only [content?, found, constant, if_true]

variable [Scalar α]

/-- The term of an element that is still read names an array only if the read does. -/
theorem named_of_read (found : scope.table.get? id = some decl)
    (constant : decl.storage = .constant) {window : Window} {row col : Nat} {place : Place}
    (mem : place ∈ (scope.read window row col).places) (base : place.base = .global id) :
    id ∈ scope.table.namedByRead window := by
  have inWindow : window.base = .global id := by
    rw [mem_places_read mem] at base
    exact base
  rw [ArrayTable.mem_namedByRead found constant inWindow]
  rintro ⟨given, fixed⟩
  obtain ⟨content, given⟩ := Option.isSome_iff_exists.1 given
  have index : (window.place row col).index.isConst = true := fixed
  simp only [read, inWindow, content?_eq found constant, given, index] at mem
  cases mem

theorem named_of_element (found : scope.table.get? id = some decl)
    (constant : decl.storage = .constant) {value : Expr α} {row col : Nat} {place : Place}
    (mem : place ∈ (scope.element value row col).places) (base : place.base = .global id) :
    id ∈ value.windows.flatMap scope.table.namedByRead := by
  obtain ⟨window, i, j, listed, isRead⟩ := exists_read_of_mem_places mem
  exact List.mem_flatMap.2
    ⟨window, Expr.mem_windows_of_readsAt listed, named_of_read found constant isRead base⟩

/-- The stores of an assignment name what the assignment names. -/
theorem named_of_stores (found : scope.table.get? id = some decl)
    (constant : decl.storage = .constant) {target : Window} {op : AssignOp} {value : Expr α}
    {store : Place × Term α} (listed : store ∈ scope.stores target value)
    (mem : .global id ∈ store.1.base :: store.2.places.map Place.base) :
    id ∈ (Statement.assign target op value).namedConstants scope.table := by
  obtain ⟨element, _, rfl⟩ := List.mem_map.1 listed
  rcases List.mem_cons.1 mem with isTarget | isRead
  · exact List.mem_append_left _ (ArrayTable.mem_named found constant isTarget.symm)
  · obtain ⟨place, mem, base⟩ := List.mem_map.1 isRead
    exact List.mem_append_right _ (named_of_element found constant mem base)

theorem named_of_assign (found : scope.table.get? id = some decl)
    (constant : decl.storage = .constant) {target : Window} {op : AssignOp} {value : Expr α}
    (mem : .global id ∈ Instruction.basesOf (scope.assign target op value)) :
    id ∈ (Statement.assign target op value).namedConstants scope.table := by
  rw [Instruction.basesOf_eq] at mem
  obtain ⟨instruction, listed, mem⟩ := List.mem_flatMap.1 mem
  simp only [assign] at listed
  split at listed
  · obtain rfl := List.mem_singleton.1 listed
    obtain ⟨store, inStores, mem⟩ := List.mem_flatMap.1 mem
    exact named_of_stores found constant inStores mem
  · obtain ⟨store, kept, rfl⟩ := List.mem_map.1 listed
    exact named_of_stores found constant (List.mem_filter.1 kept).1 mem

omit [Scalar α] in
theorem named_of_call (found : scope.table.get? id = some decl)
    (constant : decl.storage = .constant) {callee : Callee} {arguments : List Argument}
    {status : Option Window}
    (mem : .global id ∈ (Instruction.call callee (arguments.map operand)
      (status.map fun window => window.place 0 0) : Instruction α).bases) :
    id ∈ (Statement.call callee arguments status).namedConstants scope.table := by
  obtain ⟨place, listed, base⟩ := List.mem_map.1 mem
  rcases List.mem_append.1 listed with passed | returned
  · obtain ⟨_, inOperands, isPlace⟩ := List.mem_filterMap.1 passed
    obtain ⟨argument, inArguments, rfl⟩ := List.mem_map.1 inOperands
    cases argument with
    | index _ => cases isPlace
    | reference window =>
        cases isPlace
        refine List.mem_append_left _ (List.mem_flatMap.2 ⟨window, ?_, ?_⟩)
        · exact List.mem_filterMap.2 ⟨_, inArguments, rfl⟩
        · exact ArrayTable.mem_named found constant base
  · obtain ⟨window, isStatus, rfl⟩ := Option.map_eq_some_iff.1 (Option.mem_toList.1 returned)
    refine List.mem_append_right _ (List.mem_flatMap.2 ⟨window, ?_, ?_⟩)
    · exact Option.mem_toList.2 isStatus
    · exact ArrayTable.mem_named found constant base

mutual

theorem named_of_lower (found : scope.table.get? id = some decl)
    (constant : decl.storage = .constant) : (statement : Statement α) →
    .global id ∈ Instruction.basesOf (scope.lower statement) →
    id ∈ statement.namedConstants scope.table
  | .assign _ _ _, mem => named_of_assign found constant mem
  | .clear cleared, mem => by
      rw [lower, Instruction.basesOf, Instruction.basesOf, List.append_nil] at mem
      obtain rfl := Base.global.inj (List.mem_singleton.1 mem)
      simp [Statement.namedConstants, ArrayTable.namedByClear, found, constant]
  | .loop name start stop body, mem => by
      rw [lower] at mem
      split at mem
      · cases mem
      · rw [Instruction.basesOf, Instruction.basesOf, List.append_nil] at mem
        exact named_of_lowerAll found constant body mem
  | .call _ _ _, mem => by
      rw [lower, Instruction.basesOf, Instruction.basesOf, List.append_nil] at mem
      exact named_of_call found constant mem
  | .comment _, mem => by
      rw [lower, Instruction.basesOf, Instruction.basesOf, List.append_nil] at mem
      cases mem

/-- Whatever constant array the code of statements names, one of the statements names. -/
theorem named_of_lowerAll (found : scope.table.get? id = some decl)
    (constant : decl.storage = .constant) : (statements : List (Statement α)) →
    .global id ∈ Instruction.basesOf (scope.lowerAll statements) →
    id ∈ Statement.namedConstantsOf scope.table statements
  | [], mem => by cases mem
  | statement :: rest, mem => by
      rw [lowerAll, Instruction.basesOf_eq, List.flatMap_append, ← Instruction.basesOf_eq,
        ← Instruction.basesOf_eq] at mem
      rcases List.mem_append.1 mem with here | later
      · exact List.mem_append_left _ (named_of_lower found constant statement here)
      · exact List.mem_append_right _ (named_of_lowerAll found constant rest later)

end

end Scope

mutual

theorem Statement.named_of_target (found : table.get? id = some decl)
    (constant : decl.storage = .constant) : (statement : Statement α) →
    .global id ∈ statement.targets → id ∈ statement.namedConstants table
  | .assign _ _ _, mem =>
      List.mem_append_left _
        (ArrayTable.mem_named found constant (List.mem_singleton.1 mem).symm)
  | .clear cleared, mem => by
      obtain rfl := Base.global.inj (List.mem_singleton.1 mem)
      simp [namedConstants, ArrayTable.namedByClear, found, constant]
  | .loop _ _ _ body, mem => named_of_targetsOf found constant body mem
  | .call _ _ _, mem => by
      obtain ⟨window, listed, base⟩ := List.mem_map.1 mem
      rw [namedConstants, ← List.flatMap_append]
      exact List.mem_flatMap.2 ⟨window, listed, ArrayTable.mem_named found constant base⟩
  | .comment _, mem => by cases mem

/-- Whatever constant array statements may write to, one of them names. -/
theorem Statement.named_of_targetsOf (found : table.get? id = some decl)
    (constant : decl.storage = .constant) : (statements : List (Statement α)) →
    .global id ∈ targetsOf statements → id ∈ namedConstantsOf table statements
  | [], mem => by cases mem
  | statement :: rest, mem =>
      (List.mem_append.1 mem).elim
        (fun here => List.mem_append_left _ (named_of_target found constant statement here))
        fun later => List.mem_append_right _ (named_of_targetsOf found constant rest later)

end

end Named

end RtiAssembly
