import RtiAssembly.Proofs.Emission.FileScope
import RtiAssembly.Proofs.Emission.NamedArrays
import RtiAssembly.Proofs.Machine.Untouched
import RtiAssembly.Proofs.Number.Laws

/-!
# Constants that the code names

The source file defines a constant array only if some statement names it, and that is
decided before statements become code.  Everything that the code names is defined, and
what is not defined stands in the code as numbers.
-/

namespace RtiAssembly

/-! ## Definitions in the source file -/

/-- The entries of a matrix, row by row. -/
theorem Matrix.toList_ofFn_entry {α : Type} [Scalar α] (matrix : Matrix α) :
    (Matrix.ofFn matrix.rows matrix.cols matrix.entry).entries.toList = matrix.toRows.flatten := by
  have positions : matrix.toRows.flatten =
      (Window.positions matrix.rows matrix.cols).map fun position =>
        matrix.entry position.1 position.2 := by
    unfold Window.positions toRows
    split
    · rename_i none
      simp [none]
    · simp [List.flatMap_def, List.map_flatten, Function.comp_def]
  rw [positions, Window.positions_eq_map, List.map_map, ofFn, Array.toList_ofFn]
  exact List.ofFn_eq_map.trans (by simp [← List.map_coe_finRange_eq_range, Function.comp_def])

/-- A constant array starts with the given entries, row by row. -/
theorem ArrayDecl.toList_initial {α : Type} [Scalar α] {decl : ArrayDecl α} {content : Matrix α}
    (given : decl.given = some content) (agrees : decl.Agrees) :
    decl.initial.toList = content.toRows.flatten := by
  obtain ⟨rows_eq, cols_eq⟩ := Prod.ext_iff.1 (agrees content given)
  have rows_eq : content.rows = decl.rows := rows_eq
  have cols_eq : content.cols = decl.cols := cols_eq
  simp only [initial, given]
  rw [← rows_eq, ← cols_eq, Matrix.toList_ofFn_entry]

namespace Emission

variable {α : Type} {program : Program α} {id : Nat} {decl : ArrayDecl α}

/-- A constant array is defined exactly if a statement of a routine names it. -/
theorem mem_definedConstants :
    decl ∈ definedConstants program ↔
      ∃ id, program.table.get? id = some decl ∧ decl.storage = .constant ∧
        ∃ routine ∈ program.routines,
          id ∈ Statement.namedConstantsOf program.table routine.body := by
  simp [definedConstants, ArrayTable.mem_ofClass, and_assoc]

/-- The text of the source file in front of the constants. -/
def opening (program : Program α) (headerName provenance : String) : String :=
  banner provenance ++ "#include \"" ++ headerName ++ "\"\n\n" ++
    "#include <math.h>\n#include <string.h>\n\n" ++
    structureName program .variable ++ " " ++ instanceName program .variable ++ ";\n" ++
    structureName program .workspace ++ " " ++ instanceName program .workspace ++ ";\n\n"

/-- The definition of a constant array with given values. -/
def definition [Scalar α] (program : Program α) (decl : ArrayDecl α) (values : List α) : String :=
  "static const real_t " ++ constantName program decl ++ "[" ++ storedSize decl ++ "] = \x7b " ++
    ", ".intercalate (values.map (Scalar.text .literal)) ++ " \x7d;\n"

/-- The source file defines a constant array once, with given values, before the
functions of all routines. -/
def DefinesOnce [Scalar α] (program : Program α) (decl : ArrayDecl α) (values : List α) : Prop :=
  ∃ first rest, definedConstants program = first ++ decl :: rest ∧
    (∀ other ∈ first ++ rest, constantName program other ≠ constantName program decl) ∧
    ∀ headerName provenance, source program headerName provenance =
      opening program headerName provenance ++ String.join (first.map (constantLine program)) ++
        definition program decl values ++ String.join (rest.map (constantLine program)) ++ "\n" ++
        String.join (program.routines.map (function program))

/-- Names of arrays are unique. -/
theorem nodup_names {uses : Bool} (unique : (program.certify uses).uniqueDeclarations = true) :
    (program.table.arrays.map ArrayDecl.name).Nodup := by
  have names : program.hasUniqueNames = true := unique
  rw [Program.hasUniqueNames, Bool.and_eq_true] at names
  exact (Program.areDistinct_eq_true_iff _).1 names.1

theorem constantName_inj {other : ArrayDecl α} :
    constantName program other = constantName program decl ↔ other.name = decl.name :=
  String.append_right_inj _

/-- A member of a memory structure is called otherwise than a constant. -/
theorem member_ne_constantName {word name : String} {initial : Char} {rest : List Char}
    (starts : word.toList = initial :: rest) (apart : initial ≠ '_') :
    program.moduleName ++ word ++ "." ++ name ≠ constantName program decl := by
  intro same
  simp only [constantName, String.append_assoc, String.append_right_inj] at same
  have lists := congrArg String.toList same
  simp only [String.toList_append, starts, List.cons_append] at lists
  exact apart (List.cons.inj lists).1

/-- Of the arrays of the module, only the constant array itself is called by its name. -/
theorem eq_of_globalName (names : (program.table.arrays.map ArrayDecl.name).Nodup)
    (found : program.table.get? id = some decl) {other : Nat}
    (same : globalName program other = constantName program decl) : other = id := by
  have called {array : ArrayDecl α} (here : program.table.get? other = some array)
      (named : constantName program array = constantName program decl) : other = id := by
    have listed : program.table.arrays[other]? = some array := here
    have own : program.table.arrays[id]? = some decl := found
    have inside := (List.getElem?_eq_some_iff.1 listed).1
    refine (List.getElem?_inj (by rwa [List.length_map]) names).1 ?_
    rw [List.getElem?_map, List.getElem?_map, listed, own, Option.map_some, Option.map_some,
      constantName_inj.1 named]
  unfold globalName at same
  split at same
  · have lengths : 0 = (program.moduleName ++ "_" ++ decl.name).length :=
      congrArg String.length same
    rw [String.length_append, String.length_append] at lengths
    have underscore : "_".length = 1 := rfl
    omega
  · rename_i array here
    split at same
    · exact absurd same (member_ne_constantName (by rfl : "Vars".toList = 'V' :: _) (by decide))
    · exact absurd same (member_ne_constantName (by rfl : "Work".toList = 'W' :: _) (by decide))
    · exact called here same
    · exact called here same

/-- Where the code of a routine calls an array by the name of a constant array, a statement
names the constant array. -/
theorem named_of_instruction [Scalar α] (names : (program.table.arrays.map ArrayDecl.name).Nodup)
    (found : program.table.get? id = some decl) (constant : decl.storage = .constant)
    {routine : Routine α} {instruction : Instruction α}
    (emitted : instruction ∈ instructions program routine) {other : Nat}
    (mem : .global other ∈ instruction.bases)
    (same : globalName program other = constantName program decl) :
    id ∈ Statement.namedConstantsOf program.table routine.body := by
  obtain rfl := eq_of_globalName names found same
  refine @Scope.named_of_lowerAll α _ _ ⟨program.table, routine.locals⟩ _ found constant _ ?_
  rw [Instruction.basesOf_eq]
  exact List.mem_flatMap.2 ⟨instruction, emitted, mem⟩

/-- The definition of a constant array lists the given entries, row by row. -/
theorem constantLine_eq [Scalar α] {content : Matrix α} (given : decl.given = some content)
    (agrees : decl.Agrees) :
    constantLine program decl = definition program decl content.toRows.flatten := by
  have values := ArrayDecl.toList_initial given agrees
  unfold constantLine
  rw [values]
  rfl

/-- A constant array that some statement names is defined once. -/
theorem definesOnce_of_named [Scalar α] (names : (program.table.arrays.map ArrayDecl.name).Nodup)
    {content : Matrix α} (given : decl.given = some content) (agrees : decl.Agrees)
    (defined : decl ∈ definedConstants program) :
    DefinesOnce program decl content.toRows.flatten := by
  obtain ⟨first, rest, split⟩ := List.append_of_mem defined
  refine ⟨first, rest, split, fun other mem same => ?_, fun headerName provenance => ?_⟩
  · have distinct := ((definedConstants_sublist program).map ArrayDecl.name).nodup names
    rw [split, List.map_append, List.map_cons, List.nodup_middle, List.nodup_cons,
      ← List.map_append] at distinct
    exact distinct.1 (List.mem_map.2 ⟨other, mem, constantName_inj.1 same⟩)
  · have some_line : (definedConstants program).isEmpty = false := by
      rw [split]
      cases first <;> rfl
    have lines : String.join ((definedConstants program).map (constantLine program)) =
        String.join (first.map (constantLine program)) ++
          definition program decl content.toRows.flatten ++
            String.join (rest.map (constantLine program)) := by
      rw [split, List.map_append, List.map_cons, constantLine_eq given agrees, String.join_append,
        String.join_cons, String.append_assoc]
    rw [source, lines, some_line, if_neg Bool.false_ne_true, opening]
    simp only [String.append_assoc]

end Emission

/-! ## Statements that code is written for -/

namespace Statement

variable {α : Type} {statement : Statement α} {statements : List (Statement α)}

/-- A statement that code is written for: it stands among others, directly or in the body of
a loop that has iterations. -/
inductive IsWritten (statement : Statement α) : List (Statement α) → Prop
  | here {statements : List (Statement α)} (mem : statement ∈ statements) :
      IsWritten statement statements
  | inLoop {statements body : List (Statement α)} {name : String} {start stop : Nat}
      (mem : .loop name start stop body ∈ statements) (iterates : start < stop)
      (isWritten : IsWritten statement body) : IsWritten statement statements

theorem namedConstants_subset {table : ArrayTable α} (mem : statement ∈ statements) :
    statement.namedConstants table ⊆ namedConstantsOf table statements := by
  induction statements with
  | nil => cases mem
  | cons first rest ih =>
      rw [namedConstantsOf]
      rcases List.mem_cons.1 mem with rfl | later
      · exact List.subset_append_left _ _
      · exact List.subset_append_of_subset_right _ (ih later)

theorem IsWritten.namedConstants_subset {table : ArrayTable α}
    (isWritten : statement.IsWritten statements) :
    statement.namedConstants table ⊆ namedConstantsOf table statements := by
  induction isWritten with
  | here mem => exact Statement.namedConstants_subset mem
  | inLoop mem _ _ ih => exact List.Subset.trans ih (Statement.namedConstants_subset mem)

/-- Where all statements fit, a statement that code is written for does so too. -/
theorem IsWritten.fits {program : Program α} {routine : Routine α}
    (isWritten : statement.IsWritten statements) {extremes : Program.Extremes}
    (fitting : program.fitsStatements routine extremes statements = true) :
    ∃ inner, program.fitsStatement routine inner statement = true := by
  induction isWritten generalizing extremes with
  | here mem => exact ⟨extremes, Program.fitsStatements_eq_true_iff.1 fitting _ mem⟩
  | inLoop mem iterates _ ih =>
      have inBody := Program.fitsStatements_eq_true_iff.1 fitting _ mem
      rw [Program.fitsStatement, Bool.or_eq_true, decide_eq_true_eq] at inBody
      exact ih (inBody.resolve_left (Nat.not_le.2 iterates))

end Statement

/-! ## Elements that stand in the code as numbers -/

section Folding

variable {α : Type} [Scalar α] {program : Program α} {id : Nat} {decl : ArrayDecl α}
  {content : Matrix α}

/-- Where the array of a window holds what a constant array was declared with, the evaluator
reads an entry of the given content through a window at a fixed position. -/
theorem Frame.entry_view_of_fixed {frame : Frame} {store : Store α program.table.sizes}
    (given : decl.given = some content) (agrees : decl.Agrees)
    (holds : store.content (.global id) = decl.initial) {window : Window}
    (base : window.base = .global id) (fixed : window.offset.isConst = true)
    (room : window.offset.constant + window.extent ≤ decl.size) {offset : Nat}
    (bound : frame.index window.offset = .ok offset) {row col : Nat}
    (row_lt : row < window.shape.1) (col_lt : col < window.shape.2) :
    frame.check store window = .ok () ∧
      (frame.view store window).entry row col =
        content.entry ((window.place row col).index.constant / content.cols)
          ((window.place row col).index.constant % content.cols) := by
  have index : (window.offset.evalIn? fun name => frame.scope.lookup name) = some offset := by
    unfold Frame.index at bound
    split at bound
    · rename_i value known
      cases bound
      exact known
    · contradiction
  obtain rfl := evalIn?_of_isConst fixed index
  have origin : frame.origin? window.base = some ⟨.global id, 0⟩ := by rw [base]; rfl
  have size_eq : (store.content (.global id)).size = decl.size := by
    rw [holds, ArrayDecl.size_initial]
  have sees : frame.Sees store window :=
    ⟨_, _, origin, index, by rw [size_eq, Nat.zero_add]; exact room⟩
  have inside := Window.position_lt row_lt col_lt
  have located := locate_eq_ok sees inside
  rw [startOf_eq origin index] at located
  refine ⟨check_eq_ok sees, ?_⟩
  rw [entry_view row_lt col_lt located]
  have read_eq : store.read (((⟨.global id, 0⟩ : Cell).plus window.offset.constant).plus
      (window.position row col)) =
    decl.initial.getD (window.offset.constant + window.position row col) 0 := by
    rw [← holds, ← Nat.zero_add (window.offset.constant + _), ← Nat.add_assoc]
    rfl
  rw [read_eq]
  exact ArrayDecl.getD_initial given agrees (by omega)

/-- Every read of an array of the module that code is written for is a number in the code:
what the evaluator reads there, whenever the array holds a given content. -/
def Emission.FoldsReads (program : Program α) (id : Nat) (held : Array α) : Prop :=
  ∀ routine ∈ program.routines, ∀ target op value,
    (Statement.assign target op value).IsWritten routine.body →
    ∀ window ∈ value.windows, window.base = .global id →
    ∀ row < window.shape.1, ∀ col < window.shape.2,
      ∃ number, (Scope.mk program.table routine.locals).read window row col = .number number ∧
        ∀ (frame : Frame) (store : Store α program.table.sizes) (offset : Nat),
          store.content (.global id) = held → frame.index window.offset = .ok offset →
            frame.check store window = .ok () ∧ (frame.view store window).entry row col = number

/-- No code depends on what an array of the module is called. -/
def Emission.IsUnnamed (program : Program α) (id : Nat) : Prop :=
  ∀ routine ∈ program.routines, ∀ other : Symbols,
    (∀ base, base ≠ .global id → other base = symbols program routine base) →
    Instruction.text program.moduleName other "    " (instructions program routine) =
      Instruction.text program.moduleName (symbols program routine) "    "
        (instructions program routine)

/-- No run changes an array of the module, unless the host does. -/
def Program.NeverChanges (program : Program α) (id : Nat) : Prop :=
  ∀ (σ : Type) (host : Host α σ program.table.sizes),
    (∀ function passed memory state,
      (host function passed memory state).memory.content id = memory.content id) →
    ∀ state memory name arguments,
      (program.run host state memory name arguments).memory.content id = memory.content id

/-- Reads that name no array are numbers in the code. -/
theorem Emission.foldsReads_of_unnamed {uses : Bool}
    (inBounds : (program.certify uses).windowsInBounds = true)
    (found : program.table.get? id = some decl) (constant : decl.storage = .constant)
    (given : decl.given = some content) (agrees : decl.Agrees)
    (unnamed : ∀ routine ∈ program.routines,
      id ∉ Statement.namedConstantsOf program.table routine.body) :
    FoldsReads program id decl.initial := by
  intro routine mem target op value isWritten window listed base row row_lt col col_lt
  have notNamed : id ∉ program.table.namedByRead window := fun named =>
    unnamed routine mem (isWritten.namedConstants_subset
      (List.mem_append_right _ (List.mem_flatMap.2 ⟨window, listed, named⟩)))
  rw [ArrayTable.mem_namedByRead found constant base, not_not] at notNamed
  have fixed := notNamed.2
  have room : window.offset.constant + window.extent ≤ decl.size := by
    have fitsRoutine := Program.fitsRoutine_of_inBounds inBounds routine mem
    obtain ⟨extremes, fitting⟩ := isWritten.fits fitsRoutine
    rw [Program.fitsStatement, Bool.and_eq_true, List.all_eq_true] at fitting
    have inArray := fitting.2 window listed
    rw [Program.fits, base, Program.baseSize?, found, Option.map_some] at inArray
    split at inArray
    · rename_i size offset sized index
      cases sized
      obtain rfl := Frame.evalIn?_of_isConst fixed index
      exact of_decide_eq_true inArray
    · contradiction
  have index : (window.place row col).index.isConst = true := fixed
  have known : (Scope.mk program.table routine.locals).content? window.base = some content := by
    rw [base, ← given]
    exact @Scope.content?_eq α id decl ⟨program.table, routine.locals⟩ found constant
  refine ⟨content.entry ((window.place row col).index.constant / content.cols)
    ((window.place row col).index.constant % content.cols), ?_, ?_⟩
  · simp only [Scope.read, known, index]
  · intro frame store offset holds bound
    exact Frame.entry_view_of_fixed given agrees holds base fixed room bound row_lt col_lt

theorem Emission.isUnnamed_of_unnamed (found : program.table.get? id = some decl)
    (constant : decl.storage = .constant)
    (unnamed : ∀ routine ∈ program.routines,
      id ∉ Statement.namedConstantsOf program.table routine.body) : IsUnnamed program id := by
  intro routine mem other same
  refine congrArg String.join (Instruction.linesOf_congr _ _ _ fun base named => same base ?_)
  rintro rfl
  exact unnamed routine mem
    (@Scope.named_of_lowerAll α _ _ ⟨program.table, routine.locals⟩ _ found constant _ named)

theorem Program.neverChanges_of_unnamed (found : program.table.get? id = some decl)
    (constant : decl.storage = .constant)
    (unnamed : ∀ routine ∈ program.routines,
      id ∉ Statement.namedConstantsOf program.table routine.body) : program.NeverChanges id := by
  intro σ host content state memory name arguments
  have respects := Host.respects_of_content content
  have known {name : String} {routine : Routine α}
      (isKnown : program.routine? name = some routine) : routine ∈ program.routines :=
    List.mem_of_find?_eq_some isKnown
  have untargeted : ∀ routine ∈ program.routines, ∀ other, Buffer.global id = .global other →
      Base.global other ∉ Statement.targetsOf routine.body := by
    intro routine mem other same target
    obtain rfl := Buffer.global.inj same
    exact unnamed routine mem (Statement.named_of_targetsOf found constant _ target)
  refine (run_of_leavesAlone respects (fun routine isKnown bindings elsewhere => ?_) state memory
    arguments).1
  exact leavesAlone_enter_of_untargeted respects
    (fun _ _ _ _ _ _ callee isCallee => known isCallee) untargeted (known isKnown) elsewhere

end Folding

/-- Everything that the code names is defined.  If code calls an array by the name of a
constant array with given content, the source file defines the constant array once, before
all functions, with its entries row by row.  If the source file does not define it, no code
depends on its name, every read of it has become the number that the evaluator reads there,
and no run changes it. -/
theorem constants_defined_or_folded {α : Type} [Scalar α] {program : Program α} {uses : Bool}
    (unique : (program.certify uses).uniqueDeclarations = true)
    (inBounds : (program.certify uses).windowsInBounds = true)
    {id : Nat} {decl : ArrayDecl α} {content : Matrix α}
    (found : program.table.get? id = some decl) (constant : decl.storage = .constant)
    (given : decl.given = some content) (shape_eq : content.shape = (decl.rows, decl.cols)) :
    (∀ routine ∈ program.routines, ∀ instruction ∈ Emission.instructions program routine,
      ∀ other, .global other ∈ instruction.bases →
        Emission.globalName program other = Emission.constantName program decl →
        Emission.DefinesOnce program decl content.toRows.flatten ∧
          content.toRows.flatten.length = decl.rows * decl.cols) ∧
      (Emission.constantName program decl ∉
          (Emission.definedConstants program).map (Emission.constantName program) →
        Emission.IsUnnamed program id ∧ Emission.FoldsReads program id decl.initial ∧
          program.NeverChanges id) := by
  have agrees : decl.Agrees := by
    intro other isGiven
    obtain rfl := Option.some.inj (given.symm.trans isGiven)
    exact shape_eq
  have names := Emission.nodup_names unique
  have defined {routine : Routine α} (mem : routine ∈ program.routines)
      (named : id ∈ Statement.namedConstantsOf program.table routine.body) :
      decl ∈ Emission.definedConstants program :=
    Emission.mem_definedConstants.2 ⟨id, found, constant, routine, mem, named⟩
  constructor
  · intro routine mem instruction emitted other listed called
    have named := Emission.named_of_instruction names found constant emitted listed called
    refine ⟨Emission.definesOnce_of_named names given agrees (defined mem named), ?_⟩
    rw [← ArrayDecl.toList_initial given agrees, Array.length_toList, ArrayDecl.size_initial]
    rfl
  · intro undefined
    have unnamed : ∀ routine ∈ program.routines,
        id ∉ Statement.namedConstantsOf program.table routine.body :=
      fun routine mem named => undefined (List.mem_map_of_mem (defined mem named))
    exact ⟨Emission.isUnnamed_of_unnamed found constant unnamed,
      Emission.foldsReads_of_unnamed inBounds found constant given agrees unnamed,
      Program.neverChanges_of_unnamed found constant unnamed⟩

/-! ## A table that is read at an index and one that is not -/

/-- A routine that fills an array from a table, one row after the other, and adds the fixed
elements of another table. -/
def Program.tabulating : Program ℚ where
  moduleName := "ocp"
  dims := ⟨1, 1, 1, 1, 1, 0⟩
  table :=
    ⟨[.ofContent "w" (.ofRows 2 2 [[1, 2], [3, 4]]) none,
      .ofContent "v" (.ofRows 1 2 [[5, 0]]) none, .real .variable "x" 2 1 ""]⟩
  externals := []
  routines :=
    [{ name := "fill"
       doc := none
       parameters := []
       locals := []
       result := none
       body :=
         [.loop "i" 0 2
            [.set (.dense (.global 2) (.var "i") 1 1)
              (.read (.dense (.global 0) ((AffineIndex.var "i").scaled 2) 1 1))],
          .increase (.dense (.global 2) (.const 0) 2 1)
            (.read (Window.dense (.global 1) (.const 0) 1 2).transpose)] }]
  numQpVars := 0
  rowCounts := []

/-- Only the table that is read at an index is defined; the other one stands in the code as
numbers. -/
theorem constants_defined_or_folded_tabulating :
    let program := Program.tabulating
    (Emission.definedConstants program).map ArrayDecl.name = ["w"] ∧
      Emission.DefinesOnce program program.table.arrays[0] [1, 2, 3, 4] ∧
      Emission.IsUnnamed program 1 ∧
      Emission.FoldsReads program 1 program.table.arrays[1].initial ∧ program.NeverChanges 1 := by
  intro program
  have unique : (program.certify false).uniqueDeclarations = true := by decide
  have inBounds : (program.certify false).windowsInBounds = true := by decide
  have defined : (Emission.definedConstants program).map ArrayDecl.name = ["w"] := by decide
  obtain ⟨onceNamed, _⟩ := @constants_defined_or_folded ℚ _ program false unique inBounds 0
    program.table.arrays[0] (.ofRows 2 2 [[1, 2], [3, 4]]) rfl rfl rfl rfl
  obtain ⟨_, onceUndefined⟩ := @constants_defined_or_folded ℚ _ program false unique inBounds 1
    program.table.arrays[1] (.ofRows 1 2 [[5, 0]]) rfl rfl rfl rfl
  have listed : program.routines[0] ∈ program.routines := List.getElem_mem _
  have named : ((Emission.instructions program program.routines[0]).any fun instruction =>
      instruction.bases.contains (.global 0)) = true := by
    decide +kernel
  obtain ⟨instruction, emitted, mem⟩ := List.any_eq_true.1 named
  obtain ⟨once, _⟩ := onceNamed _ listed instruction emitted 0 (List.contains_iff_mem.1 mem) rfl
  have absent : Emission.constantName program program.table.arrays[1] ∉
      (Emission.definedConstants program).map (Emission.constantName program) := by decide
  exact ⟨defined, once, onceUndefined absent⟩

end RtiAssembly
