import RtiAssembly.Proofs.Machine.Safety

/-!
# The window check is exact

The certificate looks at every window once, with each variable at its largest
value.  A routine passes exactly if every statement that it can reach stays in
bounds for all values of the variables around it: offsets grow with their
variables, and the largest values are themselves among those that occur.
-/

namespace RtiAssembly

variable {α : Type}

/-! ## Values of variables -/

/-- Values of the variables in scope, the innermost first.  A name stands for its
innermost value. -/
abbrev Valuation := List (String × Nat)

/-- The index parameters of a routine that can have a value, with their bounds,
the last one first. -/
def Routine.boundedIndices (routine : Routine α) : List (String × Nat) :=
  (routine.parameters.filterMap fun parameter =>
    match parameter.kind with
    | .index bound => if 0 < bound then some (parameter.name, bound) else none
    | .array _ _ => none).reverse

/-- Values with which a routine can be called: each below its bound. -/
def Routine.Admits (routine : Routine α) (valuation : Valuation) : Prop :=
  List.Forall₂ (fun entry bounded => entry.1 = bounded.1 ∧ entry.2 < bounded.2) valuation
    routine.boundedIndices

/-- The statements that are reached when some statements start with given values,
each with the values that the loops around it add. -/
inductive Statement.Reached : Valuation → List (Statement α) → Valuation → Statement α → Prop
  | here {valuation : Valuation} {statements : List (Statement α)} {statement : Statement α}
      (mem : statement ∈ statements) : Reached valuation statements valuation statement
  | inside {valuation inner : Valuation} {statements body : List (Statement α)} {name : String}
      {start stop value : Nat} {statement : Statement α}
      (mem : Statement.loop name start stop body ∈ statements) (start_le : start ≤ value)
      (value_lt : value < stop)
      (reached : Reached ((name, value) :: valuation) body inner statement) :
      Reached valuation statements inner statement

theorem Statement.Reached.mono {valuation inner : Valuation}
    {statements more : List (Statement α)} {statement : Statement α}
    (reached : Statement.Reached valuation statements inner statement)
    (subset : statements ⊆ more) : Statement.Reached valuation more inner statement := by
  cases reached with
  | here mem => exact .here (subset mem)
  | inside mem start_le value_lt within => exact .inside (subset mem) start_le value_lt within

/-! ## Staying in bounds -/

section Bounds

variable (program : Program α) (routine : Routine α) (valuation : Valuation)

/-- Whether a window has an array behind it, a bound offset, and room for all its
elements. -/
def Window.StaysInside (window : Window) : Prop :=
  ∃ size offset, program.baseSize? routine window.base = some size ∧
    (window.offset.evalIn? fun name => valuation.lookup name) = some offset ∧
    offset + window.extent ≤ size

/-- Whether an argument can be passed: a window that stays inside its array, or an
index whose variable is bound. -/
def Argument.IsInBounds : Argument → Prop
  | .reference window => window.StaysInside program routine valuation
  | .index passed => ∀ name ∈ passed.variableName?, ∃ value, valuation.lookup name = some value

/-- Whether the windows that a statement names itself stay inside their arrays, its
assignment keeps the shape, and its indices are bound.  A loop names none. -/
def Statement.IsInBounds : Statement α → Prop
  | .assign target _ value =>
      value.shape? = some target.shape ∧
        ∀ window ∈ target :: value.windows, window.StaysInside program routine valuation
  | .clear _ => True
  | .loop _ _ _ _ => True
  | .call _ arguments status =>
      (∀ argument ∈ arguments, argument.IsInBounds program routine valuation) ∧
        ∀ window ∈ status, window.size = 1 ∧ window.StaysInside program routine valuation
  | .comment _ => True

end Bounds

section Check

variable {program : Program α} {routine : Routine α} {extremes : Program.Extremes}

omit program routine in
theorem Program.Extremes.lookup_eq (extremes : Program.Extremes) (name : String) :
    Program.Extremes.lookup extremes name = List.lookup name extremes := by
  induction extremes with
  | nil => rfl
  | cons entry rest ih =>
      obtain ⟨variableName, largest⟩ := entry
      rw [Program.lookup_cons, List.lookup_cons, ih, Bool.beq_comm]
      cases name == variableName <;> rfl

omit program routine in
theorem Program.Extremes.lookup_eq_lookup :
    (fun name => List.lookup name extremes) = Program.Extremes.lookup extremes :=
  funext fun name => (Program.Extremes.lookup_eq extremes name).symm

/-- The check of a window is the condition for the values that it is given. -/
theorem Program.fits_iff {window : Window} :
    program.fits routine extremes window = true ↔
      window.StaysInside program routine extremes := by
  unfold Program.fits Window.StaysInside
  rw [Program.Extremes.lookup_eq_lookup]
  split
  · rename_i size offset sized index
    simp [sized, index]
  · rename_i absent
    refine ⟨fun holds => Bool.noConfusion holds, fun ⟨size, offset, sized, index, _⟩ => ?_⟩
    exact absurd index (absent size offset sized)

theorem Program.fitsArgument_iff {argument : Argument} :
    program.fitsArgument routine extremes argument = true ↔
      argument.IsInBounds program routine extremes := by
  cases argument with
  | reference window => exact Program.fits_iff
  | index index =>
      simp only [Program.fitsArgument, Argument.IsInBounds, Program.Extremes.lookup_eq]
      cases index.variableName? <;> simp [Option.isSome_iff_exists]

/-- Of a statement that passes the check, everything named outside of inner loops is
in bounds. -/
theorem Program.isInBounds_of_fits {statement : Statement α}
    (fitting : program.fitsStatement routine extremes statement = true) :
    statement.IsInBounds program routine extremes := by
  cases statement with
  | assign target op value =>
      simp only [Program.fitsStatement, Bool.and_eq_true, List.all_eq_true, beq_iff_eq,
        Program.fits_iff] at fitting
      obtain ⟨⟨shaped, inside⟩, reads⟩ := fitting
      exact ⟨shaped, List.forall_mem_cons.2 ⟨inside, reads⟩⟩
  | clear id => trivial
  | loop name start stop body => trivial
  | call callee arguments status =>
      simp only [Program.fitsStatement, Bool.and_eq_true, List.all_eq_true, Option.all_eq_true,
        beq_iff_eq, Program.fits_iff, Program.fitsArgument_iff] at fitting
      exact fitting
  | comment text => trivial

end Check

/-! ## All values against the largest ones -/

section Exactness

variable {program : Program α} {routine : Routine α}

/-- Values of the same variables that are at most as large. -/
def Valuation.Below (valuation larger : Valuation) : Prop :=
  List.Forall₂ (fun entry most => entry.1 = most.1 ∧ entry.2 ≤ most.2) valuation larger

variable {valuation larger : Valuation}

theorem Valuation.Below.exists_evalIn? (below : valuation.Below larger) {index : AffineIndex}
    {largest : Nat} (known : (index.evalIn? fun name => larger.lookup name) = some largest) :
    ∃ value, (index.evalIn? fun name => valuation.lookup name) = some value ∧
      value ≤ largest := by
  rw [Program.Extremes.lookup_eq_lookup] at known
  have within : Frame.Within ⟨"", [], 0, valuation⟩ larger := below
  exact within.exists_evalIn? known

theorem Window.StaysInside.mono {window : Window}
    (inside : window.StaysInside program routine larger) (below : valuation.Below larger) :
    window.StaysInside program routine valuation := by
  obtain ⟨size, largest, sized, index, room⟩ := inside
  obtain ⟨offset, offset_eq, offset_le⟩ := below.exists_evalIn? index
  exact ⟨size, offset, sized, offset_eq, by omega⟩

theorem Argument.IsInBounds.mono {argument : Argument}
    (inBounds : argument.IsInBounds program routine larger) (below : valuation.Below larger) :
    argument.IsInBounds program routine valuation := by
  cases argument with
  | reference window => exact Window.StaysInside.mono inBounds below
  | index passed =>
      intro name named
      obtain ⟨largest, found⟩ := inBounds name named
      rw [← Program.Extremes.lookup_eq] at found
      obtain ⟨value, lookup_eq, _⟩ := Frame.exists_lookup below found
      exact ⟨value, lookup_eq⟩

/-- What is in bounds for large values is so for smaller ones. -/
theorem Statement.IsInBounds.mono {statement : Statement α}
    (inBounds : statement.IsInBounds program routine larger) (below : valuation.Below larger) :
    statement.IsInBounds program routine valuation := by
  cases statement with
  | assign target op value =>
      exact ⟨inBounds.1, fun window mem => (inBounds.2 window mem).mono below⟩
  | clear id => trivial
  | loop name start stop body => trivial
  | call callee arguments status =>
      exact ⟨fun argument mem => (inBounds.1 argument mem).mono below,
        fun window mem => ⟨(inBounds.2 window mem).1, (inBounds.2 window mem).2.mono below⟩⟩
  | comment text => trivial

/-- The check misses nothing: what it accepts for the largest values stays in bounds
for all values. -/
theorem Program.isInBounds_of_reached {extremes : Program.Extremes} {inner : Valuation}
    {statements : List (Statement α)} {statement : Statement α}
    (reached : Statement.Reached valuation statements inner statement)
    (below : valuation.Below extremes)
    (fitting : program.fitsStatements routine extremes statements = true) :
    statement.IsInBounds program routine inner := by
  induction reached generalizing extremes with
  | here mem =>
      exact (isInBounds_of_fits (fitsStatements_eq_true_iff.1 fitting _ mem)).mono below
  | @inside _ _ _ body name start stop value _ mem start_le value_lt _ ih =>
      have loop_fits := fitsStatements_eq_true_iff.1 fitting _ mem
      simp only [fitsStatement, Bool.or_eq_true, decide_eq_true_eq] at loop_fits
      have body_fits := loop_fits.resolve_left (by omega)
      have value_le : value ≤ stop - 1 := by omega
      have entry_below : (name, value).1 = (name, stop - 1).1 ∧
          (name, value).2 ≤ (name, stop - 1).2 := ⟨rfl, value_le⟩
      exact ih (.cons entry_below below) body_fits

mutual

theorem Program.fitsStatement_of_reached {extremes : Program.Extremes} :
    (statement : Statement α) →
    (∀ inner other, Statement.Reached extremes [statement] inner other →
      other.IsInBounds program routine inner) →
    program.fitsStatement routine extremes statement = true
  | .assign target op value, holds => by
      obtain ⟨shaped, inside⟩ := holds _ _ (.here (List.mem_singleton_self _))
      obtain ⟨target_inside, reads⟩ := List.forall_mem_cons.1 inside
      simp only [fitsStatement, Bool.and_eq_true, List.all_eq_true, beq_iff_eq, fits_iff]
      exact ⟨⟨shaped, target_inside⟩, reads⟩
  | .clear _, _ => by rw [fitsStatement]
  | .loop name start stop body, holds => by
      simp only [fitsStatement, Bool.or_eq_true, decide_eq_true_eq]
      refine (Nat.lt_or_ge start stop).symm.imp id fun nonempty => ?_
      -- the last round of the loop gives its variable the largest value
      refine fitsStatements_of_reached body fun inner other reached => ?_
      have start_le : start ≤ stop - 1 := Nat.le_sub_one_of_lt nonempty
      have last_lt : stop - 1 < stop := Nat.sub_one_lt_of_lt nonempty
      exact holds inner other (.inside (List.mem_singleton_self _) start_le last_lt reached)
  | .call callee arguments status, holds => by
      have inBounds := holds _ _ (.here (List.mem_singleton_self _))
      simp only [fitsStatement, Bool.and_eq_true, List.all_eq_true, Option.all_eq_true,
        beq_iff_eq, fits_iff, fitsArgument_iff]
      exact inBounds
  | .comment _, _ => by rw [fitsStatement]

/-- The check invents nothing: it accepts statements of which everything reached with
the largest values stays in bounds. -/
theorem Program.fitsStatements_of_reached {extremes : Program.Extremes} :
    (statements : List (Statement α)) →
    (∀ inner other, Statement.Reached extremes statements inner other →
      other.IsInBounds program routine inner) →
    program.fitsStatements routine extremes statements = true
  | [], _ => by rw [fitsStatements]
  | statement :: rest, holds => by
      rw [fitsStatements, Bool.and_eq_true]
      refine ⟨fitsStatement_of_reached statement fun inner other reached => ?_,
        fitsStatements_of_reached rest fun inner other reached => ?_⟩
      · exact holds inner other (reached.mono (List.cons_subset_cons _ (List.nil_subset _)))
      · exact holds inner other (reached.mono (List.subset_cons_self _ _))

end

/-! ### Parameters -/

theorem Program.parameterExtremes_eq (routine : Routine α) :
    parameterExtremes routine =
      routine.boundedIndices.map fun bounded => (bounded.1, bounded.2 - 1) := by
  unfold parameterExtremes Routine.boundedIndices
  rw [List.map_reverse, List.map_filterMap]
  congr 2
  funext parameter
  cases parameter.kind with
  | array rows cols => rfl
  | index bound => by_cases positive : 0 < bound <;> simp [positive]

theorem Routine.bound_pos {bounded : String × Nat} (mem : bounded ∈ routine.boundedIndices) :
    0 < bounded.2 := by
  obtain ⟨parameter, _, made⟩ := List.mem_filterMap.1 (List.mem_reverse.1 mem)
  split at made
  · split at made
    · rename_i positive
      cases made
      exact positive
    · contradiction
  · contradiction

/-- Values that a routine admits are at most the largest ones. -/
theorem Routine.Admits.below (admits : routine.Admits valuation) :
    valuation.Below (Program.parameterExtremes routine) := by
  rw [Program.parameterExtremes_eq, Valuation.Below, List.forall₂_map_right_iff]
  exact admits.imp fun _ _ ⟨name_eq, value_lt⟩ => ⟨name_eq, Nat.le_sub_one_of_lt value_lt⟩

end Exactness

end RtiAssembly
