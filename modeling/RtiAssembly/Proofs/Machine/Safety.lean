import RtiAssembly.Proofs.Machine.Lookup
import RtiAssembly.Proofs.Program.Fitting

/-!
# Safe programs

A routine is safe if its windows fit, and if every call passes what the called
routine relies on: arrays of the declared size and indices below their bounds.
Safe routines never fault, and what they do is their effect.
-/

namespace RtiAssembly

namespace Frame

variable {α : Type} {program : Program α} {routine : Routine α} {extremes : Program.Extremes}
  {frame : Frame} {store : Store α program.table.sizes}

/-! ## Frames of fitting statements -/

/-- Every variable in scope has at most its largest value. -/
def Within (frame : Frame) (extremes : Program.Extremes) : Prop :=
  List.Forall₂ (fun entry extreme => entry.1 = extreme.1 ∧ entry.2 ≤ extreme.2) frame.scope
    extremes

theorem exists_lookup {scope : List (String × Nat)}
    (within : List.Forall₂ (fun entry extreme => entry.1 = extreme.1 ∧ entry.2 ≤ extreme.2) scope
      extremes)
    {name : String} {largest : Nat} (known : extremes.lookup name = some largest) :
    ∃ value, scope.lookup name = some value ∧ value ≤ largest := by
  induction within with
  | nil => contradiction
  | @cons entry extreme _ _ first _ ih =>
      obtain ⟨variableName, value⟩ := entry
      obtain ⟨_, most⟩ := extreme
      obtain ⟨rfl, value_le⟩ := first
      rw [Program.lookup_cons] at known
      by_cases same : variableName = name
      · subst same
        simp only [beq_self_eq_true, if_true, Option.some.injEq] at known
        subst known
        exact ⟨value, by simp, value_le⟩
      · have other : (name == variableName) = false := beq_false_of_ne (Ne.symm same)
        simp only [beq_iff_eq, same, if_false] at known
        obtain ⟨found, lookup_eq, found_le⟩ := ih known
        exact ⟨found, by simp [List.lookup_cons, other, lookup_eq], found_le⟩

/-- An index grows with its variable. -/
theorem Within.exists_evalIn? (within : frame.Within extremes) {index : AffineIndex}
    {largest : Nat} (known : index.evalIn? extremes.lookup = some largest) :
    ∃ value, (index.evalIn? fun name => frame.scope.lookup name) = some value ∧
      value ≤ largest := by
  rcases index with ⟨_ | ⟨name, coefficient⟩, constant⟩
  · cases known
    exact ⟨constant, rfl, Nat.le_refl _⟩
  · obtain ⟨most, found, rfl⟩ := Option.map_eq_some_iff.1 known
    obtain ⟨value, lookup_eq, value_le⟩ := exists_lookup within found
    refine ⟨coefficient * value + constant, by simp [AffineIndex.evalIn?, lookup_eq], ?_⟩
    exact Nat.add_le_add_right (Nat.mul_le_mul_left _ value_le) _

/-- A frame suits a routine if its variables stay in range and every array that
the routine refers to has its size. -/
structure Suits (program : Program α) (routine : Routine α) (extremes : Program.Extremes)
    (frame : Frame) (store : Store α program.table.sizes) : Prop where
  within : frame.Within extremes
  holds : ∀ base size, program.baseSize? routine base = some size →
    ∃ origin, frame.origin? base = some origin ∧
      origin.position + size ≤ (store.content origin.buffer).size

namespace Suits

theorem sees (suits : frame.Suits program routine extremes store) {window : Window}
    (fitting : program.fits routine extremes window = true) : frame.Sees store window := by
  unfold Program.fits at fitting
  split at fitting
  · rename_i size offset sized index
    obtain ⟨origin, base, room⟩ := suits.holds _ _ sized
    obtain ⟨value, value_eq, value_le⟩ := suits.within.exists_evalIn? index
    have inside := of_decide_eq_true fitting
    exact ⟨origin, value, base, value_eq, by omega⟩
  · contradiction

theorem of_alike (suits : frame.Suits program routine extremes store)
    {other : Store α program.table.sizes} (alike : store.Alike other) :
    frame.Suits program routine extremes other where
  within := suits.within
  holds base size sized := by
    obtain ⟨origin, base_eq, room⟩ := suits.holds base size sized
    exact ⟨origin, base_eq, by rwa [← alike.size_content]⟩

theorem bind (suits : frame.Suits program routine extremes store) {name : String}
    {value largest : Nat} (value_le : value ≤ largest) :
    (frame.bind name value).Suits program routine ((name, largest) :: extremes) store where
  within := .cons ⟨rfl, value_le⟩ suits.within
  holds base size sized := by
    obtain ⟨origin, base_eq, room⟩ := suits.holds base size sized
    refine ⟨origin, ?_, room⟩
    rw [← base_eq]
    cases base <;> rfl

end Suits

/-! ## Arguments -/

/-- Whether a parameter takes a binding: an array with all elements of the
parameter, or an index below its bound. -/
def Accepts (store : Store α program.table.sizes) (parameter : Parameter) (binding : Binding) :
    Prop :=
  match parameter.kind, binding with
  | .array rows cols, .array start =>
      start.position + rows * cols ≤ (store.content start.buffer).size
  | .index bound, .index value => value < bound
  | _, _ => False

/-- Whether an argument passes what a parameter takes, for all values in scope. -/
def Passes (extremes : Program.Extremes) (parameter : Parameter) (argument : Argument) : Prop :=
  match parameter.kind, argument with
  | .array rows cols, .reference window => rows * cols ≤ window.extent ∧ 0 < window.extent
  | .index bound, .index index =>
      ∃ value, index.evalIn? extremes.lookup = some value ∧ value < bound
  | _, _ => False

theorem startOf_eq {window : Window} {origin : Cell} {offset : Nat}
    (base : frame.origin? window.base = some origin)
    (index : (window.offset.evalIn? fun name => frame.scope.lookup name) = some offset) :
    frame.startOf window = origin.plus offset := by
  rw [startOf, base, valueOf, index]
  rfl

theorem accepts_bindingOf (suits : frame.Suits program routine extremes store)
    {parameter : Parameter} {argument : Argument} (passes : Passes extremes parameter argument)
    (fitting : program.fitsArgument routine extremes argument = true) :
    frame.binding store argument = .ok (frame.bindingOf argument) ∧
      Accepts store parameter (frame.bindingOf argument) := by
  unfold Passes at passes
  unfold Accepts
  cases kind : parameter.kind with
  | array rows cols =>
      cases argument with
      | index _ => rw [kind] at passes; contradiction
      | reference window =>
          rw [kind] at passes
          have located := locate_eq_ok (suits.sees fitting) passes.2
          obtain ⟨origin, offset, base, index, room⟩ := suits.sees fitting
          constructor
          · rw [binding, located]
            rfl
          · have start_eq := startOf_eq base index
            simp only [bindingOf, start_eq, Cell.plus]
            omega
  | index bound =>
      cases argument with
      | reference _ => rw [kind] at passes; contradiction
      | index index =>
          rw [kind] at passes
          obtain ⟨largest, known, below⟩ := passes
          obtain ⟨value, value_eq, value_le⟩ := suits.within.exists_evalIn? known
          have valueOf_eq : frame.valueOf index = value := by
            rw [valueOf, value_eq]
            rfl
          constructor
          · simp only [binding, bindingOf, Frame.index, value_eq, valueOf_eq]
            rfl
          · simp only [bindingOf, valueOf_eq]
            exact Nat.lt_of_le_of_lt value_le below

/-- The arguments of a call bind its parameters. -/
theorem accepts_arguments (suits : frame.Suits program routine extremes store)
    {parameters : List Parameter} {arguments : List Argument}
    (passing : List.Forall₂ (Passes extremes) parameters arguments)
    (fitting : ∀ argument ∈ arguments, program.fitsArgument routine extremes argument = true) :
    arguments.mapM (frame.binding store) = .ok (arguments.map frame.bindingOf) ∧
      List.Forall₂ (Accepts store) parameters (arguments.map frame.bindingOf) := by
  induction passing with
  | nil => exact ⟨rfl, .nil⟩
  | cons passes _ ih =>
      obtain ⟨bound, accepts⟩ := accepts_bindingOf suits passes (fitting _ List.mem_cons_self)
      obtain ⟨restBound, restAccepts⟩ := ih fun other mem =>
        fitting other (List.mem_cons_of_mem _ mem)
      refine ⟨?_, .cons accepts restAccepts⟩
      rw [List.mapM_cons, bound, restBound]
      rfl

variable [Scalar α]

theorem passed_eq_ok (suits : frame.Suits program routine extremes store) {argument : Argument}
    (fitting : program.fitsArgument routine extremes argument = true) :
    frame.passed store argument = .ok (frame.passedTo store argument) := by
  cases argument with
  | reference window =>
      rw [passed, cells_eq_ok (suits.sees fitting)]
      rfl
  | index index =>
      rw [Program.fits_index, Option.isSome_iff_exists] at fitting
      obtain ⟨largest, known⟩ := fitting
      obtain ⟨value, value_eq, _⟩ := suits.within.exists_evalIn? known
      simp only [passed, passedTo, Frame.index, valueOf, value_eq]
      rfl

end Frame

/-! ## Safe routines -/

section Safety

variable {α : Type}

mutual

/-- Whether the calls of a statement pass what the called routines rely on, and
only routines that may be entered are called. -/
def Statement.IsSafe (program : Program α) (enters : Routine α → Prop)
    (extremes : Program.Extremes) : Statement α → Prop
  | .assign _ _ _ => True
  | .clear _ => True
  | .loop name start stop body =>
      start < stop → Statement.AreSafe program enters ((name, stop - 1) :: extremes) body
  | .call (.routine name) arguments _ =>
      ∃ callee, program.routine? name = some callee ∧ enters callee ∧
        List.Forall₂ (Frame.Passes extremes) callee.parameters arguments
  | .call (.external _) _ _ => True
  | .comment _ => True

/-- Whether the calls of all statements are safe. -/
def Statement.AreSafe (program : Program α) (enters : Routine α → Prop)
    (extremes : Program.Extremes) : List (Statement α) → Prop
  | [] => True
  | statement :: rest =>
      statement.IsSafe program enters extremes ∧ Statement.AreSafe program enters extremes rest

end

/-- A routine that can be run with calls nested to at most the given depth. -/
def Program.Safe (program : Program α) : (depth : Nat) → Routine α → Prop
  | 0, _ => False
  | depth + 1, routine =>
      program.fitsRoutine routine = true ∧
        (∀ position ∈ routine.result, ∃ decl, routine.locals[position]? = some decl ∧
          0 < decl.size) ∧
        Statement.AreSafe program (program.Safe depth) (Program.parameterExtremes routine)
          routine.body

namespace Statement

variable {program : Program α} {enters : Routine α → Prop} {extremes : Program.Extremes}

@[simp]
theorem areSafe_append (first second : List (Statement α)) :
    AreSafe program enters extremes (first ++ second) ↔
      AreSafe program enters extremes first ∧ AreSafe program enters extremes second := by
  induction first with
  | nil => simp [AreSafe]
  | cons statement rest ih => simp [AreSafe, ih, and_assoc]

theorem areSafe_iff {statements : List (Statement α)} :
    AreSafe program enters extremes statements ↔
      ∀ statement ∈ statements, statement.IsSafe program enters extremes := by
  induction statements with
  | nil => simp [AreSafe]
  | cons statement rest ih => simp [AreSafe, ih]

mutual

theorem isSafe_of_calls {extremes : Program.Extremes} : (statement : Statement α) →
    (∀ call ∈ statement.calls, ∃ function, call.1 = .external function) →
    statement.IsSafe program enters extremes
  | .assign _ _ _, _ => trivial
  | .clear _, _ => trivial
  | .loop _ _ _ body, external => fun _ => areSafe_of_calls body external
  | .call (.routine _) _ _, external => by
      obtain ⟨_, same⟩ := external _ (List.mem_singleton_self _)
      contradiction
  | .call (.external _) _ _, _ => trivial
  | .comment _, _ => trivial

/-- Statements that call nothing but external functions are safe. -/
theorem areSafe_of_calls {extremes : Program.Extremes} : (statements : List (Statement α)) →
    (∀ call ∈ callsOf statements, ∃ function, call.1 = .external function) →
    AreSafe program enters extremes statements
  | [], _ => trivial
  | statement :: rest, external =>
      ⟨isSafe_of_calls statement fun call mem => external call (List.mem_append_left _ mem),
        areSafe_of_calls rest fun call mem => external call (List.mem_append_right _ mem)⟩

end

/-- Statements that call nothing are safe. -/
theorem areSafe_of_quiet {statements : List (Statement α)} (quiet : callsOf statements = []) :
    AreSafe program enters extremes statements := by
  refine areSafe_of_calls statements fun call mem => ?_
  rw [quiet] at mem
  exact absurd mem List.not_mem_nil

mutual

theorem IsSafe.mono {other : Routine α → Prop} (wider : ∀ routine, enters routine → other routine)
    {extremes : Program.Extremes} : (statement : Statement α) →
    statement.IsSafe program enters extremes → statement.IsSafe program other extremes
  | .assign _ _ _, _ => trivial
  | .clear _, _ => trivial
  | .loop _ _ _ body, safe => fun running => AreSafe.mono wider body (safe running)
  | .call (.routine _) _ _, ⟨callee, known, enter, passing⟩ =>
      ⟨callee, known, wider callee enter, passing⟩
  | .call (.external _) _ _, _ => trivial
  | .comment _, _ => trivial

theorem AreSafe.mono {other : Routine α → Prop} (wider : ∀ routine, enters routine → other routine)
    {extremes : Program.Extremes} : (statements : List (Statement α)) →
    AreSafe program enters extremes statements → AreSafe program other extremes statements
  | [], _ => trivial
  | statement :: rest, safe =>
      ⟨IsSafe.mono wider statement safe.1, AreSafe.mono wider rest safe.2⟩

end

end Statement

/-- A routine that is safe stays so if calls may be nested more deeply. -/
theorem Program.Safe.succ {program : Program α} {depth : Nat} {routine : Routine α}
    (safe : program.Safe depth routine) : program.Safe (depth + 1) routine := by
  induction depth generalizing routine with
  | zero => exact safe.elim
  | succ depth ih =>
      obtain ⟨fitting, returning, calls⟩ := safe
      exact ⟨fitting, returning, Statement.AreSafe.mono (fun _ => ih) _ calls⟩

theorem Program.Safe.mono {program : Program α} {first second : Nat} {routine : Routine α}
    (safe : program.Safe first routine) (le : first ≤ second) : program.Safe second routine := by
  induction le with
  | refl => exact safe
  | step _ ih => exact ih.succ

end Safety

end RtiAssembly
