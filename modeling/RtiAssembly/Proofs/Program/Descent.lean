import RtiAssembly.Proofs.Program.Calls
import RtiAssembly.Proofs.Machine.Effect

/-!
# Calls that go back

The certificate looks up a called routine among the routines before the caller,
and a run looks it up among all routines.  Both find the first routine of the
name, so every call goes back in the order of emission, duplicate names or not.
A run without any bound on the depth of calls, which refuses a call that does
not go back, is then the run itself: it never refuses, and no run ends because
its calls are nested too deeply.
-/

namespace RtiAssembly

/-! ## Positions of routines -/

namespace Program

variable {α : Type}

/-- The position of the first routine of a given name. -/
def position? (program : Program α) (name : String) : Option Nat :=
  program.routines.findIdx? fun routine => routine.name == name

/-- A look-up by name finds the routine at the position of the name. -/
theorem routine?_eq (program : Program α) (name : String) :
    program.routine? name = (program.position? name).bind fun position =>
      program.routines[position]? :=
  List.find?_eq_bind_findIdx?_getElem?

/-- Every call of a routine at a position goes to a routine before it. -/
def CallsBack (program : Program α) (position : Nat) (routine : Routine α) : Prop :=
  ∀ name arguments status,
    (.routine name, arguments, status) ∈ Statement.callsOf routine.body →
      ∃ earlier callee, earlier < position ∧ program.routines[earlier]? = some callee ∧
        program.position? name = some earlier ∧ program.routine? name = some callee

/-- Every routine is checked against those before it. -/
theorem resolvesCalls_of_resolveAll {externals : List External}
    {earlier routines : List (Routine α)}
    (resolved : resolveAll externals earlier routines = true) {position : Nat}
    {routine : Routine α} (here : routines[position]? = some routine) :
    resolvesCalls externals (earlier ++ routines.take position) routine = true := by
  induction routines generalizing earlier position with
  | nil => cases here
  | cons first rest ih =>
      rw [resolveAll_cons, Bool.and_eq_true] at resolved
      cases position with
      | zero =>
          cases here
          simpa using resolved.1
      | succ position => simpa using ih resolved.2 here

/-- What a prefix of the routines finds under a name, all routines find there. -/
theorem position?_of_take {program : Program α} {position : Nat} {name : String}
    {target : Routine α}
    (found : (program.routines.take position).find? (fun routine => routine.name == name) =
      some target) :
    ∃ earlier, earlier < position ∧ program.routines[earlier]? = some target ∧
      program.position? name = some earlier := by
  obtain ⟨earlier, index, listed⟩ := Option.bind_eq_some_iff.1
    (List.find?_eq_bind_findIdx?_getElem?.symm.trans found)
  have inside : earlier < (program.routines.take position).length :=
    (List.getElem?_eq_some_iff.1 listed).1
  rw [List.length_take] at inside
  refine ⟨earlier, by omega, ?_, ?_⟩
  · rwa [List.getElem?_take_of_lt (by omega)] at listed
  · rw [position?, ← List.take_append_drop position program.routines, List.findIdx?_append, index]
    rfl

/-- If all calls resolve, all calls go back. -/
theorem callsBack_of_resolveAll {program : Program α} {externals : List External}
    (resolved : resolveAll externals [] program.routines = true) {position : Nat}
    {routine : Routine α} (here : program.routines[position]? = some routine) :
    program.CallsBack position routine := by
  intro name arguments status called
  have checked := resolvesCalls_of_resolveAll resolved here
  rw [List.nil_append, resolvesCalls, List.all_eq_true] at checked
  have resolves_call := checked _ called
  simp only [resolves] at resolves_call
  split at resolves_call
  · rename_i target found
    obtain ⟨earlier, before, listed, index⟩ := position?_of_take found
    exact ⟨earlier, target, before, listed, index, by rw [routine?_eq, index]; exact listed⟩
  · contradiction

end Program

/-! ## Runs without a bound on the depth of calls -/

section Descent

variable {α σ : Type} {sizes : List Nat} [Scalar α]

open Execution

/-- Run a routine with bound parameters, its calls carried out by the
surroundings. -/
def Routine.runIn (surroundings : Surroundings α σ sizes) (routine : Routine α)
    (bindings : List Binding) : Execution α σ sizes α := do
  let height := (← get).store.stack.size
  let frame := Frame.ofCall routine bindings height
  change fun store => store.push (routine.locals.map fun decl => Array.replicate decl.size 0)
  Statement.executeAll surroundings frame routine.body
  let result ← inspect (routine.returned frame)
  change fun store => store.truncate height
  pure result

namespace Program

/-- Entering a routine runs it, its calls nested one level less. -/
theorem enter_succ (program : Program α) (host : Host α σ sizes) (depth : Nat)
    (routine : Routine α) (bindings : List Binding) :
    program.enter host (depth + 1) routine bindings =
      routine.runIn ⟨program.routine?, host, program.enter host depth⟩ bindings :=
  rfl

/-- Run the routine at a position with calls nested as deeply as they may be.  A
call is carried out if the routine of its name stands before the caller, and is
up to `refuse` if not. -/
def descend (program : Program α) (host : Host α σ sizes)
    (refuse : Routine α → List Binding → Execution α σ sizes α) (position : Nat)
    (routine : Routine α) (bindings : List Binding) : Execution α σ sizes α :=
  routine.runIn
    ⟨program.routine?, host, fun callee bindings =>
      match program.position? callee.name with
      | none => refuse callee bindings
      | some earlier =>
          if _ : earlier < position then
            program.descend host refuse earlier callee bindings
          else
            refuse callee bindings⟩
    bindings
termination_by position

end Program

/-! ## Surroundings that carry out calls alike -/

section Congruence

variable {routine? : String → Option (Routine α)} (host : Host α σ sizes)
  {enter other : Routine α → List Binding → Execution α σ sizes α}

omit [Scalar α] in
/-- A call is the same if the routine that is found is entered in the same way. -/
theorem Surroundings.callRoutine_congr {name : String}
    (same : ∀ callee, routine? name = some callee → enter callee = other callee)
    (frame : Frame) (arguments : List Argument) :
    (Surroundings.mk routine? host enter).callRoutine frame name arguments =
      (Surroundings.mk routine? host other).callRoutine frame name arguments := by
  simp only [callRoutine]
  cases found : routine? name with
  | none => rfl
  | some callee => simp only [same callee found]

mutual

theorem Statement.execute_congr (frame : Frame) : (statement : Statement α) →
    (∀ name arguments status, (.routine name, arguments, status) ∈ statement.calls →
      ∀ callee, routine? name = some callee → enter callee = other callee) →
    statement.execute ⟨routine?, host, enter⟩ frame =
      statement.execute ⟨routine?, host, other⟩ frame
  | .assign _ _ _, _ => rfl
  | .clear _, _ => rfl
  | .loop name start stop body, same => by
      have each (value : Nat) :=
        Statement.executeAll_congr (frame.bind name value) body same
      simp only [execute, each]
  | .call (.routine name) arguments status, same => by
      have called := Surroundings.callRoutine_congr host
        (same name arguments status (List.mem_singleton_self _)) frame arguments
      simp only [execute, called]
  | .call (.external _) _ _, _ => rfl
  | .comment _, _ => rfl

/-- Statements run alike if the routines that they call are entered alike. -/
theorem Statement.executeAll_congr (frame : Frame) : (statements : List (Statement α)) →
    (∀ name arguments status, (.routine name, arguments, status) ∈ callsOf statements →
      ∀ callee, routine? name = some callee → enter callee = other callee) →
    executeAll ⟨routine?, host, enter⟩ frame statements =
      executeAll ⟨routine?, host, other⟩ frame statements
  | [], _ => rfl
  | statement :: rest, same => by
      have first := Statement.execute_congr frame statement
        fun name arguments status mem =>
          same name arguments status (List.mem_append_left _ mem)
      have others := Statement.executeAll_congr frame rest
        fun name arguments status mem =>
          same name arguments status (List.mem_append_right _ mem)
      simp only [executeAll, first, others]

end

theorem Routine.runIn_congr {routine : Routine α}
    (same : ∀ name arguments status,
      (.routine name, arguments, status) ∈ Statement.callsOf routine.body →
        ∀ callee, routine? name = some callee → enter callee = other callee)
    (bindings : List Binding) :
    routine.runIn ⟨routine?, host, enter⟩ bindings =
      routine.runIn ⟨routine?, host, other⟩ bindings := by
  have body (frame : Frame) := Statement.executeAll_congr host frame routine.body same
  simp only [runIn, body]

end Congruence

namespace Program

variable {program : Program α} {host : Host α σ sizes}

/-- A routine whose calls go back, and that may nest them as deeply as there are
routines before it, never meets a call that does not. -/
theorem enter_eq_descend
    (back : ∀ position routine, program.routines[position]? = some routine →
      program.CallsBack position routine)
    (refuse : Routine α → List Binding → Execution α σ sizes α) {position : Nat}
    {routine : Routine α} (here : program.routines[position]? = some routine) {depth : Nat}
    (deep : position < depth) :
    program.enter host depth routine = program.descend host refuse position routine := by
  induction position using Nat.strong_induction_on generalizing routine depth with
  | _ position ih =>
    obtain ⟨depth, rfl⟩ := Nat.exists_eq_succ_of_ne_zero (Nat.ne_zero_of_lt deep)
    funext bindings
    rw [descend, Nat.succ_eq_add_one, enter_succ]
    refine Routine.runIn_congr host (fun name arguments status called callee known => ?_) bindings
    obtain ⟨earlier, target, before, listed, index, found⟩ :=
      back position routine here name arguments status called
    obtain rfl : target = callee := Option.some.inj (found.symm.trans known)
    have name_eq : target.name = name := by simpa using List.find?_some known
    funext passed
    simp only [name_eq, index, dif_pos before]
    rw [ih earlier before listed (by omega)]

end Program

end Descent

/-! ## Computations that do not run out of depth -/

/-- A result other than the fault of calls that do not end. -/
def Settled {β : Type} (result : Except Fault β) : Prop :=
  ∀ called, result ≠ .error (.endlessCalls called)

namespace Settled

variable {β γ : Type}

theorem ok (value : β) : Settled (.ok value) := nofun

theorem bind {first : Except Fault β} {next : β → Except Fault γ} (firstSettled : Settled first)
    (nextSettled : ∀ value, Settled (next value)) : Settled (first >>= next) := by
  cases first with
  | ok value => exact nextSettled value
  | error fault =>
      rintro called ⟨⟩
      exact firstSettled called rfl

theorem forM {items : List β} {visit : β → Except Fault PUnit}
    (each : ∀ item, Settled (visit item)) : Settled (items.forM visit) := by
  induction items with
  | nil => exact ok ()
  | cons item rest ih =>
      rw [List.forM_eq_forM, List.forM_cons]
      exact (each item).bind fun _ => ih

theorem mapM {items : List β} {visit : β → Except Fault γ} (each : ∀ item, Settled (visit item)) :
    Settled (items.mapM visit) := by
  induction items with
  | nil => exact ok []
  | cons item rest ih =>
      rw [List.mapM_cons]
      exact (each item).bind fun _ => ih.bind fun _ => ok _

end Settled

namespace Frame

variable {α : Type} {sizes : List Nat} (frame : Frame) (store : Store α sizes)

theorem settled_index (index : AffineIndex) : Settled (frame.index index) := by
  unfold Frame.index
  split <;> nofun

theorem settled_locate (window : Window) (distance : Nat) :
    Settled (frame.locate store window distance) := by
  unfold locate
  split
  · nofun
  · refine (settled_index frame _).bind fun offset => ?_
    dsimp only
    split <;> nofun

theorem settled_cells (window : Window) : Settled (frame.cells store window) := by
  have inside : Settled (frame.checkStored store window) := by
    rw [checkStored, sweepPositions_eq_forM]
    exact .forM fun _ => (settled_locate frame store window _).bind fun _ => .ok ()
  exact inside.bind fun _ => .mapM fun _ => settled_locate frame store window _

theorem settled_binding (argument : Argument) : Settled (frame.binding store argument) := by
  cases argument with
  | reference window => exact (settled_locate frame store window 0).bind fun _ => .ok _
  | index index => exact (settled_index frame index).bind fun _ => .ok _

variable [Scalar α]

theorem settled_evaluate (expr : Expr α) : Settled (frame.evaluate store expr) := by
  refine (Settled.forM fun window => ?_).bind fun _ => .ok _
  rw [check, sweepPositions_eq_forM]
  exact .forM fun _ => (settled_locate frame store window _).bind fun _ => .ok ()

theorem settled_passed (argument : Argument) : Settled (frame.passed store argument) := by
  cases argument with
  | reference window => exact (settled_cells frame store window).bind fun _ => .ok _
  | index index => exact (settled_index frame index).bind fun _ => .ok _

theorem settled_returned (routine : Routine α) : Settled (routine.returned frame store) := by
  unfold Routine.returned
  split
  · exact .ok 0
  · exact (settled_locate frame store _ 0).bind fun _ => .ok _

end Frame

namespace Execution

variable {α σ β γ : Type} {sizes : List Nat}

/-- A computation that is not stopped by calls nested too deeply. -/
def Ends (execution : Execution α σ sizes β) : Prop :=
  ∀ world, Settled (execution.run.run world).1

theorem ends_pure (value : β) : Ends (pure value : Execution α σ sizes β) :=
  fun _ => .ok value

theorem Ends.bind {first : Execution α σ sizes β} {next : β → Execution α σ sizes γ}
    (firstEnds : Ends first) (nextEnds : ∀ value, Ends (next value)) : Ends (first >>= next) := by
  intro world
  have settled := firstEnds world
  rw [ExceptT.run_bind, StateT.run_bind]
  generalize first.run.run world = outcome at settled ⊢
  obtain ⟨fault | value, middle⟩ := outcome
  · rintro called ⟨⟩
    exact settled called rfl
  · exact nextEnds value middle

theorem ends_get : Ends (get : Execution α σ sizes (World α σ sizes)) := nofun

theorem ends_set (after : World α σ sizes) : Ends (set after : Execution α σ sizes PUnit) := nofun

theorem ends_change (step : Store α sizes → Store α sizes) :
    Ends (change step : Execution α σ sizes Unit) := nofun

theorem ends_inspect {query : Store α sizes → Except Fault β}
    (settled : ∀ store, Settled (query store)) : Ends (inspect query : Execution α σ sizes β) := by
  refine ends_get.bind fun world => ?_
  have found := settled world.store
  generalize query world.store = result at found ⊢
  cases result with
  | ok value => exact ends_pure value
  | error fault => exact fun _ called same => found called (by cases same; rfl)

theorem ends_forM {items : List β} {visit : β → Execution α σ sizes PUnit}
    (each : ∀ item, Ends (visit item)) : Ends (items.forM visit) := by
  induction items with
  | nil => exact ends_pure ()
  | cons item rest ih =>
      rw [List.forM_eq_forM, List.forM_cons]
      exact (each item).bind fun _ => ih

end Execution

section Ending

variable {α σ : Type} {sizes : List Nat} [Scalar α]

open Execution

theorem Frame.ends_assign (frame : Frame) (target : Window) (op : AssignOp) (value : Matrix α) :
    Ends (frame.assign target op value : Execution α σ sizes Unit) := by
  rw [assign, sweepPositions_eq_forM]
  exact ends_forM fun _ =>
    (ends_inspect fun store => settled_locate frame store target _).bind fun _ => ends_change _

omit [Scalar α] in
theorem Frame.ends_restore (frame : Frame) (argument : Argument) (left : Passed α) :
    Ends (frame.restore argument left : Execution α σ sizes Unit) := by
  unfold restore
  split
  · exact (ends_inspect fun store => settled_cells frame store _).bind fun _ =>
      ends_forM fun _ => ends_change _
  · exact ends_pure ()

theorem Surroundings.ends_callExternal (surroundings : Surroundings α σ sizes) (frame : Frame)
    (function : External) (arguments : List Argument) :
    Ends (surroundings.callExternal frame function arguments) :=
  (ends_inspect fun store => .mapM fun argument => frame.settled_passed store argument).bind
    fun _ => ends_get.bind fun _ => (ends_set _).bind fun _ =>
      (ends_forM fun _ => frame.ends_restore _ _).bind fun _ => ends_pure _

omit [Scalar α] in
/-- A call ends if the routine that is found ends once it is entered. -/
theorem Surroundings.ends_callRoutine {surroundings : Surroundings α σ sizes} {name : String}
    (enters : ∀ callee, surroundings.routine? name = some callee →
      ∀ bindings, Ends (surroundings.enter callee bindings))
    (frame : Frame) (arguments : List Argument) :
    Ends (surroundings.callRoutine frame name arguments) := by
  unfold callRoutine
  cases found : surroundings.routine? name with
  | none => exact nofun
  | some callee =>
      dsimp only
      split
      · exact (ends_inspect fun store => .mapM fun argument =>
          frame.settled_binding store argument).bind fun bindings => enters callee found bindings
      · exact nofun

omit [Scalar α] in
theorem Statement.ends_status (frame : Frame) (status : Option Window) (result : α) :
    Ends (match status with
      | some target => frame.assignStatus target result
      | none => pure () : Execution α σ sizes Unit) := by
  cases status with
  | none => exact ends_pure ()
  | some target =>
      exact (ends_inspect fun store => frame.settled_locate store target 0).bind fun _ =>
        ends_change _

variable {surroundings : Surroundings α σ sizes}

mutual

theorem Statement.ends_execute (frame : Frame) : (statement : Statement α) →
    (∀ name arguments status, (.routine name, arguments, status) ∈ statement.calls →
      ∀ callee, surroundings.routine? name = some callee →
        ∀ bindings, Ends (surroundings.enter callee bindings)) →
    Ends (statement.execute surroundings frame)
  | .assign target op value, _ =>
      (ends_inspect fun store => frame.settled_evaluate store value).bind fun _ =>
        frame.ends_assign target op _
  | .clear _, _ => ends_change _
  | .loop name start stop body, enters => by
      rw [execute, sweep_eq_forM]
      exact ends_forM fun value => Statement.ends_executeAll (frame.bind name value) body enters
  | .call (.routine name) arguments status, enters =>
      (Surroundings.ends_callRoutine (enters name arguments status (List.mem_singleton_self _))
        frame arguments).bind fun result => ends_status frame status result
  | .call (.external function) arguments status, _ =>
      (surroundings.ends_callExternal frame function arguments).bind fun result =>
        ends_status frame status result
  | .comment _, _ => ends_pure ()

/-- Statements end if every routine that they call ends.  A loop visits as many
values as it has, and each visit ends. -/
theorem Statement.ends_executeAll (frame : Frame) : (statements : List (Statement α)) →
    (∀ name arguments status, (.routine name, arguments, status) ∈ callsOf statements →
      ∀ callee, surroundings.routine? name = some callee →
        ∀ bindings, Ends (surroundings.enter callee bindings)) →
    Ends (executeAll surroundings frame statements)
  | [], _ => ends_pure ()
  | statement :: rest, enters =>
      (Statement.ends_execute frame statement fun name arguments status mem =>
        enters name arguments status (List.mem_append_left _ mem)).bind fun _ =>
          Statement.ends_executeAll frame rest fun name arguments status mem =>
            enters name arguments status (List.mem_append_right _ mem)

end

theorem Routine.ends_runIn {routine : Routine α}
    (enters : ∀ name arguments status,
      (.routine name, arguments, status) ∈ Statement.callsOf routine.body →
        ∀ callee, surroundings.routine? name = some callee →
          ∀ bindings, Ends (surroundings.enter callee bindings))
    (bindings : List Binding) : Ends (routine.runIn surroundings bindings) :=
  ends_get.bind fun _ => (ends_change _).bind fun _ =>
    (Statement.ends_executeAll _ routine.body enters).bind fun _ =>
      (ends_inspect fun store => Frame.settled_returned _ store routine).bind fun _ =>
        (ends_change _).bind fun _ => ends_pure _

namespace Program

variable {program : Program α}

/-- A routine whose calls go back ends, whatever would become of a call that
does not. -/
theorem ends_descend (host : Host α σ sizes)
    (back : ∀ position routine, program.routines[position]? = some routine →
      program.CallsBack position routine)
    (refuse : Routine α → List Binding → Execution α σ sizes α) {position : Nat}
    {routine : Routine α} (here : program.routines[position]? = some routine)
    (bindings : List Binding) : Ends (program.descend host refuse position routine bindings) := by
  induction position using Nat.strong_induction_on generalizing routine bindings with
  | _ position ih =>
    rw [descend]
    refine Routine.ends_runIn (fun name arguments status called callee known passed => ?_) bindings
    obtain ⟨earlier, target, before, listed, index, found⟩ :=
      back position routine here name arguments status called
    obtain rfl : target = callee := Option.some.inj (found.symm.trans known)
    have name_eq : target.name = name := by simpa using List.find?_some known
    simp only [name_eq, index, dif_pos before]
    exact ih earlier before listed passed

end Program

end Ending

/-- Programs whose calls resolve cannot recurse.  Every call of a routine, also in
loops and among routines of one name, finds a routine before the caller.  So a
run nested more deeply than there are routines before the first one is the run
that refuses every call that does not go back, whatever a refusal would do; it
nests no deeper than there are routines, each loop visits as many values as it
has, and no run is stopped because its calls do not end. -/
theorem calls_go_back {α σ : Type} [Scalar α] {program : Program α} {uses : Bool}
    (resolved : (program.certify uses).callsResolved = true)
    (host : Host α σ program.table.sizes) :
    (∀ position routine, program.routines[position]? = some routine →
      program.CallsBack position routine ∧
        ∀ depth, position < depth → ∀ refuse bindings,
          program.enter host depth routine bindings =
              program.descend host refuse position routine bindings ∧
            (program.enter host depth routine bindings).Ends) ∧
      (∀ routine ∈ program.routines, ∀ depth, program.routines.length ≤ depth →
        program.enter host depth routine = program.enter host program.routines.length routine) ∧
      (∀ (surroundings : Surroundings α σ program.table.sizes) frame name start stop body,
        (Statement.loop name start stop body).execute surroundings frame =
          (List.range' start (stop - start)).forM fun value =>
            Statement.executeAll surroundings (frame.bind name value) body) ∧
      ∀ state memory name arguments,
        Settled (program.run host state memory name arguments).result := by
  have back : ∀ position routine, program.routines[position]? = some routine →
      program.CallsBack position routine :=
    fun _ _ here => Program.callsBack_of_resolveAll resolved here
  have refusal : Routine α → List Binding → Execution α σ program.table.sizes α :=
    fun _ _ => pure 0
  have enters : ∀ position routine, program.routines[position]? = some routine →
      ∀ depth, position < depth → ∀ bindings, (program.enter host depth routine bindings).Ends := by
    intro position routine here depth deep bindings
    rw [Program.enter_eq_descend back refusal here deep]
    exact Program.ends_descend host back refusal here bindings
  refine ⟨fun position routine here => ⟨back position routine here, ?_⟩, ?_, ?_, ?_⟩
  · intro depth deep refuse bindings
    exact ⟨congrFun (Program.enter_eq_descend back refuse here deep) bindings,
      enters position routine here depth deep bindings⟩
  · intro routine mem depth deep
    obtain ⟨position, here⟩ := List.mem_iff_getElem?.1 mem
    have inside : position < program.routines.length := (List.getElem?_eq_some_iff.1 here).1
    rw [Program.enter_eq_descend back refusal here (inside.trans_le deep),
      Program.enter_eq_descend back refusal here inside]
  · intro surroundings frame name start stop body
    rw [Statement.execute, sweep_eq_forM]
  · intro state memory name arguments
    have deep : program.routines.length ≤ program.callDepth := Nat.le_add_left _ _
    unfold Program.run
    cases known : program.routine? name with
    | none => exact nofun
    | some routine =>
        obtain ⟨position, here⟩ := List.mem_iff_getElem?.1 (List.mem_of_find?_eq_some known)
        have inside : position < program.routines.length := (List.getElem?_eq_some_iff.1 here).1
        dsimp only
        split
        · exact nofun
        · exact enters position routine here _ (inside.trans_le deep) _ _

/-- Two routines of one name, the second of which calls the first, and a routine
that calls the name in a loop. -/
def Program.namesakes : Program ℚ where
  moduleName := "ocp"
  dims := ⟨1, 1, 1, 1, 1, 0⟩
  table := ⟨[.real .workspace "g" 2 1 ""]⟩
  externals := []
  routines :=
    [{ name := "step"
       doc := none
       parameters := [⟨"i", .index 2⟩]
       locals := []
       result := none
       body := [.set (.dense (.global 0) (.var "i") 1 1) (.known (.scalar 1))] },
      { name := "step"
        doc := none
        parameters := []
        locals := []
        result := none
        body := [.run "step" [.index (.const 0)]] },
      { name := "outer"
        doc := none
        parameters := []
        locals := []
        result := none
        body := [.loop "k" 0 2 [.loop "l" 1 1 [.run "step" [.index (.var "l")]],
          .run "step" [.index (.var "k")]]] }]
  numQpVars := 0
  rowCounts := []

/-- A routine that calls its own name calls its namesake before it, and the run
ends. -/
theorem calls_go_back_namesakes :
    let program := Program.namesakes
    (program.certify false).callsResolved = true ∧
      program.CallsBack 1 program.routines[1] ∧
      ∀ (state : Unit) memory name arguments,
        Settled (program.run Host.idle state memory name arguments).result := by
  intro program
  have resolved : (program.certify false).callsResolved = true := by decide
  obtain ⟨back, _, _, settled⟩ := calls_go_back resolved Host.idle
  exact ⟨resolved, (back 1 _ rfl).1, settled⟩

end RtiAssembly
