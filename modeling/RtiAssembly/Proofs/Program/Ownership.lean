import RtiAssembly.Proofs.Emission.Solver
import RtiAssembly.Proofs.Solver.Initialization

/-!
# Who writes what

The workspace belongs to all routines of a solver.  What the control loop keeps
is only written by the routines that are meant to: the trajectory by the step,
the shifts and the simulation, the arrival cost by its update, and configured
bounds by the initialization.

Weightings, linear terms and bounds are lent to routines that only read them, so
it does not suffice to look at what is passed to a routine.  Instead the
statements of a routine are followed into the routines that they call, with the
parameters through which a quantity may be reached.
-/

namespace RtiAssembly

/-! ## Quantities of the control loop -/

namespace Quantity

/-- The quantities that are not kept in the workspace. -/
def ofControlLoop : List Quantity :=
  [.x, .u, .od, .y, .yN, .w, .wN, .wlx, .wlu, .x0, .xAC, .sAC, .sigmaN, .wL,
    .lbValues, .ubValues, .lbAValues, .ubAValues]

/-- The routines that write a quantity of the control loop. -/
def writers (hardcoded : Bool) : Quantity → List String
  | .x => [Phases.feedbackName, Horizon.shiftStatesName, Horizon.simulateName]
  | .u => [Phases.feedbackName, Horizon.shiftControlsName]
  | .wL | .xAC | .sAC => [Phases.arrivalCostName]
  | .lbValues | .ubValues | .lbAValues | .ubAValues =>
      if hardcoded then [] else [Horizon.initializeName]
  | _ => []

variable {α : Type} [Scalar α] {problem : Problem α}

/-- Exactly the other quantities are kept in the workspace. -/
theorem mem_ofControlLoop_iff {quantity : Quantity} {decl : ArrayDecl α}
    (described : quantity.describe problem = some decl) :
    quantity ∈ ofControlLoop ↔ decl.storage ≠ .workspace := by
  cases quantity <;>
    first
    | have storage := (storage_of_variablePart described).2
      exact iff_of_true (by decide) (by simp [storage])
    | exact iff_of_false (by decide) fun other => other (storage_of_workspace? described).2
    | refine iff_of_true (by decide) ?_
      rcases (storage_of_boundValues? described).2 with storage | ⟨storage, _⟩ <;> simp [storage]

/-- Nothing writes to constants. -/
theorem writers_of_constant {quantity : Quantity} {decl : ArrayDecl α}
    (described : quantity.describe problem = some decl) (constant : decl.storage = .constant) :
    quantity.writers problem.flags.hardcodeConstraints = [] := by
  by_contra written
  refine (variable_of_describe described).2 (fun bound => ?_) constant
  cases hardcoded : problem.flags.hardcodeConstraints with
  | false => rfl
  | true =>
      rw [hardcoded] at written
      revert bound written
      cases quantity <;> decide

/-- What the control loop supplies at run time is no workspace, and has no writers. -/
theorem writers_of_input {quantity : Quantity}
    (input : quantity.name ∈ ["y", "yN", "od", "x0", "W", "WN", "Wlx", "Wlu", "sigmaN"])
    (hardcoded : Bool) :
    quantity ∈ ofControlLoop ∧ quantity.writers hardcoded = [] := by
  revert input
  cases quantity <;> simp [name, ofControlLoop, writers]

end Quantity

namespace Problem

variable {α : Type} [Scalar α] {problem : Problem α}

/-! ## Statements and what they write -/

/-- The quantities that the control loop does not keep. -/
abbrev IsWorkspace (quantity : Quantity) : Prop :=
  quantity ∉ Quantity.ofControlLoop

/-- Whether a routine may write a quantity: the workspace belongs to all routines,
and a quantity of the control loop to its writers. -/
def Permits (problem : Problem α) (name : String) (quantity : Quantity) : Prop :=
  quantity ∈ Quantity.ofControlLoop →
    name ∈ quantity.writers problem.flags.hardcodeConstraints

omit [Scalar α] in
theorem IsWorkspace.permits {quantity : Quantity} (isWorkspace : IsWorkspace quantity)
    (name : String) : problem.Permits name quantity :=
  fun loop => absurd loop isWorkspace

/-- Statements that write only to some quantities, by themselves or through the
routines that they call. -/
structure WritesOnly (problem : Problem α) (allowed : Quantity → Prop)
    (statements : List (Statement α)) : Prop where
  stores : ∀ {quantity}, problem.plan.has quantity = true →
    Base.global (problem.plan.id quantity) ∈ Statement.storesOf statements → allowed quantity
  calls : ∀ {quantity}, problem.plan.has quantity = true → ¬allowed quantity →
    ∀ call ∈ Statement.callsOf statements, ∀ name, call.1 = .routine name →
      ∀ callee ∈ problem.program.routine? name, ∀ lent,
        problem.program.Preserves (.global (problem.plan.id quantity))
          (Argument.Lends (.global (problem.plan.id quantity)) lent call.2.1) callee

namespace WritesOnly

variable {allowed more : Quantity → Prop} {first second statements : List (Statement α)}

/-- Statements that write to no array of the module and call no routine. -/
theorem of_local (stores : ∀ id, Base.global id ∉ Statement.storesOf statements)
    (external : ∀ call ∈ Statement.callsOf statements, ∃ function, call.1 = .external function) :
    problem.WritesOnly allowed statements := by
  refine ⟨fun _ mem => absurd mem (stores _), fun _ _ call mem name isCall => ?_⟩
  obtain ⟨function, isExternal⟩ := external call mem
  exact absurd (isExternal.symm.trans isCall) Callee.noConfusion

theorem nil (allowed : Quantity → Prop) : problem.WritesOnly allowed [] :=
  of_local (fun _ => List.not_mem_nil) (Statement.external_of_callsOf_eq_nil rfl)

theorem append (firstOnly : problem.WritesOnly allowed first)
    (secondOnly : problem.WritesOnly allowed second) :
    problem.WritesOnly allowed (first ++ second) where
  stores present mem := by
    rw [Statement.storesOf_append, List.mem_append] at mem
    exact mem.elim (firstOnly.stores present) (secondOnly.stores present)
  calls present refused call mem := by
    rw [Statement.callsOf_append, List.mem_append] at mem
    exact mem.elim (firstOnly.calls present refused call) (secondOnly.calls present refused call)

theorem cons {statement : Statement α} (head : problem.WritesOnly allowed [statement])
    (rest : problem.WritesOnly allowed statements) :
    problem.WritesOnly allowed (statement :: statements) :=
  head.append rest

/-- Statements write what each of them writes. -/
theorem of_forall (each : ∀ statement ∈ statements, problem.WritesOnly allowed [statement]) :
    problem.WritesOnly allowed statements := by
  induction statements with
  | nil => exact nil _
  | cons statement rest ih =>
      refine cons (each statement List.mem_cons_self) (ih fun other mem => ?_)
      exact each other (List.mem_cons_of_mem statement mem)

theorem mono (only : problem.WritesOnly allowed statements)
    (weaker : ∀ quantity, allowed quantity → more quantity) :
    problem.WritesOnly more statements where
  stores present mem := weaker _ (only.stores present mem)
  calls present refused := only.calls present fun listed => refused (weaker _ listed)

/-- A loop writes what its body writes. -/
theorem loop {name : String} {start stop : Nat} (body : problem.WritesOnly allowed statements) :
    problem.WritesOnly allowed [.loop name start stop statements] := by
  refine ⟨fun present mem => ?_, fun present refused call mem => ?_⟩
  · rw [Statement.storesOf, Statement.storesOf, List.append_nil] at mem
    exact body.stores present mem
  · rw [Statement.callsOf, Statement.callsOf, List.append_nil] at mem
    exact body.calls present refused call mem

/-- A run of a routine leaves alone what the routine is not allowed to write. -/
theorem preserves {routine : Routine α} (only : problem.WritesOnly allowed routine.body)
    {quantity : Quantity} (present : problem.plan.has quantity = true)
    (refused : ¬allowed quantity) {lent : Nat → Prop}
    (unlent : ∀ position, Base.parameter position ∈ Statement.storesOf routine.body →
      ¬lent position) :
    problem.program.Preserves (.global (problem.plan.id quantity)) lent routine := by
  refine .intro (fun base mem reaches => ?_) fun call mem name isCall callee known =>
    only.calls present refused call mem name isCall callee known lent
  cases base with
  | global id =>
      cases reaches
      exact refused (only.stores present mem)
  | own _ => exact reaches
  | parameter position => exact unlent position mem reaches

end WritesOnly

/-- Statements without calls of routines write what they touch. -/
theorem TouchesOnly.writesOnly {allowed : Quantity → Prop} {quantities : List Quantity}
    {statements : List (Statement α)} (only : problem.TouchesOnly quantities statements)
    (permitted : ∀ quantity ∈ quantities, allowed quantity)
    (external : ∀ call ∈ Statement.callsOf statements, ∃ function, call.1 = .external function) :
    problem.WritesOnly allowed statements := by
  refine ⟨fun present mem => ?_, fun _ _ call mem name isCall => ?_⟩
  · obtain ⟨touched, listed, same⟩ := only _ (Statement.storesOf_subset _ mem)
    rw [problem.id_plan_inj present] at same
    exact same ▸ permitted touched listed
  · obtain ⟨function, isExternal⟩ := external call mem
    exact absurd (isExternal.symm.trans isCall) Callee.noConfusion

theorem writesOnly_comment {allowed : Quantity → Prop} {text : String} :
    problem.WritesOnly allowed [.comment text] :=
  .of_local (fun _ => List.not_mem_nil) (Statement.external_of_callsOf_eq_nil rfl)

/-- An array of the workspace is cleared. -/
theorem writesOnly_clear {entry : Nat × ArrayDecl α}
    (listed : entry ∈ problem.plan.table.ofClass .workspace) :
    problem.WritesOnly IsWorkspace [.clear entry.1] := by
  obtain ⟨id, decl⟩ := entry
  obtain ⟨found, isWorkspace⟩ := ArrayTable.mem_ofClass.1 listed
  refine ⟨fun {quantity} _ mem => ?_, fun _ _ _ mem => absurd mem List.not_mem_nil⟩
  obtain rfl : problem.plan.id quantity = id := Base.global.inj (List.mem_singleton.1 mem)
  rw [problem.get?_id_plan] at found
  exact fun loop => (Quantity.mem_ofControlLoop_iff found).1 loop isWorkspace

/-- An assignment to a quantity. -/
theorem writesOnly_assign {allowed : Quantity → Prop} (quantity : Quantity)
    (permitted : allowed quantity) {target : Window} {op : AssignOp} {value : Expr α}
    (base_eq : target.base = .global (problem.plan.id quantity)) :
    problem.WritesOnly allowed [.assign target op value] := by
  refine ⟨fun present mem => ?_, fun _ _ _ mem => absurd mem List.not_mem_nil⟩
  have same := (List.mem_singleton.1 mem).trans base_eq
  rw [Base.global.injEq, problem.id_plan_inj present] at same
  exact same ▸ permitted

/-- A call of a routine of the program, which writes through its parameters to
quantities that may be written. -/
theorem writesOnly_run {allowed : Quantity → Prop} {callee : Routine α}
    (listed : callee ∈ problem.program.routines)
    (body : problem.WritesOnly allowed callee.body) {arguments : List Argument}
    (results : ∀ position, Base.parameter position ∈ Statement.storesOf callee.body →
      ∀ window, arguments[position]? = some (.reference window) →
        ∃ quantity, allowed quantity ∧ window.base = .global (problem.plan.id quantity)) :
    problem.WritesOnly allowed [.run callee.name arguments] := by
  refine ⟨fun _ mem => absurd mem List.not_mem_nil, ?_⟩
  intro quantity present refused call mem name isCall routine known lent
  obtain rfl := List.mem_singleton.1 mem
  cases isCall
  obtain rfl := Option.some.inj ((problem.routine?_eq listed).symm.trans known)
  refine body.preserves present refused fun position stored lends => ?_
  obtain ⟨window, here, reaches⟩ := lends
  obtain ⟨result, permitted, base_eq⟩ := results position stored window here
  rw [base_eq] at reaches
  have same : quantity = result :=
    (problem.id_plan_inj present).1 (Buffer.global.inj reaches)
  exact refused (same ▸ permitted)

end Problem

/-! ## The objective -/

namespace Objective

variable {α : Type} [Scalar α] {problem : Problem α}

open Problem

/-- The block routines write to the blocks that are passed to them. -/
theorem parameter_blockRoutine {names : BlockNames} {damping : α} {rows cols : Nat}
    {jacobian weight : Option (Matrix α)} {jacobianWindow weightWindow : Option Window}
    {hessian gradient window : Window}
    (jacobianPassed : jacobianWindow.isSome = jacobian.isNone)
    (weightPassed : weightWindow.isSome = weight.isNone) {position : Nat}
    (stored : Base.parameter position ∈
      Statement.storesOf (blockRoutine names damping rows cols jacobian weight).body)
    (passed : ((jacobianWindow.map Argument.reference).toList ++
        (weightWindow.map Argument.reference).toList ++
        [.reference hessian, .reference gradient])[position]? = some (.reference window)) :
    window = hessian ∨ window = gradient := by
  rw [blockRoutine_eq] at stored
  rcases passed_or_known jacobianPassed with ⟨_, rfl, rfl⟩ | ⟨_, rfl, rfl⟩ <;>
    rcases passed_or_known weightPassed with ⟨_, rfl, rfl⟩ | ⟨_, rfl, rfl⟩ <;>
    simp [Statement.storesOf] at stored <;> rcases stored with rfl | rfl <;>
    simp at passed <;> simp [passed]

theorem parameter_crossRoutine {jacXWindow jacUWindow weightWindow : Option Window}
    {cross window : Window} (jacXPassed : jacXWindow.isSome = problem.jacX.isNone)
    (jacUPassed : jacUWindow.isSome = problem.jacU.isNone)
    (weightPassed : weightWindow.isSome = problem.weight.isNone) {position : Nat}
    (stored : Base.parameter position ∈ Statement.storesOf (crossRoutine problem).body)
    (passed : ((jacXWindow.map Argument.reference).toList ++
        (jacUWindow.map Argument.reference).toList ++
        (weightWindow.map Argument.reference).toList ++ [.reference cross])[position]? =
      some (.reference window)) :
    window = cross := by
  rw [crossRoutine_eq] at stored
  rcases passed_or_known jacXPassed with ⟨_, rfl, jacX⟩ | ⟨_, rfl, jacX⟩ <;>
    rcases passed_or_known jacUPassed with ⟨_, rfl, jacU⟩ | ⟨_, rfl, jacU⟩ <;>
    rcases passed_or_known weightPassed with ⟨_, rfl, weight⟩ | ⟨_, rfl, weight⟩ <;>
    simp [Statement.storesOf, jacX, jacU, weight] at stored <;> subst stored <;>
    simp at passed <;> simp [passed]

theorem writesOnly_blockRoutine (names : BlockNames) (damping : α) (rows cols : Nat)
    (jacobian weight : Option (Matrix α)) (allowed : Quantity → Prop) :
    problem.WritesOnly allowed (blockRoutine names damping rows cols jacobian weight).body := by
  rw [blockRoutine_eq]
  exact .of_local (by simp [Statement.storesOf]) (Statement.external_of_callsOf_eq_nil rfl)

theorem writesOnly_crossRoutine (allowed : Quantity → Prop) :
    problem.WritesOnly allowed (crossRoutine problem).body := by
  rw [crossRoutine_eq]
  exact .of_local (by simp [Statement.storesOf]) (Statement.external_of_callsOf_eq_nil rfl)

/-- A call of a block routine writes to the two blocks. -/
theorem writesOnly_blockCall {names : BlockNames} {damping : α} {rows cols : Nat}
    {jacobian weight : Option (Matrix α)} {jacobianWindow weightWindow : Option Window}
    {hessianWindow gradientWindow : Window} {hessian gradient : Quantity}
    (mem : blockRoutine names damping rows cols jacobian weight ∈ problem.program.routines)
    (jacobianPassed : jacobianWindow.isSome = jacobian.isNone)
    (weightPassed : weightWindow.isSome = weight.isNone)
    (hessianBase : hessianWindow.base = .global (problem.plan.id hessian))
    (gradientBase : gradientWindow.base = .global (problem.plan.id gradient))
    (workspace : IsWorkspace hessian ∧ IsWorkspace gradient) :
    problem.WritesOnly IsWorkspace
      [.run names.routine ((jacobianWindow.map Argument.reference).toList ++
        (weightWindow.map Argument.reference).toList ++
        [.reference hessianWindow, .reference gradientWindow])] := by
  refine writesOnly_run mem (writesOnly_blockRoutine _ _ _ _ _ _ _) ?_
  intro position stored window passed
  rcases parameter_blockRoutine jacobianPassed weightPassed stored passed with rfl | rfl
  · exact ⟨hessian, workspace.1, hessianBase⟩
  · exact ⟨gradient, workspace.2, gradientBase⟩

theorem writesOnly_stageCalls (node : AffineIndex) :
    problem.WritesOnly IsWorkspace (stageCalls problem problem.plan node) := by
  obtain ⟨weightPassed, _⟩ := @passes_weightWindow? α _ problem node
  obtain ⟨states_eq, controls_eq, cross_eq⟩ := @stageArguments_eq α _ problem node
  simp only [stageCalls_eq, states_eq, controls_eq, cross_eq, Option.isNone_iff_eq_none]
  refine .append (.append ?_ ?_) ?_ <;> split
  · rename_i states
    exact writesOnly_blockCall (mem_of_computed.1 states) (passes_derivatives _).1 weightPassed
      rfl rfl (by decide)
  · exact .nil _
  · rename_i controls
    exact writesOnly_blockCall (mem_of_computed.2.1 controls) (passes_derivatives _).2.1
      weightPassed rfl rfl (by decide)
  · exact .nil _
  · rename_i cross
    refine writesOnly_run (mem_of_computed.2.2.1 cross) (writesOnly_crossRoutine _) ?_
    intro position stored window passed
    obtain rfl := parameter_crossRoutine (passes_derivatives _).1 (passes_derivatives _).2.1
      weightPassed stored passed
    exact ⟨.hessianS, by decide, rfl⟩
  · exact .nil _

theorem writesOnly_terminalCall :
    problem.WritesOnly IsWorkspace (terminalCall problem problem.plan) := by
  simp only [terminalCall_eq, terminalArguments_eq, Option.isNone_iff_eq_none]
  split
  · rename_i terminal
    exact writesOnly_blockCall (mem_of_computed.2.2.2 terminal) (passes_derivatives _).2.2
      passes_terminalWeightWindow?.1 rfl rfl (by decide)
  · exact .nil _

/-- Residuals are evaluated in the buffers of the workspace. -/
theorem writesOnly_evaluation (node : AffineIndex) (withControl : Bool) (function : External)
    {residual : Quantity} (workspace : IsWorkspace residual) {target : Window} {value : Expr α}
    (base_eq : target.base = .global (problem.plan.id residual)) :
    problem.WritesOnly IsWorkspace
      (problem.plan.loadNodeInput problem.dims .objValueIn node withControl ++
        [problem.plan.evaluate function .objValueIn .objValueOut, .set target value]) := by
  have touches : problem.TouchesOnly [.objValueIn, .objValueOut, residual]
      (problem.plan.loadNodeInput problem.dims .objValueIn node withControl ++
        [problem.plan.evaluate function .objValueIn .objValueOut, .set target value]) := by
    intro id mem
    simp [Statement.targetsOf, base_eq] at mem
    rcases mem with rfl | rfl | rfl | rfl <;> simp
  refine touches.writesOnly ?_ fun call mem => ?_
  · simpa using ⟨by decide, by decide, workspace⟩
  · simp [Statement.callsOf] at mem
    exact ⟨function, congrArg Prod.fst mem⟩

theorem writesOnly_evaluateRoutine :
    problem.WritesOnly IsWorkspace (evaluateRoutine problem problem.plan).body := by
  refine .append (.loop (.append ?_ (writesOnly_stageCalls _)))
    (.append ?_ writesOnly_terminalCall)
  · exact writesOnly_evaluation _ _ _ (by decide : IsWorkspace .dy) rfl
  · exact writesOnly_evaluation _ _ _ (by decide : IsWorkspace .dyN) rfl

theorem writesOnly_gradientRoutine (allowed : Quantity → Prop) :
    problem.WritesOnly allowed (gradientRoutine problem problem.plan).body := by
  obtain ⟨state, control, body_eq, _, _⟩ := @exists_gradientRoutine α _ problem
  rw [body_eq]
  exact .of_local (by simp [Statement.storesOf]) (Statement.external_of_callsOf_eq_nil rfl)

/-- Known blocks are filled into the Hessian. -/
theorem writesOnly_initialization :
    problem.WritesOnly IsWorkspace (initialization problem problem.plan) := by
  unfold initialization
  refine .append ?_ ?_
  · split
    · exact .nil _
    · refine .loop (.append (.append ?_ ?_) ?_) <;> beta_reduce <;> split
      · exact writesOnly_assign .hessianQ (by decide) rfl
      · exact .nil _
      · exact writesOnly_assign .hessianR (by decide) rfl
      · exact .nil _
      · exact writesOnly_assign .hessianS (by decide) rfl
      · exact .nil _
  · split
    · exact writesOnly_assign .hessianQf (by decide) rfl
    · exact .nil _

end Objective

/-! ## The constraints -/

namespace Constraints

variable {α : Type} [Scalar α] {problem : Problem α}

open Problem

/-- The affine bounds of a path constraint are lent to a routine that reads them. -/
theorem writesOnly_pathBoundsCall {path : PathConstraint α} (known : problem.path = some path)
    (node : Nat) :
    problem.WritesOnly IsWorkspace [pathBoundsCall problem problem.plan path node] := by
  refine writesOnly_run (mem_routines.2.2.2.1 path known) ?_ fun position stored => ?_
  · exact (touches_pathBounds path).writesOnly (by decide)
      (Statement.external_of_callsOf_eq_nil rfl)
  · simp [pathBoundsRoutine, Statement.storesOf] at stored

theorem writesOnly_pathPart {path : PathConstraint α} (known : problem.path = some path) :
    problem.WritesOnly IsWorkspace (pathPart problem problem.plan path) := by
  refine .append (.loop ((touches_pathStage path _).writesOnly (by decide) ?_)) ?_
  · intro call mem
    rw [callsOf_pathStage, List.mem_singleton] at mem
    exact ⟨_, congrArg Prod.fst mem⟩
  · split
    · refine .of_forall fun statement mem => ?_
      obtain ⟨node, _, rfl⟩ := List.mem_map.1 mem
      exact writesOnly_pathBoundsCall known node
    · exact .nil _

theorem writesOnly_evaluateRoutine :
    problem.WritesOnly IsWorkspace (evaluateRoutine problem problem.plan).body := by
  have boxSide (target configured : Quantity) (workspace : ∀ quantity ∈ [target],
      IsWorkspace quantity) :
      problem.WritesOnly IsWorkspace (boxSide problem problem.plan target configured) :=
    (touches_boxSide target configured).writesOnly workspace
      (Statement.external_of_callsOf_eq_nil rfl)
  refine .append (.append (.append ?_ ?_) ?_) ?_
  · exact boxSide .qpLb .lbValues (by decide)
  · exact boxSide .qpUb .ubValues (by decide)
  · cases known : problem.path with
    | none => exact .nil _
    | some path => exact writesOnly_pathPart known
  · refine (touches_pointParts _ _).writesOnly (by decide) fun call mem => ?_
    obtain ⟨name, rfl⟩ := calls_pointParts _ _ call mem
    exact ⟨_, rfl⟩

/-- The initialization fills the bounds that are not hardcoded. -/
theorem writesOnly_initialization :
    problem.WritesOnly (problem.Permits Horizon.initializeName)
      (initialization problem problem.plan) := by
  unfold initialization
  split
  · exact .nil _
  · rename_i notHardcoded
    refine .of_forall fun statement mem => ?_
    obtain ⟨⟨quantity, values⟩, kept, rfl⟩ := List.mem_map.1 mem
    refine writesOnly_assign quantity ?_ rfl
    have listed := (List.mem_filter.1 kept).1
    simp only [List.mem_cons, Prod.mk.injEq, List.not_mem_nil, or_false] at listed
    rcases listed with ⟨rfl, _⟩ | ⟨rfl, _⟩ | ⟨rfl, _⟩ | ⟨rfl, _⟩ <;>
      simp [Permits, Quantity.writers, notHardcoded]

end Constraints

/-! ## The phases -/

namespace Phases

variable {α : Type} [Scalar α] {problem : Problem α}

open Problem

/-- The status of an external function goes to an array of the routine's own. -/
theorem writesOnly_status {allowed : Quantity → Prop} {function : External} {position : Nat} :
    problem.WritesOnly allowed [.invoke function [] (some (ownScalar position))] :=
  .of_local (fun _ => nofun) fun _ mem => ⟨function, congrArg Prod.fst (List.mem_singleton.1 mem)⟩

theorem writesOnly_preparationRoutine :
    problem.WritesOnly IsWorkspace (preparationRoutine : Routine α).body := by
  refine .cons writesOnly_status (.cons ?_ ?_)
  · exact writesOnly_run mem_routines.2.1 Objective.writesOnly_evaluateRoutine
      fun _ _ _ passed => nomatch passed
  · exact writesOnly_run mem_routines.2.2.2.2.1 Constraints.writesOnly_evaluateRoutine
      fun _ _ _ passed => nomatch passed

/-- The gradient of a node goes to the workspace; linear terms are only read. -/
theorem writesOnly_gradientCall (node : AffineIndex) :
    problem.WritesOnly IsWorkspace
      [.run Objective.gradientName
        ([problem.plan.passFlat .gradientQ (node.scaled problem.dims.nx) problem.dims.nx,
            problem.plan.passFlat .gradientR (node.scaled problem.dims.nu) problem.dims.nu] ++
          linearArguments problem problem.plan node ++ [.index node])] := by
  refine writesOnly_run mem_routines.2.2.1 (Objective.writesOnly_gradientRoutine _) ?_
  obtain ⟨state, control, body_eq, _, _⟩ := @Objective.exists_gradientRoutine α _ problem
  intro position stored window passed
  rw [body_eq] at stored
  simp [Statement.storesOf] at stored
  rcases stored with rfl | rfl
  · cases passed
    exact ⟨.gradientQ, by decide, rfl⟩
  · cases passed
    exact ⟨.gradientR, by decide, rfl⟩

/-- The step is taken on the trajectory, and everything else stays in the
workspace. -/
theorem writesOnly_feedbackRoutine :
    problem.WritesOnly (problem.Permits feedbackName)
      (feedbackRoutine problem problem.plan).body := by
  have workspace (quantity : Quantity) (isWorkspace : IsWorkspace quantity) {op : AssignOp}
      {target : Window} {value : Expr α}
      (base_eq : target.base = .global (problem.plan.id quantity)) :
      problem.WritesOnly (problem.Permits feedbackName) [.assign target op value] :=
    writesOnly_assign quantity (isWorkspace.permits _) base_eq
  refine .append (.append (.append ?_ ?_) ?_) ?_
  · unfold initialDeviation
    split
    · exact workspace .qpx (by decide) rfl
    · exact .nil _
  · refine .cons (workspace .dy (by decide) rfl)
      (.cons (workspace .dyN (by decide) rfl)
        (.cons (.loop ?_) (workspace .gradientQf (by decide) rfl)))
    exact (writesOnly_gradientCall _).mono fun _ isWorkspace => isWorkspace.permits _
  · unfold arrivalCost
    by_cases present : problem.plan.has .dxAC = true
    · simp only [present, if_true]
      refine .cons writesOnly_comment (.cons (workspace .dxAC (by decide) rfl)
        (.cons ?_ (workspace .gradientQ (by decide) rfl)))
      -- a known block is written anew, a computed one is increased
      split
      · exact workspace .hessianQ (by decide) rfl
      · exact workspace .hessianQ (by decide) rfl
    · simp only [present]
      exact .nil _
  · refine .cons writesOnly_status (.cons ?_ ?_)
    · exact writesOnly_assign .x (fun _ => List.mem_cons_self) rfl
    · exact writesOnly_assign .u (fun _ => List.mem_cons_self) rfl

end Phases

namespace Horizon

variable {α : Type} [Scalar α] {problem : Problem α}

open Problem

/-- The initialization clears the workspace and fills in what is known. -/
theorem writesOnly_initializeRoutine :
    problem.WritesOnly (problem.Permits initializeName)
      (initializeRoutine problem.plan problem.initialization).body := by
  refine .append (.append ?_ (.append ?_ Constraints.writesOnly_initialization)) ?_
  · refine .of_forall fun statement mem => ?_
    obtain ⟨entry, listed, rfl⟩ := List.mem_map.1 mem
    exact (writesOnly_clear listed).mono fun _ isWorkspace => isWorkspace.permits _
  · exact Objective.writesOnly_initialization.mono fun _ isWorkspace => isWorkspace.permits _
  · exact .of_local (fun _ => nofun) (Statement.external_of_callsOf_eq_nil rfl)

end Horizon

namespace Problem

variable {α : Type} [Scalar α] {problem : Problem α}

/-! ## All routines -/

/-- A routine writes to the workspace and to the quantities that it is meant to
write. -/
theorem writesOnly_routines : ∀ routine ∈ problem.program.routines,
    problem.WritesOnly (problem.Permits routine.name) routine.body := by
  have workspace {routine : Routine α} (only : problem.WritesOnly IsWorkspace routine.body) :
      problem.WritesOnly (problem.Permits routine.name) routine.body :=
    only.mono fun _ isWorkspace => isWorkspace.permits _
  have touching (name : String) {routine : Routine α} {quantities : List Quantity}
      (only : problem.TouchesOnly quantities routine.body)
      (permitted : ∀ quantity ∈ quantities, quantity ∈ Quantity.ofControlLoop →
        ∀ hardcoded, name ∈ quantity.writers hardcoded)
      (external : ∀ call ∈ Statement.callsOf routine.body,
        ∃ function, call.1 = .external function) :
      problem.WritesOnly (problem.Permits name) routine.body :=
    only.writesOnly (fun quantity listed loop => permitted quantity listed loop _) external
  apply forall_routines
  · exact Objective.writesOnly_blockRoutine _ _ _ _ _ _ _
  · exact Objective.writesOnly_blockRoutine _ _ _ _ _ _ _
  · exact Objective.writesOnly_crossRoutine _
  · exact Objective.writesOnly_blockRoutine _ _ _ _ _ _ _
  · exact workspace Objective.writesOnly_evaluateRoutine
  · exact Objective.writesOnly_gradientRoutine _
  · exact fun path _ => touching Constraints.pathBoundsName (touches_pathBounds path)
      (by decide) (Statement.external_of_callsOf_eq_nil rfl)
  · exact workspace Constraints.writesOnly_evaluateRoutine
  · exact Horizon.writesOnly_initializeRoutine
  · exact touching Horizon.simulateName touches_simulate (by decide) (calls_horizon (.inl rfl))
  · exact touching Horizon.shiftStatesName touches_shiftStates (by decide)
      (Statement.external_of_callsOf_eq_nil rfl)
  · exact touching Horizon.shiftControlsName touches_shiftControls (by decide)
      (Statement.external_of_callsOf_eq_nil callsOf_shiftControlsRoutine)
  · exact touching Horizon.objectiveName touches_objective (by decide)
      (calls_horizon (.inr (.inl rfl)))
  · exact workspace Phases.writesOnly_preparationRoutine
  · exact Phases.writesOnly_feedbackRoutine
  · exact touching Phases.optimalityName touches_optimality (by decide)
      (Statement.external_of_callsOf_eq_nil callsOf_optimalityRoutine)
  · exact fun _ => touching Phases.arrivalCostName touches_arrivalCost (by decide)
      (calls_horizon (.inr (.inr rfl)))

end Problem

end RtiAssembly
