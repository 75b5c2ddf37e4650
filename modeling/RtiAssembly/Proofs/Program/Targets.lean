import RtiAssembly.Proofs.Machine.Untouched
import RtiAssembly.Proofs.Program.Faultless

/-!
# Quantities that routines touch

Which quantities the routines of a solver store to or pass on by reference.  A
run leaves all other quantities alone, unless a routine that is called touches
them or the host does.
-/

namespace RtiAssembly

namespace Window

@[simp]
theorem base_dense (base : Base) (offset : AffineIndex) (rows cols : Nat) :
    (dense base offset rows cols).base = base := rfl

end Window

theorem Statement.external_of_callsOf_eq_nil {α : Type} {statements : List (Statement α)}
    (noCalls : callsOf statements = []) :
    ∀ call ∈ callsOf statements, ∃ function, call.1 = .external function := by
  rw [noCalls]
  exact fun _ mem => absurd mem List.not_mem_nil

namespace Plan

variable {α : Type} (plan : Plan α)

@[simp]
theorem base_whole (quantity : Quantity) :
    (plan.whole quantity).base = .global (plan.id quantity) := rfl

@[simp]
theorem base_flat (quantity : Quantity) (offset : AffineIndex) (length : Nat) :
    (plan.flat quantity offset length).base = .global (plan.id quantity) := rfl

@[simp]
theorem base_rows (quantity : Quantity) (first : AffineIndex) (count : Nat) :
    (plan.rows quantity first count).base = .global (plan.id quantity) := rfl

@[simp]
theorem targets_copy (target source : Quantity) (targetOffset sourceOffset : AffineIndex)
    (length : Nat) :
    (plan.copy target targetOffset source sourceOffset length).targets =
      [.global (plan.id target)] := rfl

@[simp]
theorem targets_evaluate (function : External) (input output : Quantity) :
    (plan.evaluate function input output).targets =
      [.global (plan.id input), .global (plan.id output)] := rfl

@[simp]
theorem mem_targetsOf_loadNodeInput (dims : Dimensions) (buffer : Quantity) (node : AffineIndex)
    (withControl : Bool) (base : Base) :
    base ∈ Statement.targetsOf (plan.loadNodeInput dims buffer node withControl) ↔
      base = .global (plan.id buffer) := by
  unfold loadNodeInput
  cases withControl <;> cases plan.has .od <;> simp [Statement.targetsOf]

end Plan

namespace Problem

variable {α σ : Type} [Scalar α] {problem : Problem α}

/-- The only quantities that statements store to, clear or pass on. -/
def TouchesOnly (problem : Problem α) (quantities : List Quantity)
    (statements : List (Statement α)) : Prop :=
  ∀ id, Base.global id ∈ Statement.targetsOf statements →
    ∃ quantity ∈ quantities, id = problem.plan.id quantity

/-! ## Routines around the iteration -/

theorem touches_simulate :
    problem.TouchesOnly [.state, .x] (Horizon.simulateRoutine problem problem.plan).body := by
  intro id mem
  simpa [Horizon.simulateRoutine, Statement.targetsOf, Statement.targets, Plan.passWhole,
    Argument.window?] using mem

theorem touches_shiftStates :
    problem.TouchesOnly [.x] (Horizon.shiftStatesRoutine problem problem.plan).body := by
  intro id mem
  simpa [Horizon.shiftStatesRoutine, Horizon.moveBack, Horizon.appendBlock, Statement.targetsOf,
    Statement.targets] using mem

theorem touches_shiftControls :
    problem.TouchesOnly [.u] (Horizon.shiftControlsRoutine problem problem.plan).body := by
  intro id mem
  simp [Horizon.shiftControlsRoutine, Horizon.moveBack, Horizon.appendBlock,
    Statement.targetsOf, Statement.targets, apply_ite Statement.targetsOf] at mem
  rcases mem with ⟨_, rfl⟩ | rfl <;> simp

theorem touches_objective :
    problem.TouchesOnly [.objValueIn, .objValueOut]
      (Horizon.objectiveRoutine problem problem.plan).body := by
  intro id mem
  simp [Horizon.objectiveRoutine, Statement.targetsOf, Statement.targets] at mem
  rcases mem with rfl | rfl | rfl | rfl <;> simp

theorem touches_optimality :
    problem.TouchesOnly [] (Phases.optimalityRoutine problem problem.plan).body := by
  intro id mem
  cases fixed : problem.flags.initialStateFixed <;>
    simp [Phases.optimalityRoutine, Phases.ownScalar, fixed, Statement.targetsOf,
      Statement.targets, apply_ite Statement.targetsOf] at mem

theorem touches_arrivalCost :
    problem.TouchesOnly [.wL, .xAC, .sAC] (Phases.arrivalCostRoutine problem.plan).body := by
  intro id mem
  simp [Phases.arrivalCostRoutine, Phases.ownScalar, Statement.targetsOf, Plan.passWhole,
    Argument.window?] at mem
  rcases mem with rfl | rfl | rfl <;> simp

/-! ## Constraints -/

/-- What the evaluation of the constraints writes: its results and buffers. -/
def constraintResults : List Quantity :=
  [.qpLb, .qpUb, .qpLbA, .qpUbA, .conValueIn, .conValueOut, .pacEvH, .pacEvHx, .pacEvHu, .pocEvH,
    .pocEvHx, .pocEvHu]

/-- The quantities that the evaluation of the constraints touches: its results and
buffers, and the configured bounds, which it passes on. -/
def constraintQuantities : List Quantity :=
  [.qpLb, .qpUb, .qpLbA, .qpUbA, .conValueIn, .conValueOut, .pacEvH, .pacEvHx, .pacEvHu, .pocEvH,
    .pocEvHx, .pocEvHu, .lbAValues, .ubAValues]

theorem touches_nil (quantities : List Quantity) : problem.TouchesOnly quantities [] :=
  fun _ mem => absurd mem List.not_mem_nil

theorem TouchesOnly.append {quantities : List Quantity} {first second : List (Statement α)}
    (firstOnly : problem.TouchesOnly quantities first)
    (secondOnly : problem.TouchesOnly quantities second) :
    problem.TouchesOnly quantities (first ++ second) := by
  intro id mem
  rw [Statement.targetsOf_append, List.mem_append] at mem
  exact mem.elim (firstOnly id) (secondOnly id)

theorem TouchesOnly.mono {fewer quantities : List Quantity} {statements : List (Statement α)}
    (only : problem.TouchesOnly fewer statements) (sub : fewer ⊆ quantities) :
    problem.TouchesOnly quantities statements := by
  intro id mem
  obtain ⟨quantity, listed, same⟩ := only id mem
  exact ⟨quantity, sub listed, same⟩

/-- A loop touches what its body touches. -/
theorem TouchesOnly.loop {quantities : List Quantity} {statements : List (Statement α)}
    {name : String} {start stop : Nat} (body : problem.TouchesOnly quantities statements) :
    problem.TouchesOnly quantities [.loop name start stop statements] := by
  intro id mem
  rw [Statement.targetsOf, Statement.targetsOf, List.append_nil, Statement.targets] at mem
  exact body id mem

theorem touches_boxSide (target configured : Quantity) :
    problem.TouchesOnly [target]
      (Constraints.boxSide problem problem.plan target configured) := by
  intro id mem
  simpa [Statement.targetsOf, Constraints.boxSide] using mem

theorem touches_pathBounds (path : PathConstraint α) :
    problem.TouchesOnly [.qpLbA, .qpUbA]
      (Constraints.pathBoundsRoutine problem problem.plan path).body := by
  intro id mem
  simpa [Constraints.pathBoundsRoutine, Statement.targetsOf] using mem

theorem touches_pathStage (path : PathConstraint α) (node : AffineIndex) :
    problem.TouchesOnly constraintResults
      (Constraints.pathStage problem problem.plan path node) := by
  intro id mem
  simp [Statement.targetsOf, Constraints.pathStage, apply_ite Statement.targetsOf] at mem
  rcases mem with rfl | rfl | rfl | ⟨_, rfl⟩ | ⟨_, rfl⟩ <;> simp [constraintResults]

theorem touches_pathPart (path : PathConstraint α) :
    problem.TouchesOnly constraintQuantities
      (Constraints.pathPart problem problem.plan path) := by
  have bounds (nodes : List Nat) : problem.TouchesOnly constraintQuantities
      (nodes.map (Constraints.pathBoundsCall problem problem.plan path)) := by
    induction nodes with
    | nil => exact touches_nil _
    | cons node rest ih =>
        intro id mem
        simp [Statement.targetsOf, Constraints.pathBoundsCall, Plan.passFlat,
          Argument.window?] at mem
        rcases mem with (rfl | rfl) | later
        · simp [constraintQuantities]
        · simp [constraintQuantities]
        · exact ih id later
  unfold Constraints.pathPart
  refine TouchesOnly.append (.loop ((touches_pathStage path _).mono (by decide))) ?_
  split
  · exact bounds _
  · exact touches_nil _

theorem touches_pointParts (entries : List (Nat × PointConstraint α)) (row : Nat) :
    problem.TouchesOnly constraintResults
      (Constraints.pointParts problem problem.plan row entries) := by
  induction entries generalizing row with
  | nil => exact touches_nil _
  | cons entry rest ih =>
      obtain ⟨node, point⟩ := entry
      rw [Constraints.pointParts]
      refine TouchesOnly.append (fun id mem => ?_) (ih _)
      simp [Statement.targetsOf, Statement.targets, Constraints.pointPart,
        apply_ite Statement.targetsOf] at mem
      rcases mem with rfl | rfl | rfl | rfl | ⟨_, rfl⟩ | rfl | rfl <;>
        simp [constraintResults]

theorem touches_constraints :
    problem.TouchesOnly constraintQuantities
      (Constraints.evaluateRoutine problem problem.plan).body := by
  refine TouchesOnly.append (TouchesOnly.append (TouchesOnly.append ?_ ?_) ?_)
    ((touches_pointParts _ _).mono (by decide))
  · exact (touches_boxSide .qpLb .lbValues).mono (by decide)
  · exact (touches_boxSide .qpUb .ubValues).mono (by decide)
  · cases problem.path with
    | none => exact touches_nil _
    | some path => exact touches_pathPart path

/-! ## Quantities that are left alone -/

section Avoiding

variable {quantity : Quantity}

/-- A routine avoids a quantity that it does not touch, if the routines that it
calls avoid it. -/
theorem TouchesOnly.avoids {quantities : List Quantity} {routine : Routine α}
    (only : problem.TouchesOnly quantities routine.body)
    (present : problem.plan.has quantity = true) (other : quantity ∉ quantities)
    (calls : ∀ call ∈ Statement.callsOf routine.body, ∀ name, call.1 = .routine name →
      ∀ callee ∈ problem.program.routine? name,
        problem.program.Avoids (.global (problem.plan.id quantity)) callee) :
    problem.program.Avoids (.global (problem.plan.id quantity)) routine := by
  refine .intro (fun id isGlobal mem => ?_) calls
  obtain ⟨touched, listed, rfl⟩ := only id mem
  rw [Buffer.global.injEq, problem.id_plan_inj present] at isGlobal
  exact other (isGlobal ▸ listed)

/-- The evaluation of the constraints leaves everything but the bounds and its
buffers alone. -/
theorem avoids_constraints (present : problem.plan.has quantity = true)
    (other : quantity ∉ constraintQuantities) :
    problem.program.Avoids (.global (problem.plan.id quantity))
      (Constraints.evaluateRoutine problem problem.plan) := by
  refine touches_constraints.avoids present other fun call mem name isCall callee known => ?_
  simp only [Constraints.evaluateRoutine, Constraints.boxSide, Statement.callsOf_append,
    Statement.callsOf, Statement.calls_set, List.nil_append, List.append_nil,
    List.mem_append] at mem
  rcases mem with path | point
  · cases constrained : problem.path with
    | none =>
        rw [constrained] at path
        cases path
    | some constraint =>
        simp only [constrained, Option.elim_some, Constraints.pathPart, Statement.callsOf_append,
          Statement.callsOf, Statement.calls, Constraints.callsOf_pathStage, List.append_nil,
          List.mem_append, List.mem_singleton] at path
        rcases path with rfl | bounds
        · cases isCall
        · obtain ⟨node, rfl⟩ := Constraints.calls_pathBounds constraint call bounds
          cases isCall
          have listed := mem_routines.2.2.2.1 constraint constrained
          have target := problem.routine?_eq listed
          have same : callee = Constraints.pathBoundsRoutine problem problem.plan constraint :=
            Option.some.inj (known.symm.trans target)
          rw [same]
          refine (touches_pathBounds constraint).avoids present (fun touched => other ?_)
            fun _ called => absurd called List.not_mem_nil
          rcases List.mem_cons.1 touched with rfl | touched
          · simp [constraintQuantities]
          · simp [List.mem_singleton.1 touched, constraintQuantities]
  · obtain ⟨_, rfl⟩ := Constraints.calls_pointParts _ _ call point
    cases isCall

/-- The routines around the two phases. -/
def besides : List String :=
  [Horizon.simulateName, Horizon.shiftStatesName, Horizon.shiftControlsName,
    Horizon.objectiveName, Phases.optimalityName, Phases.arrivalCostName]

/-- What the routines around the two phases touch. -/
def besidesQuantities : List Quantity :=
  [.state, .x, .u, .objValueIn, .objValueOut, .wL, .xAC, .sAC]

/-- The routines around the two phases leave everything but the trajectory, the
arrival cost and their buffers alone. -/
theorem avoids_besides (present : problem.plan.has quantity = true)
    (other : quantity ∉ besidesQuantities) {name : String} (listed : name ∈ besides) :
    ∀ routine ∈ problem.program.routine? name,
      problem.program.Avoids (.global (problem.plan.id quantity)) routine := by
  have quiet {quantities : List Quantity} {routine : Routine α}
      (only : problem.TouchesOnly quantities routine.body)
      (fewer : quantities ⊆ besidesQuantities)
      (calls : ∀ call ∈ Statement.callsOf routine.body, ∃ function, call.1 = .external function) :
      problem.program.Avoids (.global (problem.plan.id quantity)) routine := by
    refine only.avoids present (fun touched => other (fewer touched)) ?_
    intro call mem name isCall
    obtain ⟨function, isExternal⟩ := calls call mem
    rw [isExternal] at isCall
    cases isCall
  suffices each : ∀ routine ∈ problem.program.routines, routine.name ∈ besides →
      problem.program.Avoids (.global (problem.plan.id quantity)) routine by
    intro routine known
    have name_eq : routine.name = name := by simpa using List.find?_some known
    exact each routine (List.mem_of_find?_eq_some known) (name_eq ▸ listed)
  apply forall_routines
  · exact fun here => absurd here (by decide : Objective.stateNames.routine ∉ besides)
  · exact fun here => absurd here (by decide : Objective.controlNames.routine ∉ besides)
  · exact fun here => absurd here (by decide : Objective.crossName ∉ besides)
  · exact fun here => absurd here (by decide : Objective.terminalNames.routine ∉ besides)
  · exact fun here => absurd here (by decide : Objective.evaluateName ∉ besides)
  · exact fun here => absurd here (by decide : Objective.gradientName ∉ besides)
  · exact fun _ _ here => absurd here (by decide : Constraints.pathBoundsName ∉ besides)
  · exact fun here => absurd here (by decide : Constraints.evaluateName ∉ besides)
  · exact fun here => absurd here (by decide : Horizon.initializeName ∉ besides)
  · exact fun _ => quiet touches_simulate (by decide) (calls_horizon (.inl rfl))
  · exact fun _ => quiet touches_shiftStates (by decide) (Statement.external_of_callsOf_eq_nil rfl)
  · exact fun _ => quiet touches_shiftControls (by decide)
      (Statement.external_of_callsOf_eq_nil callsOf_shiftControlsRoutine)
  · exact fun _ => quiet touches_objective (by decide) (calls_horizon (.inr (.inl rfl)))
  · exact fun here => absurd here (by decide : Phases.preparationName ∉ besides)
  · exact fun here => absurd here (by decide : Phases.feedbackName ∉ besides)
  · exact fun _ => quiet touches_optimality (by decide)
      (Statement.external_of_callsOf_eq_nil callsOf_optimalityRoutine)
  · exact fun _ _ => quiet touches_arrivalCost (by decide) (calls_horizon (.inr (.inr rfl)))

end Avoiding

end Problem

end RtiAssembly
