import RtiAssembly.Proofs.Program.Certified

/-!
# Calls that resolve

Every routine of a planned program calls what stands before it: the block
routines are called by the evaluation of the objective with exactly the
matrices that are not known, the gradient routine by the feedback with the
linear terms that are supplied at run time, and the bounds routine once for
every interval.
-/

namespace RtiAssembly

/-! ## The calls of a routine -/

namespace Statement

variable {α : Type}

@[simp]
theorem callsOf_append (first second : List (Statement α)) :
    callsOf (first ++ second) = callsOf first ++ callsOf second := by
  induction first with
  | nil => rfl
  | cons statement rest ih => simp [callsOf, ih]

/-- Statements without calls, one after the other, have no calls. -/
theorem callsOf_eq_nil {statements : List (Statement α)}
    (none : ∀ statement ∈ statements, statement.calls = []) : callsOf statements = [] := by
  induction statements with
  | nil => rfl
  | cons statement rest ih =>
      rw [callsOf, none statement List.mem_cons_self,
        ih fun other mem => none other (List.mem_cons_of_mem statement mem)]
      rfl

@[simp]
theorem calls_set (target : Window) (value : Expr α) : (set target value).calls = [] := rfl

@[simp]
theorem calls_increase (target : Window) (value : Expr α) : (increase target value).calls = [] :=
  rfl

@[simp]
theorem calls_decrease (target : Window) (value : Expr α) : (decrease target value).calls = [] :=
  rfl

@[simp]
theorem calls_run (name : String) (arguments : List Argument) :
    (run name arguments : Statement α).calls = [(.routine name, arguments, none)] := rfl

@[simp]
theorem calls_invoke (function : External) (arguments : List Argument) (status : Option Window) :
    (invoke function arguments status : Statement α).calls =
      [(.external function, arguments, status)] := rfl

@[simp]
theorem callsOf_loadNodeInput (plan : Plan α) (dims : Dimensions) (buffer : Quantity)
    (node : AffineIndex) (withControl : Bool) :
    callsOf (plan.loadNodeInput dims buffer node withControl) = [] := by
  refine callsOf_eq_nil fun statement mem => ?_
  simp only [Plan.loadNodeInput, List.mem_append, List.mem_singleton,
    List.mem_ite_nil_right] at mem
  rcases mem with (rfl | ⟨_, rfl⟩) | ⟨_, rfl⟩ <;> rfl

@[simp]
theorem calls_copy (plan : Plan α) (target source : Quantity)
    (targetOffset sourceOffset : AffineIndex) (length : Nat) :
    (plan.copy target targetOffset source sourceOffset length).calls = [] := rfl

@[simp]
theorem calls_evaluate (plan : Plan α) (function : External) (input output : Quantity) :
    (plan.evaluate function input output).calls =
      [(.external function, [plan.passWhole input, plan.passWhole output], none)] := rfl

end Statement

namespace Program

variable {α : Type}

/-- Whether the calls of a routine resolve, given the routines before it. -/
def resolvesCalls (externals : List External) (earlier : List (Routine α))
    (routine : Routine α) : Bool :=
  (Statement.callsOf routine.body).all fun (callee, arguments, status) =>
    resolves externals earlier callee arguments status

theorem resolveAll_cons (externals : List External) (earlier rest : List (Routine α))
    (routine : Routine α) :
    resolveAll externals earlier (routine :: rest) =
      (resolvesCalls externals earlier routine &&
        resolveAll externals (earlier ++ [routine]) rest) := rfl

/-- Whatever a routine of a program calls is one of its external functions. -/
theorem mem_externalsOf {routines : List (Routine α)} {routine : Routine α}
    {function : External} (mem : routine ∈ routines)
    (called : .external function ∈ routine.callees) : function ∈ externalsOf routines := by
  have kept (functions found : List External) (each : External)
      (known : each ∈ found ∨ each ∈ functions) :
      each ∈ functions.foldl (fun found function =>
        if found.contains function then found else found ++ [function]) found := by
    induction functions generalizing found with
    | nil => simpa using known
    | cons first rest ih =>
        rw [List.foldl_cons]
        apply ih
        split
        · rename_i present
          rcases known with before | here
          · exact .inl before
          · rcases List.mem_cons.1 here with rfl | later
            · exact .inl (by simpa using present)
            · exact .inr later
        · rcases known with before | here
          · exact .inl (List.mem_append_left _ before)
          · rcases List.mem_cons.1 here with rfl | later
            · exact .inl (by simp)
            · exact .inr later
  refine kept _ _ _ (.inr ?_)
  exact List.mem_flatMap.2 ⟨routine, mem, List.mem_filterMap.2 ⟨_, called, rfl⟩⟩

/-- A call of an earlier routine with matching arguments resolves, if no other
routine has its name. -/
theorem resolves_routine {externals : List External} {earlier : List (Routine α)}
    {target : Routine α} {arguments : List Argument} (mem : target ∈ earlier)
    (unique : ∀ other ∈ earlier, other.name = target.name → other = target)
    (matching : matchAll matchesParameter target.parameters arguments = true) :
    resolves externals earlier (.routine target.name) arguments none = true := by
  have found : earlier.find? (fun routine => routine.name == target.name) = some target := by
    cases first : earlier.find? (fun routine => routine.name == target.name) with
    | none => simpa using List.find?_eq_none.1 first target mem
    | some other =>
        have same : other.name = target.name := by simpa using List.find?_some first
        rw [unique other (List.mem_of_find?_eq_some first) same]
  simp [resolves, found, matching]

/-- Calls resolve if those of every routine resolve to the routines before it. -/
theorem resolveAll_of_splits {externals : List External} {earlier routines : List (Routine α)}
    (each : ∀ before routine after, routines = before ++ routine :: after →
      resolvesCalls externals (earlier ++ before) routine = true) :
    resolveAll externals earlier routines = true := by
  induction routines generalizing earlier with
  | nil => rfl
  | cons routine rest ih =>
      rw [resolveAll_cons, Bool.and_eq_true]
      constructor
      · simpa using each [] routine rest rfl
      · refine ih fun before other after split => ?_
        rw [List.append_assoc]
        exact each ([routine] ++ before) other after (by rw [split]; rfl)

/-- An external function of a program can be called with matching arguments. -/
theorem resolves_external {earlier routines : List (Routine α)} {routine : Routine α}
    {function : External} {arguments : List Argument} {status : Option Window}
    (mem : routine ∈ routines)
    (called : (.external function, arguments, status) ∈ Statement.callsOf routine.body)
    (matching : matchAll (fun (_, takesArray) => matchesSignature takesArray) function.signature
      arguments = true)
    (returns : (status.isNone || function.returnsStatus) = true) :
    resolves (externalsOf routines) earlier (.external function) arguments status = true := by
  have declared : function ∈ externalsOf routines :=
    mem_externalsOf mem (List.mem_map.2 ⟨_, called, rfl⟩)
  simp only [resolves, List.contains_iff_mem.2 declared, Bool.true_and, Bool.and_eq_true]
  exact ⟨matching, returns⟩

end Program

/-! ## Arguments of the block routines -/

namespace Objective

open Program

variable {α : Type} [Scalar α] {problem : Problem α}

omit [Scalar α] in
/-- A matrix is passed exactly if it is not known. -/
theorem passed_or_known {known : Option (Matrix α)} {window : Option Window}
    (passed : window.isSome = known.isNone) :
    (∃ given, window = some given ∧ known = none) ∨
      ∃ matrix, window = none ∧ known = some matrix := by
  cases window <;> cases known <;> simp_all

omit [Scalar α] in
/-- A parameter for a matrix that is not known takes the window that is passed for it. -/
theorem matchAll_passed {known : Option (Matrix α)} {window : Option Window} {name : String}
    {rows cols : Nat} (passed : window.isSome = known.isNone)
    (size : ∀ given ∈ window, given.size = rows * cols) (parameters : List Parameter)
    (arguments : List Argument) :
    matchAll matchesParameter
        ((if known.isNone then [⟨name, .array rows cols⟩] else []) ++ parameters)
        ((window.map Argument.reference).toList ++ arguments) =
      matchAll matchesParameter parameters arguments := by
  rcases passed_or_known passed with ⟨given, rfl, rfl⟩ | ⟨matrix, rfl, rfl⟩
  · simp [matchAll, matchesParameter, size given rfl]
  · rfl

/-- A block routine takes the matrices that are not known, then the blocks. -/
theorem matches_blockRoutine {names : BlockNames} {damping : α} {rows cols : Nat}
    {jacobian weight : Option (Matrix α)} {jacobianWindow weightWindow : Option Window}
    {hessian gradient : Window} (jacobianPassed : jacobianWindow.isSome = jacobian.isNone)
    (jacobianSize : ∀ window ∈ jacobianWindow, window.size = rows * cols)
    (weightPassed : weightWindow.isSome = weight.isNone)
    (weightSize : ∀ window ∈ weightWindow, window.size = rows * rows)
    (hessianSize : hessian.size = cols * cols) (gradientSize : gradient.size = cols * rows) :
    matchAll matchesParameter (blockRoutine names damping rows cols jacobian weight).parameters
      ((jacobianWindow.map Argument.reference).toList ++
        (weightWindow.map Argument.reference).toList ++
        [.reference hessian, .reference gradient]) = true := by
  rw [blockRoutine_eq]
  simp only [List.append_assoc, matchAll_passed jacobianPassed jacobianSize,
    matchAll_passed weightPassed weightSize]
  simp [matchAll, matchesParameter, hessianSize, gradientSize]

/-- The cross routine takes the matrices that are not known, then the block. -/
theorem matches_crossRoutine {jacXWindow jacUWindow weightWindow : Option Window}
    {cross : Window} (jacXPassed : jacXWindow.isSome = problem.jacX.isNone)
    (jacXSize : ∀ window ∈ jacXWindow, window.size = problem.dims.ny * problem.dims.nx)
    (jacUPassed : jacUWindow.isSome = problem.jacU.isNone)
    (jacUSize : ∀ window ∈ jacUWindow, window.size = problem.dims.ny * problem.dims.nu)
    (weightPassed : weightWindow.isSome = problem.weight.isNone)
    (weightSize : ∀ window ∈ weightWindow, window.size = problem.dims.ny * problem.dims.ny)
    (crossSize : cross.size = problem.dims.nx * problem.dims.nu) :
    matchAll matchesParameter (crossRoutine problem).parameters
      ((jacXWindow.map Argument.reference).toList ++
        (jacUWindow.map Argument.reference).toList ++
        (weightWindow.map Argument.reference).toList ++ [.reference cross]) = true := by
  rw [crossRoutine_eq]
  simp only [List.append_assoc, matchAll_passed jacXPassed jacXSize,
    matchAll_passed jacUPassed jacUSize, matchAll_passed weightPassed weightSize]
  simp [matchAll, matchesParameter, crossSize]

/-- The weighting is passed exactly if it is not known, with its full size. -/
theorem passes_weightWindow? (node : AffineIndex) :
    (problem.plan.weightWindow? problem.dims problem.flags node).isSome =
        problem.weight.isNone ∧
      ∀ window ∈ problem.plan.weightWindow? problem.dims problem.flags node,
        window.size = problem.dims.ny * problem.dims.ny := by
  unfold Plan.weightWindow?
  cases weight : problem.weight with
  | some _ => simp [weight]
  | none => cases varying : problem.flags.variableWeighting <;> simp [weight, varying]

/-- The window over a derivative in the output of the residual functions. -/
def derivativeWindow? (problem : Problem α) (start : Option Nat) (size : Nat) : Option Window :=
  start.map fun start => problem.plan.flat .objValueOut (.const start) size

/-- The window over the terminal weighting, if it is supplied at run time. -/
def terminalWeightWindow? (problem : Problem α) : Option Window :=
  if problem.plan.has .wN then some (problem.plan.whole .wN) else none

/-- The derivatives are passed exactly if they are not known. -/
theorem passes_derivatives (size : Nat) :
    let layout := problem.plan.layout
    (derivativeWindow? problem layout.stageFx size).isSome = problem.jacX.isNone ∧
      (derivativeWindow? problem layout.stageFu size).isSome = problem.jacU.isNone ∧
      (derivativeWindow? problem layout.terminalFx size).isSome = problem.jacXEnd.isNone := by
  rw [Problem.layout_plan, EvaluationLayout.ofProblem]
  cases problem.jacX <;> cases problem.jacU <;> cases problem.jacXEnd <;> exact ⟨rfl, rfl, rfl⟩

theorem size_derivativeWindow? (start : Option Nat) (size : Nat) :
    ∀ window ∈ derivativeWindow? problem start size, window.size = size := by
  cases start <;> simp [derivativeWindow?]

/-- The terminal weighting is passed exactly if it is not known, with its full size. -/
theorem passes_terminalWeightWindow? :
    (terminalWeightWindow? problem).isSome = problem.terminalWeight.isNone ∧
      ∀ window ∈ terminalWeightWindow? problem,
        window.size = problem.dims.nyn * problem.dims.nyn := by
  unfold terminalWeightWindow?
  cases weight : problem.terminalWeight <;> simp [weight]

section Arguments

variable (problem)

/-- A derivative of a stage as an argument, if it is not known. -/
def derivativeArguments (start? : Option Nat) (length : Nat) : List Argument :=
  (start?.map fun start => problem.plan.passFlat .objValueOut (.const start) length).toList

/-- The weighting of a node as an argument, if it is not known. -/
def weightArguments (node : AffineIndex) : List Argument :=
  ((problem.plan.weightWindow? problem.dims problem.flags node).map Argument.reference).toList

/-- What the routine of the state blocks is called with. -/
def stateArguments (node : AffineIndex) : List Argument :=
  let dims := problem.dims
  derivativeArguments problem problem.plan.layout.stageFx (dims.ny * dims.nx) ++
    weightArguments problem node ++
    [problem.plan.passRows .hessianQ (node.scaled dims.nx) dims.nx,
      problem.plan.passRows .q2 (node.scaled dims.nx) dims.nx]

/-- What the routine of the control blocks is called with. -/
def controlArguments (node : AffineIndex) : List Argument :=
  let dims := problem.dims
  derivativeArguments problem problem.plan.layout.stageFu (dims.ny * dims.nu) ++
    weightArguments problem node ++
    [problem.plan.passRows .hessianR (node.scaled dims.nu) dims.nu,
      problem.plan.passRows .r2 (node.scaled dims.nu) dims.nu]

/-- What the routine of the cross block is called with. -/
def crossArguments (node : AffineIndex) : List Argument :=
  let dims := problem.dims
  derivativeArguments problem problem.plan.layout.stageFx (dims.ny * dims.nx) ++
    derivativeArguments problem problem.plan.layout.stageFu (dims.ny * dims.nu) ++
    weightArguments problem node ++
    [problem.plan.passRows .hessianS (node.scaled dims.nx) dims.nx]

/-- The calls of a stage, one for each kind of block that is computed. -/
theorem stageCalls_eq (node : AffineIndex) :
    let known := KnownBlocks.ofProblem problem
    stageCalls problem problem.plan node =
      (if known.states.isNone then
        [.run stateNames.routine (stateArguments problem node)] else []) ++
      (if known.controls.isNone then
        [.run controlNames.routine (controlArguments problem node)] else []) ++
      (if known.cross.isNone then [.run crossName (crossArguments problem node)] else []) := by
  unfold stageCalls
  simp only [Problem.blocks_plan, Block.computed?_ofOption, Block.isGiven_ofOption]
  cases (KnownBlocks.ofProblem problem).states <;>
    cases (KnownBlocks.ofProblem problem).controls <;>
    cases (KnownBlocks.ofProblem problem).cross <;> rfl

/-- What the routine of the terminal blocks is called with. -/
def terminalArguments : List Argument :=
  let dims := problem.dims
  derivativeArguments problem problem.plan.layout.terminalFx (dims.nyn * dims.nx) ++
    (if problem.plan.has .wN then [problem.plan.passWhole .wN] else []) ++
    [problem.plan.passWhole .hessianQf, problem.plan.passWhole .qN2]

theorem terminalCall_eq :
    terminalCall problem problem.plan =
      if (KnownBlocks.ofProblem problem).terminal.isNone then
        [.run terminalNames.routine (terminalArguments problem)] else [] := by
  unfold terminalCall
  simp only [Problem.blocks_plan, Block.computed?_ofOption]
  cases (KnownBlocks.ofProblem problem).terminal <;> rfl

variable {problem}

theorem derivativeArguments_eq (start : Option Nat) (size : Nat) :
    derivativeArguments problem start size =
      ((derivativeWindow? problem start size).map Argument.reference).toList := by
  cases start <;> rfl

/-- The block routines are called with the windows that are passed. -/
theorem stageArguments_eq (node : AffineIndex) :
    let dims := problem.dims
    let plan := problem.plan
    let fx := (derivativeWindow? problem plan.layout.stageFx (dims.ny * dims.nx)).map
      Argument.reference
    let fu := (derivativeWindow? problem plan.layout.stageFu (dims.ny * dims.nu)).map
      Argument.reference
    let weight := (plan.weightWindow? dims problem.flags node).map Argument.reference
    let blockOf (quantity : Quantity) (rows : Nat) : Argument :=
      .reference (plan.rows quantity (node.scaled rows) rows)
    stateArguments problem node =
        fx.toList ++ weight.toList ++ [blockOf .hessianQ dims.nx, blockOf .q2 dims.nx] ∧
      controlArguments problem node =
        fu.toList ++ weight.toList ++ [blockOf .hessianR dims.nu, blockOf .r2 dims.nu] ∧
      crossArguments problem node =
        fx.toList ++ fu.toList ++ weight.toList ++ [blockOf .hessianS dims.nx] := by
  simp only [stateArguments, controlArguments, crossArguments, derivativeArguments_eq]
  exact ⟨rfl, rfl, rfl⟩

theorem terminalArguments_eq :
    let dims := problem.dims
    let plan := problem.plan
    let fx := (derivativeWindow? problem plan.layout.terminalFx (dims.nyn * dims.nx)).map
      Argument.reference
    terminalArguments problem =
      fx.toList ++ ((terminalWeightWindow? problem).map Argument.reference).toList ++
        [.reference (plan.whole .hessianQf), .reference (plan.whole .qN2)] := by
  simp only [terminalArguments, derivativeArguments_eq, terminalWeightWindow?]
  split <;> rfl

end Arguments

section Calls

variable {externals : List External} {earlier : List (Routine α)}
  (unique : ∀ first ∈ earlier, ∀ second ∈ earlier, second.name = first.name → second = first)
  (present : ∀ routine ∈ blockRoutines problem problem.plan, routine ∈ earlier)

include unique present

/-- The calls of a node go to block routines that the problem has, with matching
arguments. -/
theorem resolves_stageCalls (node : AffineIndex) :
    ∀ call ∈ Statement.callsOf (stageCalls problem problem.plan node),
      resolves externals earlier call.1 call.2.1 call.2.2 = true := by
  obtain ⟨weightPassed, weightSize⟩ := @passes_weightWindow? α _ problem node
  obtain ⟨states_eq, controls_eq, cross_eq⟩ := @stageArguments_eq α _ problem node
  intro call mem
  simp only [stageCalls_eq, states_eq, controls_eq, cross_eq, Option.isNone_iff_eq_none,
    Statement.callsOf_append, List.mem_append] at mem
  rcases mem with (mem | mem) | mem <;> split at mem
  · rename_i states
    have target : blockRoutine stateNames problem.flags.levenbergMarquardt problem.dims.ny
        problem.dims.nx problem.jacX problem.weight ∈ earlier :=
      present _ (by simp [blockRoutines, Problem.blocks_plan, states])
    obtain rfl := List.mem_singleton.1 mem
    exact resolves_routine target (unique _ target) (matches_blockRoutine
      (passes_derivatives _).1 (size_derivativeWindow? _ _) weightPassed weightSize (by simp)
      (by simp [states]))
  · cases mem
  · rename_i controls
    have target : blockRoutine controlNames problem.flags.levenbergMarquardt problem.dims.ny
        problem.dims.nu problem.jacU problem.weight ∈ earlier :=
      present _ (by simp [blockRoutines, Problem.blocks_plan, controls])
    obtain rfl := List.mem_singleton.1 mem
    exact resolves_routine target (unique _ target) (matches_blockRoutine
      (passes_derivatives _).2.1 (size_derivativeWindow? _ _) weightPassed weightSize (by simp)
      (by simp [controls]))
  · cases mem
  · rename_i cross
    have target : crossRoutine problem ∈ earlier :=
      present _ (by simp [blockRoutines, Problem.blocks_plan, cross])
    obtain rfl := List.mem_singleton.1 mem
    exact resolves_routine target (unique _ target) (matches_crossRoutine
      (passes_derivatives _).1 (size_derivativeWindow? _ _) (passes_derivatives _).2.1
      (size_derivativeWindow? _ _) weightPassed weightSize (by simp))
  · cases mem

theorem resolves_terminalCall :
    ∀ call ∈ Statement.callsOf (terminalCall problem problem.plan),
      resolves externals earlier call.1 call.2.1 call.2.2 = true := by
  obtain ⟨weightPassed, weightSize⟩ := @passes_terminalWeightWindow? α _ problem
  intro call mem
  simp only [terminalCall_eq, terminalArguments_eq, Option.isNone_iff_eq_none] at mem
  split at mem
  · rename_i terminal
    have target : blockRoutine terminalNames problem.flags.levenbergMarquardt problem.dims.nyn
        problem.dims.nx problem.jacXEnd problem.terminalWeight ∈ earlier :=
      present _ (by simp [blockRoutines, Problem.blocks_plan, terminal])
    obtain rfl := List.mem_singleton.1 mem
    exact resolves_routine target (unique _ target) (matches_blockRoutine
      (passes_derivatives _).2.2 (size_derivativeWindow? _ _) weightPassed weightSize (by simp)
      (by simp [terminal]))
  · cases mem

theorem resolvesCalls_evaluateRoutine {routines : List (Routine α)}
    (mem : evaluateRoutine problem problem.plan ∈ routines) :
    resolvesCalls (externalsOf routines) earlier (evaluateRoutine problem problem.plan) =
      true := by
  rw [resolvesCalls, List.all_eq_true]
  intro call called
  have here := called
  simp only [evaluateRoutine, Statement.callsOf_append, Statement.callsOf, Statement.calls,
    Statement.calls_evaluate, Statement.calls_copy, Statement.calls_set,
    Statement.callsOf_loadNodeInput, List.mem_append, List.mem_singleton, List.nil_append,
    List.append_nil] at here
  rcases here with (rfl | stage) | rfl | terminal
  · exact resolves_external mem called rfl rfl
  · exact resolves_stageCalls unique present _ call stage
  · exact resolves_external mem called rfl rfl
  · exact resolves_terminalCall unique present call terminal

end Calls

end Objective

namespace Constraints

open Program

variable {α : Type} [Scalar α] {problem : Problem α}

theorem callsOf_pathStage (path : PathConstraint α) (node : AffineIndex) :
    Statement.callsOf (pathStage problem problem.plan path node) =
      [(.external (.constraint path.name),
        [problem.plan.passWhole .conValueIn, problem.plan.passWhole .conValueOut], none)] := by
  simp [pathStage, apply_ite Statement.callsOf, Statement.callsOf]

theorem matches_pathBoundsCall (path : PathConstraint α) (node : Nat) :
    matchAll matchesParameter (pathBoundsRoutine problem problem.plan path).parameters
      [.index (.const (problem.affineOffset node)), .index (.const node),
        problem.plan.passFlat .lbAValues (.const (problem.affineOffset node)) path.dim,
        problem.plan.passFlat .ubAValues (.const (problem.affineOffset node)) path.dim] =
      true := by
  simp [pathBoundsRoutine, matchAll, matchesParameter, Plan.passFlat]

/-- The bounds of a path constraint are written by calls of its routine. -/
theorem calls_pathBounds (path : PathConstraint α) :
    ∀ call ∈ Statement.callsOf (if problem.plan.has .lbAValues then
        (List.range problem.dims.n).map (pathBoundsCall problem problem.plan path) else []),
      ∃ node, call = (.routine pathBoundsName,
        [.index (.const (problem.affineOffset node)), .index (.const node),
          problem.plan.passFlat .lbAValues (.const (problem.affineOffset node)) path.dim,
          problem.plan.passFlat .ubAValues (.const (problem.affineOffset node)) path.dim],
        none) := by
  have listed (nodes : List Nat) :
      Statement.callsOf (nodes.map (pathBoundsCall problem problem.plan path)) =
        nodes.map fun node => (.routine pathBoundsName,
          [.index (.const (problem.affineOffset node)), .index (.const node),
            problem.plan.passFlat .lbAValues (.const (problem.affineOffset node)) path.dim,
            problem.plan.passFlat .ubAValues (.const (problem.affineOffset node)) path.dim],
          none) := by
    induction nodes with
    | nil => rfl
    | cons node rest ih => simp [pathBoundsCall, Statement.callsOf, ih]
  intro call mem
  split at mem
  · rw [listed] at mem
    obtain ⟨node, _, rfl⟩ := List.mem_map.1 mem
    exact ⟨node, rfl⟩
  · cases mem

theorem callsOf_pointPart (row node : Nat) (point : PointConstraint α) :
    Statement.callsOf (pointPart problem problem.plan row node point) =
      [(.external (.constraint point.name),
        [problem.plan.passWhole .conValueIn, problem.plan.passWhole .conValueOut], none)] := by
  simp [pointPart, apply_ite Statement.callsOf, Statement.callsOf, Statement.calls]

/-- Point constraints call nothing but their functions. -/
theorem calls_pointParts (entries : List (Nat × PointConstraint α)) (row : Nat) :
    ∀ call ∈ Statement.callsOf (pointParts problem problem.plan row entries),
      ∃ name, call = (.external (.constraint name),
        [problem.plan.passWhole .conValueIn, problem.plan.passWhole .conValueOut], none) := by
  induction entries generalizing row with
  | nil => exact nofun
  | cons entry rest ih =>
      obtain ⟨node, point⟩ := entry
      intro call mem
      rw [pointParts, Statement.callsOf_append, callsOf_pointPart, List.mem_append,
        List.mem_singleton] at mem
      rcases mem with rfl | later
      · exact ⟨point.name, rfl⟩
      · exact ih _ call later

/-- The constraints call their functions, and the routine for the bounds of the path
constraint. -/
theorem calls_evaluateRoutine :
    ∀ call ∈ Statement.callsOf (evaluateRoutine problem problem.plan).body,
      (∃ name, call = (.external (.constraint name),
        [problem.plan.passWhole .conValueIn, problem.plan.passWhole .conValueOut], none)) ∨
      ∃ path ∈ problem.path, ∃ node, call = (.routine pathBoundsName,
        [.index (.const (problem.affineOffset node)), .index (.const node),
          problem.plan.passFlat .lbAValues (.const (problem.affineOffset node)) path.dim,
          problem.plan.passFlat .ubAValues (.const (problem.affineOffset node)) path.dim],
        none) := by
  intro call called
  simp only [evaluateRoutine, boxSide, Statement.callsOf_append, Statement.callsOf,
    Statement.calls_set, List.nil_append, List.append_nil, List.mem_append] at called
  rcases called with path | point
  · cases known : problem.path with
    | none =>
        rw [known] at path
        cases path
    | some constraint =>
        simp only [known, Option.elim_some, pathPart, Statement.callsOf_append,
          Statement.callsOf, Statement.calls, callsOf_pathStage, List.append_nil,
          List.mem_append, List.mem_singleton] at path
        rcases path with rfl | bounds
        · exact .inl ⟨constraint.name, rfl⟩
        · exact .inr ⟨constraint, rfl, calls_pathBounds constraint call bounds⟩
  · exact .inl (calls_pointParts _ _ call point)

theorem resolvesCalls_evaluateRoutine {earlier routines : List (Routine α)}
    (unique : ∀ first ∈ earlier, ∀ second ∈ earlier, second.name = first.name → second = first)
    (present : ∀ path, problem.path = some path →
      pathBoundsRoutine problem problem.plan path ∈ earlier)
    (mem : evaluateRoutine problem problem.plan ∈ routines) :
    resolvesCalls (externalsOf routines) earlier (evaluateRoutine problem problem.plan) =
      true := by
  rw [resolvesCalls, List.all_eq_true]
  intro call called
  obtain ⟨name, rfl⟩ | ⟨path, known, node, rfl⟩ := calls_evaluateRoutine call called
  · exact resolves_external mem called rfl rfl
  · have target := present path known
    exact resolves_routine target (unique _ target) (matches_pathBoundsCall path node)

end Constraints

namespace Phases

open Program

variable {α : Type} [Scalar α] {problem : Problem α} {earlier routines : List (Routine α)}

theorem resolvesCalls_preparationRoutine
    (unique : ∀ first ∈ earlier, ∀ second ∈ earlier, second.name = first.name → second = first)
    (objective : Objective.evaluateRoutine problem problem.plan ∈ earlier)
    (constraints : Constraints.evaluateRoutine problem problem.plan ∈ earlier)
    (mem : preparationRoutine ∈ routines) :
    resolvesCalls (externalsOf routines) earlier preparationRoutine = true := by
  rw [resolvesCalls, List.all_eq_true]
  intro call called
  have here := called
  simp only [preparationRoutine, Statement.callsOf, Statement.calls_invoke, Statement.calls_run,
    List.append_nil, List.mem_append, List.mem_singleton] at here
  rcases here with rfl | rfl | rfl
  · exact resolves_external mem called rfl rfl
  · exact resolves_routine objective (unique _ objective) rfl
  · exact resolves_routine constraints (unique _ constraints) rfl

/-- The gradient routine takes its blocks, the linear terms supplied at run time
and the node. -/
theorem matches_gradientCall (node : AffineIndex) :
    let dims := problem.dims
    matchAll matchesParameter (Objective.gradientRoutine problem problem.plan).parameters
      ([problem.plan.passFlat .gradientQ (node.scaled dims.nx) dims.nx,
          problem.plan.passFlat .gradientR (node.scaled dims.nu) dims.nu] ++
        linearArguments problem problem.plan node ++ [.index node]) = true := by
  unfold linearArguments
  cases terms : problem.linearTerms with
  | none | given x u =>
      simp [Objective.gradientRoutine, LinearStorage.ofProblem, terms, Objective.passesLinear,
        matchAll, matchesParameter, Plan.passFlat]
  | runtime =>
      cases perNode : Quantity.hasLinearTermsPerNode problem <;>
        simp [Objective.gradientRoutine, LinearStorage.ofProblem, terms, perNode,
          Quantity.hasRuntimeLinearTerms, Objective.passesLinear, matchAll, matchesParameter,
          Plan.passFlat, Plan.passWhole]

/-- The feedback calls the gradient routine and the solver of the quadratic program. -/
theorem calls_feedbackRoutine :
    ∀ call ∈ Statement.callsOf (feedbackRoutine problem problem.plan).body,
      (∃ node : AffineIndex, call = (.routine Objective.gradientName,
        [problem.plan.passFlat .gradientQ (node.scaled problem.dims.nx) problem.dims.nx,
            problem.plan.passFlat .gradientR (node.scaled problem.dims.nu) problem.dims.nu] ++
          linearArguments problem problem.plan node ++ [.index node], none)) ∨
      call = (.external .qpSolve, [], some (ownScalar 0)) := by
  have deviation : Statement.callsOf (initialDeviation problem problem.plan) = [] := by
    unfold initialDeviation
    split <;> rfl
  have arrival : Statement.callsOf (arrivalCost problem problem.plan) = [] := by
    unfold arrivalCost
    cases problem.plan.blocks.q1.given? <;> cases problem.plan.has .dxAC <;> rfl
  intro call called
  simp only [feedbackRoutine, Statement.callsOf_append, deviation, arrival, Statement.callsOf,
    Statement.calls_set, Statement.calls_increase, Statement.calls_decrease,
    Statement.calls_invoke, Statement.calls, Statement.calls_run, List.append_nil,
    List.nil_append, List.mem_append, List.mem_singleton] at called
  rcases called with rfl | rfl
  · exact .inl ⟨_, rfl⟩
  · exact .inr rfl

theorem resolvesCalls_feedbackRoutine
    (unique : ∀ first ∈ earlier, ∀ second ∈ earlier, second.name = first.name → second = first)
    (gradient : Objective.gradientRoutine problem problem.plan ∈ earlier)
    (mem : feedbackRoutine problem problem.plan ∈ routines) :
    resolvesCalls (externalsOf routines) earlier (feedbackRoutine problem problem.plan) =
      true := by
  rw [resolvesCalls, List.all_eq_true]
  intro call called
  obtain ⟨node, rfl⟩ | rfl := calls_feedbackRoutine call called
  · exact resolves_routine gradient (unique _ gradient) (matches_gradientCall node)
  · exact resolves_external mem called rfl rfl

end Phases

namespace Problem

open Program

variable {α : Type} [Scalar α] {problem : Problem α}

/-- No two routines of the program share a name. -/
theorem eq_of_name_eq {first second : Routine α} (firstMem : first ∈ problem.program.routines)
    (secondMem : second ∈ problem.program.routines) (same : second.name = first.name) :
    second = first := by
  have distinct : (problem.program.routines.map Routine.name).Nodup :=
    nodup_routineNames.sublist names_routines
  exact List.inj_on_of_nodup_map distinct secondMem firstMem same

/-- The horizon routines call nothing but external functions. -/
theorem resolvesCalls_horizon {earlier : List (Routine α)} {routine : Routine α}
    (kind : routine = Horizon.simulateRoutine problem problem.plan ∨
      routine = Horizon.objectiveRoutine problem problem.plan ∨
      routine = Phases.arrivalCostRoutine problem.plan)
    (mem : routine ∈ problem.program.routines) :
    resolvesCalls (externalsOf problem.program.routines) earlier routine = true := by
  rw [resolvesCalls, List.all_eq_true]
  intro call called
  have here := called
  rcases kind with rfl | rfl | rfl
  · simp only [Horizon.simulateRoutine, Statement.callsOf_append, Statement.callsOf,
      Statement.calls, Statement.callsOf_loadNodeInput, Statement.calls_invoke,
      Statement.calls_copy, List.append_nil, List.nil_append, List.mem_singleton] at here
    subst here
    exact resolves_external mem called rfl rfl
  · simp only [Horizon.objectiveRoutine, Statement.callsOf_append, Statement.callsOf,
      Statement.calls, Statement.callsOf_loadNodeInput, Statement.calls_evaluate,
      Statement.calls_set, Statement.calls_increase, List.append_nil, List.nil_append,
      List.mem_append, List.mem_singleton] at here
    rcases here with rfl | rfl
    · exact resolves_external mem called rfl rfl
    · exact resolves_external mem called rfl rfl
  · simp only [Phases.arrivalCostRoutine, Statement.callsOf, Statement.calls_invoke,
      List.append_nil, List.mem_singleton] at here
    subst here
    exact resolves_external mem called rfl rfl

/-- The initialization clears and assigns, and calls nothing. -/
theorem callsOf_initializeRoutine :
    Statement.callsOf (Horizon.initializeRoutine problem.plan problem.initialization).body =
      [] := by
  have clears : Statement.callsOf ((problem.plan.table.ofClass .workspace).map
      fun entry => (.clear entry.1 : Statement α)) = [] := by
    refine Statement.callsOf_eq_nil fun statement mem => ?_
    obtain ⟨_, _, rfl⟩ := List.mem_map.1 mem
    rfl
  have objective : Statement.callsOf (Objective.initialization problem problem.plan) = [] := by
    unfold Objective.initialization
    rw [Statement.callsOf_append]
    cases problem.plan.blocks.q1.given? <;> cases problem.plan.blocks.r1.given? <;>
      cases (problem.plan.blocks.s1.given?.filter fun value => !value.isZero) <;>
      cases problem.plan.blocks.qN1.given? <;> rfl
  have constraints : Statement.callsOf (Constraints.initialization problem problem.plan) = [] := by
    unfold Constraints.initialization
    split
    · rfl
    · refine Statement.callsOf_eq_nil fun statement mem => ?_
      obtain ⟨_, _, rfl⟩ := List.mem_map.1 mem
      rfl
  simp [Horizon.initializeRoutine, initialization, clears, objective, constraints,
    Statement.callsOf]

theorem callsOf_optimalityRoutine :
    Statement.callsOf (Phases.optimalityRoutine problem problem.plan).body = [] := by
  cases fixed : problem.flags.initialStateFixed <;>
    simp [Phases.optimalityRoutine, fixed, apply_ite Statement.callsOf, Statement.callsOf,
      Statement.calls]

theorem callsOf_shiftControlsRoutine :
    Statement.callsOf (Horizon.shiftControlsRoutine problem problem.plan).body = [] := by
  simp [Horizon.shiftControlsRoutine, Horizon.moveBack, Horizon.appendBlock,
    apply_ite Statement.callsOf, Statement.callsOf, Statement.calls]

/-- What stands before a routine does not depend on how the program is split. -/
theorem before_eq {before after first second : List (Routine α)} {routine : Routine α}
    (split : problem.program.routines = before ++ routine :: after)
    (known : problem.program.routines = first ++ routine :: second) : before = first := by
  have distinct : problem.program.routines.Nodup :=
    (nodup_routineNames.sublist names_routines).of_map
  rw [split, List.nodup_append, List.nodup_cons] at distinct
  have notBefore : routine ∉ before :=
    fun mem => distinct.2.2 _ mem _ List.mem_cons_self rfl
  rw [split, List.append_cons_inj_of_notMem notBefore distinct.2.1.1] at known
  exact known.1

/-- The routines that stand before the callers among the routines. -/
theorem splits_routines :
    let objective := Objective.blockRoutines problem problem.plan
    let constraints := objective ++
      [Objective.evaluateRoutine problem problem.plan,
        Objective.gradientRoutine problem problem.plan] ++
      (problem.path.map (Constraints.pathBoundsRoutine problem problem.plan)).toList
    let preparation := constraints ++
      [Constraints.evaluateRoutine problem problem.plan,
        Horizon.initializeRoutine problem.plan problem.initialization,
        Horizon.simulateRoutine problem problem.plan,
        Horizon.shiftStatesRoutine problem problem.plan,
        Horizon.shiftControlsRoutine problem problem.plan,
        Horizon.objectiveRoutine problem problem.plan]
    (∃ after, problem.program.routines =
        objective ++ Objective.evaluateRoutine problem problem.plan :: after) ∧
      (∃ after, problem.program.routines =
        constraints ++ Constraints.evaluateRoutine problem problem.plan :: after) ∧
      (∃ after, problem.program.routines = preparation ++ Phases.preparationRoutine :: after) ∧
      ∃ after, problem.program.routines =
        (preparation ++ [Phases.preparationRoutine]) ++
          Phases.feedbackRoutine problem problem.plan :: after := by
  rw [routines_program]
  simp only [List.append_assoc, List.cons_append, List.nil_append]
  exact ⟨⟨_, rfl⟩, ⟨_, rfl⟩, ⟨_, rfl⟩, ⟨_, rfl⟩⟩

/-- All calls of the program resolve. -/
theorem resolveAll_program :
    resolveAll problem.program.externals [] problem.program.routines = true := by
  rw [show problem.program.externals = externalsOf problem.program.routines from rfl]
  obtain ⟨⟨_, objective⟩, ⟨_, constraints⟩, ⟨_, preparation⟩, ⟨_, feedback⟩⟩ :=
    @splits_routines α _ problem
  have quiet (routine : Routine α) (none : Statement.callsOf routine.body = [])
      (before after : List (Routine α))
      (_ : problem.program.routines = before ++ routine :: after) :
      resolvesCalls (externalsOf problem.program.routines) before routine = true := by
    rw [resolvesCalls, none]
    rfl
  have here {before after : List (Routine α)} {routine : Routine α}
      (split : problem.program.routines = before ++ routine :: after) :
      routine ∈ problem.program.routines := by
    rw [split]
    exact List.mem_append_right _ List.mem_cons_self
  have unique {before after : List (Routine α)} {routine : Routine α}
      (split : problem.program.routines = before ++ routine :: after) :
      ∀ first ∈ before, ∀ second ∈ before, second.name = first.name → second = first := by
    have inside {other : Routine α} (mem : other ∈ before) :
        other ∈ problem.program.routines := by
      rw [split]
      exact List.mem_append_left _ mem
    exact fun first firstMem second secondMem => eq_of_name_eq (inside firstMem) (inside secondMem)
  have each : ∀ routine ∈ problem.program.routines, ∀ before after,
      problem.program.routines = before ++ routine :: after →
        resolvesCalls (externalsOf problem.program.routines) before routine = true := by
    apply forall_routines
    · exact quiet _ (by rw [Objective.blockRoutine_eq]; rfl)
    · exact quiet _ (by rw [Objective.blockRoutine_eq]; rfl)
    · exact quiet _ (by rw [Objective.crossRoutine_eq]; rfl)
    · exact quiet _ (by rw [Objective.blockRoutine_eq]; rfl)
    · intro before after split
      obtain rfl := before_eq split objective
      exact Objective.resolvesCalls_evaluateRoutine (unique split) (fun _ mem => mem)
        (here split)
    · exact quiet _ rfl
    · exact fun path _ => quiet _ rfl
    · intro before after split
      obtain rfl := before_eq split constraints
      exact Constraints.resolvesCalls_evaluateRoutine (unique split)
        (fun path known => by simp [known]) (here split)
    · exact quiet _ callsOf_initializeRoutine
    · exact fun before after split => resolvesCalls_horizon (.inl rfl) (here split)
    · exact quiet _ rfl
    · exact quiet _ callsOf_shiftControlsRoutine
    · exact fun before after split => resolvesCalls_horizon (.inr (.inl rfl)) (here split)
    · intro before after split
      obtain rfl := before_eq split preparation
      exact @Phases.resolvesCalls_preparationRoutine α _ problem _ _ (unique split) (by simp)
        (by simp) (here split)
    · intro before after split
      obtain rfl := before_eq split feedback
      exact Phases.resolvesCalls_feedbackRoutine (unique split) (by simp) (here split)
    · exact quiet _ callsOf_optimalityRoutine
    · exact fun _ before after split => resolvesCalls_horizon (.inr (.inr rfl)) (here split)
  refine resolveAll_of_splits fun before routine after split => ?_
  exact each routine (here split) before after split

end Problem

end RtiAssembly
