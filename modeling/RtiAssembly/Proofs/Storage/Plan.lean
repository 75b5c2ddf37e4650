import RtiAssembly.Proofs.Problem.WellFormed
import RtiAssembly.Storage.Plan

/-!
# Planned storage

The plan of a well-formed problem always exists, and it can be written down at
once: the table holds the arrays that the problem describes, in the order of
all quantities.  A quantity and its position in the table determine each other.
-/

namespace RtiAssembly

/-! ## Declaring arrays -/

/-- Given content has the declared shape. -/
def ArrayDecl.Agrees {α : Type} (decl : ArrayDecl α) : Prop :=
  ∀ content ∈ decl.given, content.shape = (decl.rows, decl.cols)

namespace ArrayTable

variable {α : Type}

theorem find?_eq_none_iff (table : ArrayTable α) (name : String) :
    table.find? name = none ↔ name ∉ table.arrays.map ArrayDecl.name := by
  simp [find?, List.findIdx?_eq_none_iff, List.mem_map]

theorem declare_eq_ok {table : ArrayTable α} {decl : ArrayDecl α}
    (isNew : decl.name ∉ table.arrays.map ArrayDecl.name) (agrees : decl.Agrees) :
    table.declare decl = .ok ⟨table.arrays ++ [decl]⟩ := by
  have absent := (table.find?_eq_none_iff decl.name).2 isNew
  unfold declare
  rw [absent, Option.isSome_none, if_neg Bool.false_ne_true]
  split
  · rfl
  · rename_i content given
    rw [if_pos (agrees content given)]

/-- Arrays with different names and fitting content can all be declared. -/
theorem declareAll_eq_ok (decls : List (ArrayDecl α)) (table : ArrayTable α)
    (distinct : ((table.arrays ++ decls).map ArrayDecl.name).Nodup)
    (agree : ∀ decl ∈ decls, decl.Agrees) :
    table.declareAll decls = .ok ⟨table.arrays ++ decls⟩ := by
  induction decls generalizing table with
  | nil => simp [declareAll, pure, Except.pure]
  | cons decl rest ih =>
      have isNew : decl.name ∉ table.arrays.map ArrayDecl.name := by
        rw [List.map_append, List.nodup_append] at distinct
        intro mem
        exact distinct.2.2 _ mem decl.name (by simp) rfl
      have declared := declare_eq_ok isNew (agree decl List.mem_cons_self)
      have rest_ok := ih ⟨table.arrays ++ [decl]⟩ (by simpa using distinct)
        fun other mem => agree other (List.mem_cons_of_mem decl mem)
      rw [declareAll, List.foldlM_cons, declared]
      simpa [declareAll, bind, Except.bind] using rest_ok

/-- The arrays of a storage class are those that are declared with it. -/
theorem mem_ofClass {table : ArrayTable α} {storage : StorageClass} {id : Nat}
    {decl : ArrayDecl α} :
    (id, decl) ∈ table.ofClass storage ↔ table.get? id = some decl ∧ decl.storage = storage := by
  simp [ofClass, get?, List.mem_zipIdx_iff_getElem?]

end ArrayTable

/-! ## Quantities of a problem -/

namespace Quantity

theorem mem_all (quantity : Quantity) : quantity ∈ all := by
  cases quantity <;> decide

theorem nodup_map_name_all : (all.map name).Nodup := by decide

variable {α : Type} [Scalar α] {problem : Problem α}

/-- An array that holds a quantity: it has its name, and given content fits. -/
def HeldBy (quantity : Quantity) (decl : ArrayDecl α) : Prop :=
  decl.name = quantity.name ∧ decl.Agrees

omit [Scalar α] in
theorem heldBy_of_variablePart {quantity : Quantity} {present : Bool} {rows cols : Nat}
    {doc : String} {decl : ArrayDecl α}
    (described : quantity.variablePart present rows cols doc = some decl) :
    quantity.HeldBy decl := by
  unfold variablePart at described
  split at described
  · cases described
    exact ⟨rfl, fun _ absent => by cases absent⟩
  · contradiction

omit [Scalar α] in
theorem heldBy_of_workspace? {quantity : Quantity} {present : Bool} {rows cols : Nat}
    {doc : String} {decl : ArrayDecl α}
    (described : quantity.workspace? present rows cols doc = some decl) :
    quantity.HeldBy decl := by
  unfold workspace? at described
  split at described
  · cases described
    exact ⟨rfl, fun _ absent => by cases absent⟩
  · contradiction

omit [Scalar α] in
theorem heldBy_of_boundValues? {quantity : Quantity} {present : Bool} {values : List α}
    {doc : String} {decl : ArrayDecl α}
    (described : quantity.boundValues? problem present values doc = some decl) :
    quantity.HeldBy decl := by
  unfold boundValues? at described
  split at described
  · cases described
    exact ⟨rfl, fun _ given => by cases given; rfl⟩
  · exact heldBy_of_variablePart described

theorem heldBy_of_describe {quantity : Quantity} {decl : ArrayDecl α}
    (described : quantity.describe problem = some decl) : quantity.HeldBy decl := by
  cases quantity <;>
    first
    | exact heldBy_of_variablePart described
    | exact heldBy_of_workspace? described
    | exact heldBy_of_boundValues? described

end Quantity

/-! ## Stacked bounds cover all rows -/

namespace Problem.WellFormed

variable {α : Type} {problem : Problem α}

theorem fits_of_get? (wellFormed : problem.WellFormed) {node : Nat} {point : PointConstraint α}
    (found : problem.points.get? node = some point) : point.Fits problem.dims node := by
  obtain ⟨⟨key, value⟩, first, rfl⟩ := Option.map_eq_some_iff.1 found
  have key_eq : key = node := by simpa using List.find?_some first
  subst key
  exact wellFormed.point_fits _ (List.mem_of_find?_eq_some first)

/-- The bounds of a node's rows are as many as its rows. -/
theorem length_affineRows (wellFormed : problem.WellFormed) (node : Nat) :
    let rows := Validation.affineRows problem.dims.n problem.path problem.points node
    let count := (if node < problem.dims.n then problem.pathDim else 0) +
      (problem.points.get? node).elim 0 PointConstraint.dim
    rows.lower.length = count ∧ rows.upper.length = count := by
  have pathCount : ∀ path ∈ problem.path, node < problem.dims.n →
      (Validation.pathRows path node).lower.length = path.dim ∧
        (Validation.pathRows path node).upper.length = path.dim :=
    fun path known inside => (wellFormed.path_fits path known).length_pathRows inside
  have pointCount : ∀ point ∈ problem.points.get? node,
      point.bounds.lower.length = point.dim ∧ point.bounds.upper.length = point.dim := by
    intro point known
    have fits := wellFormed.fits_of_get? known
    exact ⟨fits.length_lower, fits.length_upper⟩
  simp only [Validation.affineRows, Validation.stack, Problem.pathDim]
  rcases Nat.lt_or_ge node problem.dims.n with inside | outside
  · cases path : problem.path <;> cases point : problem.points.get? node <;> simp_all
  · simp only [if_neg (Nat.not_lt.2 outside)]
    cases path : problem.path <;> cases point : problem.points.get? node <;> simp_all

theorem length_affineBounds (wellFormed : problem.WellFormed) :
    problem.affineBounds.lower.length = problem.affineDim ∧
      problem.affineBounds.upper.length = problem.affineDim := by
  have each := wellFormed.length_affineRows
  rw [wellFormed.affineBounds_eq, affineDim, wellFormed.rowCounts_eq]
  simp only [Validation.affineBounds, Validation.stack, Validation.rowCounts,
    List.length_flatMap, List.map_map, Function.comp_def]
  exact ⟨congrArg List.sum (List.map_congr_left fun node _ => (each node).1),
    congrArg List.sum (List.map_congr_left fun node _ => (each node).2)⟩

/-- Known linear terms fit states and controls. -/
theorem shape_linear (wellFormed : problem.WellFormed) {x u : Matrix α}
    (given : LinearStorage.ofProblem problem = .given x u) :
    x.shape = (problem.dims.nx, 1) ∧ u.shape = (problem.dims.nu, 1) := by
  unfold LinearStorage.ofProblem at given
  split at given
  · contradiction
  · rename_i terms
    cases given
    obtain ⟨states, controls⟩ := wellFormed.length_linear _ _ terms
    exact ⟨congrArg (·, 1) states, congrArg (·, 1) controls⟩
  · split at given <;> contradiction

end Problem.WellFormed

/-! ## The plan -/

section Plan

variable {α : Type} [Scalar α] (problem : Problem α)

/-- The plan of a problem, with the table written down at once. -/
def Problem.plan : Plan α where
  declared := Plan.quantities problem
  table := ⟨Quantity.all.filterMap (·.describe problem)⟩
  blocks := .ofKnown (.ofProblem problem)
  linear := .ofProblem problem
  layout := .ofProblem problem

/-- Each block is known, or computed into its own quantity. -/
theorem Problem.blocks_plan :
    let known := KnownBlocks.ofProblem problem
    let blocks := problem.plan.blocks
    blocks.q1 = .ofOption (known.states.map Prod.fst) .hessianQ ∧
      blocks.q2 = .ofOption (known.states.map Prod.snd) .q2 ∧
      blocks.r1 = .ofOption (known.controls.map Prod.fst) .hessianR ∧
      blocks.r2 = .ofOption (known.controls.map Prod.snd) .r2 ∧
      blocks.s1 = .ofOption known.cross .hessianS ∧
      blocks.qN1 = .ofOption (known.terminal.map Prod.fst) .hessianQf ∧
      blocks.qN2 = .ofOption (known.terminal.map Prod.snd) .qN2 :=
  ⟨rfl, rfl, rfl, rfl, rfl, rfl, rfl⟩

@[simp]
theorem Problem.linear_plan : problem.plan.linear = .ofProblem problem := rfl

@[simp]
theorem Problem.layout_plan : problem.plan.layout = .ofProblem problem := rfl

/-- The names of the arrays are the names of the quantities. -/
theorem Problem.names_plan :
    problem.plan.table.arrays.map ArrayDecl.name =
      problem.plan.declared.map Quantity.name := by
  simp only [plan, Plan.quantities]
  generalize Quantity.all = quantities
  induction quantities with
  | nil => rfl
  | cons quantity rest ih =>
      cases described : quantity.describe problem with
      | none => simpa [described] using ih
      | some decl => simpa [described, (Quantity.heldBy_of_describe described).1] using ih

theorem Problem.nodup_names_plan :
    (problem.plan.table.arrays.map ArrayDecl.name).Nodup := by
  rw [problem.names_plan]
  exact Quantity.nodup_map_name_all.sublist (List.filter_sublist.map _)

variable {problem}

omit [Scalar α] in
theorem Quantity.size_of_boundValues? {quantity : Quantity} {present : Bool} {values : List α}
    {doc : String} {decl : ArrayDecl α}
    (described : quantity.boundValues? problem present values doc = some decl) :
    decl.size = values.length := by
  unfold boundValues? at described
  split at described
  · cases described
    exact Nat.mul_one _
  · unfold variablePart at described
    split at described
    · cases described
      exact Nat.mul_one _
    · contradiction

theorem Plan.expectBounds_eq_ok {quantity : Quantity} {present : Bool} {values : List α}
    {doc : String}
    (described : quantity.describe problem = quantity.boundValues? problem present values doc) :
    Plan.expectBounds problem quantity values.length = .ok () := by
  unfold expectBounds
  split
  · rename_i decl known
    exact if_pos (Quantity.size_of_boundValues? (described ▸ known))
  · rfl

/-- The storage of a well-formed problem can be planned. -/
theorem Problem.WellFormed.ofProblem_eq_ok (wellFormed : problem.WellFormed) :
    Plan.ofProblem problem = .ok problem.plan := by
  have declared : ArrayTable.empty.declareAll (Quantity.all.filterMap (·.describe problem)) =
      .ok problem.plan.table := by
    refine ArrayTable.declareAll_eq_ok _ ArrayTable.empty ?_ ?_
    · exact problem.nodup_names_plan
    · intro decl mem
      obtain ⟨quantity, _, described⟩ := List.mem_filterMap.1 mem
      exact (Quantity.heldBy_of_describe described).2
  have lower : Plan.expectBounds problem .lbValues problem.boxDim = .ok () := by
    rw [← wellFormed.length_boxLower]
    exact Plan.expectBounds_eq_ok rfl
  have upper : Plan.expectBounds problem .ubValues problem.boxDim = .ok () := by
    rw [← wellFormed.length_boxUpper]
    exact Plan.expectBounds_eq_ok rfl
  have affineLower : Plan.expectBounds problem .lbAValues problem.affineDim = .ok () := by
    rw [← wellFormed.length_affineBounds.1]
    exact Plan.expectBounds_eq_ok rfl
  have affineUpper : Plan.expectBounds problem .ubAValues problem.affineDim = .ok () := by
    rw [← wellFormed.length_affineBounds.2]
    exact Plan.expectBounds_eq_ok rfl
  unfold Plan.ofProblem
  rw [declared, lower, upper, affineLower, affineUpper]
  rfl

/-! ## Known and computed blocks -/

namespace Block

omit [Scalar α]

@[simp]
theorem given?_ofOption (value : Option (Matrix α)) (quantity : Quantity) :
    (ofOption value quantity).given? = value := by
  cases value <;> rfl

@[simp]
theorem computed?_ofOption (value : Option (Matrix α)) (quantity : Quantity) :
    (ofOption value quantity).computed? = if value.isNone then some quantity else none := by
  cases value <;> rfl

@[simp]
theorem isGiven_ofOption (value : Option (Matrix α)) (quantity : Quantity) :
    (ofOption value quantity).isGiven = value.isSome := by
  rw [isGiven, given?_ofOption]

end Block

namespace EvaluationLayout

omit [Scalar α]

/-- The derivatives lie behind the values, inside the outputs. -/
theorem derivatives_le (problem : Problem α) :
    let dims := problem.dims
    let layout := ofProblem problem
    dims.ny ≤ layout.stageWidth ∧ dims.nyn ≤ layout.terminalWidth ∧
      (∀ start ∈ layout.stageFx, start + dims.ny * dims.nx ≤ layout.stageWidth) ∧
      (∀ start ∈ layout.stageFu, start + dims.ny * dims.nu ≤ layout.stageWidth) ∧
      (∀ start ∈ layout.terminalFx, start + dims.nyn * dims.nx ≤ layout.terminalWidth) := by
  simp only [ofProblem]
  cases problem.jacX <;> cases problem.jacU <;> cases problem.jacXEnd <;> simp <;> omega

end EvaluationLayout

/-! ## Positions of quantities -/

/-- Filtering by what a function defines and collecting what it gives keep
positions. -/
theorem getElem?_filterMap_idxOf {β γ : Type} [BEq β] [LawfulBEq β] (items : List β)
    (f : β → Option γ) {item : β} (mem : item ∈ items) :
    (items.filterMap f)[(items.filter fun other => (f other).isSome).idxOf item]? = f item := by
  induction items with
  | nil => cases mem
  | cons first rest ih =>
      by_cases same : first = item
      · subst same
        cases value : f first with
        | some result => simp [value]
        | none =>
            have absent : first ∉ rest.filter fun other => (f other).isSome := by
              simp [value]
            have length_eq : (rest.filterMap f).length =
                (rest.filter fun other => (f other).isSome).length := by
              rw [List.length_filterMap_eq_countP, List.countP_eq_length_filter]
            have behind : (rest.filterMap f).length ≤
                (rest.filter fun other => (f other).isSome).idxOf first :=
              Nat.le_of_eq (length_eq.trans (List.idxOf_eq_length absent).symm)
            simpa [value] using behind
      · have later := ih ((List.mem_cons.1 mem).resolve_left (Ne.symm same))
        cases value : f first with
        | none => simpa [value] using later
        | some result => simpa [value, List.idxOf_cons, beq_false_of_ne same] using later

/-- Behind the position of a quantity lies the array that the problem
describes. -/
@[simp]
theorem Problem.get?_id_plan (quantity : Quantity) :
    problem.plan.table.get? (problem.plan.id quantity) = quantity.describe problem :=
  getElem?_filterMap_idxOf Quantity.all (·.describe problem) quantity.mem_all

theorem Problem.has_plan (quantity : Quantity) :
    problem.plan.has quantity = (quantity.describe problem).isSome := by
  simp [plan, Plan.has, Plan.quantities, Quantity.mem_all, List.contains_eq_mem]

/-- Different quantities lie at different positions. -/
theorem Problem.id_plan_inj {first second : Quantity} (present : problem.plan.has first = true) :
    problem.plan.id first = problem.plan.id second ↔ first = second := by
  constructor
  · intro same
    rw [Plan.has, List.contains_iff_mem] at present
    exact (List.idxOf_inj present).1 same
  · exact congrArg _

/-- Every array of the module holds a quantity. -/
theorem Problem.exists_quantity {id : Nat} {decl : ArrayDecl α}
    (found : problem.plan.table.get? id = some decl) :
    ∃ quantity : Quantity, quantity.describe problem = some decl ∧
      problem.plan.id quantity = id := by
  have known : problem.plan.table.arrays[id]? = some decl := found
  obtain ⟨quantity, _, described⟩ := List.mem_filterMap.1 (List.mem_of_getElem? known)
  have here : problem.plan.table.arrays[problem.plan.id quantity]? = some decl :=
    (problem.get?_id_plan quantity).trans described
  refine ⟨quantity, described, ?_⟩
  obtain ⟨inside, _⟩ := List.getElem?_eq_some_iff.1 here
  refine (List.getElem?_inj (by simpa using inside) problem.nodup_names_plan).1 ?_
  rw [List.getElem?_map, List.getElem?_map, here, known]

end Plan

end RtiAssembly
