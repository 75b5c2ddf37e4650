import RtiAssembly.Storage.Quantity
import RtiAssembly.Storage.Table

/-!
# Storage plans

A plan declares the array of every quantity that a problem has, before any
routine is assembled.  It also decides for each Gauss-Newton block whether it
is given or computed, and where linear terms are kept.
-/

namespace RtiAssembly

/-- A block of the Hessian or gradient: known now, or written at run time. -/
inductive Block (α : Type)
  | given (value : Matrix α)
  | computed (quantity : Quantity)

namespace Block

variable {α : Type}

/-- The value of a known block. -/
def given? : Block α → Option (Matrix α)
  | .given value => some value
  | .computed _ => none

/-- The quantity of a block that is written at run time. -/
def computed? : Block α → Option Quantity
  | .given _ => none
  | .computed quantity => some quantity

/-- Whether the block is known. -/
def isGiven (block : Block α) : Bool :=
  block.given?.isSome

/-- The known value, or the quantity that holds the block. -/
def ofOption (value : Option (Matrix α)) (quantity : Quantity) : Block α :=
  value.elim (.computed quantity) .given

end Block

/-- The seven Gauss-Newton blocks. -/
structure GaussNewtonBlocks (α : Type) where
  q1 : Block α
  q2 : Block α
  r1 : Block α
  r2 : Block α
  s1 : Block α
  qN1 : Block α
  qN2 : Block α

namespace GaussNewtonBlocks

variable {α : Type}

/-- The blocks, with the arrays of those that are not known. -/
def ofKnown (known : KnownBlocks α) : GaussNewtonBlocks α where
  q1 := .ofOption (known.states.map Prod.fst) .hessianQ
  q2 := .ofOption (known.states.map Prod.snd) .q2
  r1 := .ofOption (known.controls.map Prod.fst) .hessianR
  r2 := .ofOption (known.controls.map Prod.snd) .r2
  s1 := .ofOption known.cross .hessianS
  qN1 := .ofOption (known.terminal.map Prod.fst) .hessianQf
  qN2 := .ofOption (known.terminal.map Prod.snd) .qN2

/-- The blocks with their names. -/
def named (blocks : GaussNewtonBlocks α) : List (String × Block α) :=
  [("Q1", blocks.q1), ("Q2", blocks.q2), ("R1", blocks.r1), ("R2", blocks.r2),
    ("S1", blocks.s1), ("QN1", blocks.qN1), ("QN2", blocks.qN2)]

end GaussNewtonBlocks

/-- Where the linear terms of the objective are kept. -/
inductive LinearStorage (α : Type)
  | none
  | given (x u : Matrix α)
  /-- One vector for all nodes. -/
  | shared
  /-- One vector for each node. -/
  | perNode

/-- The storage of the linear terms of a problem. -/
def LinearStorage.ofProblem {α : Type} (problem : Problem α) : LinearStorage α :=
  match problem.linearTerms with
  | .none => .none
  | .given x u => .given (.column x) (.column u)
  | .runtime => if Quantity.hasLinearTermsPerNode problem then .perNode else .shared

/-- The storage of a solver. -/
structure Plan (α : Type) where
  /-- The quantities in the order of their declaration. -/
  declared : List Quantity
  table : ArrayTable α
  blocks : GaussNewtonBlocks α
  linear : LinearStorage α
  layout : EvaluationLayout

namespace Plan

variable {α : Type}

/-- Whether the plan declares a quantity. -/
def has (plan : Plan α) (quantity : Quantity) : Bool :=
  plan.declared.contains quantity

/-- The position of a quantity in the table. -/
def id (plan : Plan α) (quantity : Quantity) : Nat :=
  plan.declared.idxOf quantity

/-- The whole array of a quantity. -/
def whole (plan : Plan α) (quantity : Quantity) : Window :=
  plan.table.whole (plan.id quantity)

/-- Consecutive elements of a quantity as a column. -/
def flat (plan : Plan α) (quantity : Quantity) (offset : AffineIndex) (length : Nat) : Window :=
  ArrayTable.flat (plan.id quantity) offset length

/-- Consecutive elements of a quantity as a matrix. -/
def dense (plan : Plan α) (quantity : Quantity) (offset : AffineIndex) (rows cols : Nat) :
    Window :=
  ArrayTable.dense (plan.id quantity) offset rows cols

/-- Whole rows of a quantity. -/
def rows (plan : Plan α) (quantity : Quantity) (first : AffineIndex) (count : Nat) : Window :=
  plan.table.rows (plan.id quantity) first count

variable [Scalar α]

/-- The quantities of a problem. -/
def quantities (problem : Problem α) : List Quantity :=
  Quantity.all.filter fun quantity => (quantity.describe problem).isSome

/-- Refuse stacked bounds that do not cover all rows. -/
def expectBounds (problem : Problem α) (quantity : Quantity) (expected : Nat) :
    Except Diagnostic Unit :=
  match quantity.describe problem with
  | some decl => ArrayTable.expectSize decl expected
  | none => .ok ()

/-- Plan the storage of a problem. -/
def ofProblem (problem : Problem α) : Except Diagnostic (Plan α) := do
  let table ← ArrayTable.empty.declareAll (Quantity.all.filterMap (·.describe problem))
  expectBounds problem .lbValues problem.boxDim
  expectBounds problem .ubValues problem.boxDim
  expectBounds problem .lbAValues problem.affineDim
  expectBounds problem .ubAValues problem.affineDim
  pure
    { declared := quantities problem
      table := table
      blocks := .ofKnown (.ofProblem problem)
      linear := .ofProblem problem
      layout := .ofProblem problem }

end Plan

end RtiAssembly
