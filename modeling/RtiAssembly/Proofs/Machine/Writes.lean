import RtiAssembly.Routine.Basic

/-!
# What statements write to

The bases that a statement may write to by itself, and those that it names as a
target, which includes what it only lends to a routine.
-/

namespace RtiAssembly

mutual

/-- The bases that a statement stores to, clears or passes on by reference. -/
def Statement.targets {α : Type} : Statement α → List Base
  | .assign target _ _ => [target.base]
  | .clear id => [.global id]
  | .loop _ _ _ body => Statement.targetsOf body
  | .call _ arguments status =>
      (arguments.filterMap Argument.window? ++ status.toList).map Window.base
  | .comment _ => []

/-- The bases that a list of statements stores to, clears or passes on. -/
def Statement.targetsOf {α : Type} : List (Statement α) → List Base
  | [] => []
  | statement :: rest => statement.targets ++ Statement.targetsOf rest

end

mutual

/-- The bases that a statement itself may write to: what it stores to or clears,
and what it hands to an external function.  What it passes to a routine is up to
that routine. -/
def Statement.stores {α : Type} : Statement α → List Base
  | .assign target _ _ => [target.base]
  | .clear id => [.global id]
  | .loop _ _ _ body => Statement.storesOf body
  | .call (.routine _) _ status => status.toList.map Window.base
  | .call (.external _) arguments status =>
      (arguments.filterMap Argument.window? ++ status.toList).map Window.base
  | .comment _ => []

/-- The bases that a list of statements may write to by itself. -/
def Statement.storesOf {α : Type} : List (Statement α) → List Base
  | [] => []
  | statement :: rest => statement.stores ++ Statement.storesOf rest

end

namespace Statement

variable {α : Type}

@[simp]
theorem storesOf_append (first second : List (Statement α)) :
    storesOf (first ++ second) = storesOf first ++ storesOf second := by
  induction first with
  | nil => rfl
  | cons statement rest ih => simp only [List.cons_append, storesOf, ih, List.append_assoc]

@[simp]
theorem stores_set (target : Window) (value : Expr α) : (set target value).stores = [target.base] :=
  rfl

mutual

/-- Whatever a statement writes to is one of its targets. -/
theorem stores_subset : (statement : Statement α) → statement.stores ⊆ statement.targets
  | .assign _ _ _ => List.Subset.refl _
  | .clear _ => List.Subset.refl _
  | .loop _ _ _ body => storesOf_subset body
  | .call (.routine _) _ _ => List.map_subset _ (List.subset_append_right _ _)
  | .call (.external _) _ _ => List.Subset.refl _
  | .comment _ => List.Subset.refl _

theorem storesOf_subset :
    (statements : List (Statement α)) → storesOf statements ⊆ targetsOf statements
  | [] => List.Subset.refl _
  | statement :: rest =>
      List.append_subset.2
        ⟨List.subset_append_of_subset_left _ (stores_subset statement),
          List.subset_append_of_subset_right _ (storesOf_subset rest)⟩

end

mutual

/-- An array that is passed to a call is a target. -/
theorem target_of_argument {call : Callee × List Argument × Option Window} {window : Window}
    (passed : .reference window ∈ call.2.1) :
    (statement : Statement α) → call ∈ statement.calls → window.base ∈ statement.targets
  | .assign _ _ _, mem => nomatch mem
  | .clear _, mem => nomatch mem
  | .loop _ _ _ body, mem => target_of_arguments passed body mem
  | .call _ _ _, mem => by
      obtain rfl := List.mem_singleton.1 mem
      apply List.mem_map_of_mem
      apply List.mem_append_left
      exact List.mem_filterMap.2 ⟨_, passed, rfl⟩
  | .comment _, mem => nomatch mem

theorem target_of_arguments {call : Callee × List Argument × Option Window} {window : Window}
    (passed : .reference window ∈ call.2.1) :
    (statements : List (Statement α)) → call ∈ callsOf statements →
      window.base ∈ targetsOf statements
  | [], mem => nomatch mem
  | statement :: rest, mem =>
      (List.mem_append.1 mem).elim
        (fun here => List.mem_append_left _ (target_of_argument passed statement here))
        fun later => List.mem_append_right _ (target_of_arguments passed rest later)

end

@[simp]
theorem targetsOf_append (first second : List (Statement α)) :
    targetsOf (first ++ second) = targetsOf first ++ targetsOf second := by
  induction first with
  | nil => rfl
  | cons statement rest ih => simp only [List.cons_append, targetsOf, ih, List.append_assoc]

@[simp]
theorem targets_set (target : Window) (value : Expr α) : (set target value).targets = [target.base] :=
  rfl

@[simp]
theorem targets_increase (target : Window) (value : Expr α) :
    (increase target value).targets = [target.base] := rfl

@[simp]
theorem targets_decrease (target : Window) (value : Expr α) :
    (decrease target value).targets = [target.base] := rfl

@[simp]
theorem targets_run (name : String) (arguments : List Argument) :
    (run name arguments : Statement α).targets =
      (arguments.filterMap Argument.window?).map Window.base := by
  simp [run, targets]

@[simp]
theorem targets_invoke (function : External) (arguments : List Argument)
    (status : Option Window) :
    (invoke function arguments status : Statement α).targets =
      (arguments.filterMap Argument.window? ++ status.toList).map Window.base := rfl

end Statement

end RtiAssembly
