import RtiAssembly.Proofs.Problem.WellFormed

/-!
# What an accepted problem keeps

Validation changes neither the dimensions nor the features of a description,
and the matrices and linear terms that are given reach the problem as they are.
-/

namespace RtiAssembly

/-! ## What checks return -/

/-- The rows of a weighting that is given. -/
def Description.Weighting.given? {α : Type} : Description.Weighting α → Option (List (List α))
  | .given rows => some rows
  | .runtime => none

namespace Validation

/-- The linear terms of an accepted problem. -/
def acceptedTerms {α : Type} : Description.LinearTerms α → LinearTerms α
  | .none => .none
  | .runtime => .runtime
  | .given x u => .given x u

variable {α : Type} [Scalar α]

/-- The damping of accepted features is finite. -/
theorem finite_of_checkFlags {flags : Flags α}
    (clean : hasErrors (checkFlags flags).diagnostics = false) :
    Scalar.isFinite flags.levenbergMarquardt = true := by
  simp only [checkFlags, Checked.diagnostics_bind, hasErrors_append, Checked.hasErrors_reportIf,
    hasErrors_error, Bool.and_true, Bool.or_eq_false_iff, Bool.not_eq_false'] at clean
  exact clean.1.1

theorem value_checkMatrix {code : DiagnosticCode} {subject : String} {rows cols : Nat}
    {values : List (List α)}
    (clean : hasErrors (checkMatrix code subject rows cols values).diagnostics = false) :
    (checkMatrix code subject rows cols values).value = some (.ofRows rows cols values) := by
  unfold checkMatrix at clean ⊢
  split at clean
  · simp [wrongShape] at clean
  · split at clean
    · simp at clean
    · rename_i shaped finite
      rw [if_neg shaped, if_neg finite]
      rfl

theorem value_onOption {code : DiagnosticCode} {subject : String} {rows cols : Nat}
    {values : Option (List (List α))}
    (clean : hasErrors (Checked.onOption (checkMatrix code subject rows cols) values).diagnostics =
      false) :
    (Checked.onOption (checkMatrix code subject rows cols) values).value =
      values.map (.ofRows rows cols) := by
  cases values with
  | none => rfl
  | some values => exact value_checkMatrix clean

theorem value_checkWeight {description : Description α}
    (clean : hasErrors (checkWeight description).diagnostics = false) :
    (checkWeight description).value = description.objective.weight.given?.map
      (.ofRows description.dims.ny description.dims.ny) := by
  unfold checkWeight at clean ⊢
  cases given : description.objective.weight with
  | runtime => rfl
  | given rows =>
      simp only [given] at clean ⊢
      split at clean
      · simp at clean
      · rename_i constant
        rw [if_neg constant]
        exact value_checkMatrix clean

theorem value_checkTerminalWeight {description : Description α}
    (clean : hasErrors (checkTerminalWeight description).diagnostics = false) :
    (checkTerminalWeight description).value = description.objective.terminalWeight.given?.map
      (.ofRows description.dims.nyn description.dims.nyn) := by
  unfold checkTerminalWeight at clean ⊢
  cases given : description.objective.terminalWeight with
  | runtime => rfl
  | given rows =>
      simp only [given] at clean ⊢
      exact value_checkMatrix clean

omit [Scalar α] in
theorem value_checkVector {subject : String} {length : Nat} {values : List α}
    (clean : hasErrors (checkVector subject length values).diagnostics = false) :
    (checkVector subject length values).value = some values := by
  unfold checkVector at clean ⊢
  split at clean
  · simp at clean
  · rename_i fits
    rw [if_neg fits]
    rfl

omit [Scalar α] in
theorem value_checkLinearTerms {description : Description α}
    (clean : hasErrors (checkLinearTerms description).diagnostics = false) :
    (checkLinearTerms description).value = acceptedTerms description.objective.linearTerms := by
  unfold checkLinearTerms at clean ⊢
  cases given : description.objective.linearTerms with
  | none => rfl
  | runtime => rfl
  | given x u =>
      simp only [given, Checked.diagnostics_bind, hasErrors_append, Bool.or_eq_false_iff] at clean
      obtain ⟨cleanX, cleanU, _⟩ := clean
      simp only [Checked.value_bind, value_checkVector cleanX, value_checkVector cleanU]
      rfl

end Validation

/-! ## Accepted problems -/

namespace Description

variable {α : Type} [Scalar α] {description : Description α} {problem : Problem α}

/-- An accepted problem keeps the dimensions, the features, every matrix and the
linear terms of its description. -/
structure Keeps (description : Description α) (problem : Problem α) : Prop where
  dims : problem.dims = description.dims
  flags : problem.flags = description.flags
  crossTerm : problem.crossTerm = description.objective.crossTerm
  weight : problem.weight = description.objective.weight.given?.map
    (.ofRows description.dims.ny description.dims.ny)
  terminalWeight : problem.terminalWeight = description.objective.terminalWeight.given?.map
    (.ofRows description.dims.nyn description.dims.nyn)
  jacX : problem.jacX = description.objective.jacobianX.map
    (.ofRows description.dims.ny description.dims.nx)
  jacU : problem.jacU = description.objective.jacobianU.map
    (.ofRows description.dims.ny description.dims.nu)
  jacXEnd : problem.jacXEnd = description.objective.terminalJacobianX.map
    (.ofRows description.dims.nyn description.dims.nx)
  linearTerms : problem.linearTerms = Validation.acceptedTerms description.objective.linearTerms

theorem keeps_of_validate (accepted : description.validate.value = some problem) :
    description.Keeps problem := by
  obtain ⟨_, clean, rfl⟩ := checkContent_of_validate accepted
  simp only [Validation.checkContent, Checked.diagnostics_bind, hasErrors_append,
    Bool.or_eq_false_iff] at clean
  obtain ⟨weight, terminalWeight, jacX, jacU, jacXEnd, linearTerms, _⟩ := clean
  exact {
    dims := rfl
    flags := rfl
    crossTerm := rfl
    weight := Validation.value_checkWeight weight
    terminalWeight := Validation.value_checkTerminalWeight terminalWeight
    jacX := Validation.value_onOption jacX
    jacU := Validation.value_onOption jacU
    jacXEnd := Validation.value_onOption jacXEnd
    linearTerms := Validation.value_checkLinearTerms linearTerms }

theorem finite_of_validate (accepted : description.validate.value = some problem) :
    Scalar.isFinite problem.flags.levenbergMarquardt = true := by
  rw [(keeps_of_validate accepted).flags]
  exact Validation.finite_of_checkFlags
    (Validation.clean_of_checkFrame (checkContent_of_validate accepted).1).2

end Description

end RtiAssembly
