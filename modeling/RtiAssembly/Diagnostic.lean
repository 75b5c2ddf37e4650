/-!
# Diagnostics

What the generator has to say about a problem.  A diagnostic names the quantity
that it is about rather than a place in a text.  Checks collect diagnostics
beside the value that they produce.
-/

namespace RtiAssembly

/-- The registered kinds of findings. -/
inductive DiagnosticCode
  /-- A dimension is out of range. -/
  | dimension
  /-- A name is no identifier. -/
  | identifier
  /-- Features contradict each other. -/
  | features
  /-- The damping factor is negative or not finite. -/
  | damping
  /-- A given matrix or vector has the wrong shape. -/
  | shape
  /-- Bounds do not fit the bounded quantity. -/
  | bounds
  /-- A weighting is given where it has to vary. -/
  | weighting
  /-- A point constraint lies outside the horizon. -/
  | pointNode
  /-- The outputs of a point constraint do not divide into rows. -/
  | pointWidth
  /-- A path constraint has the wrong shape. -/
  | pathShape
  /-- An array does not fit its declaration, or is declared twice. -/
  | storage
  /-- A window reaches outside its array. -/
  | window
  /-- A program does not meet its obligations. -/
  | obligations
  deriving DecidableEq, Repr

/-- The stable text of a code. -/
def DiagnosticCode.text : DiagnosticCode → String
  | .dimension => "E0001"
  | .identifier => "E0002"
  | .features => "E0003"
  | .damping => "E0004"
  | .shape => "E0100"
  | .bounds => "E0101"
  | .weighting => "E0102"
  | .pointNode => "E0200"
  | .pointWidth => "E0201"
  | .pathShape => "E0202"
  | .storage => "E0300"
  | .window => "E0301"
  | .obligations => "E0600"

/-- Whether a finding stops the generation. -/
inductive Severity
  | error
  | warning
  deriving DecidableEq, Repr

/-- The word for a severity. -/
def Severity.text : Severity → String
  | .error => "error"
  | .warning => "warning"

/-- A finding about a problem. -/
structure Diagnostic where
  code : Option String
  severity : Severity
  /-- The quantity that the finding is about. -/
  subject : Option String
  message : String
  /-- What could be done about it. -/
  hint : Option String
  deriving DecidableEq, Repr

namespace Diagnostic

/-- An error about a quantity. -/
def error (code : DiagnosticCode) (subject message : String) : Diagnostic :=
  ⟨some code.text, .error, some subject, message, none⟩

/-- A warning about a quantity. -/
def warning (code : DiagnosticCode) (subject message : String) : Diagnostic :=
  ⟨some code.text, .warning, some subject, message, none⟩

/-- The diagnostic with a hint. -/
def withHint (diagnostic : Diagnostic) (hint : String) : Diagnostic :=
  { diagnostic with hint := some hint }

/-- Whether the finding stops the generation. -/
def isError (diagnostic : Diagnostic) : Bool :=
  diagnostic.severity == .error

/-- The text of a diagnostic; a hint takes a line of its own. -/
def display (diagnostic : Diagnostic) : String :=
  let code :=
    match diagnostic.code with
    | some code => "[" ++ code ++ "]"
    | none => ""
  let subject :=
    match diagnostic.subject with
    | some subject => subject ++ ": "
    | none => ""
  let hint :=
    match diagnostic.hint with
    | some hint => "\n  hint: " ++ hint
    | none => ""
  diagnostic.severity.text ++ code ++ ": " ++ subject ++ diagnostic.message ++ hint

end Diagnostic

/-- Whether any finding stops the generation. -/
def hasErrors (diagnostics : List Diagnostic) : Bool :=
  diagnostics.any Diagnostic.isError

/-- A value together with the diagnostics found on the way to it. -/
structure Checked (β : Type) where
  value : β
  diagnostics : List Diagnostic

namespace Checked

/-- Checks in sequence list their diagnostics in sequence. -/
instance : Monad Checked where
  pure value := ⟨value, []⟩
  bind first next :=
    let second := next first.value
    ⟨second.value, first.diagnostics ++ second.diagnostics⟩

/-- Note a finding. -/
def report (diagnostic : Diagnostic) : Checked Unit :=
  ⟨(), [diagnostic]⟩

/-- Note a finding if a condition holds. -/
def reportIf (condition : Bool) (diagnostic : Diagnostic) : Checked Unit :=
  if condition then report diagnostic else pure ()

/-- Note a finding and produce nothing. -/
def refuse {β : Type} (diagnostic : Diagnostic) : Checked (Option β) :=
  ⟨none, [diagnostic]⟩

/-- Run a check on something optional. -/
def onOption {β γ : Type} (check : β → Checked (Option γ)) : Option β → Checked (Option γ)
  | none => pure none
  | some value => check value

/-- Run a check on every element of a list. -/
def forAll {β : Type} (items : List β) (check : β → Checked Unit) : Checked Unit :=
  ⟨(), items.flatMap fun item => (check item).diagnostics⟩

end Checked

end RtiAssembly
