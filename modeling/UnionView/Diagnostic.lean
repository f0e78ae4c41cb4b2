import UnionView.Token.Basic

/-!
# Diagnostics

The generator prints nothing. What it has to say about a declaration is a `Finding`, which points
at a mark; once the listing is known, a finding becomes a `Diagnostic` with a line and a column.
-/

namespace UnionView

/-- How serious a diagnostic is: an error means that nothing was generated. -/
inductive Severity
  | error
  | warning
deriving DecidableEq, Repr

def Severity.text : Severity → String
  | error => "error"
  | warning => "warning"

/-- The declaration that a diagnostic concerns and where it points. -/
structure Location where
  declaration : String
  position : Position := Position.start
deriving DecidableEq, Repr

/-- `line:column (declaration)` -/
def Location.text (l : Location) : String :=
  s!"{l.position.text} ({l.declaration})"

/-- An error or a warning about a declaration. -/
structure Diagnostic where
  severity : Severity
  message : String
  location : Location
deriving DecidableEq, Repr

namespace Diagnostic

def isError (d : Diagnostic) : Bool :=
  d.severity = .error

/-- `line:column: severity: message` -/
def text (d : Diagnostic) : String :=
  s!"{d.location.position.text}: {d.severity.text}: {d.message}"

def errorCount (ds : List Diagnostic) : Nat :=
  ds.countP isError

def warningCount (ds : List Diagnostic) : Nat :=
  ds.countP (!·.isError)

theorem errorCount_add_warningCount (ds : List Diagnostic) :
    errorCount ds + warningCount ds = ds.length := by
  induction ds with
  | nil => rfl
  | cons d ds ih =>
    cases h : d.isError <;> simp [errorCount, warningCount, h] at ih ⊢ <;> omega

end Diagnostic

/-- A diagnostic whose place is still a mark. -/
structure Finding where
  severity : Severity
  message : String
  declaration : String
  mark : Mark
deriving DecidableEq, Repr

namespace Finding

def isError (f : Finding) : Bool :=
  f.severity = .error

def placedIn (listing : Listing) (f : Finding) : Diagnostic :=
  { severity := f.severity
    message := f.message
    location := { declaration := f.declaration, position := listing.positionAt f.mark } }

end Finding

/-- The diagnostics that were reported, in order. -/
structure Collector where
  diagnostics : List Diagnostic := []
deriving DecidableEq, Repr

namespace Collector

def report (c : Collector) (d : Diagnostic) : Collector :=
  { diagnostics := c.diagnostics ++ [d] }

def reportAll (c : Collector) (ds : List Diagnostic) : Collector :=
  ds.foldl report c

/-- How many errors were reported. -/
def errors (c : Collector) : Nat :=
  Diagnostic.errorCount c.diagnostics

/-- How many warnings were reported. -/
def warnings (c : Collector) : Nat :=
  Diagnostic.warningCount c.diagnostics

end Collector

end UnionView
