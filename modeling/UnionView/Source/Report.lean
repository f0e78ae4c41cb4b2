import UnionView.Directory.Discovery
import UnionView.Dispatch.Expansion
import UnionView.Settings.Loading
import UnionView.Source.Selection

/-!
# Reports

What comes of a source file: every selected declaration yields a dispatcher, with or without a
warning, or one error. A declaration's arguments are laid over the settings for this declaration
alone.
-/

namespace UnionView

/-- A dispatcher as text. -/
structure Generated where
  owner : String
  view : String
  source : String
deriving DecidableEq, Repr

/-- What comes of a source file, in the order of its declarations. -/
structure FileReport where
  fileName : String
  generated : List Generated := []
  diagnostics : List Diagnostic := []
  /-- How many of the diagnostics are errors. -/
  errors : Nat := 0
  /-- How many of the diagnostics are warnings. -/
  warnings : Nat := 0
  /-- The names of the selected declarations that have one. -/
  selected : List String := []
deriving DecidableEq, Repr

/-- Why there is no report on a file. -/
inductive SourceError
  | unreadable (fileName : String) (failure : FileFailure)
  | faulty (fileName : String) (fault : TextFault)
  | settings (error : SettingsError)
deriving DecidableEq, Repr

def SourceError.message : SourceError → String
  | unreadable fileName failure => s!"{fileName}: failed to read: {failure.message}"
  | faulty fileName fault => s!"{fileName}:{fault.position.text}: error: {fault.message}"
  | settings error => error.message

/-! ### One declaration -/

def Artifact.toGenerated (a : Artifact) : Generated :=
  { owner := a.owner, view := a.view, source := a.source }

/-- What stands for the name of a declaration that has none. -/
def namelessDeclaration : String := "<item>"

namespace Selected

/-- The error of a declaration whose arguments are faulty. -/
def argumentError (s : Selected) (fault : Fault) : Finding :=
  { severity := .error
    message := fault.message
    declaration := s.item.name?.getD namelessDeclaration
    mark := fault.mark }

/-- The settings for a declaration: its arguments are laid over the settings for all of them. -/
def settings (s : Selected) (base : Settings) : Except Fault Settings :=
  match s.arguments with
  | none => .ok base
  | some arguments => arguments.map (·.applyTo base)

end Selected

/-! ### Files -/

namespace FileReport

/-- Takes down a diagnostic and counts it. -/
def report (r : FileReport) (d : Diagnostic) : FileReport :=
  let counted : FileReport :=
    match d.severity with
    | .error => { r with errors := r.errors + 1 }
    | .warning => { r with warnings := r.warnings + 1 }
  { counted with diagnostics := r.diagnostics ++ [d] }

/-- Goes on with a selected declaration. If its arguments are faulty, the error is all that comes
of it. -/
def add (listing : Listing) (base : Settings) (r : FileReport) (s : Selected) : FileReport :=
  let named : FileReport := { r with selected := r.selected ++ s.item.name?.toList }
  match s.settings base with
  | .error fault => named.report ((s.argumentError fault).placedIn listing)
  | .ok settings =>
    let expansion := s.item.expand settings
    let told := (expansion.diagnostics listing).foldl report named
    { told with
      generated := told.generated ++ (expansion.artifact.map Artifact.toGenerated).toList }

/-- The diagnostics as lines: `path:line:column: severity: message`. -/
def lines (r : FileReport) : List String :=
  r.diagnostics.map fun d => s!"{r.fileName}:{d.text}"

/-- The generated code, each dispatcher under a line that says what it is. -/
def rendered (r : FileReport) : List String :=
  r.generated.map fun g => s!"// {g.view} for {g.owner} ({r.fileName})\n{g.source}"

def summary (r : FileReport) : String :=
  s!"{r.fileName}: {r.generated.length} generated, {r.errors} error(s), {r.warnings} warning(s)"

end FileReport

/-- The report on a source text. Names ask for declarations that need not have the attribute. The
text is read before the settings are built. -/
def reportOn (fileName text : String) (settings : SettingsFile) (names : List String) :
    Except SourceError FileReport := do
  let (listing, file) ← (File.ofText text).mapError (.faulty fileName)
  let base ← settings.build.mapError .settings
  return (selectAll names file.items).foldl (FileReport.add listing base) { fileName }

def Workplace.report (w : Workplace) (fileName : String) (settings : SettingsFile)
    (names : List String) : Except SourceError FileReport := do
  reportOn fileName (← (w.read fileName).mapError (.unreadable fileName)) settings names

end UnionView
