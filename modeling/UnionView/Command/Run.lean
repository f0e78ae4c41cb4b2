import UnionView.Command.Error
import UnionView.Command.Usage
import UnionView.Source.Report

/-!
# Running the command

The command as a function: from the words of the command line and the files of the workplace to
what is printed, the exit code and the workplace afterwards. Every input file is read on its own;
a file that cannot be read counts as an error and does not keep the others from being read.

Log lines are no part of what is printed, also those that say that a formatter failed. Starting the
worker threads and walking a directory are taken to succeed.
-/

namespace UnionView.Command

/-! ### Formatting -/

/-- What a formatter answers, and whether it succeeded. -/
structure Formatted where
  succeeded : Bool
  output : ByteArray

/-- A program that formats source code: from its arguments and the code to its answer. -/
abbrev Formatter := List String → String → Formatted

def formatterArguments : List String := ["--edition", "2024", "--emit", "stdout"]

/-- The code as the formatter writes it, or as it is if there is no formatter or it fails. -/
def format (formatter : Option Formatter) (code : String) : String :=
  match formatter with
  | none => code
  | some run =>
    let answer := run formatterArguments code
    if answer.succeeded then (String.fromUTF8? answer.output).getD code else code

/-! ### The result -/

/-- What comes of the command. -/
structure Outcome where
  exitCode : Nat
  output : String := ""
  /-- What is printed about errors. -/
  errors : String := ""
  /-- The files afterwards. -/
  workplace : Workplace

def linesText (lines : List String) : String :=
  String.join (lines.map (· ++ "\n"))

namespace UsageError

/-- What comes of arguments that are not used. -/
def outcome (e : UsageError) (w : Workplace) : Outcome :=
  match e with
  | helpWanted => { exitCode := 0, output := helpText, workplace := w }
  | versionWanted => { exitCode := 0, output := versionText, workplace := w }
  | e =>
    { exitCode := 2, errors := linesText [s!"error: {e.message}", "", usageLine], workplace := w }

end UsageError

/-! ### The files -/

/-- What comes of one input file. -/
abbrev FileResult := Except SourceError FileReport

namespace FileResult

def lines : FileResult → List String
  | .ok report => report.lines
  | .error e => [e.message]

def errors : FileResult → Nat
  | .ok report => report.errors
  | .error _ => 1

def warnings : FileResult → Nat
  | .ok report => report.warnings
  | .error _ => 0

def report? : FileResult → Option FileReport
  | .ok report => some report
  | .error _ => none

end FileResult

/-- The names that were asked for and are not found, each once, in the order of the arguments. -/
def unmatchedNames (names : List String) (reports : List FileReport) : List String :=
  let found := reports.flatMap (·.selected)
  (names.filter (!found.contains ·)).foldl
    (fun earlier name => if earlier.contains name then earlier else earlier ++ [name]) []

/-- The line about a name that is not found. -/
def unmatchedLine (missing : String) : String :=
  s!"{name}: warning: no declaration named `{missing}` in the inputs"

def generatedCode (reports : List FileReport) : String :=
  String.intercalate "\n\n" (reports.flatMap (·.rendered))

/-! ### The command -/

/-- What comes of the files, once the settings are there. -/
def process (a : Arguments) (settings : SettingsFile) (formatter : Option Formatter)
    (w : Workplace) : Outcome :=
  let results : List FileResult := (w.discover a.inputs).map (w.report · settings a.names)
  let reports := results.filterMap FileResult.report?
  let missing := unmatchedNames a.names reports
  let lines := results.flatMap FileResult.lines ++ missing.map unmatchedLine
  let errors := results.foldl (· + ·.errors) 0
  let warnings := results.foldl (· + ·.warnings) missing.length
  let code := generatedCode reports
  let code := if a.raw || code.isEmpty then code else format formatter code
  let code := Text.trimEnd code
  let exitCode := if 0 < errors || (a.denyWarnings && 0 < warnings) then 1 else 0
  match a.output with
  | none =>
    { exitCode
      output := if code.isEmpty then "" else code ++ "\n"
      errors := linesText lines
      workplace := w }
  | some fileName =>
    match w.write fileName (code ++ "\n") with
    | .ok w => { exitCode, errors := linesText lines, workplace := w }
    | .error failure =>
      { exitCode := 1
        errors := linesText (lines ++ [(CommandError.unwritable fileName failure).line])
        workplace := w }

/-- What comes of arguments that are used. -/
def Arguments.outcome (a : Arguments) (formatter : Option Formatter) (w : Workplace) : Outcome :=
  match a.settings w with
  | .ok settings => process a settings formatter w
  | .error e =>
    { exitCode := 1, errors := linesText [(CommandError.settings e).line], workplace := w }

/-- What comes of a command line. -/
def run (words : List String) (formatter : Option Formatter) (w : Workplace) : Outcome :=
  match Arguments.ofWords words with
  | .ok a => a.outcome formatter w
  | .error e => e.outcome w

end UnionView.Command
