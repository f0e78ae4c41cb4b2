import Mathlib.Tactic.Lemma
import UnionView.Command.Run

/-!
# What the results of files come to

The command reads the files that its inputs stand for one by one, and concludes from their results
(`process_eq_outcomeOn`). The conclusion is put together from four parts: the lines about the files
and the names, the numbers that decide the exit code, the code that is generated, and the delivery
of the code.
-/

namespace UnionView.Command

/-! ### The parts of a conclusion -/

def reportsOf (results : List FileResult) : List FileReport :=
  results.filterMap FileResult.report?

@[simp] lemma reportsOf_nil : reportsOf [] = [] := rfl

@[simp] lemma reportsOf_append (results results' : List FileResult) :
    reportsOf (results ++ results') = reportsOf results ++ reportsOf results' :=
  List.filterMap_append

@[simp] lemma reportsOf_error_cons (e : SourceError) (results : List FileResult) :
    reportsOf (.error e :: results) = reportsOf results := rfl

@[simp] lemma FileResult.lines_error (e : SourceError) :
    FileResult.lines (.error e) = [e.message] := rfl

namespace Arguments

/-- The names that are asked for and not found in any report. -/
def unmatchedIn (a : Arguments) (results : List FileResult) : List String :=
  unmatchedNames a.names (reportsOf results)

/-- The lines about the files, and behind them those about the names that are not found. -/
def lines (a : Arguments) (results : List FileResult) : List String :=
  results.flatMap FileResult.lines ++ (a.unmatchedIn results).map unmatchedLine

/-- Whether the results make the command fail. -/
def isFailedBy (a : Arguments) (results : List FileResult) : Bool :=
  0 < results.foldl (· + ·.errors) 0 ||
    (a.denyWarnings && 0 < results.foldl (· + ·.warnings) (a.unmatchedIn results).length)

/-- The code of the reports as it is delivered. -/
def finishedCode (a : Arguments) (formatter : Option Formatter) (reports : List FileReport) :
    String :=
  let code := generatedCode reports
  Text.trimEnd (if a.raw || code.isEmpty then code else format formatter code)

def printedCode (a : Arguments) (code : String) : String :=
  if a.output.isSome || code.isEmpty then "" else code ++ "\n"

/-- The workplace after the code is written, and what keeps it from being written. -/
def delivery (a : Arguments) (w : Workplace) (code : String) : Workplace × Option CommandError :=
  match a.output with
  | none => (w, none)
  | some fileName =>
    match w.write fileName (code ++ "\n") with
    | .ok w' => (w', none)
    | .error failure => (w, some (.unwritable fileName failure))

/-- What the results of the files come to. -/
def conclude (a : Arguments) (formatter : Option Formatter) (w : Workplace)
    (results : List FileResult) : Outcome :=
  let code := a.finishedCode formatter (reportsOf results)
  let delivered := a.delivery w code
  { exitCode := if a.isFailedBy results || delivered.2.isSome then 1 else 0
    output := a.printedCode code
    errors := linesText (a.lines results ++ (delivered.2.map CommandError.line).toList)
    workplace := delivered.1 }

/-- The results of files, each of which is read by itself. -/
def resultsOn (a : Arguments) (settings : SettingsFile) (w : Workplace) (files : List String) :
    List FileResult :=
  files.map (w.report · settings a.names)

/-- What files come to. -/
def outcomeOn (a : Arguments) (settings : SettingsFile) (formatter : Option Formatter)
    (w : Workplace) (files : List String) : Outcome :=
  a.conclude formatter w (a.resultsOn settings w files)

end Arguments

/-- The output file can be asked for once, instead of in each part of the conclusion. -/
lemma Arguments.delivery_cases (a : Arguments) (w : Workplace) (failed : Bool)
    (lines : List String) (code : String) :
    { exitCode := if failed || (a.delivery w code).2.isSome then 1 else 0
      output := a.printedCode code
      errors := linesText (lines ++ ((a.delivery w code).2.map CommandError.line).toList)
      workplace := (a.delivery w code).1 : Outcome } =
      match a.output with
      | none =>
        { exitCode := if failed then 1 else 0
          output := if code.isEmpty then "" else code ++ "\n"
          errors := linesText lines
          workplace := w }
      | some fileName =>
        match w.write fileName (code ++ "\n") with
        | .ok w' =>
          { exitCode := if failed then 1 else 0, errors := linesText lines, workplace := w' }
        | .error failure =>
          { exitCode := 1
            errors := linesText (lines ++ [(CommandError.unwritable fileName failure).line])
            workplace := w } := by
  unfold delivery printedCode
  cases a.output with
  | none => simp
  | some fileName =>
    cases hwrite : w.write fileName (code ++ "\n") with
    | ok w' => simp [hwrite]
    | error failure => simp [hwrite]

/-- What comes of the inputs is what the files come to that they stand for. -/
theorem process_eq_outcomeOn (a : Arguments) (settings : SettingsFile)
    (formatter : Option Formatter) (w : Workplace) :
    process a settings formatter w = a.outcomeOn settings formatter w (w.discover a.inputs) := by
  let results := a.resultsOn settings w (w.discover a.inputs)
  exact (a.delivery_cases w (a.isFailedBy results) (a.lines results)
    (a.finishedCode formatter (reportsOf results))).symm

/-- What comes of words that are used is what the files come to that the inputs stand for. -/
lemma run_eq_outcomeOn {words : List String} {a : Arguments} {settings : SettingsFile}
    {w : Workplace} (formatter : Option Formatter) (used : Arguments.ofWords words = .ok a)
    (configured : a.settings w = .ok settings) :
    run words formatter w = a.outcomeOn settings formatter w (w.discover a.inputs) := by
  unfold run Arguments.outcome
  rw [used]
  simp only [configured, process_eq_outcomeOn]

/-- Behind the lines about the results, only the failure to write the output file is printed. -/
lemma Arguments.printed_conclude (a : Arguments) (formatter : Option Formatter) (w : Workplace)
    (results : List FileResult) : ∃ failures,
      (a.conclude formatter w results).errors = linesText (a.lines results ++ failures) ∧
      (failures = [] ∨ ∃ fileName failure, a.output = some fileName ∧
        failures = [(CommandError.unwritable fileName failure).line]) := by
  refine ⟨_, rfl, ?_⟩
  unfold delivery
  cases a.output with
  | none => exact .inl rfl
  | some fileName =>
    cases hwrite : w.write fileName (a.finishedCode formatter (reportsOf results) ++ "\n") with
    | ok w' => simp [hwrite]
    | error failure => exact .inr ⟨fileName, failure, rfl, by simp [hwrite]⟩

end UnionView.Command
