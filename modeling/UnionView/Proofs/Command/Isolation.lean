import UnionView.Proofs.Command.Conclusion
import UnionView.Proofs.Command.Status

/-!
# Files with errors

A file on which there is no report has one line of its own and makes the command fail. Everything
else is made of the reports, so it is the same without the file: the code, the names that are not
found and the lines about the other files (`outcome_without_failed_file`).
-/

namespace UnionView.Command

variable {a : Arguments} {settings : SettingsFile} {w : Workplace}

/-! ### Results without an error -/

/-- The names that are not found are the same without a result that is no report. -/
lemma Arguments.unmatchedIn_without (before after : List FileResult) (e : SourceError) :
    a.unmatchedIn (before ++ .error e :: after) = a.unmatchedIn (before ++ after) := by
  simp [unmatchedIn]

/-- A file with an error counts as one, whatever the others count for. -/
lemma Arguments.isFailedBy_of_error {results : List FileResult} {e : SourceError}
    (h : .error e ∈ results) : a.isFailedBy results = true := by
  have hsum : results.foldl (· + ·.errors) 0 = (results.map FileResult.errors).sum := by
    rw [List.sum_eq_foldl, List.foldl_map]
  have hpos : 0 < (results.map FileResult.errors).sum := by
    apply List.sum_pos_iff_exists_pos_nat.mpr
    exact ⟨1, List.mem_map.mpr ⟨.error e, h, rfl⟩, Nat.one_pos⟩
  simp [isFailedBy, hsum, hpos]

/-! ### Files without a failed one -/

/-- What the outcome for some files keeps if one of them, which has an error, is left out. -/
structure Outcome.Loses (whole rest : Outcome) (earlier : List String) (line : String)
    (later : List String) : Prop where
  /-- The same code is printed. -/
  output : rest.output = whole.output
  /-- The same code is written. -/
  workplace : rest.workplace = whole.workplace
  /-- The file has a line, between those about the files in front of it and the others. -/
  printed : whole.errors = linesText (earlier ++ line :: later)
  /-- The other lines are printed without the file as well, in the same order. -/
  kept : rest.errors = linesText (earlier ++ later)
  /-- The file makes the command fail. -/
  failed : whole.exitCode = 1

/-- A conclusion loses the line of the error, and nothing else, if the error is left out. -/
lemma Arguments.conclude_loses (formatter : Option Formatter) (before after : List FileResult)
    (e : SourceError) :
    ∃ later, (a.conclude formatter w (before ++ .error e :: after)).Loses
      (a.conclude formatter w (before ++ after)) (before.flatMap FileResult.lines) e.message
      (after.flatMap FileResult.lines ++ (a.unmatchedIn (before ++ after)).map unmatchedLine ++
        later) := by
  let code := a.finishedCode formatter (reportsOf before ++ reportsOf after)
  refine ⟨((a.delivery w code).2.map CommandError.line).toList, ?_, ?_, ?_, ?_, ?_⟩
  · simp [conclude]
  · simp [conclude]
  · simp [conclude, lines, unmatchedIn_without, code]
  · simp [conclude, lines, code]
  · have hfailed : a.isFailedBy (before ++ .error e :: after) = true :=
      isFailedBy_of_error (List.mem_append_right before List.mem_cons_self)
    simp [conclude, hfailed]

/-- A file with an error has no part in what comes of the other files. -/
structure Arguments.Isolates (a : Arguments) (settings : SettingsFile)
    (formatter : Option Formatter) (w : Workplace) (before after : List String)
    (fileName : String) (e : SourceError) : Prop where
  /-- A command has the outcome for the files that its inputs stand for, whatever these are. -/
  command : ∀ inputs, process { a with inputs } settings formatter w =
    a.outcomeOn settings formatter w (w.discover inputs)
  /-- The other files have the same results, reports or errors, with the file and without it. -/
  whole : a.resultsOn settings w (before ++ fileName :: after) =
    a.resultsOn settings w before ++ .error e :: a.resultsOn settings w after
  rest : a.resultsOn settings w (before ++ after) =
    a.resultsOn settings w before ++ a.resultsOn settings w after
  /-- The same names are not found. -/
  unmatched : a.unmatchedIn (a.resultsOn settings w (before ++ fileName :: after)) =
    a.unmatchedIn (a.resultsOn settings w (before ++ after))
  /-- The same code is delivered, and the same lines are printed but for the one about the file. -/
  outcome : ∃ later, (a.outcomeOn settings formatter w (before ++ fileName :: after)).Loses
    (a.outcomeOn settings formatter w (before ++ after))
    ((a.resultsOn settings w before).flatMap FileResult.lines) e.message
    ((a.resultsOn settings w after).flatMap FileResult.lines ++
      (a.unmatchedIn (a.resultsOn settings w (before ++ after))).map unmatchedLine ++ later)

/-- A file with an error does not disturb the others: without it, the same code is delivered, the
other files have the same reports, the same names are not found, and the same lines are printed but
for the one about the file. -/
theorem outcome_without_failed_file {before after : List String} {fileName : String}
    {e : SourceError} (formatter : Option Formatter)
    (failed : w.report fileName settings a.names = .error e) :
    a.Isolates settings formatter w before after fileName e := by
  have hwhole : a.resultsOn settings w (before ++ fileName :: after) =
      a.resultsOn settings w before ++ .error e :: a.resultsOn settings w after := by
    simp [Arguments.resultsOn, failed]
  have hrest : a.resultsOn settings w (before ++ after) =
      a.resultsOn settings w before ++ a.resultsOn settings w after := by
    simp [Arguments.resultsOn]
  refine ⟨fun inputs => ?_, hwhole, hrest, ?_, ?_⟩
  · exact process_eq_outcomeOn { a with inputs } settings formatter w
  · rw [hwhole, hrest]
    exact Arguments.unmatchedIn_without _ _ e
  · unfold Arguments.outcomeOn
    rw [hwhole, hrest]
    exact Arguments.conclude_loses formatter _ _ e

/-- Arguments for the files of `mixedWorkplace`, a missing one, and a name that is not found. -/
def mixedArguments : Arguments where
  inputs := ["home.rs", "bad.rs", "gone.rs"]
  names := ["Ghost"]
  raw := true

/-- The file that cannot be parsed does not disturb the one in front of it nor the missing one. -/
theorem outcome_without_bad_file : ∃ e : SourceError,
    mixedWorkplace.discover mixedArguments.inputs = ["home.rs"] ++ "bad.rs" :: ["gone.rs"] ∧
      mixedWorkplace.report "bad.rs" {} mixedArguments.names = .error e ∧
      mixedArguments.Isolates {} none mixedWorkplace ["home.rs"] ["gone.rs"] "bad.rs" e := by
  have hbad : (mixedWorkplace.report "bad.rs" {} mixedArguments.names).toOption.isNone = true := by
    decide +kernel
  cases failed : mixedWorkplace.report "bad.rs" {} mixedArguments.names with
  | ok report => simp [failed, Except.toOption] at hbad
  | error e =>
    refine ⟨e, ?_, rfl, outcome_without_failed_file none failed⟩
    decide +kernel

end UnionView.Command
