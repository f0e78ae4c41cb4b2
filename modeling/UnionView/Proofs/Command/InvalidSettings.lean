import Mathlib.Data.Set.List
import UnionView.Proofs.Command.Isolation
import UnionView.Proofs.Directory.Discovery

/-!
# Settings that cannot be built

The settings that the arguments and the file make are built anew for every file, after the file has
been parsed. If they cannot be built there is no report on any file, and each file counts as an
error; so the command fails unless there is no file, which is the case exactly if all inputs are
directories without source files (`exitCode_of_invalid_settings`).
-/

namespace UnionView

open Command

/-! ### Files -/

/-- There is no report on a file if the settings cannot be built. Of a file that can be read and
parsed it is the settings that are told to be wrong. -/
lemma Workplace.report_of_invalid {w : Workplace} {settings : SettingsFile} {cause : SettingsError}
    (invalid : settings.build = .error cause) (fileName : String) (names : List String) :
    ∃ e, w.report fileName settings names = .error e ∧
      ∀ text parsed, w.read fileName = .ok text → File.ofText text = .ok parsed →
        e = .settings cause := by
  cases hreport : w.report fileName settings names with
  | ok report =>
    obtain ⟨⟨_, _, base, -, -, hbase⟩, -⟩ := Workplace.report_eq_ok hreport
    rw [invalid] at hbase
    cases hbase
  | error e =>
    refine ⟨e, rfl, fun text parsed hread hfile => ?_⟩
    have hsettings : w.report fileName settings names = .error (.settings cause) := by
      simp only [Workplace.report, reportOn, hread, hfile, invalid, Except.mapError, bind,
        Except.bind]
    rw [hreport] at hsettings
    exact Except.error.inj hsettings

namespace Command

variable {a : Arguments} {settings : SettingsFile} {w : Workplace}

/-! ### Results without reports -/

lemma reportsOf_errors (errors : List SourceError) :
    reportsOf (errors.map Except.error) = [] := by
  induction errors with
  | nil => rfl
  | cons e errors ih => simp [ih]

/-- Every error has its line. -/
lemma lines_errors (errors : List SourceError) :
    (errors.map Except.error).flatMap FileResult.lines = errors.map SourceError.message := by
  induction errors with
  | nil => rfl
  | cons e errors ih => simp [ih]

/-- The lines of errors are printed in front of all others. -/
lemma Arguments.printed_errors (a : Arguments) (formatter : Option Formatter) (w : Workplace)
    (errors : List SourceError) : ∃ behind,
      (a.conclude formatter w (errors.map Except.error)).errors =
        linesText (errors.map SourceError.message ++ behind) := by
  obtain ⟨failures, hprinted, -⟩ := a.printed_conclude formatter w (errors.map Except.error)
  rw [hprinted, lines, lines_errors, List.append_assoc]
  exact ⟨_, rfl⟩

/-- Without reports every name that is asked for is not found. -/
lemma unmatchedNames_nil_eq_nil_iff {names : List String} :
    unmatchedNames names [] = [] ↔ names = [] := by
  obtain ⟨-, hiff⟩ := unmatchedNames_spec names []
  simp [List.eq_nil_iff_forall_not_mem, hiff]

/-- Without reports there is no code, and the formatter does not run. -/
lemma Arguments.finishedCode_nil (a : Arguments) (formatter : Option Formatter) :
    a.finishedCode formatter [] = "" := by
  have hraw : (a.raw || (generatedCode []).isEmpty) = true := Bool.or_true a.raw
  simp only [finishedCode, hraw, if_true]
  rfl

/-- Errors make the command fail if there are any, and otherwise only names can. -/
lemma Arguments.isFailedBy_errors (a : Arguments) (errors : List SourceError) :
    a.isFailedBy (errors.map Except.error) = true ↔
      errors ≠ [] ∨ a.denyWarnings = true ∧ a.names ≠ [] := by
  cases errors with
  | nil =>
    simp [isFailedBy, unmatchedIn, reportsOf, List.length_pos_iff, unmatchedNames_nil_eq_nil_iff]
  | cons e errors =>
    have hfailed : a.isFailedBy ((e :: errors).map Except.error) = true :=
      isFailedBy_of_error List.mem_cons_self
    simp only [hfailed, ne_eq, reduceCtorEq, not_false_eq_true, true_or]

/-- What is delivered for errors alone is a file with an empty line, if there is an output file. -/
lemma Arguments.isSome_delivery_iff {a : Arguments} {w : Workplace} :
    (a.delivery w "").2.isSome = true ↔
      ∃ fileName failure, a.output = some fileName ∧ w.write fileName "\n" = .error failure := by
  unfold delivery
  cases a.output with
  | none => simp
  | some fileName =>
    have htext : "" ++ "\n" = "\n" := rfl
    cases hwrite : w.write fileName "\n" with
    | ok w' => simp [htext, hwrite]
    | error failure => simp [htext, hwrite]

/-! ### The run -/

/-- What the outcome of a command with settings that cannot be built says of them. -/
structure Outcome.RejectsSettings (o : Outcome) (a : Arguments) (settings : SettingsFile)
    (cause : SettingsError) (w : Workplace) : Prop where
  /-- The command fails unless all inputs are directories without source files. Then it fails only
  for reasons that have nothing to do with the settings. -/
  fails : o.exitCode = 1 ↔
    (∃ input ∈ a.inputs, ¬w.LacksSources input) ∨ (a.denyWarnings = true ∧ a.names ≠ []) ∨
      ∃ fileName failure, a.output = some fileName ∧ w.write fileName "\n" = .error failure
  /-- A command that does not fail succeeds. -/
  succeeds : o.exitCode = 1 ∨ o.exitCode = 0
  /-- No code is printed. -/
  output : o.output = ""
  /-- The line of every file is that of an error. -/
  printed : ∃ errors : List SourceError, ∃ behind,
    (w.discover a.inputs).map (w.report · settings a.names) = errors.map Except.error ∧
      o.errors = linesText (errors.map SourceError.message ++ behind)
  /-- The settings are told to be wrong for every file that can be read and parsed. -/
  told : ∀ fileName ∈ w.discover a.inputs, ∀ text parsed, w.read fileName = .ok text →
    File.ofText text = .ok parsed → w.report fileName settings a.names = .error (.settings cause)

/-- A command whose settings cannot be built fails, unless its inputs are directories without
source files and there is nothing else that makes it fail. -/
theorem exitCode_of_invalid_settings {words : List String} {formatter : Option Formatter}
    {cause : SettingsError} (used : Arguments.ofWords words = .ok a)
    (configured : a.settings w = .ok settings) (invalid : settings.build = .error cause) :
    (run words formatter w).RejectsSettings a settings cause w := by
  have hrange :
      a.resultsOn settings w (w.discover a.inputs) ∈ Set.range (List.map Except.error) := by
    rw [Set.range_list_map]
    intro r hr
    obtain ⟨fileName, -, rfl⟩ := List.mem_map.mp hr
    obtain ⟨e, he, -⟩ := w.report_of_invalid invalid fileName a.names
    exact ⟨e, he.symm⟩
  obtain ⟨errors, herrors⟩ := hrange
  have hnone : errors = [] ↔ ∀ input ∈ a.inputs, w.LacksSources input := by
    rw [← Workplace.discover_eq_nil_iff, ← List.map_eq_nil_iff, herrors]
    exact List.map_eq_nil_iff
  have hcode : a.finishedCode formatter (reportsOf (errors.map Except.error)) = "" := by
    rw [reportsOf_errors, Arguments.finishedCode_nil]
  have hfails : (a.isFailedBy (errors.map Except.error) || (a.delivery w "").2.isSome) = true ↔
      (∃ input ∈ a.inputs, ¬w.LacksSources input) ∨ (a.denyWarnings = true ∧ a.names ≠ []) ∨
        ∃ fileName failure, a.output = some fileName ∧
          w.write fileName "\n" = .error failure := by
    rw [Bool.or_eq_true, Arguments.isFailedBy_errors, Arguments.isSome_delivery_iff, or_assoc,
      Ne, hnone]
    simp only [not_forall, exists_prop]
  rw [run_eq_outcomeOn formatter used configured]
  unfold Arguments.outcomeOn
  rw [← herrors]
  refine ⟨?_, ?_, ?_, ⟨errors, ?_⟩, ?_⟩
  · rw [← hfails]
    simp only [Arguments.conclude, hcode]
    cases a.isFailedBy (errors.map Except.error) || (a.delivery w "").2.isSome <;> simp
  · simp only [Arguments.conclude]
    split
    · exact .inl rfl
    · exact .inr rfl
  · simp [Arguments.conclude, hcode, Arguments.printedCode]
  · obtain ⟨behind, hprinted⟩ := a.printed_errors formatter w errors
    exact ⟨behind, herrors.symm, hprinted⟩
  · intro fileName _ text parsed hread hfile
    obtain ⟨e, he, hsettings⟩ := w.report_of_invalid invalid fileName a.names
    rw [he, hsettings text parsed hread hfile]

/-- A place with a settings file that names no path, an empty directory and a source file. -/
def misledWorkplace : Workplace where
  root := .directory
    [("c.json", .file "\x7b\"runtime\": \"not a path\"\x7d".toUTF8),
      ("home.rs", .file "#[with_switch_case_view] enum Home {}".toUTF8),
      ("screens", .directory [])]

/-- Arguments for the directory and perhaps some files, with these settings. -/
def misledArguments (files : List String) : Arguments where
  inputs := "screens" :: files
  settingsFile := some "c.json"

/-- With the same settings, the command fails if it finds a file and succeeds if it finds none. -/
theorem exitCode_of_misled :
    ∃ (settings : SettingsFile) (cause : SettingsError), settings.build = .error cause ∧
      (run ["screens", "home.rs", "-c", "c.json"] none misledWorkplace).RejectsSettings
        (misledArguments ["home.rs"]) settings cause misledWorkplace ∧
      (run ["screens", "home.rs", "-c", "c.json"] none misledWorkplace).exitCode = 1 ∧
      (run ["screens", "-c", "c.json"] none misledWorkplace).RejectsSettings
        (misledArguments []) settings cause misledWorkplace ∧
      (run ["screens", "-c", "c.json"] none misledWorkplace).exitCode = 0 := by
  let settings : SettingsFile := { runtime := some "not a path" }
  let cause : SettingsError := .invalid (.runtimePath "not a path" "unexpected token")
  have invalid : settings.build = .error cause := by
    decide +kernel
  have configured (files : List String) :
      (misledArguments files).settings misledWorkplace = .ok settings := by
    have hloaded : misledWorkplace.loadSettings "c.json" = .ok settings := by
      decide +kernel
    simp only [misledArguments, Arguments.settings, hloaded]
    rfl
  have both : (run ["screens", "home.rs", "-c", "c.json"] none misledWorkplace).RejectsSettings
      (misledArguments ["home.rs"]) settings cause misledWorkplace :=
    exitCode_of_invalid_settings (by decide +kernel) (configured _) invalid
  have alone : (run ["screens", "-c", "c.json"] none misledWorkplace).RejectsSettings
      (misledArguments []) settings cause misledWorkplace :=
    exitCode_of_invalid_settings (by decide +kernel) (configured _) invalid
  have file : ¬misledWorkplace.LacksSources "home.rs" := by
    rw [← Workplace.expandInput_eq_nil_iff]
    decide +kernel
  have directory : misledWorkplace.LacksSources "screens" := by
    rw [← Workplace.expandInput_eq_nil_iff]
    decide +kernel
  refine ⟨settings, cause, invalid, both, ?_, alone, ?_⟩
  · apply both.fails.mpr
    exact .inl ⟨"home.rs", by simp [misledArguments], file⟩
  · apply alone.succeeds.resolve_left
    rw [alone.fails]
    simp [misledArguments, directory]

end Command

end UnionView
