import UnionView.Command.Run
import UnionView.Proofs.Source.Report

/-!
# The exit status

What is printed about the inputs are *notices*, each of which is an error or a warning: the
diagnostics of the files, an error for each file without a report and a warning for each name that
is not found. The numbers that decide the exit status are added up apart from the printing, file by
file; they are the numbers of the notices (`foldl_errors`, `foldl_warnings`). So the exit status
says what the notices say (`exitCode_accounts_for_notices`).
-/

namespace UnionView

/-! ### Notices -/

namespace Command

/-- A line about the inputs and what it counts as. -/
structure Notice where
  severity : Severity
  line : String
deriving DecidableEq, Repr

def countOf (severity : Severity) (notices : List Notice) : Nat :=
  notices.countP (·.severity = severity)

/-- The notices about a file: its diagnostics, or one error if there is no report. -/
def FileResult.notices : FileResult → List Notice
  | .ok report =>
    report.diagnostics.map fun d =>
      { severity := d.severity, line := s!"{report.fileName}:{d.text}" }
  | .error e => [{ severity := .error, line := e.message }]

/-- The notice about a name that is not found. -/
def unmatchedNotice (missing : String) : Notice :=
  { severity := .warning, line := unmatchedLine missing }

/-- The results of the files that the inputs stand for. -/
def Arguments.results (a : Arguments) (settings : SettingsFile) (w : Workplace) :
    List FileResult :=
  (w.discover a.inputs).map (w.report · settings a.names)

def Arguments.unmatched (a : Arguments) (settings : SettingsFile) (w : Workplace) : List String :=
  unmatchedNames a.names ((a.results settings w).filterMap FileResult.report?)

/-- All notices, those of the files in the order in which the files are found, and behind them
those about names. -/
def Arguments.notices (a : Arguments) (settings : SettingsFile) (w : Workplace) : List Notice :=
  (a.results settings w).flatMap FileResult.notices ++
    (a.unmatched settings w).map unmatchedNotice

/-! ### Counting -/

/-- A file counts for what is printed about it. -/
structure FileResult.IsCounted (r : FileResult) : Prop where
  errors : r.errors = countOf .error r.notices
  warnings : r.warnings = countOf .warning r.notices

lemma FileResult.lines_eq (r : FileResult) : r.lines = r.notices.map Notice.line := by
  cases r with
  | error e => rfl
  | ok report => simp [lines, notices, FileReport.lines]

lemma countOf_diagnostics (severity : Severity) (fileName : String) (ds : List Diagnostic) :
    countOf severity (ds.map fun d => { severity := d.severity, line := s!"{fileName}:{d.text}" }) =
      ds.countP (·.severity = severity) := by
  unfold countOf
  rw [List.countP_map]
  rfl

/-- A report that says what declarations yield counts every diagnostic under its severity. -/
lemma isCounted_ofYields (fileName : String) (yields : List Yield) :
    FileResult.IsCounted (.ok (.ofYields fileName yields)) := by
  constructor
  · exact (countOf_diagnostics .error fileName _).symm
  · refine Eq.trans ?_ (countOf_diagnostics .warning fileName _).symm
    refine List.countP_congr fun d _ => ?_
    cases hseverity : d.severity <;> simp [Diagnostic.isError, hseverity]

end Command

/-! ### Reports on files -/

/-- The file can be read and parsed, and the settings can be built. -/
def Workplace.CanReport (w : Workplace) (fileName : String) (settings : SettingsFile) : Prop :=
  ∃ text parsed base, w.read fileName = .ok text ∧ File.ofText text = .ok parsed ∧
    settings.build = .ok base

/-- There is a report exactly on the files on which there can be one, and it counts all that it
says. -/
lemma Workplace.report_eq_ok {w : Workplace} {fileName : String} {settings : SettingsFile}
    {names : List String} {report : FileReport}
    (h : w.report fileName settings names = .ok report) :
    w.CanReport fileName settings ∧ report.fileName = fileName ∧
      Command.FileResult.IsCounted (.ok report) := by
  obtain ⟨text, hread, hreport⟩ := Except.bind_eq_ok_iff.mp h
  obtain ⟨listing, file, base, hfile, hbase, rfl⟩ := reportOn_eq_ok_iff.mp hreport
  refine ⟨⟨text, _, base, Except.mapError_eq_ok_iff.mp hread, hfile, hbase⟩, rfl, ?_⟩
  exact Command.isCounted_ofYields fileName _

lemma Workplace.exists_report {w : Workplace} {fileName : String} {settings : SettingsFile}
    (names : List String) (h : w.CanReport fileName settings) :
    ∃ report, w.report fileName settings names = .ok report := by
  obtain ⟨text, ⟨listing, file⟩, base, hread, hfile, hbase⟩ := h
  have hreport : reportOn fileName text settings names = .ok _ :=
    reportOn_eq_ok_iff.mpr ⟨listing, file, base, hfile, hbase, rfl⟩
  exact ⟨_, Except.bind_eq_ok_iff.mpr ⟨text, Except.mapError_eq_ok_iff.mpr hread, hreport⟩⟩

namespace Command

variable {a : Arguments} {settings : SettingsFile} {w : Workplace}

lemma Arguments.isCounted_results : ∀ r ∈ a.results settings w, r.IsCounted := by
  intro r hr
  obtain ⟨fileName, -, rfl⟩ := List.mem_map.mp hr
  cases h : w.report fileName settings a.names with
  | error e => exact ⟨rfl, rfl⟩
  | ok report => exact (Workplace.report_eq_ok h).2.2

/-! ### Adding up -/

/-- Adding up what files count for, file by file, counts the notices about all of them. -/
lemma foldl_countOf {severity : Severity} {count : FileResult → Nat} {results : List FileResult}
    (h : ∀ r ∈ results, count r = countOf severity r.notices) (start : Nat) :
    results.foldl (fun n r => n + count r) start =
      start + countOf severity (results.flatMap FileResult.notices) := by
  induction results generalizing start with
  | nil => rfl
  | cons r results ih =>
    obtain ⟨hr, hresults⟩ := List.forall_mem_cons.mp h
    rw [List.foldl_cons, ih hresults, hr, List.flatMap_cons, countOf, countOf, countOf,
      List.countP_append, Nat.add_assoc]

/-- What is counted as errors are the notices that are errors. -/
lemma Arguments.foldl_errors : (a.results settings w).foldl (· + ·.errors) 0 =
    countOf .error (a.notices settings w) := by
  have hnames (names : List String) : countOf .error (names.map unmatchedNotice) = 0 :=
    List.countP_eq_zero.mpr fun n hn => by
      obtain ⟨name, -, rfl⟩ := List.mem_map.mp hn
      exact of_decide_eq_false rfl
  rw [foldl_countOf fun r hr => (isCounted_results r hr).errors, Nat.zero_add, notices]
  unfold countOf at hnames ⊢
  rw [List.countP_append, hnames, Nat.add_zero]

/-- What is counted as warnings, beginning with the names, are the notices that are warnings. -/
lemma Arguments.foldl_warnings :
    (a.results settings w).foldl (· + ·.warnings) (a.unmatched settings w).length =
      countOf .warning (a.notices settings w) := by
  have hnames (names : List String) :
      countOf .warning (names.map unmatchedNotice) = names.length := by
    unfold countOf
    rw [List.countP_map]
    exact List.countP_eq_length.mpr fun _ _ => rfl
  rw [foldl_countOf fun r hr => (isCounted_results r hr).warnings, notices]
  unfold countOf at hnames ⊢
  rw [List.countP_append, hnames, Nat.add_comm]

lemma countOf_pos_iff {severity : Severity} {notices : List Notice} :
    0 < countOf severity notices ↔ ∃ n ∈ notices, n.severity = severity := by
  unfold countOf
  rw [List.countP_pos_iff]
  simp only [decide_eq_true_eq]

/-! ### Names that are not found -/

/-- One more name to those that are kept, if it is a new one. -/
lemma nodup_foldl_distinct (names : List String) {earlier : List String} (h : earlier.Nodup) :
    (names.foldl (fun earlier name => if earlier.contains name then earlier else earlier ++ [name])
      earlier).Nodup ∧
    ∀ name, name ∈ names.foldl
      (fun earlier name => if earlier.contains name then earlier else earlier ++ [name]) earlier ↔
        name ∈ earlier ∨ name ∈ names := by
  induction names generalizing earlier with
  | nil => exact ⟨h, fun name => by simp⟩
  | cons first names ih =>
    rw [List.foldl_cons]
    by_cases hmem : first ∈ earlier
    · rw [if_pos (List.contains_iff_mem.mpr hmem)]
      obtain ⟨hnodup, hiff⟩ := ih h
      refine ⟨hnodup, fun name => ?_⟩
      rw [hiff, List.mem_cons]
      constructor
      · exact Or.imp_right Or.inr
      · rintro (hname | rfl | hname)
        · exact .inl hname
        · exact .inl hmem
        · exact .inr hname
    · rw [if_neg (mt List.contains_iff_mem.mp hmem)]
      have happend : (earlier ++ [first]).Nodup := by
        rw [List.nodup_append]
        refine ⟨h, List.pairwise_singleton _ first, fun a ha b hb => ?_⟩
        rw [List.mem_singleton.mp hb]
        exact fun heq => hmem (heq ▸ ha)
      obtain ⟨hnodup, hiff⟩ := ih happend
      refine ⟨hnodup, fun name => ?_⟩
      rw [hiff, List.mem_append, List.mem_singleton, List.mem_cons, or_assoc]

/-- Of the names that are asked for, those are unmatched that no report has selected, each of them
once. -/
lemma unmatchedNames_spec (names : List String) (reports : List FileReport) :
    (unmatchedNames names reports).Nodup ∧ ∀ name, name ∈ unmatchedNames names reports ↔
      name ∈ names ∧ ∀ report ∈ reports, name ∉ report.selected := by
  obtain ⟨hnodup, hiff⟩ := nodup_foldl_distinct
    (names.filter (!(reports.flatMap (·.selected)).contains ·)) List.nodup_nil
  refine ⟨hnodup, fun name => (hiff name).trans ?_⟩
  simp

/-! ### Writing -/

end Command

/-- Whether a file can be written is not a matter of the text. -/
lemma Workplace.exists_write {w w' : Workplace} {fileName text : String}
    (h : w.write fileName text = .ok w') (text' : String) :
    ∃ w'', w.write fileName text' = .ok w'' := by
  obtain ⟨start, hstart, h⟩ := Except.bind_eq_ok_iff.mp h
  obtain ⟨names, hnames, h⟩ := Except.bind_eq_ok_iff.mp h
  refine Exists.imp (fun w'' h' => Except.bind_eq_ok_iff.mpr
    ⟨start, hstart, Except.bind_eq_ok_iff.mpr ⟨names, hnames, h'⟩⟩) ?_
  cases hplace : w.root.at? names with
  | none =>
    simp only [hplace] at h
    cases h
  | some e =>
    simp only [hplace] at h ⊢
    cases e with
    | file contents => cases h
    | directory entries =>
      cases hlast : (parts fileName).getLast? with
      | none =>
        simp only [hlast] at h
        cases h
      | some last =>
        -- what is left are conditions on the last part of the file name
        simp only [hlast] at h ⊢
        by_cases hslash : endsWithSlash fileName || last = "." || last = ".."
        · rw [if_pos hslash] at h
          cases h
        · by_cases hlong : longestName < last.utf8ByteSize
          · rw [if_neg hslash, if_pos hlong] at h
            cases h
          · by_cases hdirectory : (entries.lookup last).any Entry.isDirectory
            · rw [if_neg hslash, if_neg hlong, if_pos hdirectory] at h
              cases h
            · rw [if_neg hslash, if_neg hlong, if_neg hdirectory]
              exact ⟨_, rfl⟩

namespace Command

variable {a : Arguments} {settings : SettingsFile} {w : Workplace}

/-! ### The run -/

/-- Nothing is printed exactly if there are no lines. -/
lemma linesText_eq_empty_iff {lines : List String} : linesText lines = "" ↔ lines = [] := by
  cases lines with
  | nil => exact ⟨fun _ => rfl, fun _ => rfl⟩
  | cons line lines =>
    refine ⟨fun h => ?_, nofun⟩
    rw [linesText, List.map_cons, String.join_cons, String.append_eq_empty_iff,
      String.append_eq_empty_iff] at h
    exact absurd h.1.2 (by decide)

/-- What the outcome of a run says of the notices. -/
structure Outcome.AccountsFor (o : Outcome) (a : Arguments) (settings : SettingsFile)
    (w : Workplace) : Prop where
  /-- Every notice is printed once, and nothing else is. -/
  printed : o.errors = linesText ((a.notices settings w).map Notice.line)
  /-- The run fails because of a notice. -/
  status : o.exitCode =
    if (∃ n ∈ a.notices settings w, n.severity = .error) ∨
      a.denyWarnings = true ∧ ∃ n ∈ a.notices settings w, n.severity = .warning then 1 else 0
  /-- A file that cannot be read, parsed or configured has one notice, an error. -/
  failed : ∀ fileName ∈ w.discover a.inputs, ¬w.CanReport fileName settings →
    ∃ e, w.report fileName settings a.names = .error e ∧
      FileResult.notices (w.report fileName settings a.names) = [⟨.error, e.message⟩]
  /-- Any other file has its diagnostics as notices, which are counted under their severities. -/
  reported : ∀ fileName ∈ w.discover a.inputs, w.CanReport fileName settings →
    ∃ report, w.report fileName settings a.names = .ok report ∧
      FileResult.notices (w.report fileName settings a.names) =
        report.diagnostics.map (fun d => ⟨d.severity, s!"{fileName}:{d.text}"⟩) ∧
      FileResult.IsCounted (.ok report)
  /-- The names with a notice are different, and they are those that no report has selected. -/
  distinct : (a.unmatched settings w).Nodup
  unmatched : ∀ name, name ∈ a.unmatched settings w ↔ name ∈ a.names ∧
    ∀ fileName ∈ w.discover a.inputs, ∀ report,
      w.report fileName settings a.names = .ok report → name ∉ report.selected
  /-- A run that prints nothing succeeds. -/
  silent : o.errors = "" → o.exitCode = 0
  /-- A run that succeeds although warnings are denied has printed nothing. -/
  clean : a.denyWarnings = true → o.exitCode = 0 → o.errors = ""

lemma Arguments.mem_reports_iff {report : FileReport} :
    report ∈ (a.results settings w).filterMap FileResult.report? ↔
      ∃ fileName ∈ w.discover a.inputs, w.report fileName settings a.names = .ok report := by
  have hreport (r : FileResult) : r.report? = some report ↔ r = .ok report := by
    cases r <;> simp [FileResult.report?]
  simp only [List.mem_filterMap, hreport, exists_eq_right, Arguments.results, List.mem_map]

/-- The lines that are printed are those of the notices. -/
lemma Arguments.lines_eq : (a.results settings w).flatMap FileResult.lines ++
    (a.unmatched settings w).map unmatchedLine = (a.notices settings w).map Notice.line := by
  have hlines : FileResult.lines = fun r => r.notices.map Notice.line :=
    funext FileResult.lines_eq
  rw [notices, List.map_append, List.map_flatMap, List.map_map, hlines]
  rfl

/-- If the output can be written, the notices are what is printed and what is counted. -/
lemma process_eq (settings : SettingsFile) (formatter : Option Formatter)
    (hwrite : ∀ fileName, a.output = some fileName →
      ∃ text w', w.write fileName text = .ok w') :
    (process a settings formatter w).errors =
        linesText ((a.notices settings w).map Notice.line) ∧
      (process a settings formatter w).exitCode =
        if 0 < countOf .error (a.notices settings w) ||
          (a.denyWarnings && 0 < countOf .warning (a.notices settings w)) then 1 else 0 := by
  rw [← Arguments.lines_eq, ← Arguments.foldl_errors, ← Arguments.foldl_warnings]
  unfold process
  cases houtput : a.output with
  | none => exact ⟨rfl, rfl⟩
  | some fileName =>
    obtain ⟨text, w', hw'⟩ := hwrite fileName houtput
    dsimp only
    split
    · exact ⟨rfl, rfl⟩
    · rename_i failure hfailure
      obtain ⟨w'', hw''⟩ := Workplace.exists_write hw' _
      rw [hw''] at hfailure
      cases hfailure

/-- The exit status of a run says what its notices say: the run fails exactly if there is an error
among them, or a warning while warnings are denied. -/
theorem exitCode_accounts_for_notices {words : List String} {formatter : Option Formatter}
    (used : Arguments.ofWords words = .ok a) (configured : a.settings w = .ok settings)
    (writable : ∀ fileName, a.output = some fileName →
      ∃ text w', w.write fileName text = .ok w') :
    (run words formatter w).AccountsFor a settings w := by
  have hrun : run words formatter w = process a settings formatter w := by
    unfold run Arguments.outcome
    rw [used]
    simp only [configured]
  obtain ⟨hprinted, hexit⟩ := process_eq settings formatter writable
  rw [← hrun] at hprinted hexit
  have hstatus : (run words formatter w).exitCode =
      if (∃ n ∈ a.notices settings w, n.severity = .error) ∨
        a.denyWarnings = true ∧ ∃ n ∈ a.notices settings w, n.severity = .warning
      then 1 else 0 := by
    rw [hexit]
    simp only [← countOf_pos_iff, Bool.or_eq_true, Bool.and_eq_true, decide_eq_true_eq]
  have hsilent : (run words formatter w).errors = "" ↔ a.notices settings w = [] := by
    rw [hprinted, linesText_eq_empty_iff, List.map_eq_nil_iff]
  obtain ⟨hdistinct, hunmatched⟩ :=
    unmatchedNames_spec a.names ((a.results settings w).filterMap FileResult.report?)
  refine ⟨hprinted, hstatus, ?_, ?_, hdistinct, fun name => ?_, fun hempty => ?_, ?_⟩
  · intro fileName _ hcannot
    cases hreport : w.report fileName settings a.names with
    | error e => exact ⟨e, rfl, rfl⟩
    | ok report => exact absurd (Workplace.report_eq_ok hreport).1 hcannot
  · intro fileName _ hcan
    obtain ⟨report, hreport⟩ := Workplace.exists_report a.names hcan
    obtain ⟨-, hname, hcounted⟩ := Workplace.report_eq_ok hreport
    refine ⟨report, hreport, ?_, hcounted⟩
    rw [hreport, ← hname]
    rfl
  · refine (hunmatched name).trans (and_congr_right fun _ => ?_)
    simp only [Arguments.mem_reports_iff]
    exact ⟨fun h fileName hf report hr => h report ⟨fileName, hf, hr⟩,
      fun h report ⟨fileName, hf, hr⟩ => h fileName hf report hr⟩
  · rw [hstatus, hsilent.mp hempty]
    simp
  · intro hdeny hsuccess
    refine hsilent.mpr (List.eq_nil_iff_forall_not_mem.mpr fun n hn => ?_)
    rw [hstatus, if_pos] at hsuccess
    · cases hsuccess
    · cases hseverity : n.severity with
      | error => exact .inl ⟨n, hn, hseverity⟩
      | warning => exact .inr ⟨hdeny, n, hn, hseverity⟩

/-- A place with a file whose declaration draws nothing and a file that cannot be parsed. -/
def mixedWorkplace : Workplace where
  root := .directory
    [("bad.rs", .file "enum".toUTF8),
      ("home.rs", .file "#[with_switch_case_view] enum Home {}".toUTF8)]

/-- Arguments for both files, for a third one that is missing, and for a name that is not found. -/
def mixedWords : List String :=
  ["home.rs", "bad.rs", "gone.rs", "--type", "Ghost", "--type", "Ghost", "--raw"]

/-- Of the four notices two are warnings and two are errors, and the run fails. -/
theorem exitCode_of_mixedWords : ∃ (a : Arguments) (settings : SettingsFile),
    Arguments.ofWords mixedWords = .ok a ∧ a.settings mixedWorkplace = .ok settings ∧
      (a.notices settings mixedWorkplace).map (·.severity) =
        [.warning, .error, .error, .warning] ∧
      (run mixedWords none mixedWorkplace).AccountsFor a settings mixedWorkplace ∧
      (run mixedWords none mixedWorkplace).exitCode = 1 := by
  have hrun : (Arguments.ofWords mixedWords).toOption.bind (fun a =>
      (a.settings mixedWorkplace).toOption.map fun settings =>
        (a.output, (a.notices settings mixedWorkplace).map (·.severity))) =
      some (none, [.warning, .error, .error, .warning]) := by
    decide +kernel
  obtain ⟨a, hused, ha⟩ := Option.bind_eq_some_iff.mp hrun
  obtain ⟨settings, hconfigured, hnotices⟩ := Option.map_eq_some_iff.mp ha
  obtain ⟨houtput, hseverities⟩ := Prod.mk.inj hnotices
  have used := Except.toOption_eq_some_iff.mp hused
  have configured := Except.toOption_eq_some_iff.mp hconfigured
  have writable : ∀ fileName, a.output = some fileName →
      ∃ text w', mixedWorkplace.write fileName text = .ok w' := by
    rw [houtput]
    nofun
  have accounts : (run mixedWords none mixedWorkplace).AccountsFor a settings mixedWorkplace :=
    exitCode_accounts_for_notices used configured writable
  refine ⟨a, settings, used, configured, hseverities, accounts, ?_⟩
  have herror : Severity.error ∈ (a.notices settings mixedWorkplace).map (·.severity) := by
    rw [hseverities]
    decide
  obtain ⟨n, hn, hseverity⟩ := List.mem_map.mp herror
  rw [accounts.status, if_pos (.inl ⟨n, hn, hseverity⟩)]

end Command

end UnionView
