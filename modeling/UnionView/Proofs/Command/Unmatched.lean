import Mathlib.Data.List.Basic
import Mathlib.Data.List.Induction
import UnionView.Proofs.Command.Conclusion
import UnionView.Proofs.Command.Status
import UnionView.Proofs.Source.Selection

/-!
# Names that are not found

A name that is asked for is not found exactly if no file with a report has an item of that name, at
any depth of its modules. It does not matter what comes of the item: a name is taken down as soon as
the item is selected. Each name that is not found has one line, and these lines are in the order in
which the names come first among the arguments (`unmatched_names_of_run`).
-/

namespace UnionView

open Command

/-! ### The order of the names -/

/-- Names that are kept once are in the order in which they come first. -/
lemma Command.pairwise_foldl_distinct (keep : String → Bool) (names : List String) :
    ((names.filter keep).foldl
      (fun earlier name => if earlier.contains name then earlier else earlier ++ [name])
        []).Pairwise fun x y => names.idxOf x < names.idxOf y := by
  induction names using List.reverseRecOn with
  | nil => exact .nil
  | append_singleton names last ih =>
    obtain ⟨-, hmem⟩ := nodup_foldl_distinct (names.filter keep) List.nodup_nil
    rw [List.filter_append, List.foldl_append]
    revert ih hmem
    generalize (names.filter keep).foldl _ [] = kept
    intro ih hmem
    have hnames : ∀ name ∈ kept, name ∈ names := by
      intro name hname
      rcases (hmem name).mp hname with h | h
      · exact absurd h List.not_mem_nil
      · exact (List.mem_filter.mp h).1
    have hkept :
        kept.Pairwise fun x y => (names ++ [last]).idxOf x < (names ++ [last]).idxOf y := by
      apply ih.imp_of_mem
      intro x y hx hy hlt
      rwa [List.idxOf_append_of_mem (hnames x hx), List.idxOf_append_of_mem (hnames y hy)]
    by_cases hkeep : keep last = true
    · by_cases hlast : last ∈ kept
      · simpa [hkeep, hlast] using hkept
      · -- a new name comes first at the end, behind all that are kept
        have hnew : last ∉ names := by
          intro hin
          exact hlast ((hmem last).mpr (.inr (List.mem_filter.mpr ⟨hin, hkeep⟩)))
        simp only [hkeep, List.filter_cons_of_pos, List.filter_nil, List.foldl_cons,
          List.foldl_nil, List.contains_iff_mem, hlast, if_false]
        refine List.pairwise_append.mpr ⟨hkept, List.pairwise_singleton _ last, ?_⟩
        intro x hx y hy
        rw [List.mem_singleton.mp hy, List.idxOf_append_of_mem (hnames x hx),
          List.idxOf_append_of_notMem hnew]
        exact Nat.lt_of_lt_of_le (List.idxOf_lt_length_of_mem (hnames x hx)) (Nat.le_add_right _ _)
    · simpa [hkeep] using hkept

/-- The names that are not found are in the order in which they come first. -/
lemma Command.pairwise_unmatchedNames (names : List String) (reports : List FileReport) :
    (unmatchedNames names reports).Pairwise fun x y => names.idxOf x < names.idxOf y :=
  pairwise_foldl_distinct _ names

/-! ### Files with a report -/

/-- There is a report on the file, which is parsed to the items of `file`. -/
def Workplace.Processes (w : Workplace) (fileName : String) (settings : SettingsFile)
    (names : List String) (file : File) : Prop :=
  ∃ text listing report, w.read fileName = .ok text ∧ File.ofText text = .ok (listing, file) ∧
    w.report fileName settings names = .ok report

/-- A report takes down the names of the items that are selected of its file. -/
lemma Workplace.exists_selected {w : Workplace} {fileName : String} {settings : SettingsFile}
    {names : List String} {report : FileReport}
    (h : w.report fileName settings names = .ok report) :
    ∃ file, w.Processes fileName settings names file ∧
      report.selected = (selectAll names file.items).filterMap (·.item.name?) := by
  obtain ⟨text, hread, hreport⟩ := Except.bind_eq_ok_iff.mp h
  obtain ⟨listing, file, base, hfile, -, rfl⟩ := reportOn_eq_ok_iff.mp hreport
  have haccounts := FileReport.accountsFor_ofYields listing base
    (Selected.isDistinct_of_mem_selectAll names file.items) fileName
  exact ⟨file, ⟨text, listing, _, Except.mapError_eq_ok_iff.mp hread, hfile, h⟩, haccounts.selected⟩

/-- A file is parsed to the same items whenever it is processed. -/
lemma Workplace.Processes.unique {w : Workplace} {fileName : String} {settings : SettingsFile}
    {names : List String} {file file' : File} (h : w.Processes fileName settings names file)
    (h' : w.Processes fileName settings names file') : file = file' := by
  obtain ⟨text, listing, _, hread, hfile, -⟩ := h
  obtain ⟨text', listing', _, hread', hfile', -⟩ := h'
  rw [hread] at hread'
  cases hread'
  rw [hfile] at hfile'
  cases hfile'
  rfl

/-- A name that is asked for is in the report exactly if an item of the file has it. -/
lemma Workplace.Processes.mem_selected_iff {w : Workplace} {fileName : String}
    {settings : SettingsFile} {names : List String} {file : File} {report : FileReport}
    {name : String} (h : w.Processes fileName settings names file)
    (hreport : w.report fileName settings names = .ok report) (hname : name ∈ names) :
    name ∈ report.selected ↔ ∃ item : Item, item.IsAmong file.items ∧ item.name? = some name := by
  obtain ⟨file', h', hselected⟩ := Workplace.exists_selected hreport
  rw [hselected, ← h.unique h', List.mem_filterMap]
  exact exists_selected_named_iff hname

namespace Command

variable {a : Arguments} {settings : SettingsFile} {w : Workplace}

/-- Not found are the names that no item of any file with a report has. -/
lemma Arguments.mem_unmatched_iff {name : String} :
    name ∈ a.unmatched settings w ↔ name ∈ a.names ∧
      ∀ fileName ∈ w.discover a.inputs, ∀ file, w.Processes fileName settings a.names file →
        ∀ item : Item, item.IsAmong file.items → item.name? ≠ some name := by
  obtain ⟨-, hiff⟩ :=
    unmatchedNames_spec a.names ((a.results settings w).filterMap FileResult.report?)
  refine (hiff name).trans (and_congr_right fun hname => ?_)
  simp only [Arguments.mem_reports_iff]
  constructor
  · intro h fileName hf file hfile item hamong hitem
    have ⟨_, _, report, _, _, hreport⟩ := hfile
    apply h report ⟨fileName, hf, hreport⟩
    exact (hfile.mem_selected_iff hreport hname).mpr ⟨item, hamong, hitem⟩
  · rintro h report ⟨fileName, hf, hreport⟩ hmem
    obtain ⟨file, hfile, -⟩ := Workplace.exists_selected hreport
    obtain ⟨item, hamong, hitem⟩ := (hfile.mem_selected_iff hreport hname).mp hmem
    exact h fileName hf file hfile item hamong hitem

/-! ### The run -/

/-- What the outcome of a run says of the names that are asked for. -/
structure Outcome.TellsUnmatched (o : Outcome) (a : Arguments) (settings : SettingsFile)
    (w : Workplace) : Prop where
  /-- Each name that is not found has a line, behind those about the files. Behind it only the
  failure to write the output is told. -/
  printed : ∃ failures, o.errors =
      linesText ((a.results settings w).flatMap FileResult.lines ++
        (a.unmatched settings w).map unmatchedLine ++ failures) ∧
    (failures = [] ∨ ∃ fileName failure, a.output = some fileName ∧
      failures = [(CommandError.unwritable fileName failure).line])
  /-- Each name has one line, and they are in the order in which the names come first. -/
  ordered : (a.unmatched settings w).Pairwise fun x y => a.names.idxOf x < a.names.idxOf y
  /-- These are the names that no item of any file with a report has. -/
  unmatched : ∀ name, name ∈ a.unmatched settings w ↔ name ∈ a.names ∧
    ∀ fileName ∈ w.discover a.inputs, ∀ file, w.Processes fileName settings a.names file →
      ∀ item : Item, item.IsAmong file.items → item.name? ≠ some name
  /-- The name of a selected item is not among them, even if an error is all that comes of it. -/
  rejected : ∀ fileName ∈ w.discover a.inputs, ∀ file, w.Processes fileName settings a.names file →
    ∀ listing base, ∀ s ∈ selectAll a.names file.items, (s.yield listing base).generated = none →
      ∀ name, s.item.name? = some name → name ∉ a.unmatched settings w

/-- A run tells of each name that is asked for whether it is found. -/
theorem unmatched_names_of_run {words : List String} {formatter : Option Formatter}
    (used : Arguments.ofWords words = .ok a) (configured : a.settings w = .ok settings) :
    (run words formatter w).TellsUnmatched a settings w := by
  rw [run_eq_outcomeOn formatter used configured]
  refine ⟨?_, pairwise_unmatchedNames _ _, fun name => Arguments.mem_unmatched_iff, ?_⟩
  · exact a.printed_conclude formatter w (a.results settings w)
  · intro fileName hf file hfile listing base s hs _ name hname hmem
    have hamong := (mem_selectAll_iff.mp hs).1
    exact (Arguments.mem_unmatched_iff.mp hmem).2 fileName hf file hfile s.item hamong hname

/-- A place with a file whose items are rejected, one of them inside of two modules, and with a file
that cannot be parsed. -/
def nestedWorkplace : Workplace where
  root := .directory
    [("bad.rs", .file "enum Ghost \x7b".toUTF8),
      ("home.rs", .file "mod m\x7bmod n\x7bstruct Inner;\x7d\x7d
        #[with_switch_case_view = 1] enum Home \x7b\x7d".toUTF8)]

/-- Arguments for both files and four names, one of them twice. -/
def nestedArguments : Arguments where
  inputs := ["home.rs", "bad.rs"]
  names := ["Spirit", "Inner", "Ghost", "Home", "Spirit"]

/-- Two of the names are not found: the one that nothing has, and the one in the file without a
report. -/
theorem unmatched_names_of_nested :
    nestedArguments.unmatched {} nestedWorkplace = ["Spirit", "Ghost"] ∧
      (run ["home.rs", "bad.rs", "-t", "Spirit", "-t", "Inner", "-t", "Ghost", "-tHome",
        "-t=Spirit"] none nestedWorkplace).TellsUnmatched nestedArguments {} nestedWorkplace := by
  constructor
  · decide +kernel
  · apply unmatched_names_of_run
    · decide +kernel
    · rfl

end Command

end UnionView
