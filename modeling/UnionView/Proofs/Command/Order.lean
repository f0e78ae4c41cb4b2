import Mathlib.Data.List.Perm.Basic
import UnionView.Proofs.Command.Isolation
import UnionView.Proofs.Directory.Spelling

/-!
# The order of the inputs

Inputs that are given in another order, or more than once, stand for the same files, of which each
is read by itself. What comes of the files is the same, but for their order and for the spelling of
their names (`findings_of_same_inputs`). It is not quite the same if a file is also given under a
name that is too long: this name is kept, and not read, if it comes first.
-/

namespace UnionView

open FileNamePart Command

/-! ### Results without names -/

/-- The error without the name of the file. -/
def SourceError.unnamed : SourceError → SourceError
  | unreadable _ failure => unreadable "" failure
  | faulty _ fault => faulty "" fault
  | settings error => settings error

def FileReport.unnamed (r : FileReport) : FileReport :=
  { r with fileName := "" }

namespace Command

/-- What comes of a file, without its name. -/
def FileResult.unnamed : FileResult → FileResult
  | .ok report => .ok report.unnamed
  | .error e => .error e.unnamed

@[simp] lemma FileResult.errors_unnamed (r : FileResult) : r.unnamed.errors = r.errors := by
  cases r <;> rfl

@[simp] lemma FileResult.warnings_unnamed (r : FileResult) : r.unnamed.warnings = r.warnings := by
  cases r <;> rfl

@[simp] lemma FileResult.report?_unnamed (r : FileResult) :
    r.unnamed.report? = r.report?.map FileReport.unnamed := by
  cases r <;> rfl

end Command

/-- Of files that are read alike comes the same. -/
lemma Workplace.unnamed_report_eq {w : Workplace} {x y : String} (h : w.read x = w.read y)
    (settings : SettingsFile) (names : List String) :
    FileResult.unnamed (w.report x settings names) =
      FileResult.unnamed (w.report y settings names) := by
  unfold Workplace.report
  rw [← h]
  cases w.read x with
  | error failure => rfl
  | ok text =>
    show FileResult.unnamed (reportOn x text settings names) =
      FileResult.unnamed (reportOn y text settings names)
    unfold reportOn
    cases File.ofText text with
    | error fault => rfl
    | ok parsed =>
      cases settings.build with
      | error e => rfl
      | ok base =>
        have hreport (fileName : String) :
            (selectAll names parsed.2.items).foldl (FileReport.add parsed.1 base) { fileName } =
              .ofYields fileName ((selectAll names parsed.2.items).map (·.yield parsed.1 base)) :=
          FileReport.foldl_add_ofYields parsed.1 base fileName [] _
        show FileResult.unnamed (.ok (List.foldl _ _ _)) =
          FileResult.unnamed (.ok (List.foldl _ _ _))
        rw [hreport, hreport]
        rfl

/-! ### Files in another order -/

/-- What depends on a key only is the same for lists with the same keys, but for the order. -/
lemma perm_map_of_perm_map {α κ β : Type} {key : α → κ} {f : α → β} {l l' : List α}
    (h : (l.map key).Perm (l'.map key)) (hf : ∀ x ∈ l, ∀ y ∈ l', key x = key y → f x = f y) :
    (l.map f).Perm (l'.map f) := by
  induction l generalizing l' with
  | nil =>
    rw [List.map_nil, List.nil_perm, List.map_eq_nil_iff] at h
    rw [h]
  | cons x l ih =>
    obtain ⟨y, hy, hkey⟩ : ∃ y ∈ l', key y = key x :=
      List.mem_map.mp (h.subset List.mem_cons_self)
    obtain ⟨before, after, rfl⟩ := List.append_of_mem hy
    have hmiddle : (before ++ y :: after).Perm (y :: (before ++ after)) := List.perm_middle
    have hrest : (l.map key).Perm ((before ++ after).map key) := by
      refine List.Perm.cons_inv (a := key x) (h.trans ?_)
      rw [← hkey]
      exact hmiddle.map key
    rw [List.map_cons, hf x List.mem_cons_self y hy hkey.symm]
    refine ((ih hrest fun a ha b hb => ?_).cons (f y)).trans (hmiddle.map f).symm
    exact hf a (List.mem_cons_of_mem _ ha) b (hmiddle.symm.subset (List.mem_cons_of_mem _ hb))

namespace Command

variable {a : Arguments} {settings : SettingsFile} {w : Workplace} {inputs : List String}

def Arguments.withInputs (a : Arguments) (inputs : List String) : Arguments :=
  { a with inputs }

/-- Files that the inputs stand for are spelled so that all names of one file are short enough or
none is. -/
def Arguments.IsSpelledAlike (a : Arguments) (w : Workplace) : Prop :=
  ∀ x ∈ a.inputs.flatMap w.expandInput, ∀ y ∈ a.inputs.flatMap w.expandInput, list x = list y →
    (Workplace.IsTooLong x ↔ Workplace.IsTooLong y)

/-- A file that is found, by the parts of its name, and what comes of it. -/
def Arguments.finding (a : Arguments) (settings : SettingsFile) (w : Workplace)
    (fileName : String) : List FileNamePart × FileResult :=
  (list fileName, FileResult.unnamed (w.report fileName settings a.names))

/-- What comes of the inputs of a command and of other inputs, with the other arguments as they
are. -/
structure Arguments.FindsAlike (a : Arguments) (inputs : List String) (settings : SettingsFile)
    (w : Workplace) : Prop where
  /-- The same comes of the same files. -/
  files : ((w.discover inputs).map (a.finding settings w)).Perm
    ((w.discover a.inputs).map (a.finding settings w))
  /-- The same dispatchers are generated. -/
  generated : ((reportsOf ((a.withInputs inputs).results settings w)).flatMap (·.generated)).Perm
    ((reportsOf (a.results settings w)).flatMap (·.generated))
  /-- The numbers of errors and warnings are the same. -/
  errors : ((a.withInputs inputs).results settings w).foldl (· + ·.errors) 0 =
    (a.results settings w).foldl (· + ·.errors) 0
  warnings : ((a.withInputs inputs).results settings w).foldl (· + ·.warnings)
      ((a.withInputs inputs).unmatched settings w).length =
    (a.results settings w).foldl (· + ·.warnings) (a.unmatched settings w).length
  /-- The same names are not found. -/
  unmatched : (a.withInputs inputs).unmatched settings w = a.unmatched settings w

lemma Arguments.perm_finding (tree : w.root.IsNamed)
    (same : ∀ input, input ∈ inputs ↔ input ∈ a.inputs) (plain : ∀ input ∈ a.inputs, IsPlain input)
    (spelled : a.IsSpelledAlike w) (settings : SettingsFile) :
    ((w.discover inputs).map (a.finding settings w)).Perm
      ((w.discover a.inputs).map (a.finding settings w)) := by
  refine perm_map_of_perm_map (Workplace.perm_list_discover same) fun x hx y hy hlist => ?_
  obtain ⟨input, hinput, hx⟩ := Workplace.exists_input_of_mem_discover hx
  obtain ⟨input', hinput', hy⟩ := Workplace.exists_input_of_mem_discover hy
  have hinput := (same input).mp hinput
  have hread : w.read x = w.read y := by
    apply Workplace.read_eq_of_list_eq _ _ hlist
    · exact spelled x (List.mem_flatMap.mpr ⟨input, hinput, hx⟩) y
        (List.mem_flatMap.mpr ⟨input', hinput', hy⟩) hlist
    · exact Workplace.canNameFile_of_mem_expandInput tree (plain input hinput) hx
    · exact Workplace.canNameFile_of_mem_expandInput tree (plain input' hinput') hy
  exact Prod.ext hlist (Workplace.unnamed_report_eq hread settings a.names)

/-- Numbers that files count for add up to the same if the same comes of the files. -/
lemma foldl_eq_of_perm_unnamed {count : FileResult → Nat} {results results' : List FileResult}
    (hcount : ∀ r : FileResult, count r.unnamed = count r)
    (h : (results.map FileResult.unnamed).Perm (results'.map FileResult.unnamed)) (start : Nat) :
    results.foldl (fun n r => n + count r) start =
      results'.foldl (fun n r => n + count r) start := by
  have hsum (results : List FileResult) : results.foldl (fun n r => n + count r) start =
      start + ((results.map FileResult.unnamed).map count).sum := by
    induction results generalizing start with
    | nil => rfl
    | cons r results ih => simp [ih, hcount, Nat.add_assoc]
  rw [hsum, hsum, (h.map count).sum_nat]

/-- The reports without names are those among the results without names. -/
lemma map_unnamed_reportsOf (results : List FileResult) :
    (reportsOf results).map FileReport.unnamed = reportsOf (results.map FileResult.unnamed) := by
  unfold reportsOf
  rw [List.map_filterMap, List.filterMap_map]
  simp

/-- Which names are not found depends on the selected names alone, whatever their order. -/
lemma unmatchedNames_eq_of_mem_iff {names : List String} {reports reports' : List FileReport}
    (h : ∀ name, name ∈ reports.flatMap (·.selected) ↔ name ∈ reports'.flatMap (·.selected)) :
    unmatchedNames names reports = unmatchedNames names reports' := by
  have hcontains (name : String) : (reports.flatMap (·.selected)).contains name =
      (reports'.flatMap (·.selected)).contains name := by
    rw [Bool.eq_iff_iff, List.contains_iff_mem, List.contains_iff_mem, h]
  unfold unmatchedNames
  simp only [hcontains]

/-- Inputs with the same members find alike. -/
lemma Arguments.findsAlike (tree : w.root.IsNamed)
    (same : ∀ input, input ∈ inputs ↔ input ∈ a.inputs) (plain : ∀ input ∈ a.inputs, IsPlain input)
    (spelled : a.IsSpelledAlike w) (settings : SettingsFile) :
    a.FindsAlike inputs settings w := by
  have hfiles := Arguments.perm_finding tree same plain spelled settings
  have hresults : (((a.withInputs inputs).results settings w).map FileResult.unnamed).Perm
      ((a.results settings w).map FileResult.unnamed) := by
    have hsecond := hfiles.map Prod.snd
    simpa [Arguments.results, Arguments.finding, Arguments.withInputs, Function.comp_def] using
      hsecond
  have hreports : ((reportsOf ((a.withInputs inputs).results settings w)).map
      FileReport.unnamed).Perm ((reportsOf (a.results settings w)).map FileReport.unnamed) := by
    rw [map_unnamed_reportsOf, map_unnamed_reportsOf]
    exact hresults.filterMap _
  have hgenerated (reports : List FileReport) : reports.flatMap (·.generated) =
      (reports.map FileReport.unnamed).flatMap (·.generated) := by
    rw [List.flatMap_map]
    rfl
  have hselected (reports : List FileReport) : reports.flatMap (·.selected) =
      (reports.map FileReport.unnamed).flatMap (·.selected) := by
    rw [List.flatMap_map]
    rfl
  have hunmatched : (a.withInputs inputs).unmatched settings w = a.unmatched settings w := by
    refine unmatchedNames_eq_of_mem_iff fun name => ?_
    rw [← reportsOf, ← reportsOf, hselected (reportsOf ((a.withInputs inputs).results settings w)),
      hselected (reportsOf (a.results settings w))]
    exact (hreports.flatMap_right _).mem_iff
  refine ⟨hfiles, ?_, ?_, ?_, hunmatched⟩
  · rw [hgenerated (reportsOf ((a.withInputs inputs).results settings w)),
      hgenerated (reportsOf (a.results settings w))]
    exact hreports.flatMap_right _
  · exact foldl_eq_of_perm_unnamed FileResult.errors_unnamed hresults 0
  · rw [hunmatched]
    exact foldl_eq_of_perm_unnamed FileResult.warnings_unnamed hresults _

/-! ### The exit code -/

/-- Whether the output can be written is not a matter of the code. -/
lemma Arguments.isSome_delivery_eq (a : Arguments) (w : Workplace) (code code' : String) :
    (a.delivery w code).2.isSome = (a.delivery w code').2.isSome := by
  unfold delivery
  cases a.output with
  | none => rfl
  | some fileName =>
    cases hwrite : w.write fileName (code ++ "\n") with
    | ok w' =>
      obtain ⟨w'', hw''⟩ := Workplace.exists_write hwrite (code' ++ "\n")
      simp [hwrite, hw'']
    | error failure =>
      cases hwrite' : w.write fileName (code' ++ "\n") with
      | ok w' =>
        obtain ⟨w'', hw''⟩ := Workplace.exists_write hwrite' (code ++ "\n")
        rw [hw''] at hwrite
        cases hwrite
      | error failure' => simp [hwrite, hwrite']

/-- Commands that find alike end with the same exit code. -/
lemma Arguments.FindsAlike.exitCode_eq (h : a.FindsAlike inputs settings w)
    (configured : a.settings w = .ok settings) (formatter : Option Formatter) :
    ((a.withInputs inputs).outcome formatter w).exitCode = (a.outcome formatter w).exitCode := by
  have houtcome {a : Arguments} (configured : a.settings w = .ok settings) :
      (a.outcome formatter w).exitCode = if a.isFailedBy (a.results settings w) ||
        (a.delivery w "").2.isSome then 1 else 0 := by
    unfold outcome
    simp only [configured, process_eq_outcomeOn, outcomeOn, conclude]
    rw [a.isSome_delivery_eq w _ ""]
    rfl
  have configured' : (a.withInputs inputs).settings w = .ok settings := configured
  have hfailed : (a.withInputs inputs).isFailedBy ((a.withInputs inputs).results settings w) =
      a.isFailedBy (a.results settings w) := by
    have hnumbers (a : Arguments) : a.isFailedBy (a.results settings w) =
        (0 < (a.results settings w).foldl (· + ·.errors) 0 || (a.denyWarnings &&
          0 < (a.results settings w).foldl (· + ·.warnings) (a.unmatched settings w).length)) := rfl
    rw [hnumbers, hnumbers, h.errors, h.warnings]
    rfl
  rw [houtcome configured, houtcome configured', hfailed]
  rfl

/-! ### The run -/

/-- What a command with other inputs has in common with this one. -/
structure Arguments.AgreesOn (a : Arguments) (inputs : List String) (w : Workplace) : Prop where
  /-- With settings, the same comes of the files. -/
  findings : ∀ settings, a.settings w = .ok settings → a.FindsAlike inputs settings w
  /-- Without settings, the outcome is the same. -/
  unconfigured : ∀ e formatter, a.settings w = .error e →
    (a.withInputs inputs).outcome formatter w = a.outcome formatter w
  /-- The exit code is the same. -/
  exitCode : ∀ words words' formatter, Arguments.ofWords words = .ok a →
    Arguments.ofWords words' = .ok (a.withInputs inputs) →
      (run words' formatter w).exitCode = (run words formatter w).exitCode

/-- Inputs that are given in another order or more than once make no difference to what is found, if
all names of one file are short enough or none is. -/
theorem findings_of_same_inputs (tree : w.root.IsNamed)
    (same : ∀ input, input ∈ inputs ↔ input ∈ a.inputs) (plain : ∀ input ∈ a.inputs, IsPlain input)
    (spelled : a.IsSpelledAlike w) : a.AgreesOn inputs w := by
  have hunconfigured (e : SettingsError) (formatter : Option Formatter)
      (h : a.settings w = .error e) :
      (a.withInputs inputs).outcome formatter w = a.outcome formatter w := by
    have h' : (a.withInputs inputs).settings w = .error e := h
    unfold Arguments.outcome
    simp only [h, h']
  refine ⟨fun settings _ => ?_, hunconfigured, fun words words' formatter used used' => ?_⟩
  · exact Arguments.findsAlike tree same plain spelled settings
  · unfold run
    rw [used, used']
    cases hsettings : a.settings w with
    | error e => exact congrArg Outcome.exitCode (hunconfigured e formatter hsettings)
    | ok settings =>
      exact (Arguments.findsAlike tree same plain spelled settings).exitCode_eq hsettings formatter

/-- Arguments for a file and a directory in the directory in use. -/
def deskArguments : Arguments where
  inputs := ["home.rs", "screens"]

/-- The file and the directory can be given in the other order, and one of them twice. -/
theorem findings_of_desk :
    Workplace.deskWorkplace.discover ["screens", "home.rs", "screens"] =
        ["screens/sheet.rs", "home.rs"] ∧
      deskArguments.AgreesOn ["screens", "home.rs", "screens"] Workplace.deskWorkplace := by
  have short : ∀ x ∈ deskArguments.inputs.flatMap Workplace.deskWorkplace.expandInput,
      ¬Workplace.IsTooLong x := by
    have hfound : deskArguments.inputs.flatMap Workplace.deskWorkplace.expandInput =
        ["home.rs", "screens/sheet.rs"] := by
      decide +kernel
    rw [hfound]
    unfold Workplace.IsTooLong
    decide
  refine ⟨by decide +kernel, findings_of_same_inputs Workplace.isNamed_deskWorkplace ?_ ?_ ?_⟩
  · intro input
    simp only [deskArguments, List.mem_cons, List.not_mem_nil, or_false]
    grind
  · have file : IsPlain "home.rs" := ⟨by decide, by decide⟩
    have directory : IsPlain "screens" := ⟨by decide, by decide⟩
    simp [deskArguments, file, directory]
  · intro x hx y hy _
    simp [short x hx, short y hy]

/-! ### A name that is too long -/

/-- A place with a source file in a directory. -/
def drawerWorkplace : Workplace where
  root := .directory
    [("d", .directory [("a.rs", .file "#[with_switch_case_view] enum Home \x7b\x7d".toUTF8)])]

section

variable {far : String} {failure : FileFailure}

/-- Of two names of the file in `drawerWorkplace` the first one is kept. -/
lemma discover_drawer {x y : String} (hx : drawerWorkplace.expandInput x = [x])
    (hy : drawerWorkplace.expandInput y = [y]) (h : list x = list y) :
    drawerWorkplace.discover [x, y] = [x] := by
  simp [Workplace.discover, hx, hy, distinctFileNames, h]

lemma outcome_drawer (inputs : List String) :
    Arguments.outcome { inputs } none drawerWorkplace =
      Arguments.outcomeOn {} {} none drawerWorkplace (drawerWorkplace.discover inputs) := by
  have hsettings : Arguments.settings { inputs } drawerWorkplace = .ok {} := rfl
  unfold Arguments.outcome
  simp only [hsettings, process_eq_outcomeOn]
  rfl

/-- A name that leads nowhere stands for itself. -/
lemma expandInput_of_find_eq_error (h : drawerWorkplace.find far = .error failure) :
    drawerWorkplace.expandInput far = [far] := by
  simp [Workplace.expandInput, Workplace.directory?, h]

lemma expandInput_drawerFile : drawerWorkplace.expandInput "d/a.rs" = ["d/a.rs"] := by
  decide +kernel

/-- A name of the file that leads nowhere makes the command fail if it comes first. -/
lemma exitCode_drawer_of_first (hlist : list far = list "d/a.rs")
    (h : drawerWorkplace.find far = .error failure) :
    (Arguments.outcome { inputs := [far, "d/a.rs"] } none drawerWorkplace).exitCode = 1 := by
  have hresults : Arguments.resultsOn {} {} drawerWorkplace [far] =
      [.error (.unreadable far failure)] := by
    simp only [Arguments.resultsOn, List.map_cons, List.map_nil, Workplace.report,
      Workplace.read, h]
    rfl
  rw [outcome_drawer, discover_drawer (expandInput_of_find_eq_error h) expandInput_drawerFile hlist]
  unfold Arguments.outcomeOn
  rw [hresults]
  rfl

/-- If it comes behind another name of the file, the command succeeds. -/
lemma exitCode_drawer_of_second (hlist : list far = list "d/a.rs")
    (h : drawerWorkplace.find far = .error failure) :
    (Arguments.outcome { inputs := ["d/a.rs", far] } none drawerWorkplace).exitCode = 0 := by
  rw [outcome_drawer,
    discover_drawer expandInput_drawerFile (expandInput_of_find_eq_error h) hlist.symm]
  decide +kernel

end

/-- The name of the directory with slashes behind it. -/
def spreadDirectory : Nat → String
  | 0 => "d"
  | n + 1 => spreadDirectory n ++ "/"

/-- The name of the file with slashes in the middle, one byte longer than names can be. -/
def spreadFileName : String :=
  joinNames (spreadDirectory 4091) "a.rs"

lemma spreadDirectory_ne_empty (n : Nat) : spreadDirectory n ≠ "" := by
  cases n with
  | zero => decide
  | succ n => simp [spreadDirectory]

lemma list_spreadFileName : list spreadFileName = list "d/a.rs" := by
  have name : IsFileName "a.rs" := ⟨by decide, by decide, by decide, by decide⟩
  have hdirectory (n : Nat) : list (spreadDirectory n) = [.name "d"] := by
    induction n with
    | zero => decide
    | succ n ih =>
      rw [spreadDirectory, Workplace.list_append_slash (spreadDirectory_ne_empty n), ih]
  have hne := spreadDirectory_ne_empty 4091
  unfold spreadFileName
  rw [list_eq, beginning_joinNames hne name, behind_joinNames _ name, ← List.append_assoc,
    ← list_eq, hdirectory]
  decide

lemma isPlain_joinNames (fileName : String) : IsPlain (joinNames fileName "a.rs") := by
  obtain ⟨front, hfront⟩ :
      ∃ front, (joinNames fileName "a.rs").toList = front ++ "a.rs".toList := by
    unfold joinNames
    split
    · exact ⟨fileName.toList, by simp⟩
    · exact ⟨fileName.toList ++ ['/'], by simp⟩
  constructor
  · rintro ⟨rest, hrest⟩
    have hlast := congrArg List.getLast? (hrest.trans hfront)
    simp at hlast
  · rintro ⟨rest, hrest⟩
    have hlast := congrArg List.getLast? (hrest.trans hfront)
    simp at hlast

lemma isTooLong_spreadFileName : Workplace.IsTooLong spreadFileName := by
  have hsize (n : Nat) : (spreadDirectory n).utf8ByteSize = n + 1 := by
    induction n with
    | zero => decide
    | succ n ih => rw [spreadDirectory, String.utf8ByteSize_append, ih]; rfl
  have hname : "a.rs".utf8ByteSize = 4 := by decide
  unfold Workplace.IsTooLong spreadFileName joinNames Workplace.longestFileName
  split
  · rw [String.utf8ByteSize_append, hsize, hname]
    decide
  · rw [String.utf8ByteSize_append, String.utf8ByteSize_append, hsize, hname]
    omega

/-- A name of the file that is too long leads nowhere. -/
lemma find_of_isTooLong {far : String} (hlist : list far = list "d/a.rs")
    (hlong : Workplace.IsTooLong far) : drawerWorkplace.find far = .error .nameTooLong := by
  have hnul : far.toList.contains '\x00' = false := by
    refine Bool.eq_false_iff.mpr fun hmem => ?_
    rw [List.contains_iff_mem, mem_toList_iff (by decide) (by decide),
      (list_eq_list_iff.mp hlist).2, ← mem_toList_iff (by decide) (by decide)] at hmem
    revert hmem
    decide
  have hne : far ≠ "" := by
    rw [ne_eq, eq_empty_iff, hlist]
    decide
  have hlong : Workplace.longestFileName < far.utf8ByteSize := hlong
  have horigin : drawerWorkplace.origin far = .error .nameTooLong := by
    unfold Workplace.origin
    simp only [hnul, hne, hlong, if_true, if_false, Bool.false_eq_true]
  unfold Workplace.find
  rw [horigin]
  rfl

/-- A name that is too long is kept if it comes first, and left out if it comes behind another name
of the file. -/
theorem exitCode_depends_on_order :
    IsPlain spreadFileName ∧ IsPlain "d/a.rs" ∧
      (Arguments.outcome { inputs := [spreadFileName, "d/a.rs"] } none drawerWorkplace).exitCode
        = 1 ∧
      (Arguments.outcome { inputs := ["d/a.rs", spreadFileName] } none drawerWorkplace).exitCode
        = 0 := by
  have hlist := list_spreadFileName
  have hfind := find_of_isTooLong hlist isTooLong_spreadFileName
  refine ⟨isPlain_joinNames _, ⟨by decide, by decide⟩, ?_, ?_⟩
  · exact exitCode_drawer_of_first hlist hfind
  · exact exitCode_drawer_of_second hlist hfind

end Command

end UnionView
