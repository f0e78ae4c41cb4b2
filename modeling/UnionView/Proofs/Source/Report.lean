import UnionView.Proofs.Attribute.Layering
import UnionView.Proofs.Dispatch.Outcome
import UnionView.Proofs.Failure
import UnionView.Proofs.Source.Selection
import UnionView.Source.Report

/-!
# What a report is made of

A report is made declaration by declaration. It is what the declarations yield, side by side
(`reportOn_eq_ok_iff`), and what a declaration yields is a matter of the declaration and of the
settings for all (`Selected.yield`): its own arguments are laid over them (`Selected.Uses`), or they
are faulty and there is the one error (`Selected.Ends`). So nothing is lost, and the numbers agree
(`report_accounts_for_selection`).
-/

namespace UnionView

/-! ### One declaration -/

/-- What a selected declaration yields. -/
structure Yield where
  name : Option String
  generated : Option Generated
  diagnostics : List Diagnostic

/-- What a declaration in a listing yields by itself. -/
def Selected.yield (s : Selected) (listing : Listing) (base : Settings) : Yield :=
  match s.settings base with
  | .error fault =>
    { name := s.item.name?
      generated := none
      diagnostics := [(s.argumentError fault).placedIn listing] }
  | .ok settings =>
    { name := s.item.name?
      generated := (s.item.expand settings).artifact.map Artifact.toGenerated
      diagnostics := (s.item.expand settings).diagnostics listing }

/-- The settings for a declaration: those for all, with its own arguments over them if it has
any. -/
inductive Selected.Uses (s : Selected) (base : Settings) : Settings → Prop
  | base (bare : s.arguments = none) : Uses s base base
  | own {a : AttributeArguments} {settings : Settings} (read : s.arguments = some (.ok a))
      (laid : a.LaidOver base settings) : Uses s base settings

/-- The yield of a declaration is one dispatcher, with a warning if there are no variants, or it is
one error: that of the arguments, or that of an item that is no enumeration. -/
inductive Selected.Ends (s : Selected) (listing : Listing) (base : Settings) : Yield → Prop
  | dispatcher {e : Enumeration} {settings : Settings} {a : Artifact}
      (item : s.item = .enumeration e) (uses : s.Uses base settings)
      (artifact : (s.item.expand settings).artifact = some a) :
      Ends s listing base
        { name := some e.name
          generated := some a.toGenerated
          diagnostics := if e.variants = [] then [e.toUnion.emptyWarning.placedIn listing] else [] }
  | faulty {fault : Fault} (arguments : s.arguments = some (.error fault)) :
      Ends s listing base
        { name := s.item.name?
          generated := none
          diagnostics := [(s.argumentError fault).placedIn listing] }
  | refused {settings : Settings} {d : Diagnostic} (other : ∀ e, s.item ≠ .enumeration e)
      (uses : s.Uses base settings)
      (error : (s.item.expand settings).diagnostics listing = [d])
      (severity : d.severity = .error) :
      Ends s listing base { name := s.item.name?, generated := none, diagnostics := [d] }

def Item.lacksVariants : Item → Bool
  | .enumeration e => e.variants.isEmpty
  | _ => false

lemma TaggedUnion.diagnostics_expand (e : Enumeration) (settings : Settings) (listing : Listing) :
    (e.toUnion.expand settings).diagnostics listing =
      if e.variants = [] then [e.toUnion.emptyWarning.placedIn listing] else [] := by
  have hempty : e.toUnion.variants.isEmpty = true ↔ e.variants = [] := by
    simp [Enumeration.toUnion]
  unfold Expansion.diagnostics
  rw [TaggedUnion.findings_expand]
  simp only [hempty]
  split <;> rfl

/-- An item that is no enumeration has one error, whatever the settings are. -/
lemma Item.exists_diagnostics_expand {item : Item} (other : ∀ e, item ≠ .enumeration e)
    (settings : Settings) (listing : Listing) :
    (item.expand settings).artifact = none ∧
      ∃ d, (item.expand settings).diagnostics listing = [d] ∧ d.severity = .error := by
  cases item with
  | enumeration e => exact absurd rfl (other e)
  | module attributes mark name contents => exact ⟨rfl, _, rfl, rfl⟩
  | named kind attributes mark name => exact ⟨rfl, _, rfl, rfl⟩
  | unnamed kind attributes mark => exact ⟨rfl, _, rfl, rfl⟩
  | unclassified mark => exact ⟨rfl, _, rfl, rfl⟩

namespace Selected

/-- No payload has two renderers in the arguments, which is so for what is selected. -/
def IsDistinct (s : Selected) : Prop :=
  ∀ a, s.arguments = some (.ok a) → (a.renderers.map Prod.fst).Nodup

lemma isDistinct_of_selected? {item : Item} {names : List String} {s : Selected}
    (h : item.selected? names = some s) : s.IsDistinct := by
  have hs : s = ⟨item, item.arguments?⟩ := by
    simp only [Item.selected?, Option.ite_none_right_eq_some] at h
    exact (Option.some.inj h.2).symm
  rw [hs]
  exact fun a ha => AttributeArguments.nodup_of_arguments? ha

lemma isDistinct_of_mem_selectAll (names : List String) (items : List Item) :
    ∀ s ∈ selectAll names items, s.IsDistinct :=
  fun _ hs => isDistinct_of_selected? (mem_selectAll_iff.mp hs).2

variable {s : Selected} {base settings : Settings}

lemma uses_of_settings (h : s.IsDistinct) (hsettings : s.settings base = .ok settings) :
    s.Uses base settings := by
  unfold Selected.settings at hsettings
  split at hsettings
  · rename_i hnone
    cases hsettings
    exact .base hnone
  · rename_i read hread
    cases read with
    | error fault => cases hsettings
    | ok a =>
      cases hsettings
      exact .own hread (AttributeArguments.laidOver_applyTo (h a hread) base)

lemma arguments_of_settings {fault : Fault} (hsettings : s.settings base = .error fault) :
    s.arguments = some (.error fault) := by
  unfold Selected.settings at hsettings
  split at hsettings
  · cases hsettings
  · rename_i read hread
    cases read with
    | error fault =>
      cases hsettings
      exact hread
    | ok a => cases hsettings

lemma ends_yield (h : s.IsDistinct) (listing : Listing) (base : Settings) :
    s.Ends listing base (s.yield listing base) := by
  unfold yield
  cases hsettings : s.settings base with
  | error fault => exact .faulty (arguments_of_settings hsettings)
  | ok settings =>
    have huses := uses_of_settings h hsettings
    by_cases hitem : ∃ e, s.item = .enumeration e
    · obtain ⟨e, he⟩ := hitem
      have hends : s.Ends listing base _ := .dispatcher he huses (by rw [he]; rfl)
      rw [← TaggedUnion.diagnostics_expand e settings listing] at hends
      simp only [he]
      exact hends
    · have hother : ∀ e, s.item ≠ .enumeration e := fun e he => hitem ⟨e, he⟩
      obtain ⟨hnone, d, hd, hseverity⟩ := Item.exists_diagnostics_expand hother settings listing
      simp only [hnone, hd]
      exact .refused hother huses hd hseverity

end Selected

/-! ### Declarations side by side -/

namespace FileReport

/-- The report that says of several declarations what they yield. -/
def ofYields (fileName : String) (yields : List Yield) : FileReport :=
  { fileName
    generated := yields.filterMap Yield.generated
    diagnostics := yields.flatMap Yield.diagnostics
    errors := Diagnostic.errorCount (yields.flatMap Yield.diagnostics)
    warnings := Diagnostic.warningCount (yields.flatMap Yield.diagnostics)
    selected := yields.filterMap Yield.name }

/-- Diagnostics that are taken down one by one are all there and all counted. -/
lemma foldl_report (r : FileReport) (ds : List Diagnostic) :
    ds.foldl report r =
      { r with
        diagnostics := r.diagnostics ++ ds
        errors := r.errors + Diagnostic.errorCount ds
        warnings := r.warnings + Diagnostic.warningCount ds } := by
  induction ds generalizing r with
  | nil => simp [Diagnostic.errorCount, Diagnostic.warningCount]
  | cons d ds ih =>
    rw [List.foldl_cons, ih]
    cases hseverity : d.severity <;>
      simp [report, hseverity, Diagnostic.errorCount, Diagnostic.warningCount,
        Diagnostic.isError] <;> omega

/-- One more declaration adds its yield and changes nothing else. -/
lemma add_ofYields (listing : Listing) (base : Settings) (fileName : String) (yields : List Yield)
    (s : Selected) :
    (ofYields fileName yields).add listing base s =
      ofYields fileName (yields ++ [s.yield listing base]) := by
  unfold add Selected.yield
  cases s.settings base with
  | error fault =>
    have hreport := foldl_report
      { ofYields fileName yields with
        selected := (ofYields fileName yields).selected ++ s.item.name?.toList }
      [(s.argumentError fault).placedIn listing]
    simp only [List.foldl_cons, List.foldl_nil] at hreport
    simp only [hreport]
    cases s.item.name? <;>
      simp [ofYields, Diagnostic.errorCount, Diagnostic.warningCount, List.filterMap_append]
  | ok settings =>
    simp only [foldl_report]
    cases s.item.name? <;> cases (s.item.expand settings).artifact <;>
      simp [ofYields, Diagnostic.errorCount, Diagnostic.warningCount, List.filterMap_append]

lemma foldl_add_ofYields (listing : Listing) (base : Settings) (fileName : String)
    (yields : List Yield) (selection : List Selected) :
    selection.foldl (add listing base) (ofYields fileName yields) =
      ofYields fileName (yields ++ selection.map (·.yield listing base)) := by
  induction selection generalizing yields with
  | nil => simp
  | cons s selection ih => simp [add_ofYields, ih]

end FileReport

/-- There is a report on a text that can be read, with settings that can be built, and it says what
the selected declarations yield. -/
lemma reportOn_eq_ok_iff {fileName text : String} {settings : SettingsFile} {names : List String}
    {report : FileReport} :
    reportOn fileName text settings names = .ok report ↔
      ∃ listing file base, File.ofText text = .ok (listing, file) ∧ settings.build = .ok base ∧
        report = .ofYields fileName ((selectAll names file.items).map (·.yield listing base)) := by
  have hstart (listing : Listing) (base : Settings) (selection : List Selected) :
      selection.foldl (FileReport.add listing base) { fileName } =
        .ofYields fileName (selection.map (·.yield listing base)) :=
    FileReport.foldl_add_ofYields listing base fileName [] selection
  simp only [reportOn, Except.bind_eq_ok_iff, Except.mapError_eq_ok_iff, Except.pure_eq_ok_iff,
    Prod.exists, hstart]
  constructor
  · rintro ⟨listing, file, hfile, base, hbase, rfl⟩
    exact ⟨listing, file, base, hfile, hbase, rfl⟩
  · rintro ⟨listing, file, base, hfile, hbase, rfl⟩
    exact ⟨listing, file, hfile, base, hbase, rfl⟩

/-! ### Accounting -/

/-- What a report on a selection of declarations adds up to. -/
structure FileReport.AccountsFor (report : FileReport) (listing : Listing) (base : Settings)
    (selection : List Selected) : Prop where
  /-- Every declaration ends with one dispatcher or with one error. -/
  ends : ∀ s ∈ selection, s.Ends listing base (s.yield listing base)
  /-- The dispatchers and the errors are as many as the declarations. -/
  total : report.generated.length + report.errors = selection.length
  /-- The warnings are as many as the dispatchers of enumerations without variants. -/
  warnings : report.warnings = selection.countP fun s =>
    (s.yield listing base).generated.isSome && s.item.lacksVariants
  /-- Nothing is said that is not counted. -/
  counted : report.diagnostics.length = report.errors + report.warnings
  selected : report.selected = selection.filterMap (·.item.name?)
  /-- Dispatchers and diagnostics are those of each declaration by itself, in their order. -/
  generated : report.generated = selection.filterMap (·.yield listing base |>.generated)
  diagnostics : report.diagnostics = selection.flatMap (·.yield listing base |>.diagnostics)

namespace Selected

variable {s : Selected} {listing : Listing} {base : Settings} {y : Yield}

lemma Ends.name_eq (h : s.Ends listing base y) : y.name = s.item.name? := by
  cases h with
  | dispatcher item uses artifact => rw [item]; rfl
  | faulty arguments => rfl
  | refused other uses error severity => rfl

/-- There is an error exactly if there is no dispatcher, and then it is the only one. -/
lemma Ends.errorCount_eq (h : s.Ends listing base y) :
    y.generated.toList.length + Diagnostic.errorCount y.diagnostics = 1 := by
  cases h with
  | dispatcher item uses artifact => split <;> rfl
  | faulty arguments => rfl
  | refused other uses error severity =>
    simp [Diagnostic.errorCount, Diagnostic.isError, severity]

/-- There is a warning exactly if there is a dispatcher that draws nothing. -/
lemma Ends.warningCount_eq (h : s.Ends listing base y) :
    Diagnostic.warningCount y.diagnostics =
      if y.generated.isSome && s.item.lacksVariants then 1 else 0 := by
  cases h with
  | @dispatcher e settings a item uses artifact =>
    by_cases hvariants : e.variants = []
    · simp [item, Item.lacksVariants, hvariants]
      rfl
    · simp [item, Item.lacksVariants, hvariants, Diagnostic.warningCount]
  | faulty arguments => rfl
  | refused other uses error severity =>
    simp [Diagnostic.warningCount, Diagnostic.isError, severity]

end Selected

namespace FileReport

variable (listing : Listing) (base : Settings) {selection : List Selected}

/-- One dispatcher or one error for each declaration makes as many as there are declarations. -/
lemma total_yields (distinct : ∀ s ∈ selection, s.IsDistinct) :
    (selection.filterMap (·.yield listing base |>.generated)).length +
      Diagnostic.errorCount (selection.flatMap (·.yield listing base |>.diagnostics)) =
        selection.length := by
  induction selection with
  | nil => rfl
  | cons s selection ih =>
    obtain ⟨hdistinct, hothers⟩ := List.forall_mem_cons.mp distinct
    replace ih := ih hothers
    have hs := (Selected.ends_yield hdistinct listing base).errorCount_eq
    unfold Diagnostic.errorCount at ih hs ⊢
    rw [List.flatMap_cons, List.countP_append, List.filterMap_cons, List.length_cons, ← ih]
    cases hgenerated : (s.yield listing base).generated with
    | none =>
      simp only [hgenerated, Option.toList_none, List.length_nil] at hs ⊢
      omega
    | some g =>
      simp only [hgenerated, Option.toList_some, List.length_cons] at hs ⊢
      omega

/-- One warning for each dispatcher that draws nothing. -/
lemma warningCount_yields (distinct : ∀ s ∈ selection, s.IsDistinct) :
    Diagnostic.warningCount (selection.flatMap (·.yield listing base |>.diagnostics)) =
      selection.countP fun s =>
        (s.yield listing base).generated.isSome && s.item.lacksVariants := by
  induction selection with
  | nil => rfl
  | cons s selection ih =>
    obtain ⟨hdistinct, hothers⟩ := List.forall_mem_cons.mp distinct
    replace ih := ih hothers
    have hs := (Selected.ends_yield hdistinct listing base).warningCount_eq
    unfold Diagnostic.warningCount at ih hs ⊢
    rw [List.flatMap_cons, List.countP_append, List.countP_cons, ih, hs, Nat.add_comm]

/-- The report that says what declarations yield accounts for each of them. -/
lemma accountsFor_ofYields (distinct : ∀ s ∈ selection, s.IsDistinct) (fileName : String) :
    (ofYields fileName (selection.map (·.yield listing base))).AccountsFor listing base
      selection := by
  have hdiagnostics : (selection.map (·.yield listing base)).flatMap Yield.diagnostics =
      selection.flatMap (·.yield listing base |>.diagnostics) := List.flatMap_map ..
  have hgenerated : (selection.map (·.yield listing base)).filterMap Yield.generated =
      selection.filterMap (·.yield listing base |>.generated) := List.filterMap_map ..
  constructor
  · exact fun s hs => Selected.ends_yield (distinct s hs) listing base
  · simp only [ofYields, hdiagnostics, hgenerated]
    exact total_yields listing base distinct
  · simp only [ofYields, hdiagnostics]
    exact warningCount_yields listing base distinct
  · exact (Diagnostic.errorCount_add_warningCount _).symm
  · have hname : ∀ s ∈ selection, (s.yield listing base).name = s.item.name? :=
      fun s hs => (Selected.ends_yield (distinct s hs) listing base).name_eq
    rw [← List.filterMap_congr hname]
    exact List.filterMap_map ..
  · exact hgenerated
  · exact hdiagnostics

end FileReport

/-- A report accounts for every declaration that is selected in its file. What it says of each is
what the declaration yields by itself, with its own arguments over the settings for all. -/
theorem report_accounts_for_selection {fileName text : String} {settings : SettingsFile}
    {names : List String} {report : FileReport}
    (h : reportOn fileName text settings names = .ok report) :
    ∃ listing file base, File.ofText text = .ok (listing, file) ∧ settings.build = .ok base ∧
      report.AccountsFor listing base (selectAll names file.items) := by
  obtain ⟨listing, file, base, hfile, hbase, rfl⟩ := reportOn_eq_ok_iff.mp h
  exact ⟨listing, file, base, hfile, hbase,
    FileReport.accountsFor_ofYields listing base
      (Selected.isDistinct_of_mem_selectAll _ _) fileName⟩

/-- Declarations of all ends: without variants, with faulty arguments and of another kind. -/
def homeText : String :=
  "enum Home \x7b\x7d #[with_switch_case_view = 1] enum Bad \x7b A(B) \x7d
  mod screens \x7b #[with_switch_case_view] struct Details; \x7d"

/-- Of the three declarations in `homeText` one has a dispatcher, which draws nothing. -/
theorem report_accounts_for_home :
    ∃ (report : FileReport) (listing : Listing) (file : File) (base : Settings),
      reportOn "src/home" homeText {} ["Home"] = .ok report ∧
      (report.generated.length, report.errors, report.warnings) = (1, 2, 1) ∧
      report.AccountsFor listing base (selectAll ["Home"] file.items) := by
  have numbers : (reportOn "src/home" homeText {} ["Home"]).toOption.map
      (fun r => (r.generated.length, r.errors, r.warnings)) = some (1, 2, 1) := by
    decide +kernel
  obtain ⟨report, hsome, hnumbers⟩ := Option.map_eq_some_iff.mp numbers
  have hreport := Except.toOption_eq_some_iff.mp hsome
  obtain ⟨listing, file, base, -, -, haccounts⟩ := report_accounts_for_selection hreport
  exact ⟨report, listing, file, base, hreport, hnumbers, haccounts⟩

end UnionView
