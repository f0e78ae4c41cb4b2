import UnionView.Command.Run
import UnionView.Proofs.Source.Dispatchers

/-!
# The generated code is read as the code of the dispatchers

What the command writes is text: every dispatcher under a line that says what it is, with an empty
line in front of the next one. If no file has a line break in its name, these lines are comments,
and the text is read as the code of the dispatchers, one behind the other
(`code_of_generatedCode`).
-/

namespace UnionView

open Text Lexer

/-! ### One dispatcher -/

/-- The line that a dispatcher stands under. -/
def Generated.header (g : Generated) (fileName : String) : String :=
  s!"// {g.view} for {g.owner} ({fileName})"

/-- A dispatcher under its header. -/
def Generated.block (g : Generated) (fileName : String) : String :=
  g.header fileName ++ "\n" ++ g.source

lemma FileReport.rendered_eq (r : FileReport) :
    r.rendered = r.generated.map (·.block r.fileName) := by
  refine List.map_congr_left fun g _ => String.toList_inj.mp ?_
  simp [Generated.block, Generated.header, toString]

lemma newline_notMem_of_isName {name : List Char} (h : IsName name) : '\n' ∉ name := by
  have hword {cs : List Char} (h : IsWord cs) : '\n' ∉ cs := by
    obtain ⟨c, rest, rfl, hc, hrest⟩ := h
    intro hmem
    obtain rfl | hmem := List.mem_cons.mp hmem
    · exact absurd hc (by decide)
    · exact absurd (hrest _ hmem) (by decide)
  cases h with
  | plain word => exact hword word
  | raw word => simpa using hword word

namespace Artifact.IsSound

variable {a : Artifact}

/-- The header of a dispatcher is a comment up to the end of its line. -/
lemma exists_header (h : a.IsSound) {fileName : String} (hname : '\n' ∉ fileName.toList) :
    ∃ line, (a.toGenerated.header fileName).toList = '/' :: '/' :: ' ' :: line ∧ '\n' ∉ line := by
  refine ⟨a.view.toList ++ " for ".toList ++ a.owner.toList ++ " (".toList ++ fileName.toList ++
    ")".toList, by simp [Generated.header, toGenerated, toString], ?_⟩
  have hview := newline_notMem_of_isName h.view
  have howner := newline_notMem_of_isName h.owner
  simp [hview, howner, hname]

/-- A dispatcher under its header is a layout of its code, also in front of other code. -/
lemma layout_block (h : a.IsSound) {fileName : String} (hname : '\n' ∉ fileName.toList)
    {code : Code} {tail : List Char} (ends : EndsToken tail) (htail : Layout code tail) :
    Layout (a.code ++ code)
      ((a.toGenerated.block fileName).toList ++ tail) := by
  obtain ⟨line, hheader, hline⟩ := h.exists_header hname
  have hcode : Layout (a.code ++ code) (Code.spell .boundary a.code ++ tail) :=
    Code.layout_spell h.code.lexed h.code.glued ends htail
  have hcomment : '\n' ∉ ' ' :: line := by
    simpa using hline
  have hlayout := Layout.line hcomment (by simp) hcode
  have htext : (a.toGenerated.block fileName).toList ++ tail =
      '/' :: '/' :: ((' ' :: line) ++ '\n' :: (Code.spell .boundary a.code ++ tail)) := by
    rw [Generated.block, String.toList_append, String.toList_append, hheader]
    simp [toGenerated, source, Code.text]
  rw [htext]
  exact hlayout

lemma isReadFrom_source (h : a.IsSound) : a.code.IsReadFrom a.source :=
  h.code.isReadFrom_text

/-- The header of a dispatcher is read as nothing. -/
lemma isReadFrom_header (h : a.IsSound) {fileName : String} (hname : '\n' ∉ fileName.toList) :
    Code.IsReadFrom [] (a.toGenerated.header fileName) := by
  obtain ⟨line, hheader, hline⟩ := h.exists_header hname
  have hrest : lineRest (' ' :: line) = [] := by
    refine List.dropWhile_eq_nil_iff.mpr fun c hc => ?_
    have hne : c ≠ '\n' := by
      rintro rfl
      simp [hline] at hc
    simp [hne]
  have hcomment : ordinaryComment? ('/' :: '/' :: ' ' :: line) = some [] := congrArg some hrest
  have hlayout : Layout [] (a.toGenerated.header fileName).toList :=
    hheader ▸ Layout.ending.comment hcomment
  exact Code.isReadFrom_of_layout hlayout rfl (by rw [hheader, List.head?_cons]; decide)

end Artifact.IsSound

/-! ### All dispatchers -/

/-- The text of dispatchers, each with the name of its file, as it is put together. -/
def blocksText (blocks : List (Artifact × String)) : String :=
  String.intercalate "\n\n" (blocks.map fun b => b.1.toGenerated.block b.2)

lemma layout_blocksText {blocks : List (Artifact × String)}
    (h : ∀ b ∈ blocks, b.1.IsSound ∧ '\n' ∉ b.2.toList) :
    Layout (blocks.flatMap fun b => b.1.code) (blocksText blocks).toList := by
  induction blocks with
  | nil => exact .ending
  | cons b blocks ih =>
    obtain ⟨⟨hsound, hname⟩, hblocks⟩ := List.forall_mem_cons.mp h
    have hrest := ih hblocks
    cases blocks with
    | nil => simpa [blocksText] using hsound.layout_block hname endsToken_nil hrest
    | cons next blocks =>
      have hblank := (hrest.blank (c := '\n') (by decide)).blank (c := '\n') (by decide)
      have hblock := hsound.layout_block hname (endsToken_of_isBlank (by decide) _) hblank
      simpa [blocksText, String.intercalate_cons_cons] using hblock

lemma isReadFrom_blocksText {blocks : List (Artifact × String)}
    (h : ∀ b ∈ blocks, b.1.IsSound ∧ '\n' ∉ b.2.toList) :
    Code.IsReadFrom (blocks.flatMap fun b => b.1.code) (blocksText blocks) := by
  have hlayout := layout_blocksText h
  have hbalanced : Code.IsBalanced (blocks.flatMap fun b => b.1.code) :=
    (Code.isSound_flatMap fun b hb => (h b hb).1.code).balanced
  cases blocks with
  | nil => exact Code.isReadFrom_of_layout hlayout hbalanced nofun
  | cons b blocks =>
    obtain ⟨hsound, hname⟩ := h b List.mem_cons_self
    obtain ⟨line, hheader, -⟩ := hsound.exists_header hname
    obtain ⟨tail, htail⟩ : ∃ tail, (blocksText (b :: blocks)).toList = '/' :: tail := by
      cases blocks <;>
        simp [blocksText, Generated.block, hheader, String.intercalate_cons_cons]
    exact Code.isReadFrom_of_layout hlayout hbalanced (by rw [htail, List.head?_cons]; decide)

/-! ### Sources -/

namespace Source

/-- The dispatchers of a source with the name of its file. -/
def blocks (s : Source) : List (Artifact × String) :=
  s.artifacts.map fun a => (a, s.fileName)

/-- What the report on a source holds of the dispatchers of the source. -/
structure ReadsBack (s : Source) (report : FileReport) : Prop where
  /-- It holds all of them, as text. -/
  generated : report.generated = s.artifacts.map Artifact.toGenerated
  /-- They are printed under a line each. -/
  rendered : report.rendered = report.generated.map (·.block s.fileName)
  /-- The line is a comment. -/
  header : ∀ g ∈ report.generated, Code.IsReadFrom [] (g.header s.fileName)
  /-- The text is read as the code that it was made of. -/
  source : ∀ a ∈ s.artifacts, a.code.IsReadFrom a.source

lemma readsBack {s : Source} {report : FileReport} (h : s.report = .ok report)
    (hname : '\n' ∉ s.fileName.toList) : s.ReadsBack report := by
  obtain ⟨hfile, hgenerated⟩ := report_eq_ok h
  have hsound := s.isSound_artifacts
  refine ⟨hgenerated, hfile ▸ report.rendered_eq, ?_, fun a ha => (hsound a ha).isReadFrom_source⟩
  rw [hgenerated]
  exact List.forall_mem_map.mpr fun a ha => (hsound a ha).isReadFrom_header hname

/-- The text for several reports is put together from the dispatchers of their sources. -/
lemma generatedCode_eq {sources : List Source} {reports : List FileReport}
    (h : List.Forall₂ ReadsBack sources reports) :
    Command.generatedCode reports = blocksText (sources.flatMap blocks) := by
  have hrendered : reports.flatMap (·.rendered) =
      (sources.flatMap blocks).map fun b => b.1.toGenerated.block b.2 := by
    induction h with
    | nil => rfl
    | cons hreads _ ih =>
      rw [List.flatMap_cons, List.flatMap_cons, List.map_append, ih, hreads.rendered,
        hreads.generated, blocks, List.map_map, List.map_map]
      rfl
  exact congrArg _ hrendered

end Source

/-- The text for the reports on several sources is read as the code of all their dispatchers, one
behind the other, unless there is a line break in the name of a file. -/
theorem code_of_generatedCode {sources : List Source} {reports : List FileReport}
    (reported : sources.mapM Source.report = .ok reports)
    (named : ∀ s ∈ sources, '\n' ∉ s.fileName.toList) :
    List.Forall₂ Source.ReadsBack sources reports ∧
      Code.IsReadFrom ((sources.flatMap Source.artifacts).flatMap Artifact.code)
        (Command.generatedCode reports) := by
  have hall : List.Forall₂ Source.ReadsBack sources reports :=
    ((List.forall₂_and_left _ _).mpr ⟨named, Except.mapM_eq_ok_iff.mp reported⟩).imp
      fun _ _ h => Source.readsBack h.2 h.1
  have hblocks : ∀ b ∈ sources.flatMap Source.blocks, b.1.IsSound ∧ '\n' ∉ b.2.toList := by
    intro b hb
    obtain ⟨s, hs, hb⟩ := List.mem_flatMap.mp hb
    obtain ⟨a, ha, rfl⟩ := List.mem_map.mp hb
    exact ⟨s.isSound_artifacts a ha, named s hs⟩
  have hcode : (sources.flatMap Source.artifacts).flatMap Artifact.code =
      (sources.flatMap Source.blocks).flatMap fun b => b.1.code := by
    simp [List.flatMap_assoc, Source.blocks, List.flatMap_map]
  rw [hcode, Source.generatedCode_eq hall]
  exact ⟨hall, isReadFrom_blocksText hblocks⟩

/-- Two sources, the first of which has a module between the declarations that ask for a dispatcher,
and the second one a declaration that is asked for by its name. -/
def sheetSources : List Source :=
  [{ fileName := "src/sheet"
     text := "#[with_switch_case_view] enum Sheet \x7b Info(Info) \x7d
       mod inner \x7b #[with_switch_case_view(runtime = ui)] pub enum r#Tab \x7b Blank \x7d \x7d"
     settings := {}
     names := [] },
   { fileName := "card // old"
     text := "enum Card<'a, T: Draw> \x7b Body \x7b body: &'a T \x7d, Text(Text) \x7d"
     settings := { renderers := .ofList [("Text", "ui::Prose")] }
     names := ["Card"] }]

/-- The text for the two sources is read as the code of their three dispatchers. -/
theorem code_of_sheetSources : (∀ s ∈ sheetSources, '\n' ∉ s.fileName.toList) ∧
    ∃ reports, sheetSources.mapM Source.report = .ok reports ∧
      reports.map (·.generated.map (·.view)) = [["SheetView", "TabView"], ["CardView"]] ∧
      List.Forall₂ Source.ReadsBack sheetSources reports ∧
      Code.IsReadFrom ((sheetSources.flatMap Source.artifacts).flatMap Artifact.code)
        (Command.generatedCode reports) := by
  have hnamed : ∀ s ∈ sheetSources, '\n' ∉ s.fileName.toList := by
    decide
  have hviews : (sheetSources.mapM Source.report).toOption.map
      (fun reports => reports.map (·.generated.map (·.view))) =
        some [["SheetView", "TabView"], ["CardView"]] := by
    decide +kernel
  obtain ⟨reports, hsome, hviews⟩ := Option.map_eq_some_iff.mp hviews
  have hreported := Except.toOption_eq_some_iff.mp hsome
  obtain ⟨hreads, hcode⟩ := code_of_generatedCode hreported hnamed
  exact ⟨hnamed, reports, hreported, hviews, hreads, hcode⟩

end UnionView
