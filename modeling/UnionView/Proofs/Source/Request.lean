import UnionView.Proofs.Grammar.Module
import UnionView.Proofs.Source.Report
import UnionView.Proofs.Syntax.Path

/-!
# Items that ask for a dispatcher

An item at module level that is written with the attribute ends with one dispatcher or one error,
whatever kind of item it is, unless it is an item that is not understood: of such an item the
attributes are not kept, so it is left out without a word (`report_of_requested_items`).
-/

namespace UnionView

namespace WrittenItem

/-- An attribute in front of the item asks for a dispatcher. -/
def IsRequested (w : WrittenItem) : Prop :=
  ∃ a ∈ w.attributes, a.isRequest = true

end WrittenItem

/-- An item that has the attribute is selected, whatever names are asked for. -/
lemma Item.exists_selected? {item : Item} {a : Attribute} (ha : a ∈ item.attributes)
    (hrequest : a.isRequest = true) (names : List String) :
    ∃ s, item.selected? names = some s ∧ s.item = item := by
  have hmem : a ∈ item.requests := List.mem_filter.mpr ⟨ha, hrequest⟩
  have harguments : item.arguments?.isSome = true := by
    unfold arguments?
    match hrequests : item.requests with
    | [] =>
      rw [hrequests] at hmem
      exact absurd hmem List.not_mem_nil
    | [_] => rfl
    | _ :: _ :: _ => rfl
  refine ⟨{ item, arguments := item.arguments? }, ?_, rfl⟩
  unfold selected?
  simp only [harguments, Bool.true_or, if_true]

/-- An item that is not understood is never selected. -/
lemma Item.selected?_unclassified (mark : Mark) (names : List String) :
    (Item.unclassified mark).selected? names = none := rfl

/-- A report is made of the written items of its file, each by itself. An item with the attribute
ends with one dispatcher or with one error, unless it is not understood: then nothing comes of
it. -/
theorem report_of_requested_items {fileName text : String} {settings : SettingsFile}
    {names : List String} {report : FileReport}
    (h : reportOn fileName text settings names = .ok report) :
    ∃ listing file base, File.ofText text = .ok (listing, file) ∧ settings.build = .ok base ∧
      report.AccountsFor listing base (WrittenItem.select names listing.code.writtenItems) ∧
      ∀ w ∈ listing.code.writtenItems, w.IsRequested →
        (∃ mark, w.item = .unclassified mark) ∧ w.item.selected? names = none ∨
        ∃ s, w.item.selected? names = some s ∧ s.item = w.item ∧
          s.Ends listing base (s.yield listing base) := by
  obtain ⟨listing, file, base, hfile, hbase, rfl⟩ := reportOn_eq_ok_iff.mp h
  obtain ⟨-, hread⟩ := readText_eq_ok_iff.mp hfile
  obtain ⟨hselect, hkeeps⟩ := Code.writtenItems_of_file? hread
  refine ⟨listing, file, base, hfile, hbase, ?_, fun w hw hrequested => ?_⟩
  · have haccounts := FileReport.accountsFor_ofYields listing base
      (Selected.isDistinct_of_mem_selectAll names file.items) fileName
    rw [hselect names] at haccounts ⊢
    exact haccounts
  · obtain ⟨a, ha, hrequest⟩ := hrequested
    obtain ⟨mark, hitem⟩ | hkept := hkeeps w hw
    · refine .inl ⟨⟨mark, hitem⟩, ?_⟩
      rw [hitem]
      exact Item.selected?_unclassified mark names
    · obtain ⟨s, hselected, hs⟩ := Item.exists_selected? (hkept.subset ha) hrequest names
      have hdistinct := Selected.isDistinct_of_selected? hselected
      exact .inr ⟨s, hselected, hs, Selected.ends_yield hdistinct listing base⟩

/-- Items with the attribute, one of which is not understood, and two of which are inside of a
module. -/
def requestsText : String :=
  "#[with_switch_case_view] fn f();mod m{#[with_switch_case_view] enum E{}
  #[with_switch_case_view] use a;}"

/-- The function without a body is left out, the enumeration has a dispatcher and the import has
an error. -/
theorem report_of_requestsText :
    ∃ (report : FileReport) (listing : Listing) (base : Settings),
      reportOn "src/home" requestsText {} [] = .ok report ∧
      (report.generated.length, report.errors) = (1, 1) ∧
      listing.code.writtenItems.map (fun w =>
        (w.attributes.any Attribute.isRequest, (w.item.selected? []).isSome)) =
          [(true, false), (false, false), (true, true), (true, true)] ∧
      report.AccountsFor listing base (WrittenItem.select [] listing.code.writtenItems) := by
  have numbers : (reportOn "src/home" requestsText {} []).toOption.map
      (fun r => (r.generated.length, r.errors)) = some (1, 1) := by
    decide +kernel
  have written : (File.ofText requestsText).toOption.map (fun r =>
      r.1.code.writtenItems.map fun w =>
        (w.attributes.any Attribute.isRequest, (w.item.selected? []).isSome)) =
          some [(true, false), (false, false), (true, true), (true, true)] := by
    decide +kernel
  obtain ⟨report, hsome, hnumbers⟩ := Option.map_eq_some_iff.mp numbers
  have hreport := Except.toOption_eq_some_iff.mp hsome
  obtain ⟨listing, file, base, hfile, -, haccounts, -⟩ := report_of_requested_items hreport
  rw [hfile] at written
  exact ⟨report, listing, base, hreport, hnumbers, Option.some.inj written, haccounts⟩

end UnionView
