import UnionView.Proofs.Dispatch.Soundness
import UnionView.Proofs.Source.Report

/-!
# The dispatchers of a source

What a report says was generated are the dispatchers of the declarations that have one, as text
(`Source.artifacts`). The source is read as sound code, and so the code of every dispatcher is sound
(`Source.isSound_artifacts`), with the union and the view named as they are in the code.
-/

namespace UnionView

open Lexer Reader

/-! ### Items of sound code -/

lemma Attribute.isSound_arguments {a : Attribute} (h : a.IsSound) {arguments : AttributeArguments}
    (harguments : a.arguments = .ok arguments) : arguments.IsSound := by
  unfold Attribute.arguments at harguments
  split at harguments
  · cases harguments
    exact ⟨nofun, nofun⟩
  · rename_i group hform
    exact AttributeArguments.isSound_of_ofCode (h group hform) harguments
  · cases harguments

lemma Item.isSound_arguments? {item : Item} (h : AttributesSound item.attributes)
    {arguments : AttributeArguments} (harguments : item.arguments? = some (.ok arguments)) :
    arguments.IsSound := by
  unfold Item.arguments? at harguments
  split at harguments
  · cases harguments
  · rename_i a hrequests
    have hmem : a ∈ item.attributes :=
      (List.mem_filter.mp (hrequests ▸ List.mem_singleton_self a : a ∈ item.requests)).1
    exact Attribute.isSound_arguments (h a hmem) (Option.some.inj harguments)
  · cases Option.some.inj harguments

/-! ### One declaration -/

def Selected.artifact? (s : Selected) (base : Settings) : Option Artifact :=
  match s.settings base with
  | .ok settings => (s.item.expand settings).artifact
  | .error _ => none

/-- The names of the dispatcher are names, and its code is sound. -/
structure Artifact.IsSound (a : Artifact) : Prop where
  owner : IsName a.owner.toList
  view : IsName a.view.toList
  code : a.code.IsSound

namespace Selected

variable {s : Selected} {base : Settings}

lemma generated_yield (s : Selected) (listing : Listing) (base : Settings) :
    (s.yield listing base).generated = (s.artifact? base).map Artifact.toGenerated := by
  unfold yield artifact?
  cases s.settings base <;> rfl

lemma isSound_settings (hattributes : AttributesSound s.item.attributes)
    (harguments : s.arguments = s.item.arguments?) (hbase : base.IsSound) {own : Settings}
    (h : s.settings base = .ok own) : own.IsSound := by
  unfold settings at h
  rw [harguments] at h
  split at h
  · cases h
    exact hbase
  · rename_i read hread
    cases read with
    | error fault => cases h
    | ok arguments =>
      cases h
      exact hbase.applyTo (Item.isSound_arguments? hattributes hread)

lemma isSound_artifact? (hattributes : AttributesSound s.item.attributes)
    (hunion : ∀ e, s.item = .enumeration e → e.toUnion.IsSound)
    (harguments : s.arguments = s.item.arguments?) (hbase : base.IsSound) {a : Artifact}
    (h : s.artifact? base = some a) : a.IsSound := by
  unfold artifact? at h
  split at h
  · rename_i own hown
    have hsettings := isSound_settings hattributes harguments hbase hown
    cases hitem : s.item with
    | enumeration e =>
      rw [hitem] at h
      simp only [Item.expand, Item.extract, TaggedUnion.expand, TaggedUnion.union_validate] at h
      cases h
      have hsound := hunion e hitem
      exact ⟨hsound.name, .plain (isWord_viewName hsound.name),
        TaggedUnion.isSound_emit hsound hsettings⟩
    | module | named | unnamed | unclassified =>
      rw [hitem] at h
      cases h
  · cases h

end Selected

/-! ### Sources -/

/-- A source text with its name, and the settings and names that it is read with. -/
structure Source where
  fileName : String
  text : String
  settings : SettingsFile
  names : List String

namespace Source

def report (s : Source) : Except SourceError FileReport :=
  reportOn s.fileName s.text s.settings s.names

/-- The dispatchers of a source, in the order of its declarations. -/
def artifacts (s : Source) : List Artifact :=
  match File.ofText s.text, s.settings.build with
  | .ok (_, file), .ok base => (selectAll s.names file.items).filterMap (·.artifact? base)
  | _, _ => []

variable {s : Source} {report : FileReport}

/-- The report holds the dispatchers as text. -/
lemma report_eq_ok (h : s.report = .ok report) :
    report.fileName = s.fileName ∧ report.generated = s.artifacts.map Artifact.toGenerated := by
  obtain ⟨listing, file, base, hfile, hbase, rfl⟩ := reportOn_eq_ok_iff.mp h
  refine ⟨rfl, ?_⟩
  simp only [artifacts, hfile, hbase, FileReport.ofYields]
  rw [List.filterMap_map, List.map_filterMap]
  exact List.filterMap_congr fun s _ => s.generated_yield listing base

theorem isSound_artifacts (s : Source) : ∀ a ∈ s.artifacts, a.IsSound := by
  unfold artifacts
  split
  · rename_i listing file base hfile hbase
    obtain ⟨hlisting, hread⟩ := readText_eq_ok_iff.mp hfile
    have hitems := Code.isSound_of_file? (Listing.isSound_of_ofText hlisting) hread
    have hsettings := SettingsFile.isSound_of_settings? (Except.mapError_eq_ok_iff.mp hbase)
    intro a ha
    obtain ⟨selected, hselected, hartifact⟩ := List.mem_filterMap.mp ha
    rw [selectAll_eq_filterMap] at hselected
    obtain ⟨item, hitem, hselected⟩ := List.mem_filterMap.mp hselected
    obtain ⟨hattributes, hunion⟩ := isSound_of_mem_traversal hitems item hitem
    obtain ⟨rfl, harguments⟩ : selected.item = item ∧ selected.arguments = item.arguments? := by
      rw [Item.selected?_eq] at hselected
      split at hselected
      · cases hselected
        exact ⟨rfl, rfl⟩
      · cases hselected
    exact Selected.isSound_artifact? hattributes hunion harguments hsettings hartifact
  · exact nofun

end Source

end UnionView
