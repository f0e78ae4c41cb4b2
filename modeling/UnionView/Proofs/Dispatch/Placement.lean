import Mathlib.Data.List.Forall2
import UnionView.Dispatch.Expansion
import UnionView.Proofs.Token.Layout

/-!
# Where the tokens of a declaration stand

An expansion reads the tokens of a declaration and not their places. Two listings of the same tokens
have the same artifact and end at the same stage, and what is reported on one is reported on the
other, at the place that the same token has there (`Listing.ExpandsAlike`). A text is a listing of
the same tokens as another one exactly if it is a layout of them.
-/

namespace UnionView

/-- Two diagnostics that say the same of a declaration. Each points at the place of the same token
in its own listing. -/
structure Diagnostic.SaysTheSame (a b : Listing) (d e : Diagnostic) : Prop where
  severity : d.severity = e.severity
  message : d.message = e.message
  declaration : d.location.declaration = e.location.declaration
  place : ∃ mark, d.location.position = a.positionAt mark ∧ e.location.position = b.positionAt mark

/-- What comes of two listings is the same, apart from the places of the diagnostics. -/
structure Listing.ExpandsAlike (settings : Settings) (a b : Listing) : Prop where
  artifact : (a.code.expand settings).artifact = (b.code.expand settings).artifact
  source : (a.code.expand settings).artifact.map Artifact.source =
    (b.code.expand settings).artifact.map Artifact.source
  stage : (a.code.expand settings).stage = (b.code.expand settings).stage
  diagnostics : List.Forall₂ (Diagnostic.SaysTheSame a b)
    ((a.code.expand settings).diagnostics a) ((b.code.expand settings).diagnostics b)

lemma Listing.expandsAlike_of_code {a b : Listing} (h : a.code = b.code) (settings : Settings) :
    Listing.ExpandsAlike settings a b where
  artifact := by rw [h]
  source := by rw [h]
  stage := by rw [h]
  diagnostics := by
    rw [h, Expansion.diagnostics, Expansion.diagnostics, List.forall₂_map_left_iff,
      List.forall₂_map_right_iff, List.forall₂_same]
    exact fun finding _ => ⟨rfl, rfl, rfl, finding.mark, rfl, rfl⟩

/-- Positions do not influence what is generated. Listings of the same tokens expand alike, which is
immediate, as an expansion reads tokens that have no places. What it takes to see is which texts are
read as the same tokens: exactly the layouts of them, whatever their line breaks, their indentation
and their comments are. What may stand between two tokens is said by `Layout.blank`,
`Layout.comment` and `Layout.line`, for the same scanner that reads the tokens. -/
theorem expansion_of_layouts :
    (∀ (a b : Listing), a.code = b.code → ∀ settings, Listing.ExpandsAlike settings a b) ∧
    ∀ (text text' : String) (a : Listing), Listing.ofText text = .ok a →
      (Layout a.code (withoutMark text'.toList) ↔
        ∃ b, Listing.ofText text' = .ok b ∧ b.code = a.code ∧
          ∀ settings, Listing.ExpandsAlike settings a b) := by
  refine ⟨fun a b h => Listing.expandsAlike_of_code h, fun text text' a htext => ?_⟩
  have hbalanced := (Listing.ofText_iff_layout.mp ⟨a, htext, rfl⟩).2
  constructor
  · intro hlayout
    obtain ⟨b, hb, hcode⟩ := Listing.ofText_iff_layout.mpr ⟨hlayout, hbalanced⟩
    exact ⟨b, hb, hcode, Listing.expandsAlike_of_code hcode.symm⟩
  · rintro ⟨b, hb, hcode, -⟩
    exact (Listing.ofText_iff_layout.mp ⟨b, hb, hcode⟩).1

/-- The tokens of an enumeration with one variant. -/
def plainSheetCode : Code :=
  wordCode "enum" ++ wordCode "Sheet" ++
    groupCode .curly (wordCode "Info" ++ groupCode .round (wordCode "Info"))

/-- An enumeration on one line. -/
def sheetText : String :=
  "enum Sheet \x7b Info(Info) \x7d"

/-- The same enumeration on several lines, with comments. -/
def spreadSheetText : String :=
  "// What a sheet shows.\nenum Sheet\n\x7b\n    Info (\n      Info /* drawn */\n    )\n\x7d\n"

lemma exists_of_map_code {read : Except Position Listing} {code : Code}
    (h : read.toOption.map Listing.code = some code) : ∃ a, read = .ok a ∧ a.code = code := by
  cases read with
  | error p => cases h
  | ok a => exact ⟨a, rfl, Option.some.inj h⟩

/-- Both texts expand alike, although their tokens stand in other places. -/
theorem sheetText_expands_like_spreadSheetText :
    ∃ a b, Listing.ofText sheetText = .ok a ∧ Listing.ofText spreadSheetText = .ok b ∧
      a.map Placed.place ≠ b.map Placed.place ∧ ∀ settings, Listing.ExpandsAlike settings a b := by
  have hsheet : (Listing.ofText sheetText).toOption.map Listing.code = some plainSheetCode := by
    decide +kernel
  have hspread :
      (Listing.ofText spreadSheetText).toOption.map Listing.code = some plainSheetCode := by
    decide +kernel
  have hplaces : (Listing.ofText sheetText).toOption.map (fun a => a.map Placed.place) ≠
      (Listing.ofText spreadSheetText).toOption.map (fun a => a.map Placed.place) := by
    decide +kernel
  obtain ⟨a, ha, hcode⟩ := exists_of_map_code hsheet
  have hlayout := (Listing.ofText_iff_layout.mp (exists_of_map_code hspread)).1
  rw [← hcode] at hlayout
  obtain ⟨b, hb, -, halike⟩ := (expansion_of_layouts.2 sheetText spreadSheetText a ha).mp hlayout
  rw [ha, hb] at hplaces
  exact ⟨a, b, ha, hb, fun heq => hplaces (congrArg some heq), halike⟩

end UnionView
