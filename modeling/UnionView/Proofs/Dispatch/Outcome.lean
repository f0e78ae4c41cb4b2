import Mathlib.Tactic.ByContra
import UnionView.Dispatch.Expansion
import UnionView.Proofs.Grammar.Declaration

/-!
# How an expansion ends

An expansion of a listing ends in one of two ways: with the dispatcher of the enumeration that the
listing is (`Expansion.IsEmitted`), or with one error and nothing else (`Expansion.IsFailed`). It is
the stages one after the other, and checking a union does not change it.
-/

namespace UnionView

/-! ### Places in a listing -/

/-- Tokens that follow each other in the code of a listing follow each other in the listing. -/
lemma Listing.exists_of_code_eq_append {listing : Listing} {pre rest : Code} {first second : Token}
    (h : listing.code = pre ++ first :: second :: rest) :
    ∃ before place place' behind,
      listing = before ++ ⟨first, place⟩ :: ⟨second, place'⟩ :: behind ∧
        behind.length = rest.length := by
  obtain ⟨before, tail, rfl, -, htail⟩ := List.map_eq_append_iff.mp h
  obtain ⟨placed, tail', rfl, rfl, htail'⟩ := List.map_eq_cons_iff.mp htail
  obtain ⟨placed', behind, rfl, rfl, rfl⟩ := List.map_eq_cons_iff.mp htail'
  exact ⟨before, placed.place, placed'.place, behind, rfl, (List.length_map _).symm⟩

/-- A mark points at the token that as many tokens begin with. -/
lemma Listing.positionAt_append_cons (before behind : Listing) (placed : Placed) :
    Listing.positionAt (before ++ placed :: behind) (behind.length + 1) = placed.place := by
  rw [Listing.positionAt_append before (placed :: behind) (by simp)]
  simp [Listing.positionAt]

/-! ### The two ends -/

/-- The expansion ends with the dispatcher of an enumeration. The only thing there can be to say is
that there are no variants, and this is said of the keyword in front of the name. -/
structure Expansion.IsEmitted (x : Expansion) (listing : Listing) (e : Enumeration) : Prop where
  stage : x.stage = .emitted
  artifact : ∃ a, x.artifact = some a ∧ a.owner = e.name ∧ a.view = viewName e.name
  noErrors : x.hasErrors = false
  silent : e.variants ≠ [] → x.findings = []
  warned : e.variants = [] → ∃ before place place' behind,
    listing = before ++ ⟨.ident "enum", place⟩ :: ⟨.ident e.name, place'⟩ :: behind ∧
      x.diagnostics listing = [Diagnostic.mk .warning emptyUnionMessage ⟨e.name, place⟩]

/-- The expansion ends with an error and without a dispatcher. -/
structure Expansion.IsFailed (x : Expansion) : Prop where
  stage : x.stage = .extractionFailed
  artifact : x.artifact = none
  code : x.code = []
  error : ∃ f, x.findings = [f] ∧ f.severity = .error

lemma Expansion.isFailed_failed (e : NotAUnion) : (Expansion.failed e).IsFailed :=
  { stage := rfl
    artifact := rfl
    code := rfl
    error := ⟨e.finding, rfl, rfl⟩ }

/-- Only enumerations are unions. -/
lemma Item.isFailed_expand {item : Item} (h : ∀ e, item ≠ .enumeration e) (settings : Settings) :
    (item.expand settings).IsFailed := by
  cases item with
  | enumeration e => exact absurd rfl (h e)
  | module attributes mark name contents => exact Expansion.isFailed_failed _
  | named kind attributes mark name => exact Expansion.isFailed_failed _
  | unnamed kind attributes mark => exact Expansion.isFailed_failed _
  | unclassified mark => exact Expansion.isFailed_failed _

lemma Code.isFailed_expand {code : Code} (h : ∀ e, code.item? ≠ .ok (.enumeration e))
    (settings : Settings) : (code.expand settings).IsFailed := by
  unfold Code.expand
  cases hitem : code.item? with
  | error fault => exact Expansion.isFailed_failed _
  | ok item =>
    refine Item.isFailed_expand (fun e he => ?_) settings
    rw [hitem, he] at h
    exact h e rfl

lemma TaggedUnion.findings_expand (u : TaggedUnion) (settings : Settings) :
    (u.expand settings).findings = if u.variants.isEmpty then [u.emptyWarning] else [] := by
  simp only [expand, validate]
  split <;> rfl

lemma Code.isEmitted_expand {listing : Listing} {e : Enumeration}
    (h : listing.code.item? = .ok (.enumeration e)) (settings : Settings) :
    (listing.code.expand settings).IsEmitted listing e := by
  have hexpand : listing.code.expand settings = e.toUnion.expand settings := by
    simp only [Code.expand, h, Item.expand, Item.extract]
  have hfindings := e.toUnion.findings_expand settings
  rw [hexpand]
  constructor
  · rfl
  · refine ⟨_, rfl, ?_⟩
    rw [TaggedUnion.union_validate]
    exact ⟨rfl, rfl⟩
  · rw [Expansion.hasErrors, hfindings]
    split <;> rfl
  · intro hvariants
    have hsome : e.toUnion.variants.isEmpty = false := by simp [Enumeration.toUnion, hvariants]
    rw [hfindings, hsome]
    rfl
  · intro hvariants
    obtain ⟨pre, rest, hcode, hkeyword⟩ := Code.keyword_of_item? h
    obtain ⟨before, place, place', behind, rfl, hlength⟩ :=
      Listing.exists_of_code_eq_append hcode
    refine ⟨before, place, place', behind, rfl, ?_⟩
    have hmark : e.keyword = (⟨Token.ident e.name, place'⟩ :: behind : Listing).length + 1 := by
      rw [hkeyword, List.length_cons, hlength]
    have hempty : e.toUnion.variants.isEmpty = true := by simp [Enumeration.toUnion, hvariants]
    unfold Expansion.diagnostics
    rw [hfindings, if_pos hempty]
    simp only [List.map_cons, List.map_nil, Finding.placedIn, TaggedUnion.emptyWarning,
      Enumeration.toUnion, hmark, Listing.positionAt_append_cons]

/-! ### The stages -/

/-- The expansion is what the stages make of the code one after the other. -/
lemma Code.expand_eq_stages (code : Code) (settings : Settings) :
    code.expand settings =
      match code.extract with
      | .error e => { artifact := none, findings := [e.finding], stage := .extractionFailed }
      | .ok u =>
        { artifact := some (u.emit (u.dispatch settings.renderers) settings)
          findings := u.validate.warning?.toList
          stage := .emitted } := by
  unfold Code.expand Code.extract
  cases code.item? with
  | error fault => rfl
  | ok item =>
    simp only [Item.expand]
    cases item.extract with
    | error e => rfl
    | ok u =>
      simp only [TaggedUnion.expand, TaggedUnion.union_validate]

/-- An expansion ends with a dispatcher if the tokens are an enumeration, and with one error
otherwise. Either way it is the stages one after the other, none of which changes the union. -/
theorem expansion_outcome (listing : Listing) (settings : Settings) :
    (∀ e, listing.code.item? = .ok (.enumeration e) →
      (listing.code.expand settings).IsEmitted listing e) ∧
    ((∀ e, listing.code.item? ≠ .ok (.enumeration e)) →
      (listing.code.expand settings).IsFailed) ∧
    ((listing.code.expand settings).stage = .emitted ↔
      ∃ e, listing.code.item? = .ok (.enumeration e)) ∧
    listing.code.expand settings =
      (match listing.code.extract with
      | .error e => { artifact := none, findings := [e.finding], stage := .extractionFailed }
      | .ok u =>
        { artifact := some (u.emit (u.dispatch settings.renderers) settings)
          findings := u.validate.warning?.toList
          stage := .emitted }) ∧
    ∀ u : TaggedUnion, u.validate.union = u := by
  refine ⟨fun e h => Code.isEmitted_expand h settings, fun h => Code.isFailed_expand h settings,
    ?_, Code.expand_eq_stages listing.code settings, TaggedUnion.union_validate⟩
  constructor
  · intro hstage
    by_contra h
    have hfailed := (Code.isFailed_expand (fun e he => h ⟨e, he⟩) settings).stage
    rw [hstage] at hfailed
    cases hfailed
  · rintro ⟨e, he⟩
    exact (Code.isEmitted_expand he settings).stage

end UnionView
