import Mathlib.Data.List.Forall2
import UnionView.Proofs.Reading.Items
import UnionView.Source.Selection

/-!
# Reading the generated file

The items of an emission are all that its code consists of, and none of them asks for a dispatcher.
-/

namespace UnionView

open Reader

namespace Read

variable {rest code attributes : Code} {paths : List Path} {o : Outline}

/-! ### Declarations -/

/-- The documentation of a dispatcher is one attribute, whatever its text is. -/
lemma takes_documentation (owner : String) :
    Takes (collect declaredAttribute?) (documentationCode owner) (wordCode "pub" ++ code)
      fun found => found.map (·.content.path) = [.ofName "doc"] := by
  have hcontent (rest : Code) (text : String) : Takes declaredContent
      (groupCode .square (wordCode "doc" ++ opCode "=" ++ [.literal text])) rest
      (·.path = .ofName "doc") := by
    refine .see rfl (.last (.rawGroup fun _ _ => rfl) ?_)
    intro g hg
    have hmeta : Takes (meta? g.inner.grammar) g.inner [] (·.path = .ofName "doc") := by
      rw [hg]
      exact fun _ _ => ⟨_, _, rfl, rfl⟩
    refine (Takes.inside hmeta).mono ?_
    rintro _ ⟨m, rfl, hm⟩
    exact hm
  have hattribute : Takes declaredAttribute? (documentationCode owner) (wordCode "pub" ++ code)
      fun found => ∃ a, found = some a ∧ a.content.path = .ofName "doc" := by
    refine .see rfl (.last ?_ fun a ha => .pure ⟨a, rfl, ha⟩)
    refine .quiet .mark fun start _ =>
      .seq (.operator _) fun _ => ?_
    exact .last (hcontent _ _) fun _ hm => .pure hm
  have hattribute' : Takes declaredAttribute? (documentationCode owner)
      ([] ++ (wordCode "pub" ++ code)) _ := hattribute
  have hend : Takes declaredAttribute? [] (wordCode "pub" ++ code) (· = none) :=
    .see rfl (.pure rfl)
  have heach := TakesEach.cons (List.cons_ne_nil _ _) hattribute' (.last hend)
  rw [List.append_nil] at heach
  refine heach.collect.mono ?_
  rintro _ ⟨a, _, rfl, ha, rfl⟩
  rw [List.map_singleton, ha]

/-- A declaration is read with its outline if its attributes and its item are. -/
lemma takes_outline (hattributes : Takes (collect declaredAttribute?) attributes (code ++ rest)
      fun found => found.map (·.content.path) = paths)
    (hitem : ∀ fuel, 8 * code.length + 63 ≤ fuel →
      Takes (itemOutline (grammar fuel) paths) code rest (· = o)) :
    Takes outline (attributes ++ code) rest (· = o) := by
  refine .bind hattributes ?_
  rintro found rfl
  refine .afresh (.of_eq (fun c hc => ?_) (hitem (8 * (code ++ rest).length + 63) ?_))
  · rw [hc]
  · rw [List.length_append]
    omega

/-- An implementation without attributes. -/
lemma takes_outline_implementation (h : ∀ fuel, 8 * (wordCode "impl" ++ code).length + 63 ≤ fuel →
      Takes (itemOutline (grammar fuel) []) (wordCode "impl" ++ code) rest (· = o)) :
    Takes outline (wordCode "impl" ++ code) rest (· = o) := by
  have hnone : Takes (collect declaredAttribute?) [] (wordCode "impl" ++ code ++ rest)
      fun found => found.map (·.content.path) = [] := fun _ _ => ⟨_, _, rfl, rfl⟩
  have houtline : Takes outline ([] ++ (wordCode "impl" ++ code)) rest (· = o) :=
    takes_outline hnone h
  exact houtline

lemma takes_declaration (h : Takes outline code rest (· = o)) :
    Takes declaration code rest o.Describes := by
  intro behind written
  obtain ⟨_, written', hrun, rfl⟩ := h behind written
  obtain ⟨found, hfound, hdescribes⟩ := exists_declaration hrun
  exact ⟨found, written', hfound, hdescribes⟩

end Read

namespace Outline

/-- What is described does not ask for a dispatcher if none of the attributes does. -/
lemma Describes.selection_eq_nil {o : Outline} {item : Item} (h : o.Describes item)
    (hnone : ∀ p ∈ o.attributes, p.lastName ≠ Attribute.requestName) : item.selection [] = [] := by
  obtain ⟨hattributes, hkind⟩ := h
  have hrequests : item.requests = [] := by
    refine List.filter_eq_nil_iff.mpr fun a ha => ?_
    have hpath := hnone a.content.path (hattributes ▸ List.mem_map_of_mem ha)
    simpa [Attribute.isRequest] using hpath
  have hselected : item.selected? [] = none := by
    cases hname : item.name? <;>
      simp [Item.selected?, Item.arguments?, hrequests, Item.isNamedIn, hname]
  cases o with
  | struct =>
    obtain ⟨attributes, keyword, rfl⟩ := hkind
    simp [Item.selection, hselected]
  | implementation =>
    obtain ⟨attributes, keyword, rfl⟩ := hkind
    simp [Item.selection, hselected]

/-- Nothing is selected of items that none of the attributes is a request on. -/
lemma selectAll_eq_nil {os : List Outline} {items : List Item}
    (h : List.Forall₂ Outline.Describes os items)
    (hnone : ∀ o ∈ os, ∀ p ∈ o.attributes, p.lastName ≠ Attribute.requestName) :
    selectAll [] items = [] := by
  induction h with
  | nil => rfl
  | @cons o item os items hitem _ ih =>
    have hfirst := hitem.selection_eq_nil (hnone o List.mem_cons_self)
    rw [selectAll, hfirst, ih fun o ho => hnone o (List.mem_cons_of_mem _ ho)]
    rfl

end Outline

/-- What the items of a dispatcher are meant to declare: the dispatcher with its store, what it
implements, and what the union that it draws implements. -/
def dispatcherOutlines (runtime : Path) (owner : String) : List Outline :=
  [.struct [.ofName "doc"] (viewName owner) ["store"],
    .implementation [] (runtime.child "FromStore") (.ofName (viewName owner)),
    .implementation [] (runtime.child "View") (.ofName (viewName owner)),
    .implementation [] (runtime.child "HasView") (.ofName owner)]

/-- No attribute on the items asks for a dispatcher. -/
lemma lastName_ne_requestName (runtime : Path) (owner : String) :
    ∀ o ∈ dispatcherOutlines runtime owner, ∀ p ∈ o.attributes,
      p.lastName ≠ Attribute.requestName := by
  have hdoc : (Path.ofName "doc").lastName ≠ Attribute.requestName := by decide
  simpa [dispatcherOutlines, Outline.attributes] using hdoc

namespace Emission.IsKnown

variable {e : Emission} (h : e.IsKnown) {rest : Code}

include h

/-! ### The items of the file -/

lemma takes_struct_outline : Takes Read.outline e.structCode rest
    (· = .struct [.ofName "doc"] e.view ["store"]) := by
  rw [e.structCode_eq]
  exact Read.takes_outline (Read.takes_documentation _) fun fuel hfuel => h.takes_structItem _ hfuel

lemma takes_fromStore_outline : Takes Read.outline e.fromStoreCode rest
    (· = .implementation [] (e.runtime.child "FromStore") (.ofName e.view)) := by
  have hitem (fuel : Nat) : 8 * e.fromStoreCode.length + 63 ≤ fuel → Takes _ _ rest _ :=
    h.takes_fromStoreCode
  rw [e.fromStoreCode_eq] at hitem ⊢
  exact Read.takes_outline_implementation hitem

lemma takes_view_outline : Takes Read.outline e.viewCode rest
    (· = .implementation [] (e.runtime.child "View") (.ofName e.view)) := by
  have hitem (fuel : Nat) : 8 * e.viewCode.length + 63 ≤ fuel → Takes _ _ rest _ := h.takes_viewCode
  rw [e.viewCode_eq] at hitem ⊢
  exact Read.takes_outline_implementation hitem

lemma takes_hasView_outline : Takes Read.outline e.hasViewCode rest
    (· = .implementation [] (e.runtime.child "HasView") (.ofName e.union.name)) := by
  have hitem (fuel : Nat) : 8 * e.hasViewCode.length + 63 ≤ fuel → Takes _ _ rest _ :=
    h.takes_hasViewCode
  rw [e.hasViewCode_eq] at hitem ⊢
  exact Read.takes_outline_implementation hitem

/-- A reader that reads whatever has an outline reads the four items. -/
lemma takes_untilEnd {α : Type} {p : Reader α} {R : Outline → α → Prop}
    (hp : ∀ ⦃code rest o⦄, Takes Read.outline code rest (· = o) → Takes p code rest (R o)) :
    Takes (untilEnd p) e.code [] fun as =>
      List.Forall₂ R (dispatcherOutlines e.runtime e.union.name) as := by
  have hcode :
      e.code = e.structCode ++ (e.fromStoreCode ++ (e.viewCode ++ (e.hasViewCode ++ []))) := by
    simp only [code, List.append_assoc, List.append_nil]
  have hfour : TakesEach (elementStep p) []
      (e.structCode ++ (e.fromStoreCode ++ (e.viewCode ++ (e.hasViewCode ++ [])))) _ :=
    .element rfl (List.cons_ne_nil _ _) (hp h.takes_struct_outline)
      (.element rfl (List.cons_ne_nil _ _) (hp h.takes_fromStore_outline)
        (.element rfl (List.cons_ne_nil _ _) (hp h.takes_view_outline)
          (.element rfl (List.cons_ne_nil _ _) (hp h.takes_hasView_outline) (.ended rfl))))
  rw [hcode]
  refine hfour.collect.mono ?_
  rintro _ ⟨a, _, rfl, ha, b, _, rfl, hb, c, _, rfl, hc, d, _, rfl, hd, rfl⟩
  exact .cons ha (.cons hb (.cons hc (.cons hd .nil)))

/-! ### The whole file -/

/-- The outlines of the code are what its items are meant to declare. -/
lemma outline?_code : e.code.outline? = .ok (dispatcherOutlines e.runtime e.union.name) := by
  have heach : Takes (untilEnd Read.outline) e.code [] fun os =>
      List.Forall₂ (· = ·) (dispatcherOutlines e.runtime e.union.name) os :=
    h.takes_untilEnd fun _ _ _ hp => hp.mono fun _ => Eq.symm
  obtain ⟨os, hrun, hos⟩ := heach.run
  rw [List.forall₂_eq_eq_eq] at hos
  exact hos ▸ hrun

/-- The code is a file of items that are what they are meant to be. -/
lemma file?_code : ∃ items, e.code.file? = .ok { attributes := [], items } ∧
    List.Forall₂ Outline.Describes (dispatcherOutlines e.runtime e.union.name) items := by
  have heach : Takes (untilEnd Read.declaration) e.code [] _ :=
    h.takes_untilEnd fun _ _ _ => Read.takes_declaration
  have hfile : Takes (do
      let attributes ← Read.innerAttributes e.code.grammar
      let items ← untilEnd Read.declaration
      return { attributes, items }) e.code [] fun f : File =>
        f.attributes = [] ∧
          List.Forall₂ Outline.Describes (dispatcherOutlines e.runtime e.union.name) f.items := by
    refine .look (Read.takes_innerAttributes_nil _ rfl) ?_
    exact .last heach fun items hitems => .pure ⟨rfl, hitems⟩
  obtain ⟨⟨_, items⟩, hrun, rfl, hitems⟩ := hfile.run
  exact ⟨items, hrun, hitems⟩

end Emission.IsKnown

end UnionView
