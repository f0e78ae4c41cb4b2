import UnionView.Proofs.Dispatch.Drawing
import UnionView.Proofs.Dispatch.Soundness
import UnionView.Proofs.Reading.Bounds
import UnionView.Proofs.Reading.File
import UnionView.Proofs.Reading.Names
import UnionView.Proofs.Settings.Soundness

/-!
# Reading a dispatcher

The text of the dispatcher of an enumeration that was read, with settings that a file builds, is read
as the four items that it is meant to be (`items_of_artifact`), if what bounds the parameters are
plain paths. What is printed into places where it may not stand is left out: a runtime with `Self`,
which cannot be imported from, a first field that is called `_`, which cannot be bound, and
parameters that a qualified path may begin with.
-/

namespace UnionView

/-! ### The names of views -/

/-- The name of a view is no reserved word, because none ends as it does. -/
lemma fits_viewName (typeName : String) :
    Terminal.identifier.fits [.ident (viewName typeName)] = true := by
  have hreserved : ∀ text ∈ reservedWords, ¬ "View".toList <:+ text.toList := by decide
  have hview : "View".toList <:+ (viewName typeName).toList := by
    unfold viewName
    rw [String.toList_append]
    exact List.suffix_append _ _
  have hnone : viewName typeName ∉ reservedWords := fun h => hreserved _ h hview
  simpa [Terminal.fits] using hnone

lemma Path.forall_isPlain_ofName {name : String}
    (h : Terminal.identifier.fits [.ident name] = true) :
    ∀ s ∈ (Path.ofName name).segments, s.IsPlain :=
  List.forall_mem_singleton.mpr ⟨rfl, Path.segmentStarts_of_identifier h⟩

/-! ### Settings -/

structure Settings.IsPlain (s : Settings) : Prop where
  runtime : ∀ segment ∈ s.runtime.segments, segment.IsPlain
  renderers : ∀ payload path, s.renderers.get? payload = some path →
    ∀ segment ∈ path.segments, segment.IsPlain

/-- A renderer is plain whether it is registered or not. -/
lemma Settings.IsPlain.resolve {s : Settings} (h : s.IsPlain) (payload : String) :
    ∀ segment ∈ (s.renderers.resolve payload).segments, segment.IsPlain := by
  unfold Renderers.resolve
  cases hrenderer : s.renderers.get? payload with
  | none => exact Path.forall_isPlain_ofName (fits_viewName payload)
  | some path => exact h.renderers payload path hrenderer

/-- The paths of settings that a file builds are plain. -/
lemma SettingsFile.isPlain_of_settings? {file : SettingsFile} {s : Settings}
    (h : file.settings? = .ok s) : s.IsPlain := by
  obtain ⟨hruntime, hrenderers⟩ := ofText_of_settings? h
  constructor
  · obtain hdefault | ⟨text, htext⟩ := hruntime
    · rw [hdefault]
      exact List.forall_mem_singleton.mpr ⟨rfl, by decide⟩
    · exact Path.isPlain_of_ofText htext
  · intro payload path hpath
    obtain ⟨text, htext⟩ := hrenderers payload path hpath
    exact Path.isPlain_of_ofText htext

/-- A plain path can be imported from if it is written without `Self`. -/
lemma Path.isImportable_of_isPlain {p : Path} (hplain : ∀ s ∈ p.segments, s.IsPlain)
    (h : ∀ s ∈ p.segments, s.name ≠ "Self") : p.IsImportable := by
  refine (isWritten_of_isPlain hplain).isImportable_iff.mpr ⟨?_, h⟩
  unfold isPlain
  rw [List.all_eq_true]
  exact fun s hs => List.isEmpty_iff.mpr (hplain s hs).arguments

/-! ### What is drawn -/

/-- The fields that a pattern has to bind have names to bind them by: none that is the first of a
variant and has a type with a name is called `_`. -/
def Enumeration.IsBindable (e : Enumeration) : Prop :=
  ∀ v ∈ e.variants, ∀ field fields, v.fields = .named (field :: fields) →
    field.type.name?.isSome = true → field.name ≠ "_"

namespace Variant

variable {v : Variant} {owner : String} {renderers : Renderers}

lemma isNamed_armPattern (howner : Terminal.identifier.fits [.ident owner] = true)
    (h : v.IsNamed) : (v.toUnionVariant.armPattern owner).IsNamed where
  owner := howner
  variant := h.name
  field name hname := by
    simp only [UnionVariant.armPattern, toUnionVariant] at hname
    cases hform : v.fields.form <;> rw [hform] at hname <;> cases hname

/-- An arm draws with names that were read, if its first field can be bound. -/
lemma isKnown_arm (howner : Terminal.identifier.fits [.ident owner] = true) (h : v.IsNamed)
    (hrenderers : ∀ payload, ∀ s ∈ (renderers.resolve payload).segments, s.IsPlain)
    (hbindable : ∀ field fields, v.fields = .named (field :: fields) →
      field.type.name?.isSome = true → field.name ≠ "_") : (v.arm owner renderers).IsKnown where
  pattern := isNamed_armPattern howner h
  body := by
    unfold arm UnionVariant.branch
    cases hpayload : v.toUnionVariant.payload with
    | none => trivial
    | some payload =>
      simp only [Branch.armBody]
      cases hfields : v.fields with
      | unit => trivial
      | tuple fields =>
        refine ⟨⟨howner, h.name, ?_⟩, hrenderers payload⟩
        intro field hfield
        cases hfield
      | named fields =>
        cases fields with
        | nil => trivial
        | cons field fields =>
          refine ⟨⟨howner, h.name, ?_⟩, hrenderers payload⟩
          rintro _ ⟨⟩
          have htype : field.type.name?.isSome = true := by
            simp only [toUnionVariant, hfields, Fields.payload?, Fields.toList] at hpayload
            simpa using Option.isSome_of_mem hpayload
          exact (h.fields _ hfields field List.mem_cons_self).resolve_left
            (hbindable field fields hfields htype)

end Variant

/-- The dispatcher of an enumeration draws with names that were read. -/
lemma Enumeration.isKnown_body {e : Enumeration} {settings : Settings} (hnamed : e.IsNamed)
    (hplain : settings.IsPlain) (hbindable : e.IsBindable) :
    ((e.toUnion.dispatch settings.renderers).body e.name).IsKnown := by
  by_cases hvariants : e.variants = []
  · have hempty : e.toUnion.dispatch settings.renderers = .empty := by
      simp [TaggedUnion.dispatch, toUnion, hvariants]
    rw [hempty]
    trivial
  · rw [body_dispatch e settings.renderers hvariants]
    refine ⟨rfl, List.forall_mem_map.mpr fun v hv => ?_⟩
    exact Variant.isKnown_arm hnamed.name (hnamed.variants v hv) hplain.resolve (hbindable v hv)

/-! ### The dispatcher -/

/-- What the dispatcher of an enumeration is made of may stand where it is printed. -/
lemma Enumeration.isKnown_emission {e : Enumeration} {settings : Settings} (hnamed : e.IsNamed)
    (hplain : settings.IsPlain) (hself : ∀ s ∈ settings.runtime.segments, s.name ≠ "Self")
    (hbindable : e.IsBindable) (hgenerics : e.generics.IsKnown) (hlead : e.generics.MayLead) :
    ({ runtime := settings.runtime
       union := e.toUnion
       dispatch := e.toUnion.dispatch settings.renderers } : Emission).IsKnown where
  runtime := hplain.runtime
  importable := Path.isImportable_of_isPlain hplain.runtime hself
  owner := hnamed.name
  view := fits_viewName e.name
  generics := hgenerics
  lead := hlead
  body := e.isKnown_body hnamed hplain hbindable

/-- The text of a dispatcher begins with an attribute, and not as a file does that has a first line
of its own. -/
lemma Emission.sourceText_code (e : Emission) : sourceText e.code.text = e.code.text := by
  obtain ⟨code, hcode⟩ : ∃ code, e.code = .punct '#' .alone :: .opening .square :: code := ⟨_, rfl⟩
  obtain ⟨cs, hcs⟩ : ∃ cs, e.code.text.toList = '#' :: ' ' :: cs := by
    rw [hcode]
    exact ⟨_, String.toList_ofList⟩
  have hmark : (some '#' : Option Char) ≠ some byteOrderMark := by decide
  have htext : String.ofList ('#' :: ' ' :: cs) = e.code.text := by rw [← hcs, String.ofList_toList]
  unfold sourceText
  simp only [hcs, List.head?_cons, if_neg hmark]
  exact htext

/-- The dispatcher of an enumeration with the settings of a file is read as four items: the struct
with its one field `store`, its implementations of `FromStore` and `View`, and the implementation of
`HasView` for the enumeration. None of them asks for a dispatcher. -/
theorem items_of_artifact {text : String} {listing : Listing} {e : Enumeration}
    {file : SettingsFile} {settings : Settings} {a : Artifact}
    (parsed : readText Code.item? text = .ok (listing, .enumeration e))
    (built : file.settings? = .ok settings)
    (artifact : (listing.code.expand settings).artifact = some a)
    (importable : ∀ s ∈ settings.runtime.segments, s.name ≠ "Self")
    (bindable : e.IsBindable) (leads : e.generics.MayLead) (simple : e.generics.IsSimple) :
    ∃ generated items, File.ofText a.source = .ok (generated, { attributes := [], items }) ∧
      generated.code = a.code ∧ a.code.outline? = .ok (dispatcherOutlines settings.runtime e.name) ∧
      List.Forall₂ Outline.Describes (dispatcherOutlines settings.runtime e.name) items ∧
      selectAll [] items = [] := by
  obtain ⟨hlisting, hitem⟩ := readText_eq_ok_iff.mp parsed
  have hnamed := Code.isNamed_of_item? hitem
  have hgenerics : e.generics.IsKnown :=
    ⟨hnamed.parameters, Code.isPunctuated_of_item? hitem, simple.readsBack⟩
  have hknown := e.isKnown_emission hnamed (SettingsFile.isPlain_of_settings? built) importable
    bindable hgenerics leads
  have hunion : e.toUnion.IsSound :=
    (Code.isSound_of_item? (Listing.isSound_of_ofText hlisting) hitem _ List.mem_cons_self).2 e rfl
  have hsound := TaggedUnion.isSound_emit hunion (SettingsFile.isSound_of_settings? built)
  simp only [Code.expand, hitem] at artifact
  cases artifact
  rw [TaggedUnion.union_validate]
  obtain ⟨items, hfile, hitems⟩ := hknown.file?_code
  obtain ⟨generated, hgenerated, hcode⟩ := hsound.isReadFrom_text
  refine ⟨generated, items, ?_, hcode, hknown.outline?_code, hitems,
    Outline.selectAll_eq_nil hitems (lastName_ne_requestName _ _)⟩
  have hsource := Emission.sourceText_code
    { runtime := settings.runtime
      union := e.toUnion
      dispatch := e.toUnion.dispatch settings.renderers }
  refine readText_eq_ok_iff.mpr ⟨?_, ?_⟩
  · exact (congrArg Listing.ofText hsource).trans hgenerated
  · rw [hcode]
    exact hfile

/-! ### A card -/

/-- An enumeration with a lifetime, a type that is bounded, a predicate, and variants of each
form. -/
def cardText : String :=
  "enum Card<'a, T: Draw> where T: Copy \x7b Text \x7b body: Body \x7d, Custom(T), Blank \x7d"

def cardGenerics : Generics where
  bracketed := true
  parameters :=
    [{ kind := .lifetime, name := "a", comma := true },
      { kind := .type, name := "T", bounds := some (wordCode "Draw") }]
  predicates := some (wordCode "T" ++ opCode ":" ++ wordCode "Copy")

def Enumeration.card : Enumeration where
  keyword := 29
  name := "Card"
  nameMark := 28
  generics := cardGenerics
  variants :=
    [{ name := "Text", fields := .named [{ name := "body", type := .path (.ofName "Body") }] },
      { name := "Custom", fields := .tuple [{ type := .path (.ofName "T") }] },
      { name := "Blank", fields := .unit }]

/-- The enumeration that a text is read as. -/
def Enumeration.ofText? (text : String) : Option Enumeration :=
  match readText Code.item? text with
  | .ok (_, .enumeration e) => some e
  | _ => none

lemma Enumeration.exists_of_ofText? {text : String} {e : Enumeration} (h : ofText? text = some e) :
    ∃ listing, readText Code.item? text = .ok (listing, .enumeration e) := by
  unfold ofText? at h
  split at h
  · rename_i listing _ hread
    rw [hread, Option.some.inj h]
    exact ⟨listing, rfl⟩
  · cases h

/-- Settings with a runtime and with a renderer of their own. -/
def cardSettings : SettingsFile where
  runtime := some "crate::ui"
  renderers := .ofList [("Body", "ui::Prose")]

lemma isSimple_cardGenerics : cardGenerics.IsSimple where
  parameters := by
    have hdraw : Path.ArePlain [.ofName "Draw"] :=
      ⟨nofun, List.forall_mem_singleton.mpr (Path.forall_isPlain_ofName (by decide))⟩
    refine List.forall_mem_cons.mpr ⟨⟨rfl, nofun, nofun⟩, List.forall_mem_singleton.mpr ?_⟩
    refine ⟨rfl, ?_, nofun⟩
    rintro _ ⟨⟩
    exact ⟨_, hdraw, rfl⟩
  predicates := by
    have hcopy : Path.ArePlain [.ofName "Copy"] :=
      ⟨nofun, List.forall_mem_singleton.mpr (Path.forall_isPlain_ofName (by decide))⟩
    rintro _ ⟨⟩
    refine ⟨_, .last _, List.forall_mem_singleton.mpr ⟨"T", _, by decide, hcopy, rfl⟩⟩

/-- The dispatcher of a card is read as its four items. -/
theorem items_of_card : ∃ listing settings a generated items,
    readText Code.item? cardText = .ok (listing, .enumeration .card) ∧
    cardSettings.settings? = .ok settings ∧ settings.runtime.text = "crate :: ui" ∧
    (listing.code.expand settings).artifact = some a ∧
    File.ofText a.source = .ok (generated, { attributes := [], items }) ∧
    a.code.outline? = .ok (dispatcherOutlines settings.runtime "Card") ∧
    List.Forall₂ Outline.Describes (dispatcherOutlines settings.runtime "Card") items ∧
    selectAll [] items = [] := by
  have hsettings : cardSettings.settings?.toOption.map (·.runtime) = some
      { first := { name := "crate" }, more := [{ name := "ui" }] } := by
    decide +kernel
  obtain ⟨settings, hsome, hruntime⟩ := Option.map_eq_some_iff.mp hsettings
  have hbuilt : cardSettings.settings? = .ok settings := Except.toOption_eq_some_iff.mp hsome
  obtain ⟨listing, hparsed⟩ : ∃ listing,
      readText Code.item? cardText = .ok (listing, .enumeration .card) :=
    Enumeration.exists_of_ofText? (by decide +kernel)
  have himportable : ∀ s ∈ settings.runtime.segments, s.name ≠ "Self" := by
    rw [hruntime]
    decide
  have hbindable : Enumeration.card.IsBindable := by
    refine List.forall_mem_cons.mpr ⟨?_, List.forall_mem_cons.mpr ⟨nofun, ?_⟩⟩
    · rintro _ _ ⟨⟩ -
      exact show "body" ≠ "_" by decide
    · exact List.forall_mem_singleton.mpr nofun
  have hleads : Enumeration.card.generics.MayLead := by
    rintro _ ⟨⟩ hname
    exact absurd hname (show "a" ≠ "_" by decide)
  obtain ⟨a, hartifact⟩ : ∃ a, (listing.code.expand settings).artifact = some a := by
    simp only [Code.expand, (readText_eq_ok_iff.mp hparsed).2]
    exact ⟨_, rfl⟩
  obtain ⟨generated, items, hfile, -, houtline, hitems, hselected⟩ := items_of_artifact hparsed
    hbuilt hartifact himportable hbindable hleads isSimple_cardGenerics
  refine ⟨listing, settings, a, generated, items, hparsed, hbuilt, ?_, hartifact, hfile, houtline,
    hitems, hselected⟩
  rw [hruntime]
  decide +kernel

end UnionView
