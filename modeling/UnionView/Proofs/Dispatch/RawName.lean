import UnionView.Proofs.Attribute.Layering
import UnionView.Proofs.Dispatch.Drawing
import UnionView.Proofs.Settings.Override

/-!
# Raw names of payloads

The type of a payload may be written as a raw identifier or not, which is the same type. The name
that its renderer has by convention is the same as well, but a renderer that is chosen is chosen for
one spelling: a payload that is written in the other way keeps the renderer that it had. So two
enumerations that differ in such spellings (`Enumeration.Respells`) have one dispatcher as long as
both spellings lead to one renderer, and not longer (`renderers_of_spellings`).
-/

namespace UnionView

/-! ### Names -/

/-- The names are one identifier, which is written as a raw identifier or not. -/
def IsSameIdentifier (m n : String) : Prop :=
  plainName m = plainName n

lemma plainName_raw (name : String) : plainName ("r#" ++ name) = name := by
  simp [plainName]

/-- Every name that is not raw has a raw spelling. -/
lemma isSameIdentifier_raw {name : String} (h : plainName name = name) :
    IsSameIdentifier name ("r#" ++ name) :=
  h.trans (plainName_raw name).symm

lemma IsSameIdentifier.symm {m n : String} (h : IsSameIdentifier m n) : IsSameIdentifier n m :=
  Eq.symm h

/-- The convention does not see how a name is spelled. -/
lemma IsSameIdentifier.viewName_eq {m n : String} (h : IsSameIdentifier m n) :
    viewName m = viewName n :=
  congrArg (· ++ "View") h

/-! ### Renderers that are written -/

/-- The renderer that is written for a payload: with the declaration, or else in the settings
file. -/
def AttributeArguments.writtenRenderer? (a : AttributeArguments) (file : SettingsFile)
    (payload : String) : Option Path :=
  (a.renderers.lookup payload).or (file.renderer? payload)

/-- The renderer of a payload is the one that is written, or has its name by convention. -/
lemma AttributeArguments.resolve_applyTo {file : SettingsFile} {base : Settings} {code : Code}
    {behind : Nat} {a : AttributeArguments} (built : file.settings? = .ok base)
    (accepted : ofCode code behind = .ok a) (payload : String) :
    (a.applyTo base).renderers.resolve payload =
      (a.writtenRenderer? file payload).getD (Path.ofName (viewName payload)) := by
  obtain ⟨-, -, hrenderers⟩ := SettingsFile.settings?_eq_ok built
  rw [applyTo_eq, Renderers.resolve, NameMap.get?_insertAll (nodup_of_ofCode accepted), hrenderers]
  rfl

/-- An assignment to one spelling of a name says nothing of the other one. -/
lemma SettingsFile.renderer?_of_setRenderer {file edited : SettingsFile} {text name : String}
    {path : Path} (read : readAssignment text = .ok (name, path))
    (h : file.setRenderer text = .ok edited) {other : String} (hother : other ≠ name) :
    edited.renderer? other = file.renderer? other := by
  obtain ⟨assignment, hread, hlaid⟩ := isLaidOver_of_setRenderer h
  cases read.symm.trans hread
  apply hlaid.others
  rw [lastAssigned?_singleton, if_neg hother]

/-! ### Enumerations that differ in spellings -/

/-- Variants that differ in nothing but the spelling of the name that the payload's type has. -/
structure Variant.Respells (v w : Variant) : Prop where
  name : v.name = w.name
  kind : v.fields.kind = w.fields.kind
  firstName : v.fields.firstName? = w.fields.firstName?
  payload : v.fields.payload?.map plainName = w.fields.payload?.map plainName

/-- Enumerations that differ in nothing but the spelling of the names of payloads. -/
structure Enumeration.Respells (e f : Enumeration) : Prop where
  name : e.name = f.name
  generics : e.generics = f.generics
  variants : List.Forall₂ Variant.Respells e.variants f.variants

/-- The payloads of the variants have one renderer, or there are none. -/
def Renderers.DrawsAlike (renderers : Renderers) (v w : Variant) : Prop :=
  v.fields.payload?.map renderers.resolve = w.fields.payload?.map renderers.resolve

namespace Variant.Respells

variable {v w : Variant} {renderers : Renderers}

/-- The branches are the same exactly if the renderers are. -/
lemma branch_eq_iff (h : v.Respells w) :
    v.toUnionVariant.branch renderers = w.toUnionVariant.branch renderers ↔
      renderers.DrawsAlike v w := by
  have hpayload := h.payload
  simp only [UnionVariant.branch, toUnionVariant, Renderers.DrawsAlike, h.name]
  cases hv : v.fields.payload? with
  | none =>
    cases hw : w.fields.payload? with
    | none => simp
    | some n => simp [hv, hw] at hpayload
  | some m =>
    cases hw : w.fields.payload? with
    | none => simp [hv, hw] at hpayload
    | some n => simp

/-- Only the renderer of an arm can differ. -/
lemma arm_eq (h : v.Respells w) (owner : String) (same : renderers.DrawsAlike v w) :
    v.arm owner renderers = w.arm owner renderers := by
  have hform : v.fields.form = w.fields.form := Fields.form_eq h.kind h.firstName
  rw [arm, arm, h.branch_eq_iff.mpr same]
  simp only [UnionVariant.armPattern, toUnionVariant, h.name, hform]

variable {vs ws : List Variant}

/-- The branches of all variants are the same exactly if all renderers are. -/
lemma map_branch_eq_iff (h : List.Forall₂ Variant.Respells vs ws) :
    vs.map (fun v => v.toUnionVariant.branch renderers) =
        ws.map (fun w => w.toUnionVariant.branch renderers) ↔
      List.Forall₂ renderers.DrawsAlike vs ws := by
  induction h with
  | nil => simp
  | cons first others ih =>
    rw [List.forall₂_cons, ← ih, ← first.branch_eq_iff]
    simp

lemma map_arm_eq (h : List.Forall₂ Variant.Respells vs ws) (owner : String)
    (same : List.Forall₂ renderers.DrawsAlike vs ws) :
    vs.map (Variant.arm owner renderers) = ws.map (Variant.arm owner renderers) := by
  induction h with
  | nil => rfl
  | cons first others ih =>
    obtain ⟨hfirst, hothers⟩ := List.forall₂_cons.mp same
    rw [List.map_cons, List.map_cons, first.arm_eq owner hfirst, ih hothers]

end Variant.Respells

/-- The generated code depends on the names and parameters of the union and on what is drawn. -/
lemma Emission.code_congr (e e' : Emission) (runtime : e.runtime = e'.runtime)
    (name : e.union.name = e'.union.name) (generics : e.union.generics = e'.union.generics)
    (isEmpty : e.dispatch = .empty ↔ e'.dispatch = .empty)
    (body : e.dispatch.body e.union.name = e'.dispatch.body e'.union.name) : e.code = e'.code := by
  rw [name] at body
  simp only [code, structCode, fromStoreCode, viewCode, hasViewCode, view, Emission.generics,
    ownerType, viewType, storeArguments, storeType, runtime, name, generics, isEmpty, body]

namespace Enumeration.Respells

variable {e f : Enumeration} {renderers : Renderers}

/-- The branches are the same exactly if the renderers are, variant by variant. -/
lemma branches_eq_iff (h : e.Respells f) :
    (e.toUnion.dispatch renderers).branches.map Prod.snd =
        (f.toUnion.dispatch renderers).branches.map Prod.snd ↔
      List.Forall₂ renderers.DrawsAlike e.variants f.variants := by
  rw [← Variant.Respells.map_branch_eq_iff h.variants]
  simp only [TaggedUnion.branches_dispatch, Enumeration.toUnion, List.map_map]
  rfl

/-- The generated code is the same if the renderers are. -/
lemma code_eq (h : e.Respells f) (settings : Settings)
    (same : List.Forall₂ settings.renderers.DrawsAlike e.variants f.variants) :
    (e.toUnion.emit (e.toUnion.dispatch settings.renderers) settings).code =
      (f.toUnion.emit (f.toUnion.dispatch settings.renderers) settings).code := by
  have hempty : e.variants = [] ↔ f.variants = [] := by
    rw [← List.length_eq_zero_iff, h.variants.length_eq, List.length_eq_zero_iff]
  refine Emission.code_congr ⟨_, e.toUnion, _⟩ ⟨_, f.toUnion, _⟩ rfl h.name h.generics ?_ ?_
  · simp [TaggedUnion.dispatch, toUnion, hempty]
  · show (e.toUnion.dispatch _).body e.name = (f.toUnion.dispatch _).body f.name
    by_cases hnone : e.variants = []
    · simp [TaggedUnion.dispatch, toUnion, hnone, hempty.mp hnone, Dispatch.body]
    · rw [body_dispatch e _ hnone, body_dispatch f _ (mt hempty.mpr hnone), h.name,
        Variant.Respells.map_arm_eq h.variants f.name same]

end Enumeration.Respells

/-! ### Both spellings -/

/-- One renderer draws a payload in both spellings of its name exactly if what is written for each
of them, or else the convention, is one renderer. So a renderer that is written for one spelling
alone does not draw payloads in the other one, on which an assignment has no effect. Enumerations
that differ in spellings have the same branches exactly if the renderers are the same, and then the
same code. -/
theorem renderers_of_spellings {file : SettingsFile} {base : Settings} {code : Code} {behind : Nat}
    {a : AttributeArguments} (built : file.settings? = .ok base)
    (accepted : AttributeArguments.ofCode code behind = .ok a) :
    (∀ m n, IsSameIdentifier m n →
        ((a.applyTo base).renderers.resolve m = (a.applyTo base).renderers.resolve n ↔
          (a.writtenRenderer? file m).getD (Path.ofName (viewName m)) =
            (a.writtenRenderer? file n).getD (Path.ofName (viewName m)))) ∧
      (∀ m n renderer, IsSameIdentifier m n → a.writtenRenderer? file m = some renderer →
        a.writtenRenderer? file n = none →
        (a.applyTo base).renderers.resolve m = renderer ∧
          (a.applyTo base).renderers.resolve n = Path.ofName (viewName m)) ∧
      (∀ text edited m renderer, readAssignment text = .ok (m, renderer) →
        file.setRenderer text = .ok edited → ∀ n, n ≠ m →
        a.writtenRenderer? edited n = a.writtenRenderer? file n) ∧
      ∀ e f, e.Respells f →
        ∃ x y, ((Item.enumeration e).expand (a.applyTo base)).artifact = some x ∧
          ((Item.enumeration f).expand (a.applyTo base)).artifact = some y ∧
          (x.body.branches.map Prod.snd = y.body.branches.map Prod.snd ↔
            List.Forall₂ (a.applyTo base).renderers.DrawsAlike e.variants f.variants) ∧
          (x.body.branches.map Prod.snd = y.body.branches.map Prod.snd → x.code = y.code) := by
  refine ⟨?_, ?_, ?_, ?_⟩
  · intro m n same
    rw [AttributeArguments.resolve_applyTo built accepted,
      AttributeArguments.resolve_applyTo built accepted, same.viewName_eq]
  · intro m n renderer same hm hn
    rw [AttributeArguments.resolve_applyTo built accepted,
      AttributeArguments.resolve_applyTo built accepted, hm, hn, same.viewName_eq]
    exact ⟨rfl, rfl⟩
  · intro text edited m renderer hread hedited n hne
    simp only [AttributeArguments.writtenRenderer?,
      SettingsFile.renderer?_of_setRenderer hread hedited hne]
  · intro e f h
    refine ⟨_, _, e.toUnion.artifact_expand _, f.toUnion.artifact_expand _, ?_, ?_⟩
    · exact h.branches_eq_iff
    · intro hbranches
      exact h.code_eq _ (h.branches_eq_iff.mp hbranches)

/-- A settings file with a renderer for the raw spelling of `Note`. -/
def rawNoteFile : SettingsFile where
  renderers := .ofList [("r#Note", "notes::NotePanel")]

/-- An enumeration whose payloads have these names. -/
def noteSheet (info note : String) : Enumeration :=
  { keyword := 11
    name := "Sheet"
    nameMark := 10
    variants :=
      [{ name := "Info", fields := .tuple [{ type := .path (Path.ofName info) }] },
        { name := "Note", fields := .tuple [{ type := .path (Path.ofName note) }] }] }

lemma noteSheet_respells {info info' note note' : String} (hinfo : IsSameIdentifier info info')
    (hnote : IsSameIdentifier note note') :
    (noteSheet info note).Respells (noteSheet info' note') :=
  { name := rfl
    generics := rfl
    variants := .cons ⟨rfl, rfl, rfl, congrArg some hinfo⟩
      (.cons ⟨rfl, rfl, rfl, congrArg some hnote⟩ .nil) }

/-- The renderer that the arguments choose is for `Info`, the one in the settings file for `r#Note`,
so the two sheets draw different things. -/
theorem renderers_of_noteSheets :
    let panel : AttributeArguments :=
      { runtime := some (.ofName "ui"), renderers := [("Info", .ofName "panel")] }
    ∃ base, rawNoteFile.settings? = .ok base ∧
      (panel.applyTo base).renderers.resolve "Info" = .ofName "panel" ∧
      (panel.applyTo base).renderers.resolve "r#Info" = .ofName "InfoView" ∧
      (panel.applyTo base).renderers.resolve "r#Note" = (Path.ofName "notes").child "NotePanel" ∧
      (panel.applyTo base).renderers.resolve "Note" = .ofName "NoteView" ∧
      ∃ x y,
        ((Item.enumeration (noteSheet "Info" "Note")).expand (panel.applyTo base)).artifact =
          some x ∧
        ((Item.enumeration (noteSheet "r#Info" "r#Note")).expand (panel.applyTo base)).artifact =
          some y ∧
        x.body.branches.map Prod.snd ≠ y.body.branches.map Prod.snd := by
  intro panel
  have accepted : AttributeArguments.ofCode AttributeArguments.panelArguments = .ok panel :=
    (AttributeArguments.ofCode_eq_ok_iff AttributeArguments.isArguments_panelArguments).mpr
      ⟨by decide, by decide, rfl, rfl⟩
  have builds : rawNoteFile.settings?.toOption.isSome = true := by decide +kernel
  obtain ⟨base, hbase⟩ := Option.isSome_iff_exists.mp builds
  have built := Except.toOption_eq_some_iff.mp hbase
  obtain ⟨-, hone, -, hsheets⟩ := renderers_of_spellings built accepted
  have info : IsSameIdentifier "Info" "r#Info" := isSameIdentifier_raw (by decide)
  have note : IsSameIdentifier "Note" "r#Note" := isSameIdentifier_raw (by decide)
  obtain ⟨hinfo, hrawInfo⟩ := hone _ _ (.ofName "panel") info rfl (by decide +kernel)
  obtain ⟨hrawNote, hnote⟩ :=
    hone _ _ ((Path.ofName "notes").child "NotePanel") note.symm (by decide +kernel)
      (by decide +kernel)
  obtain ⟨x, y, hx, hy, hbranches, -⟩ := hsheets _ _ (noteSheet_respells info note)
  refine ⟨base, built, hinfo, hrawInfo.trans (by decide), hrawNote, hnote.trans (by decide), x, y,
    hx, hy, ?_⟩
  intro heq
  have hfirst := (List.forall₂_cons.mp (hbranches.mp heq)).1
  have hresolve : (panel.applyTo base).renderers.resolve "Info" =
      (panel.applyTo base).renderers.resolve "r#Info" := Option.some.inj hfirst
  rw [hinfo, hrawInfo] at hresolve
  exact absurd hresolve (by decide)

end UnionView
