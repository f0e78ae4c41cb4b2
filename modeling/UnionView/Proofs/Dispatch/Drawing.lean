import UnionView.Dispatch.Evaluation
import UnionView.Proofs.Dispatch.Branches

/-!
# What a dispatcher draws

The generated `match` is evaluated on the values of a declared enumeration. A value holds the
fields of its active variant in the form in which they are declared (`Variant.IsValue`). Of all
arms only the one of the active variant fits, and it draws what the declaration says
(`Variant.Draws`): the first field by its renderer, or nothing.
-/

namespace UnionView

variable {α : Type}

/-! ### Values of a declaration -/

/-- The values are those of the fields, in the form in which the fields are declared. -/
inductive Fields.Hold : Fields → FieldValues α → Prop
  | unit : Hold .unit .unit
  | tuple {fields : List Field} {values : List α} (size : values.length = fields.length) :
      Hold (.tuple fields) (.tuple values)
  | named {fields : List NamedField} {values : List (String × α)}
      (names : values.map (·.1) = fields.map (·.name)) :
      Hold (.named fields) (.named values)

def FieldValues.first? : FieldValues α → Option α
  | unit => none
  | tuple values => values.head?
  | named values => values.head?.map (·.2)

/-- A value whose active variant is `d`. -/
structure Variant.IsValue (d : Variant) (v : UnionValue α) : Prop where
  variant : v.variant = d.name
  fields : d.fields.Hold v.fields

/-- What the arm of a variant does with a value of it, by the declaration of the variant. If the
type of the first field has a name, the arm narrows, narrowing yields the first field, and that
is drawn by the renderer of its type; otherwise the arm is empty. -/
inductive Variant.Draws (renderers : Renderers) (draws : Path → Store α → Element) (d : Variant)
    (v : UnionValue α) : ArmBody → Element → Prop
  | delegate {field : Field} {p : Path} {pattern : ArmPattern} {value : α}
      (first : d.fields.first? = some field) (named : field.type.bare = .path p)
      (holds : v.fields.first? = some value)
      (scope : (Store.mk v).scope pattern.bound? = some ⟨value⟩) :
      Draws renderers draws d v (.narrow pattern (renderers.resolve p.lastName))
        (draws (renderers.resolve p.lastName) ⟨value⟩)
  | empty (nameless : ∀ field p, d.fields.first? = some field → field.type.bare ≠ .path p) :
      Draws renderers draws d v .empty .empty

/-! ### Arms -/

def Variant.arm (owner : String) (renderers : Renderers) (d : Variant) : Arm :=
  { pattern := d.toUnionVariant.armPattern owner
    body := (d.toUnionVariant.branch renderers).armBody owner d.fields.form }

/-- A dispatch with variants becomes a match with one arm per variant. -/
lemma Enumeration.body_dispatch (e : Enumeration) (renderers : Renderers) (h : e.variants ≠ []) :
    (e.toUnion.dispatch renderers).body e.name =
      .select stateExpression (e.variants.map (Variant.arm e.name renderers)) := by
  have hempty : e.toUnion.variants.isEmpty = false := by simp [toUnion, h]
  simp only [TaggedUnion.dispatch, hempty, Bool.false_eq_true, if_false, Dispatch.body]
  simp only [toUnion, List.map_map]
  rfl

/-- The pattern of an arm looks at the fields only as far as their form. -/
lemma Variant.fits_arm_of_isValue {d : Variant} {v : UnionValue α} (h : d.IsValue v)
    (owner : String) (renderers : Renderers) : (d.arm owner renderers).pattern.fits v = true := by
  obtain ⟨hname, hfields⟩ := h
  have hform : (d.arm owner renderers).pattern.fields.fits v.fields = true := by
    simp only [arm, UnionVariant.armPattern, toUnionVariant]
    generalize d.fields = fields at hfields
    generalize v.fields = values at hfields
    cases hfields with
    | unit => rfl
    | tuple _ => rfl
    | named _ => rfl
  have hvariant : (d.arm owner renderers).pattern.variant = v.variant := hname.symm
  simp [ArmPattern.fits, hvariant, hform]

/-- Only arms of variants with the name of the active one fit. -/
lemma Variant.name_eq_of_fits_arm {w : Variant} {v : UnionValue α} {owner : String}
    {renderers : Renderers} (h : (w.arm owner renderers).pattern.fits v = true) :
    w.name = v.variant := by
  simp only [ArmPattern.fits, Bool.and_eq_true, decide_eq_true_eq] at h
  exact h.1

/-- If names are distinct, a value fits the arm of its active variant and no other. -/
lemma Enumeration.fits_arm_iff {e : Enumeration} (distinct : (e.variants.map (·.name)).Nodup)
    {i : Nat} {d : Variant} (hi : e.variants[i]? = some d) {v : UnionValue α} (hv : d.IsValue v)
    (renderers : Renderers) (j : Nat) :
    (∃ arm, (e.variants.map (Variant.arm e.name renderers))[j]? = some arm ∧
      arm.pattern.fits v = true) ↔ j = i := by
  simp only [List.getElem?_map, Option.map_eq_some_iff]
  constructor
  · rintro ⟨_, ⟨w, hj, rfl⟩, hfits⟩
    have hname : w.name = d.name := (Variant.name_eq_of_fits_arm hfits).trans hv.variant
    have hlt : j < (e.variants.map (·.name)).length := by
      rw [List.length_map]
      exact (List.getElem?_eq_some_iff.mp hj).1
    refine (List.getElem?_inj hlt distinct).mp ?_
    simp only [List.getElem?_map, hj, hi, Option.map_some, hname]
  · rintro rfl
    exact ⟨_, ⟨d, hi, rfl⟩, Variant.fits_arm_of_isValue hv e.name renderers⟩

/-! ### Narrowing -/

/-- A variant with a first field has a pattern that binds this field in each of its values. -/
lemma Fields.exists_narrowPattern {fields : Fields} {field : Field}
    (first : fields.first? = some field) (owner variant : String) :
    ∃ pattern, fields.form.narrowPattern? owner variant = some pattern ∧
      pattern.variant = variant ∧
      ∀ values : FieldValues α, fields.Hold values →
        ∃ value, values.first? = some value ∧ pattern.fields.bound? values = some value := by
  cases fields with
  | unit => cases first
  | tuple fields =>
    refine ⟨_, rfl, rfl, ?_⟩
    rintro _ (_ | ⟨size⟩ | _)
    rename_i values
    cases values with
    | nil =>
      obtain rfl := List.length_eq_zero_iff.mp size.symm
      cases first
    | cons value rest => exact ⟨value, rfl, rfl⟩
  | named fields =>
    cases fields with
    | nil => cases first
    | cons namedField fields =>
      refine ⟨_, rfl, rfl, ?_⟩
      rintro _ (_ | _ | ⟨names⟩)
      rename_i values
      cases values with
      | nil => cases names
      | cons value rest =>
        obtain ⟨name, value⟩ := value
        have hname : name = namedField.name := (List.cons.inj names).1
        exact ⟨value, rfl, by simp [FieldsPattern.bound?, hname]⟩

/-- A branch that delegates never becomes an empty arm. -/
lemma Variant.armBody_branch_eq_empty_iff {d : Variant} {owner : String} {renderers : Renderers} :
    (d.arm owner renderers).body = .empty ↔ d.toUnionVariant.branch renderers = .empty := by
  constructor
  · intro h
    have hbranch := d.hasBranch_branch renderers
    simp only [arm] at h
    generalize d.toUnionVariant.branch renderers = branch at h hbranch
    cases hbranch with
    | empty nameless => rfl
    | delegate first named =>
      obtain ⟨pattern, hpattern, -⟩ := Fields.exists_narrowPattern (α := Unit) first owner d.name
      simp only [Branch.armBody, hpattern] at h
      cases h
  · intro h
    simp only [arm, h, Branch.armBody]

/-- The arm of a variant draws the values of the variant as the declaration says. -/
lemma Variant.draws_arm {d : Variant} {v : UnionValue α} (hv : d.IsValue v) (owner : String)
    (renderers : Renderers) (draws : Path → Store α → Element) :
    d.Draws renderers draws v (d.arm owner renderers).body
      ((d.arm owner renderers).body.draw draws ⟨v⟩) := by
  have hbranch := d.hasBranch_branch renderers
  simp only [arm]
  generalize d.toUnionVariant.branch renderers = branch at hbranch
  cases hbranch with
  | empty nameless => exact .empty nameless
  | delegate first named =>
    obtain ⟨pattern, hpattern, hvariant, hbound⟩ :=
      Fields.exists_narrowPattern first owner d.name
    obtain ⟨value, hvalue, hfield⟩ := hbound v.fields hv.fields
    have hscope : (Store.mk v).scope pattern.bound? = some ⟨value⟩ := by
      rw [Store.scope_eq_some_iff, ArmPattern.bound?, if_pos (hvariant.trans hv.variant.symm)]
      exact hfield
    simp only [Branch.armBody, hpattern, ArmBody.draw, hscope]
    exact .delegate first named hvalue hscope

/-! ### The match as a whole -/

/-- The first arm that fits is the only one that does. -/
lemma find?_eq_getElem?_of_iff {β : Type} {p : β → Bool} {l : List β} {i : Nat}
    (h : ∀ j, (∃ b, l[j]? = some b ∧ p b = true) ↔ j = i) : l.find? p = l[i]? := by
  obtain ⟨b, hi, hb⟩ := (h i).mpr rfl
  -- arms are tried in order, so none in front of it may fit
  rw [hi, List.find?_eq_some_iff_getElem]
  obtain ⟨hlt, hget⟩ := List.getElem?_eq_some_iff.mp hi
  refine ⟨hb, i, hlt, hget, fun j hj => ?_⟩
  have hne : j ≠ i := Nat.ne_of_lt hj
  rw [Bool.not_eq_true', ← Bool.not_eq_true]
  intro hfits
  exact hne ((h j).mp ⟨l[j], List.getElem?_eq_getElem _, hfits⟩)

/-- The match that the code of a dispatcher contains. -/
def Artifact.drawing (a : Artifact) : Body :=
  a.body.body a.owner

/-- The match is evaluated where the code of the dispatcher has it. -/
lemma TaggedUnion.drawing_infix_emit (u : TaggedUnion) (dispatch : Dispatch)
    (settings : Settings) :
    (u.emit dispatch settings).drawing.code settings.runtime <:+:
      (u.emit dispatch settings).code := by
  have hgroup (d : Delimiter) (inner : Code) : inner <:+: groupCode d inner :=
    ⟨[.opening d], [.closing d], rfl⟩
  have hbody : (u.emit dispatch settings).drawing.code settings.runtime <:+:
      Emission.viewCode { runtime := settings.runtime, union := u, dispatch } := by
    refine List.IsInfix.trans ?_ (List.suffix_append _ _).isInfix
    refine List.IsInfix.trans ?_ (hgroup _ _)
    refine List.IsInfix.trans ?_ (List.suffix_append _ _).isInfix
    refine List.IsInfix.trans ?_ (hgroup _ _)
    exact (List.suffix_append _ _).isInfix
  exact hbody.trans (List.infix_append _ _ _)

/-- Which arm of a match is taken and what is drawn, for every store of an enumeration. -/
structure Enumeration.DrawnBy (e : Enumeration) (renderers : Renderers)
    (draws : Path → Store α → Element) (body : Body) : Prop where
  /-- Without variants nothing is drawn, and no store is read. -/
  empty : e.variants = [] → body = .empty ∧ ∀ store, body.draw? draws store = some .empty
  /-- A value fits the arm of its active variant and no other, and is drawn by it. -/
  select : e.variants ≠ [] → ∃ arms, body = .select stateExpression arms ∧
    arms.length = e.variants.length ∧
    ∀ (i : Nat) (d : Variant) (v : UnionValue α), e.variants[i]? = some d → d.IsValue v →
      (∀ j : Nat, (∃ arm : Arm, arms[j]? = some arm ∧ arm.pattern.fits v = true) ↔ j = i) ∧
      ∃ arm element, arms[i]? = some arm ∧ d.Draws renderers draws v arm.body element ∧
        body.draw? draws ⟨v⟩ = some element

/-- The match of an enumeration with distinct variants draws every value as declared. -/
lemma Enumeration.drawnBy_body_dispatch (e : Enumeration)
    (distinct : (e.variants.map (·.name)).Nodup) (renderers : Renderers)
    (draws : Path → Store α → Element) :
    e.DrawnBy renderers draws ((e.toUnion.dispatch renderers).body e.name) := by
  constructor
  · intro h
    have hbody : (e.toUnion.dispatch renderers).body e.name = .empty := by
      simp [TaggedUnion.dispatch, toUnion, h, Dispatch.body]
    rw [hbody]
    exact ⟨rfl, fun store => rfl⟩
  · intro h
    rw [e.body_dispatch renderers h]
    refine ⟨_, rfl, List.length_map _, fun i d v hi hv => ?_⟩
    have hfits := e.fits_arm_iff distinct hi hv renderers
    have harm : (e.variants.map (Variant.arm e.name renderers))[i]? =
        some (d.arm e.name renderers) := by
      rw [List.getElem?_map, hi, Option.map_some]
    refine ⟨hfits, _, _, harm, Variant.draws_arm hv e.name renderers draws, ?_⟩
    have hfind : (e.variants.map (Variant.arm e.name renderers)).find? (·.pattern.fits v) =
        some (d.arm e.name renderers) :=
      (find?_eq_getElem?_of_iff hfits).trans harm
    simp only [Body.draw?, hfind, Option.map_some]

/-- The dispatcher of an enumeration with distinct variants contains a match that takes, for each
value, the arm of the active variant alone. It draws the first field if the type of this field
has a name, and nothing otherwise; a branch that delegates is never left out. -/
theorem match_draws_active_variant (e : Enumeration) (settings : Settings)
    (draws : Path → Store α → Element) (distinct : (e.variants.map (·.name)).Nodup) :
    ∃ a, ((Item.enumeration e).expand settings).artifact = some a ∧
      a.drawing.code settings.runtime <:+: a.code ∧
      e.DrawnBy settings.renderers draws a.drawing ∧
      ∀ b ∈ a.body.branches, b.2.armBody e.name b.1.form = .empty → b.2 = .empty := by
  refine ⟨_, rfl, ?_, ?_, ?_⟩
  · exact TaggedUnion.drawing_infix_emit _ _ _
  · rw [TaggedUnion.union_validate]
    exact e.drawnBy_body_dispatch distinct settings.renderers draws
  · intro b hb
    rw [TaggedUnion.union_validate] at hb
    have hbranches := e.toUnion.branches_dispatch settings.renderers
    rw [show e.toUnion.variants = e.variants.map Variant.toUnionVariant from rfl,
      List.map_map] at hbranches
    obtain ⟨d, -, rfl⟩ := List.mem_map.mp (hbranches ▸ hb)
    exact Variant.armBody_branch_eq_empty_iff.mp

/-- A view that draws its name and its payload. -/
def drawLabelled (renderer : Path) (store : Store String) : Element :=
  .text s!"{renderer.lastName}: {store.state}"

/-- The variants of the panel are distinct, and a value in braces is drawn by its first field. -/
theorem match_draws_panel :
    (Enumeration.panel.variants.map (·.name)).Nodup ∧
      ∃ a, ((Item.enumeration .panel).expand {}).artifact = some a ∧
        Enumeration.panel.DrawnBy ({} : Settings).renderers drawLabelled a.drawing ∧
        a.drawing.draw? drawLabelled ⟨"Settings", .named [("settings", "on"), ("dirty", "off")]⟩ =
          some (.text "SettingsView: on") := by
  have distinct : (Enumeration.panel.variants.map (·.name)).Nodup := by decide
  obtain ⟨a, ha, -, hdrawn, -⟩ := match_draws_active_variant .panel {} drawLabelled distinct
  refine ⟨distinct, a, ha, hdrawn, ?_⟩
  obtain rfl := Option.some.inj ha
  rfl

end UnionView
