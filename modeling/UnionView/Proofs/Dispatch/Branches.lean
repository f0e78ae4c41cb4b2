import Mathlib.Data.List.Forall2
import Mathlib.Tactic.Lemma
import UnionView.Dispatch.Expansion

/-!
# The branches of a dispatcher

What a dispatcher draws is read off the declaration itself: `Variant.HasBranch` says which branch
a variant has, in terms of the type that is written for its first field, and `Enumeration.HasBody`
says what the dispatch as a whole looks like. Nothing else of a declaration matters: two
declarations that are `Alike` have the same dispatcher.
-/

namespace UnionView

/-! ### Types in brackets -/

namespace Ty

/-- The type without the brackets around it, written or not. -/
def bare : Ty → Ty
  | paren inner => inner.bare
  | invisible inner => inner.bare
  | path p => path p
  | object single => object single
  | other => other

/-- A type has a name if it is a path in any number of brackets, and then it is the last name of
the path. -/
lemma name?_eq_some_iff {t : Ty} {name : String} :
    t.name? = some name ↔ ∃ p, t.bare = .path p ∧ p.lastName = name := by
  induction t with
  | path p => simp [name?, bare]
  | paren inner ih => simpa only [name?, bare] using ih
  | invisible inner ih => simpa only [name?, bare] using ih
  | object single => simp [name?, bare]
  | other => simp [name?, bare]

lemma name?_eq_none_iff {t : Ty} : t.name? = none ↔ ∀ p, t.bare ≠ .path p := by
  constructor
  · intro h p hp
    have hname := name?_eq_some_iff.mpr ⟨p, hp, rfl⟩
    rw [h] at hname
    cases hname
  · intro h
    cases hname : t.name? with
    | none => rfl
    | some name =>
      obtain ⟨p, hp, -⟩ := name?_eq_some_iff.mp hname
      exact absurd hp (h p)

end Ty

/-! ### The branch of a variant -/

def Fields.first? (fields : Fields) : Option Field :=
  fields.toList.head?

/-- The branch of a declared variant. It delegates exactly if the type of the first field is a path
in brackets; the renderer is the registered one or has the name by convention. -/
inductive Variant.HasBranch (renderers : Renderers) (v : Variant) : Branch → Prop
  | delegate {field : Field} {p : Path} (first : v.fields.first? = some field)
      (named : field.type.bare = .path p) :
      HasBranch renderers v (.delegate v.name
        ((renderers.get? p.lastName).getD (Path.ofName (plainName p.lastName ++ "View"))))
  | empty (nameless : ∀ field p, v.fields.first? = some field → field.type.bare ≠ .path p) :
      HasBranch renderers v .empty

/-- The branch that is built for a variant is the one that its declaration says. -/
lemma Variant.hasBranch_branch (renderers : Renderers) (v : Variant) :
    v.HasBranch renderers (v.toUnionVariant.branch renderers) := by
  have hpayload : v.toUnionVariant.payload = v.fields.first?.bind (·.type.name?) := rfl
  unfold UnionVariant.branch
  cases hfirst : v.fields.first? with
  | none =>
    simp only [hpayload, hfirst, Option.bind_none]
    refine .empty fun field p h => ?_
    rw [hfirst] at h
    cases h
  | some field =>
    simp only [hpayload, hfirst, Option.bind_some]
    cases hname : field.type.name? with
    | none =>
      refine .empty fun field' p h => ?_
      rw [hfirst] at h
      cases h
      exact Ty.name?_eq_none_iff.mp hname p
    | some name =>
      obtain ⟨p, hp, rfl⟩ := Ty.name?_eq_some_iff.mp hname
      exact .delegate hfirst hp

/-! ### The dispatch of an enumeration -/

/-- The dispatch of a declared enumeration: nothing if it has no variants, otherwise the branches
of the variants in the order in which they are declared. -/
inductive Enumeration.HasBody (renderers : Renderers) (e : Enumeration) : Dispatch → Prop
  | empty (none : e.variants = []) : HasBody renderers e .empty
  | switch {branches : List (UnionVariant × Branch)} (some : e.variants ≠ [])
      (each : List.Forall₂ (fun v b => b.1 = v.toUnionVariant ∧ v.HasBranch renderers b.2)
        e.variants branches) :
      HasBody renderers e (.switch stateExpression branches)

/-- The dispatch that is built for an enumeration is the one that its declaration says. -/
lemma Enumeration.hasBody_dispatch (e : Enumeration) (renderers : Renderers) :
    e.HasBody renderers (e.toUnion.dispatch renderers) := by
  unfold TaggedUnion.dispatch
  by_cases h : e.variants = []
  · rw [if_pos (by simp [toUnion, h])]
    exact .empty h
  · rw [if_neg (by simp [toUnion, h])]
    refine .switch h ?_
    simp only [toUnion, List.map_map, List.forall₂_map_right_iff, Function.comp]
    exact List.forall₂_same.mpr fun v _ => ⟨rfl, v.hasBranch_branch renderers⟩

/-! ### Declarations with the same dispatcher -/

/-- The three forms in which the fields of a variant can be declared. -/
inductive FieldsKind
  | unit
  | tuple
  | named

/-- The form in which fields are declared. -/
def Fields.kind : Fields → FieldsKind
  | unit => .unit
  | tuple _ => .tuple
  | named _ => .named

def Fields.firstName? : Fields → Option String
  | named (field :: _) => some field.name
  | _ => none

/-- Variants that agree in name, form, name of the first field and name of its type. -/
structure Variant.Alike (v w : Variant) : Prop where
  name : v.name = w.name
  kind : v.fields.kind = w.fields.kind
  firstName : v.fields.firstName? = w.fields.firstName?
  typeName : (v.fields.first?.bind (·.type.name?)) = w.fields.first?.bind (·.type.name?)

/-- Enumerations that agree in name, generic parameters and, one by one, in their variants. -/
structure Enumeration.Alike (e f : Enumeration) : Prop where
  name : e.name = f.name
  generics : e.generics = f.generics
  variants : List.Forall₂ Variant.Alike e.variants f.variants

/-- The form of a variant holds no more than the form of the fields and the first name. -/
lemma Fields.form_eq {fields fields' : Fields} (hkind : fields.kind = fields'.kind)
    (hname : fields.firstName? = fields'.firstName?) : fields.form = fields'.form := by
  have hform (fields : Fields) : fields.form =
      match fields.kind with
      | .unit => .unit
      | .tuple => .tuple
      | .named => .named fields.firstName? := by
    cases fields with
    | unit => rfl
    | tuple fields => rfl
    | named fields => cases fields <;> rfl
  rw [hform, hform, hkind, hname]

lemma Variant.Alike.toUnionVariant_eq {v w : Variant} (h : v.Alike w) :
    v.toUnionVariant = w.toUnionVariant := by
  have hpayload : v.fields.payload? = w.fields.payload? := h.typeName
  simp only [toUnionVariant, h.name, hpayload, Fields.form_eq h.kind h.firstName]

lemma Enumeration.Alike.unmarked_toUnion {e f : Enumeration} (h : e.Alike f) :
    e.toUnion.unmarked = f.toUnion.unmarked := by
  have hvariants : List.Forall₂ (· = ·) (e.variants.map Variant.toUnionVariant)
      (f.variants.map Variant.toUnionVariant) := by
    rw [List.forall₂_map_left_iff, List.forall₂_map_right_iff]
    exact h.variants.imp fun _ _ hv => hv.toUnionVariant_eq
  rw [List.forall₂_eq_eq_eq] at hvariants
  simp only [toUnion, TaggedUnion.unmarked, h.name, h.generics, hvariants]

/-- The dispatcher of a union does not depend on its places. -/
lemma TaggedUnion.artifact_expand (u : TaggedUnion) (settings : Settings) :
    (u.expand settings).artifact =
      some (u.unmarked.emit (u.unmarked.dispatch settings.renderers) settings) := by
  simp only [expand, union_validate]
  rfl

/-! ### From a declaration to its dispatcher -/

/-- Every enumeration has a dispatcher. What it draws is what the declaration says, and every
declaration that is alike has the same one. -/
theorem dispatcher_of_enumeration (e : Enumeration) (settings : Settings) :
    ∃ a, ((Item.enumeration e).expand settings).artifact = some a ∧
      e.HasBody settings.renderers a.body ∧
      ∀ f, e.Alike f → ((Item.enumeration f).expand settings).artifact = some a := by
  refine ⟨_, e.toUnion.artifact_expand settings, e.hasBody_dispatch settings.renderers, ?_⟩
  intro f h
  have hf := f.toUnion.artifact_expand settings
  rw [← h.unmarked_toUnion] at hf
  exact hf

/-- An enumeration whose variants have all forms of fields. -/
def Enumeration.panel : Enumeration :=
  { keyword := 30
    name := "Panel"
    nameMark := 29
    variants :=
      [{ name := "Settings"
         fields := .named [{ name := "settings", type := .path (Path.ofName "Settings") },
           { name := "dirty", type := .path (Path.ofName "bool") }] },
        { name := "Info", fields := .tuple [{ type := .paren (.path (Path.ofName "Info")) }] },
        { name := "Pair", fields := .tuple [{ type := .paren .other }] },
        { name := "Closed", fields := .unit }] }

/-- The same with other fields behind the first ones, attributes, generic arguments and places. -/
def Enumeration.dressedPanel : Enumeration :=
  { visibility := [.ident "pub"]
    keyword := 60
    name := "Panel"
    nameMark := 59
    variants :=
      [{ name := "Settings"
         fields := .named
           [{ name := "settings", type := .path ((Path.ofName "config").child "Settings") }] },
        { name := "Info"
          fields := .tuple
            [{ type := .path { first := { name := "Info", arguments := opCode "<>" } } },
              { type := .other }] },
        { name := "Pair", fields := .tuple [{ type := .object true }] },
        { name := "Closed", fields := .unit, discriminant := some [.literal "3"] }] }

/-- The two panels are alike, and they have one dispatcher. -/
theorem dispatcher_of_dressed_panel :
    Enumeration.panel.Alike .dressedPanel ∧
      ∃ a, ((Item.enumeration .panel).expand {}).artifact = some a ∧
        ((Item.enumeration .dressedPanel).expand {}).artifact = some a ∧
        a.body.branches.map (·.2) = [.delegate "Settings" (Path.ofName "SettingsView"),
          .delegate "Info" (Path.ofName "InfoView"), .empty, .empty] := by
  have alike : Enumeration.panel.Alike .dressedPanel :=
    { name := rfl
      generics := rfl
      variants := .cons ⟨rfl, rfl, rfl, rfl⟩ (.cons ⟨rfl, rfl, rfl, rfl⟩
        (.cons ⟨rfl, rfl, rfl, rfl⟩ (.cons ⟨rfl, rfl, rfl, rfl⟩ .nil))) }
  obtain ⟨a, ha, -, hsame⟩ := dispatcher_of_enumeration .panel {}
  refine ⟨alike, a, ha, hsame _ alike, ?_⟩
  obtain rfl := Option.some.inj ha
  rfl

end UnionView
