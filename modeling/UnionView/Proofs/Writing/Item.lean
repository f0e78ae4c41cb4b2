import UnionView.Proofs.Source.Traversal
import UnionView.Proofs.Writing.Grammar

/-!
# What is read of sound code is sound

The parts of a declaration that go into its dispatcher are read from the code of a file. If the
code is sound, as that of a text is, the names are names and the captured code is sound
(`TaggedUnion.IsSound`), and so is the code inside the attributes of all items
(`Code.isSound_of_file?`).
-/

namespace UnionView

open Lexer Reader

/-! ### Answers on sound code -/

namespace Reader

variable {α β : Type} {p : Reader α} {P : α → Prop} {Q : β → Prop}

/-- What the reader answers on sound code has the property. -/
abbrev Gives (p : Reader α) (P : α → Prop) : Prop :=
  p.Yields fun a _ => P a

namespace Gives

lemma pure {a : α} (h : P a) : (pure a : Reader α).Gives P :=
  YieldsBehind.pure h

/-- If nothing is known of the first reader. -/
lemma seq [p.Tidy] {f : α → Reader β} (hf : ∀ a, (f a).Gives Q) : (p >>= f).Gives Q :=
  YieldsBehind.seq fun a => (hf a).mono fun _ _ h _ => h

lemma bind {f : α → Reader β} (hp : p.Gives P) (hf : ∀ a, (f a).Gives fun b => P a → Q b) :
    (p >>= f).Gives Q :=
  YieldsBehind.bind hp fun a => (hf a).mono fun _ _ h _ => h

lemma ite {b : Bool} {q : Reader α} (hp : p.Gives P) (hq : q.Gives P) :
    (if b then p else q).Gives P :=
  YieldsBehind.ite hp hq

lemma of_answers [p.Tidy] (h : p.Answers P) : p.Gives P :=
  (Tidy.yields.and_answers h).mono fun _ _ h => h.2

lemma and {P' : α → Prop} (h : p.Gives P) (h' : p.Gives P') : p.Gives fun a => P a ∧ P' a := by
  intro c a d hrun hleft
  obtain ⟨hnone, hreaches, hpasses⟩ := h hrun hleft
  refine ⟨hnone, hreaches, fun hc => ?_⟩
  obtain ⟨new, hnew, ha⟩ := hpasses hc
  obtain ⟨_, -, ha'⟩ := (h' hrun hleft).2.2 hc
  exact ⟨new, hnew, ha, ha'⟩

/-- If more must be known than what the reader answers. -/
lemma of_imp [p.Tidy] {H : Prop} (h : H → p.Gives P) : p.Gives fun a => H → P a := by
  by_cases hH : H
  · exact (h hH).mono fun _ _ ha _ => ha
  · exact YieldsBehind.mono Tidy.yields fun _ _ _ hH' => absurd hH' hH

lemma mono {P' : α → Prop} (h : p.Gives P) (hP : ∀ a, P a → P' a) : p.Gives P' :=
  YieldsBehind.mono h fun a _ => hP a

lemma fail (cause : Cause) : (fail cause : Reader α).Gives P := .of_ne_ok (fail_ne_ok cause)

lemma failAt (place : Mark) (cause : Cause) : (failAt place cause : Reader α).Gives P :=
  .of_ne_ok (failAt_ne_ok place cause)

lemma expected (what : String) : (expected what : Reader α).Gives P :=
  .of_ne_ok (expected_ne_ok what)

lemma unexpected (ts : List Terminal) : (unexpected ts : Reader α).Gives P :=
  .of_ne_ok (unexpected_ne_ok ts)

lemma group {delimiter : Delimiter} (hp : p.Gives P) : (group delimiter p).Gives P :=
  (yields_group delimiter hp).mono fun _ _ ⟨_, _, h⟩ => h

lemma run {code : Code} {behind : Nat} {a : α} (h : p.Gives P) (hcode : code.IsSound)
    (hrun : run p code behind = .ok a) : P a := by
  obtain ⟨c, hp, hleft, -⟩ := run_eq_ok_iff.mp hrun
  obtain ⟨-, -, hpasses⟩ := h hp hleft
  obtain ⟨_, -, ha⟩ := hpasses hcode.isSoundEnd
  exact ha

end Gives

end Reader

/-! ### Types -/

/-- If the type has a name, it is one. -/
def Ty.IsSound (t : Ty) : Prop :=
  ∀ name, t.name? = some name → IsName name.toList

lemma Path.IsSound.lastName {p : Path} (h : p.IsSound) : IsName p.lastName.toList := by
  have hmem : p.last ∈ p.segments := by
    unfold Path.last
    cases hmore : p.more.getLast? with
    | none => simp [Path.segments, List.getLastD_eq_getLast?, hmore]
    | some s =>
      have hs := List.mem_of_getLast? hmore
      simp [Path.segments, List.getLastD_eq_getLast?, hmore, hs]
  exact (h _ hmem).name

namespace Read

variable {g : Grammar} [g.IsTidy]

lemma gives_lifetimeObject : (lifetimeObject g).Gives Ty.IsSound :=
  .seq fun _ => .seq fun _ => .pure nofun

lemma gives_roundType (hg : ∀ allowSum, (g.type allowSum).Gives Ty.IsSound) (allowSum : Bool) :
    (roundType g allowSum).Gives Ty.IsSound := by
  have hcontent : (roundContent g).Gives fun content => match content with
      | .object type => type.IsSound
      | .type type => type.IsSound
      | _ => True := by
    refine .seq fun _ => .ite (.pure trivial) (.seq fun _ => .ite ?_ ?_)
    · exact .bind gives_lifetimeObject fun _ => .pure id
    refine .seq fun _ => .ite (.seq fun _ => .pure trivial) ?_
    refine .bind (hg true) fun first => .seq fun _ => .ite ?_ (.pure id)
    exact .seq fun _ => .pure fun _ => trivial
  refine .bind (.group hcontent) fun content => ?_
  cases content with
  | tuple => exact .pure fun _ => nofun
  | object inner => exact .pure id
  | maybeBound => exact .seq fun _ => .seq fun _ => .pure fun _ => nofun
  | type first =>
    exact .seq fun _ => .ite (.seq fun _ => .pure fun _ => nofun) (.pure id)

lemma gives_pathType (allowSum bound : Bool) : (pathType g allowSum bound).Gives Ty.IsSound := by
  refine .bind (yields_qualifiedPath g false) fun answer => ?_
  cases answer with
  | none => exact .pure fun _ => nofun
  | some p =>
    refine .seq fun _ => .seq fun _ => .ite ?_ ?_
    · exact .seq fun _ => .seq fun _ => .pure fun _ => nofun
    · refine .seq fun _ => .ite (.seq fun _ => .pure fun _ => nofun) ?_
      refine .ite (.pure fun _ => nofun) (.pure fun hp => ?_)
      rintro _ ⟨⟩
      exact (hp p rfl).lastName

lemma gives_type (hg : ∀ allowSum, (g.type allowSum).Gives Ty.IsSound) (allowSum : Bool) :
    (type g allowSum).Gives Ty.IsSound := by
  have hother : (pure .other : Reader Ty).Gives Ty.IsSound := .pure nofun
  have hafter (bound : Bool) : (typeAfterBinder g allowSum bound).Gives Ty.IsSound := by
    refine .seq fun _ => .ite (gives_roundType hg allowSum) ?_
    refine .seq fun _ => .ite (.seq fun _ => hother) ?_
    refine .seq fun _ => .ite (gives_pathType allowSum bound) ?_
    refine .seq fun _ => .ite (.seq fun _ => .seq fun _ => hother) ?_
    refine .seq fun _ => .ite (.seq fun _ => hother) ?_
    refine .seq fun _ => .ite (.seq fun _ => .ite ?_ (.unexpected _)) ?_
    · exact .seq fun _ => .seq fun _ => hother
    refine .seq fun _ => .ite (.seq fun _ => .seq fun _ => .seq fun _ => hother) ?_
    refine .seq fun _ => .ite hother ?_
    refine .seq fun _ => .ite (.seq fun _ => hother) ?_
    refine .seq fun _ => .ite hother ?_
    exact .seq fun _ => .ite gives_lifetimeObject (.unexpected _)
  refine .seq fun _ => .ite (.seq fun _ => .ite (hafter true) (.unexpected _)) (hafter false)

end Read

/-! ### Variants -/

/-- The names of the variant are names. -/
structure UnionVariant.IsSound (v : UnionVariant) : Prop where
  name : IsName v.name.toList
  payload : ∀ payload, v.payload = some payload → IsName payload.toList
  field : ∀ name, v.form = .named (some name) → IsName name.toList

/-- What is kept of the first field is sound. -/
structure Fields.IsSound (fields : Fields) : Prop where
  payload : ∀ payload, fields.payload? = some payload → IsName payload.toList
  field : ∀ name, fields.form = .named (some name) → IsName name.toList

/-- The name of the variant is one, and what is kept of its first field is sound. -/
structure Variant.IsSound (v : Variant) : Prop where
  name : IsName v.name.toList
  fields : v.fields.IsSound

namespace Fields

lemma isSound_unit : IsSound unit := ⟨nofun, nofun⟩

lemma isSound_tuple {fields : List Field} (h : ∀ f ∈ fields, f.type.IsSound) :
    (tuple fields).IsSound := by
  refine ⟨fun payload hpayload => ?_, nofun⟩
  obtain ⟨f, hf, hname⟩ := Option.bind_eq_some_iff.mp hpayload
  exact h f (List.mem_of_head? hf) payload hname

lemma isSound_named {fields : List NamedField}
    (h : ∀ f ∈ fields, IsName f.name.toList ∧ f.type.IsSound) : (named fields).IsSound := by
  constructor
  · intro payload hpayload
    obtain ⟨f, hf, hname⟩ := Option.bind_eq_some_iff.mp hpayload
    obtain ⟨f', hf', rfl⟩ := List.mem_map.mp (List.mem_of_head? hf)
    exact (h f' hf').2 payload hname
  · intro name hname
    obtain ⟨f, hf, rfl⟩ := Option.map_eq_some_iff.mp (VariantForm.named.inj hname)
    exact (h f (List.mem_of_head? hf)).1

end Fields

lemma Variant.IsSound.toUnionVariant {v : Variant} (h : v.IsSound) : v.toUnionVariant.IsSound :=
  ⟨h.name, h.fields.payload, h.fields.field⟩

namespace Read

variable {g : Grammar} [g.IsTidy]

lemma gives_identifier : identifier.Gives fun name => IsName name.toList :=
  yields_identifier.mono fun _ _ h => h.1

lemma gives_anyIdentifier : anyIdentifier.Gives fun name => IsName name.toList :=
  yields_anyIdentifier.mono fun _ _ h => h.1

lemma gives_namedField (hg : ∀ allowSum, (g.type allowSum).Gives Ty.IsSound) :
    (namedField g).Gives fun f => IsName f.name.toList ∧ f.type.IsSound := by
  have hunderscore (fuel : Nat) : (namedFieldType g fuel).Gives Ty.IsSound := by
    cases fuel with
    | zero => exact hg true
    | succ fuel => exact .of_answers (.bind fun _ => .bind fun _ => .pure nofun)
  refine .seq fun attributes => .seq fun visibility => .seq fun anonymous => ?_
  extract_lets behindName
  have hbehind (name : String) : (behindName name).Gives fun f =>
      IsName name.toList → IsName f.name.toList ∧ f.type.IsSound := by
    refine .seq fun _ => .seq fun _ => .seq fun _ => .seq fun _ => .ite ?_ ?_
    · exact .seq fun _ => .bind (hunderscore _) fun _ => .pure fun htype hname => ⟨hname, htype⟩
    · exact .bind (hg true) fun _ => .pure fun htype hname => ⟨hname, htype⟩
  exact .ite (.bind gives_anyIdentifier hbehind) (.bind gives_identifier hbehind)

lemma gives_tupleField (hg : ∀ allowSum, (g.type allowSum).Gives Ty.IsSound) :
    (tupleField g).Gives fun f => f.type.IsSound :=
  .seq fun _ => .seq fun _ => .bind (hg true) fun _ => .pure id

lemma gives_variant (hg : ∀ allowSum, (g.type allowSum).Gives Ty.IsSound) :
    (variant g).Gives Variant.IsSound := by
  refine .seq fun _ => .seq fun _ => .bind gives_identifier fun name => ?_
  refine .seq fun _ => .seq fun _ => ?_
  extract_lets behindFields
  have hbehind (fields : Fields) : (behindFields fields).Gives fun v =>
      fields.IsSound → IsName name.toList → v.IsSound := by
    refine .seq fun _ => .ite ?_ (.pure fun hfields hname => ⟨hname, hfields⟩)
    exact .capture_write Tidy.yields fun _ _ => .pure fun _ _ hfields hname => ⟨hname, hfields⟩
  refine .ite ?_ (.ite ?_ ((hbehind .unit).mono fun _ h => h Fields.isSound_unit))
  · refine .bind (.group (.separatedBy (gives_namedField hg))) fun fields => ?_
    exact (hbehind (.named fields)).mono fun _ h hfields => h (Fields.isSound_named hfields)
  · refine .bind (.group (.separatedBy (gives_tupleField hg))) fun fields => ?_
    exact (hbehind (.tuple fields)).mono fun _ h hfields => h (Fields.isSound_tuple hfields)

end Read

/-! ### Enumerations -/

/-- The parts of all parameters are pieces of code with commas between them, and the predicates are
sound code. -/
structure Generics.IsSound (g : Generics) : Prop where
  parameters : ∀ p ∈ g.parameters, p.IsSound
  punctuated : g.IsPunctuated
  predicates : ∀ code, g.predicates = some code → code.IsSound

/-- The names of the union are names, and its code is sound. -/
structure TaggedUnion.IsSound (u : TaggedUnion) : Prop where
  name : IsName u.name.toList
  generics : u.generics.IsSound
  variants : ∀ v ∈ u.variants, v.IsSound

namespace Read

variable (g : Grammar) [g.IsTidy]

/-- In front of a group, the predicates behind a `where` are closed. -/
lemma isSound_predicates {c d : Cursor} {restricted : Option Code} {new rest : Code}
    {delimiter : Delimiter} (hnew : c.Passes Code.IsUnquoted d new) (hc : c.rest.IsSoundEnd)
    (hcode : ∀ code, restricted = some code →
      code.IsPiece ∧ (code ≠ [] → new = .ident "where" :: code))
    (hrest : d.rest = .opening delimiter :: rest) :
    ∀ code, restricted = some code → code.IsSound := by
  intro code hrestricted
  obtain ⟨hpiece, hwhere⟩ := hcode code hrestricted
  by_cases hempty : code = []
  · rw [hempty]
    exact Code.isSound_nil
  have hglued : Code.IsGlued (new ++ d.rest) := hnew.glued [] Code.isUnquoted_nil hc.glued
  have hclosed : new.IsClosed := by
    refine hglued.isClosed fun mark => ?_
    rw [hrest]
    exact (Code.not_continues_bracket mark delimiter rest).1
  refine hpiece.isSound fun token htoken => hclosed token ?_
  rw [hwhere hempty, List.getLast?_cons, Option.mem_def.mp htoken]
  rfl

/-- An enumeration is sound, and has the attributes that were read in front of it. -/
lemma gives_enumeration (hg : ∀ allowSum, (g.type allowSum).Gives Ty.IsSound)
    (attributes : List Attribute) (visibility : Code) :
    (enumeration g attributes visibility).Gives fun item =>
      ∃ e, item = .enumeration e ∧ e.attributes = attributes ∧ e.toUnion.IsSound := by
  have hparameters : (parameters g).Gives fun generics =>
      (∀ p ∈ generics.parameters, p.IsSound) ∧ generics.IsPunctuated :=
    (yields_parameters g).and_answers (parameters_punctuated g)
  refine .seq fun keyword => .seq fun _ => .seq fun nameMark => ?_
  refine .bind gives_identifier fun name => ?_
  refine .bind hparameters fun generics => ?_
  intro c item e hrun hleft
  obtain ⟨restricted, d, hpredicates, hrun⟩ := bind_eq_ok.mp hrun
  obtain ⟨variants, _, hvariants, ⟨⟩⟩ := bind_eq_ok.mp hrun
  obtain ⟨hmiddle, hreaches', hpasses'⟩ :=
    (Gives.group (.separatedBy (gives_variant hg))) hvariants hleft
  obtain ⟨hnone, hreaches, hpasses⟩ := yields_predicates g hpredicates hmiddle
  refine ⟨hnone, hreaches.trans hreaches', fun hc => ?_⟩
  obtain ⟨new, hnew, hcode⟩ := hpasses hc
  obtain ⟨more, hmore, hsound⟩ := hpasses' (hnew.isSoundEnd hc)
  refine ⟨new ++ more, hnew.trans hmore fun _ hfront => hfront.append hnew.unquoted, ?_⟩
  rintro ⟨hparameters, hpunctuated⟩ hname
  obtain ⟨_, _, htake, -⟩ := bind_eq_ok.mp hvariants
  have hrestricted := isSound_predicates hnew hc hcode (take_group_eq_ok htake).1
  refine ⟨_, rfl, rfl, hname, ⟨hparameters, hpunctuated, hrestricted⟩, ?_⟩
  exact List.forall_mem_map.mpr fun v hv => (hsound v hv).toUnionVariant

/-! ### Attributes -/

end Read

/-- The code in the brackets behind the path is sound. -/
def Meta.IsSound (m : Meta) : Prop :=
  ∀ group, m.form = .list group → group.inner.IsSound

lemma Meta.IsSound.shift {m : Meta} (h : m.IsSound) (behind : Nat) : (m.shift behind).IsSound := by
  intro group hgroup
  obtain ⟨mark, nameMark, path, form⟩ := m
  cases form with
  | list inner =>
    cases hgroup
    exact h inner rfl
  | _ => cases hgroup

def Attribute.IsSound (a : Attribute) : Prop :=
  a.content.IsSound

def AttributesSound (attributes : List Attribute) : Prop :=
  ∀ a ∈ attributes, a.IsSound

namespace Read

variable (g : Grammar) [g.IsTidy]

lemma gives_metaAssignment : (metaAssignment g).Gives fun form => ∀ group, form ≠ .list group := by
  refine .seq fun _ => .seq fun _ => .seq fun _ => .seq fun _ => .pure ?_
  rintro _ ⟨⟩

lemma gives_meta? : (meta? g).Gives Meta.IsSound := by
  refine .seq fun marked => .seq fun _ => .seq fun _ => .seq fun _ => .ite ?_ (.ite ?_ ?_)
  · refine YieldsBehind.bind yields_rawGroup fun inner => .pure fun _ hinner => ?_
    rintro _ ⟨⟩
    exact hinner.1
  · exact .bind (gives_metaAssignment g) fun form =>
      .pure fun hform group hgroup => absurd hgroup (hform group)
  · refine .pure ?_
    rintro _ ⟨⟩

lemma gives_outerAttributes : (outerAttributes g).Gives AttributesSound := by
  have hattribute : (outerAttribute g).Gives Attribute.IsSound :=
    .seq fun _ => .seq fun _ => .bind (.group (gives_meta? g)) fun _ => .pure id
  refine .collectAnswers (Gives.seq fun _ => .ite ?_ (.pure nofun))
  refine .bind hattribute fun _ => .pure ?_
  rintro h _ ⟨⟩
  exact h

lemma gives_innerAttributes : (innerAttributes g).Gives AttributesSound := by
  have hattribute : (innerAttribute g).Gives Attribute.IsSound :=
    .seq fun _ => .seq fun _ => .seq fun _ => .bind (.group (gives_meta? g)) fun _ => .pure id
  refine .collectAnswers (Gives.seq fun _ => .seq fun _ => .ite ?_ (.pure nofun))
  refine .bind hattribute fun _ => .pure ?_
  rintro h _ ⟨⟩
  exact h

lemma gives_block : (block g).Gives AttributesSound :=
  .group (.bind (gives_innerAttributes g) fun _ => .seq fun _ => .pure id)

end Read

/-! ### Items -/

/-- What is kept of the item is sound, and so is what is inside of it. -/
def Item.IsSound (item : Item) : Prop :=
  ∀ i ∈ item.traversal, AttributesSound i.attributes ∧
    ∀ e, i = .enumeration e → e.toUnion.IsSound

lemma isSound_of_mem_traversal {items : List Item} (h : ∀ item ∈ items, item.IsSound) :
    ∀ i ∈ traversal items, AttributesSound i.attributes ∧
      ∀ e, i = .enumeration e → e.toUnion.IsSound := by
  induction items with
  | nil => exact nofun
  | cons item items ih =>
    obtain ⟨hitem, hitems⟩ := List.forall_mem_cons.mp h
    rw [traversal]
    exact List.forall_mem_append.mpr ⟨hitem, ih hitems⟩

namespace AttributesSound

variable {attributes inner : List Attribute}

lemma append (h : AttributesSound attributes) (h' : AttributesSound inner) :
    AttributesSound (attributes ++ inner) :=
  List.forall_mem_append.mpr ⟨h, h'⟩

lemma named (h : AttributesSound attributes) (kind : NamedKind) (mark : Mark) (name : String) :
    (Item.named kind attributes mark name).IsSound :=
  List.forall_mem_singleton.mpr ⟨h, nofun⟩

lemma unnamed (h : AttributesSound attributes) (kind : UnnamedKind) (mark : Mark) :
    (Item.unnamed kind attributes mark).IsSound :=
  List.forall_mem_singleton.mpr ⟨h, nofun⟩

lemma enumeration {e : Enumeration} (h : AttributesSound e.attributes) (he : e.toUnion.IsSound) :
    (Item.enumeration e).IsSound := by
  refine List.forall_mem_singleton.mpr ⟨h, ?_⟩
  rintro _ ⟨⟩
  exact he

lemma module (h : AttributesSound attributes) {contents : Option (List Item)}
    (hcontents : ∀ items, contents = some items → ∀ item ∈ items, item.IsSound) (mark : Mark)
    (name : String) : (Item.module attributes mark name contents).IsSound := by
  have hother : ∀ e, Item.module attributes mark name contents = .enumeration e →
      e.toUnion.IsSound := by
    rintro _ ⟨⟩
  cases contents with
  | none => exact List.forall_mem_singleton.mpr ⟨h, hother⟩
  | some items =>
    unfold Item.IsSound
    rw [Item.traversal]
    exact List.forall_mem_cons.mpr ⟨⟨h, hother⟩, isSound_of_mem_traversal (hcontents items rfl)⟩

end AttributesSound

lemma Item.isSound_unclassified (mark : Mark) : (unclassified mark).IsSound :=
  List.forall_mem_singleton.mpr ⟨nofun, nofun⟩

namespace Read

variable (g : Grammar) [g.IsTidy] {attributes : List Attribute}

/-- The items that the grammar provides are sound, and so are the names of its types. -/
structure HasSoundItems (g : Grammar) : Prop where
  type : ∀ allowSum, (g.type allowSum).Gives Ty.IsSound
  item : ∀ start attributes, AttributesSound attributes →
    (g.item start attributes).Gives Item.IsSound

lemma gives_struct (h : AttributesSound attributes) : (struct g attributes).Gives Item.IsSound :=
  .of_answers (.bind fun _ => .bind fun _ => .bind fun _ => .bind fun _ => .bind fun _ =>
    .pure (h.named _ _ _))

lemma gives_union (h : AttributesSound attributes) : (union g attributes).Gives Item.IsSound :=
  .of_answers (.bind fun _ => .bind fun _ => .bind fun _ => .bind fun _ => .bind fun _ =>
    .bind fun _ => .pure (h.named _ _ _))

lemma gives_useDeclaration (h : AttributesSound attributes) (start : Mark) :
    (useDeclaration g start attributes).Gives Item.IsSound := by
  refine .of_answers (.bind fun _ => .bind fun _ => .bind fun _ => .bind fun understood =>
    .bind fun _ => .pure ?_)
  cases understood with
  | true => exact h.unnamed _ _
  | false => exact Item.isSound_unclassified _

lemma gives_staticItem (h : AttributesSound attributes) (start : Mark) :
    (staticItem g start attributes).Gives Item.IsSound := by
  have hother : (pure (.unclassified start) : Reader Item).Answers Item.IsSound :=
    .pure (Item.isSound_unclassified _)
  refine .of_answers (.bind fun _ => .bind fun _ => .bind fun _ => .bind fun _ => .bind fun _ => ?_)
  refine .ite (.bind fun _ => .bind fun _ => hother) ?_
  refine .bind fun _ => .bind fun _ => .bind fun _ => ?_
  exact .ite hother (.bind fun _ => .bind fun _ => .bind fun _ => .pure (h.named _ _ _))

lemma gives_constant (h : AttributesSound attributes) (start : Mark) :
    (constant g start attributes).Gives Item.IsSound := by
  refine .of_answers (.bind fun _ => .bind fun _ => .bind fun r => .pure ?_)
  obtain ⟨name, _ | _⟩ := r
  · exact Item.isSound_unclassified _
  · exact h.named _ _ _

lemma gives_typeItem (h : AttributesSound attributes) (start : Mark) :
    (typeItem g start attributes).Gives Item.IsSound :=
  .of_answers (.bind fun _ => .ite (.pure (h.named _ _ _)) (.pure (Item.isSound_unclassified _)))

lemma gives_externCrate (h : AttributesSound attributes) :
    (externCrate attributes).Gives Item.IsSound := by
  refine .of_answers (.bind fun _ => .bind fun _ => .bind fun _ => .bind fun _ => ?_)
  extract_lets behindName
  have hbehind (name : String) : (behindName name).Answers Item.IsSound := by
    refine .bind fun _ => ?_
    extract_lets behindAlias
    have halias (u : Unit) : (behindAlias u).Answers Item.IsSound :=
      .bind fun _ => .pure (h.named _ _ _)
    exact .ite (.bind fun _ => .ite (.bind halias) (.bind fun _ => halias ())) (halias ())
  exact .ite (.bind hbehind) (.bind hbehind)

lemma gives_function (h : AttributesSound attributes) (start : Mark) :
    (function g start attributes).Gives Item.IsSound := by
  refine .seq fun _ => .seq fun _ => .ite (.pure (Item.isSound_unclassified _)) ?_
  exact .bind (gives_block g) fun _ => .pure fun hinner => (h.append hinner).named _ _ _

lemma gives_definition (start : Mark) : (definition start).Gives Item.IsSound := by
  refine .of_answers (.bind fun _ => .bind fun _ => .bind fun _ => ?_)
  extract_lets behindArguments
  have hbehind (u : Unit) : (behindArguments u).Answers Item.IsSound := by
    refine .bind fun _ => .ite (.bind fun _ => .pure (Item.isSound_unclassified _)) ?_
    exact .ite (.unexpected _) (.unexpected _)
  exact .ite (.bind fun _ => hbehind ()) (hbehind ())

lemma gives_body (entry : Reader Unit) [entry.Tidy] : Gives (group .curly do
    let inner ← innerAttributes g
    let _ ← untilEnd entry
    return inner) AttributesSound :=
  .group (.bind (gives_innerAttributes g) fun _ => .seq fun _ => .pure id)

lemma gives_traitRest (h : AttributesSound attributes) (keyword : Mark) (name : String) :
    (traitRest g attributes keyword name).Gives Item.IsSound := by
  refine .seq fun _ => ?_
  extract_lets behindBounds
  have hbehind (u : Unit) : (behindBounds u).Gives Item.IsSound :=
    .seq fun _ => .bind (gives_body g (traitItem g)) fun _ =>
      .pure fun hinner => (h.append hinner).named _ _ _
  exact .ite (.seq hbehind) (hbehind ())

lemma gives_modifiedTrait (h : AttributesSound attributes) :
    (modifiedTrait g attributes).Gives Item.IsSound :=
  .seq fun _ => .seq fun _ => .seq fun _ => .seq fun _ => .seq fun _ => .seq fun _ =>
    gives_traitRest g h _ _

lemma gives_trait (h : AttributesSound attributes) : (trait g attributes).Gives Item.IsSound := by
  refine .seq fun _ => .seq fun _ => .seq fun _ => .seq fun _ => .seq fun _ => ?_
  refine .ite (gives_traitRest g h _ _) (.seq fun _ => .ite ?_ (.unexpected _))
  exact .seq fun _ => .seq fun _ => .seq fun _ => .pure (h.named _ _ _)

lemma gives_implementation (h : AttributesSound attributes) (start : Mark) (visible : Bool) :
    (implementation g start attributes visible).Gives Item.IsSound := by
  refine .seq fun _ => .seq fun _ => .seq fun keyword => .seq fun _ => .seq fun declared => ?_
  extract_lets behindParameters
  have hbehind (u : Unit) : (behindParameters u).Gives Item.IsSound := by
    refine .seq fun _ => .seq fun _ => .seq fun _ => ?_
    extract_lets constant behindConst
    have hbehind (u : Unit) : (behindConst u).Gives Item.IsSound := by
      refine .seq fun negation => .seq fun _ => .seq fun _ => ?_
      extract_lets behindSign
      have hbehind (negative : Bool) : (behindSign negative).Gives Item.IsSound := by
        refine .seq fun first => .seq fun forType => ?_
        extract_lets isTrait behindTarget
        have hbehind (u : Unit) : (behindTarget u).Gives Item.IsSound := by
          refine .seq fun _ => .bind (gives_body g (implItem g)) fun inner => .pure fun hinner => ?_
          split
          · exact Item.isSound_unclassified _
          · exact (h.append hinner).unnamed _ _
        refine .ite (.seq fun _ => hbehind ()) (.ite ?_ (hbehind ()))
        exact .seq fun _ => hbehind ()
      exact .ite (.seq hbehind) (.seq hbehind)
    exact .ite (.seq fun _ => .seq fun _ => hbehind ()) (hbehind ())
  exact .ite (.seq fun _ => hbehind ()) (hbehind ())

lemma gives_externBlock (h : AttributesSound attributes) (start : Mark) :
    (externBlock g start attributes).Gives Item.IsSound := by
  refine .seq fun _ => .seq fun _ => ?_
  extract_lets behindWord
  have hbehind (u : Unit) : (behindWord u).Gives Item.IsSound :=
    .seq fun _ => .bind (gives_body g (foreignItem g)) fun _ =>
      .pure fun hinner => (h.append hinner).unnamed _ _
  exact .ite (.seq hbehind) (hbehind ())

lemma gives_externItem (h : AttributesSound attributes) (start : Mark) (visible : Option Mark) :
    (externItem g start attributes visible).Gives Item.IsSound := by
  refine .seq fun second => ?_
  obtain _ | _ | _ := second
  · exact .seq fun _ => .seq fun _ => .ite (.unexpected _) (.unexpected _)
  · cases visible with
    | none => exact gives_externBlock g h start
    | some place => exact .failAt place _
  · exact gives_externCrate h

variable {g} (hg : HasSoundItems g)

include hg

lemma gives_module (h : AttributesSound attributes) : (module g attributes).Gives Item.IsSound := by
  have hitem : Gives (do
      let start ← mark
      let attributes ← outerAttributes g
      g.item start attributes) Item.IsSound :=
    .seq fun start => .bind (gives_outerAttributes g) fun outer => .of_imp (hg.item start outer)
  have hcontent : Gives (do
      let inner ← innerAttributes g
      let contents ← untilEnd do
        let start ← mark
        let attributes ← outerAttributes g
        g.item start attributes
      return (inner, contents))
      fun content => AttributesSound content.1 ∧ ∀ item ∈ content.2, item.IsSound :=
    .bind (gives_innerAttributes g) fun _ => .bind (.untilEnd hitem) fun _ =>
      .pure fun hitems hinner => ⟨hinner, hitems⟩
  refine .seq fun _ => .seq fun keyword => .seq fun _ => .seq fun _ => ?_
  extract_lets behindName
  have hbehind (name : String) : (behindName name).Gives Item.IsSound := by
    refine .seq fun _ => .ite (.pure (h.module (by rintro _ ⟨⟩) _ _))
      (.seq fun _ => .ite ?_ (.unexpected _))
    refine .bind (.group hcontent) fun content => .pure fun hcontent => ?_
    refine (h.append hcontent.1).module (fun items hitems => ?_) _ _
    cases hitems
    exact hcontent.2
  exact .ite (.seq hbehind) (.seq hbehind)

lemma gives_unsafeItem (h : AttributesSound attributes) (start : Mark) (visible : Option Mark) :
    (unsafeItem g start attributes visible).Gives Item.IsSound := by
  refine .seq fun _ => .seq fun _ => .seq fun _ => .ite (gives_modifiedTrait g h) ?_
  refine .seq fun _ => .ite (gives_implementation g h start _) (.seq fun _ => .ite ?_ ?_)
  · cases visible with
    | none => exact gives_externBlock g h start
    | some place => exact .failAt place _
  · refine .seq fun _ => .ite (gives_module hg h) (.seq fun _ => .unexpected _)

lemma gives_item (h : AttributesSound attributes) (start : Mark) :
    (item g start attributes).Gives Item.IsSound := by
  refine .seq fun place => .seq fun written => ?_
  extract_lets visible
  refine .seq fun _ => .ite (gives_function g h start) ?_
  refine .seq fun _ => .ite (gives_externItem g h start _) ?_
  refine .seq fun _ => .ite (gives_useDeclaration g h start) ?_
  refine .seq fun _ => .ite (gives_staticItem g h start) ?_
  refine .seq fun _ => .ite (gives_constant g h start) ?_
  refine .seq fun _ => .ite (gives_unsafeItem hg h start _) ?_
  refine .seq fun _ => .ite (gives_module hg h) ?_
  refine .seq fun _ => .ite (gives_typeItem g h start) ?_
  refine .seq fun _ => .ite (gives_struct g h) ?_
  refine .seq fun _ => .ite ?_ ?_
  · refine (gives_enumeration g hg.type attributes written).mono ?_
    rintro _ ⟨e, rfl, rfl, he⟩
    exact h.enumeration he
  refine .seq fun _ => .seq fun _ => .ite (gives_union g h) ?_
  refine .seq fun _ => .ite (gives_trait g h) ?_
  refine .seq fun _ => .seq fun _ => .ite (gives_modifiedTrait g h) ?_
  refine .seq fun _ => .seq fun _ => .seq fun _ => .ite (gives_implementation g h start _) ?_
  refine .seq fun _ => .ite (gives_definition start) ?_
  refine .seq fun _ => .ite (.seq fun _ => .pure (h.unnamed _ _)) (.unexpected _)

omit hg

end Read

lemma hasSoundItems_grammar (fuel : Nat) : Read.HasSoundItems (grammar fuel) := by
  induction fuel with
  | zero => exact ⟨fun _ => .unexpected [], fun _ _ _ => .unexpected []⟩
  | succ fuel ih =>
    exact ⟨Read.gives_type ih.type, fun start _ h => Read.gives_item ih h start⟩

/-! ### Files -/

namespace Read

lemma gives_declaredContent : declaredContent.Gives Meta.IsSound := by
  refine .seq fun _ => .ite ?_ (.expected _)
  refine .bind (p := rawGroup) (P := fun g => g.inner.IsSound)
    (yields_rawGroup.mono fun _ _ h => h.1) fun g => ?_
  refine (yields_inside (gives_meta? g.inner.grammar)).mono fun m _ h hinner => ?_
  obtain ⟨m, rfl, hm⟩ := h hinner
  exact hm.shift g.closeAt

lemma gives_declaration : declaration.Gives Item.IsSound := by
  have hattributes : (collect declaredAttribute?).Gives AttributesSound := by
    refine .collectAnswers (Gives.seq fun _ => .ite ?_ (.pure nofun))
    refine Gives.bind (P := Attribute.IsSound) ?_ fun a => .pure ?_
    · exact .seq fun _ => .seq fun _ => .bind gives_declaredContent fun _ => .pure id
    · rintro h _ ⟨⟩
      exact h
  refine .seq fun start => .bind hattributes fun attributes => ?_
  by_cases h : AttributesSound attributes
  · refine (yields_afresh (P := fun item _ => item.IsSound) ?_).mono fun _ _ hitem _ => hitem
    exact fun c _ _ hrun => (hasSoundItems_grammar _).item start attributes h hrun
  · refine (yields_afresh (P := fun _ _ => True) ?_).mono fun _ _ _ h' => absurd h' h
    exact fun c _ _ hrun => Tidy.yields (p := c.rest.grammar.item start attributes) hrun

end Read

lemma Code.isSound_of_item? {code : Code} {item : Item} (hcode : code.IsSound)
    (h : code.item? = .ok item) : item.IsSound :=
  Read.gives_declaration.run hcode h

/-- All items of a file whose code is sound are sound. -/
lemma Code.isSound_of_file? {code : Code} {file : File} (hcode : code.IsSound)
    (h : code.file? = .ok file) : ∀ item ∈ file.items, item.IsSound := by
  have hfile : Reader.Gives (do
      let attributes ← Read.innerAttributes code.grammar
      let items ← Reader.untilEnd Read.declaration
      return { attributes, items }) fun file : File => ∀ item ∈ file.items, item.IsSound :=
    .seq fun _ => .bind (.untilEnd Read.gives_declaration) fun _ => .pure id
  exact hfile.run hcode h

end UnionView
