import UnionView.Proofs.Grammar.Generics
import UnionView.Proofs.Reading.Parameters

/-!
# The names of an enumeration

The names that an enumeration is read with may stand again where its dispatcher prints them, but
for a field that is called `_`: no pattern can bind it.
-/

namespace UnionView

open Reader

/-! ### Names as they are read -/

/-- The names of a variant may stand in a pattern, unless a field is an underscore. -/
structure Variant.IsNamed (v : Variant) : Prop where
  name : Terminal.identifier.fits [.ident v.name] = true
  fields : ∀ fields, v.fields = .named fields →
    ∀ f ∈ fields, f.name = "_" ∨ Terminal.identifier.fits [.ident f.name] = true

/-- The names of an enumeration, of its parameters and of its variants were read as such. -/
structure Enumeration.IsNamed (e : Enumeration) : Prop where
  name : Terminal.identifier.fits [.ident e.name] = true
  parameters : ∀ p ∈ e.generics.parameters, p.IsDeclared
  variants : ∀ v ∈ e.variants, v.IsNamed

namespace Read

variable (g : Grammar)

/-- What is read as an identifier may stand where one is asked for. -/
lemma identifier_fits :
    identifier.Answers fun name => Terminal.identifier.fits [.ident name] = true := by
  intro c name d h
  have hrest := identifier_eq_ok h
  obtain ⟨_, _, ⟨⟩, h⟩ := bind_eq_ok.mp h
  obtain ⟨_, _, htake, -⟩ := bind_eq_ok.mp h
  obtain ⟨hfits, -⟩ := take_eq_ok.mp htake
  rw [hrest] at hfits
  exact hfits

/-! ### Parameters -/

lemma lifetimeParameter_isDeclared (attributes : Code) :
    (lifetimeParameter attributes).Answers Parameter.IsDeclared :=
  .bind fun _ => .bind fun _ => .bind fun _ => .pure rfl

lemma typeParameter_isDeclared (attributes : Code) :
    (typeParameter g attributes).Answers Parameter.IsDeclared :=
  .bind_of identifier_fits fun _ hname => .bind fun _ => .bind fun _ => .pure (.inl hname)

lemma constantParameter_isDeclared (attributes : Code) :
    (constantParameter g attributes).Answers Parameter.IsDeclared :=
  .bind fun _ => .bind_of identifier_fits fun _ hname => .bind fun _ => .bind fun _ =>
    .bind fun _ => .bind fun _ => .pure ⟨hname, rfl⟩

/-- A word that comes next is the one that any identifier is read as. -/
lemma anyIdentifier_of_word {text name : String} {c d : Cursor}
    (hfits : (Terminal.word text).fits c.rest = true) (h : anyIdentifier c = .ok (name, d)) :
    name = text := by
  obtain ⟨rest, hrest⟩ := fits_word_iff.mp hfits
  obtain ⟨written, hread⟩ := Path.anyIdentifier_of_rest hrest
  rw [hread] at h
  cases h
  rfl

lemma parameter_isDeclared : (parameter g).Answers Parameter.IsDeclared := by
  refine .bind fun attributes => .bind fun _ => .bind fun _ => ?_
  refine .ite (lifetimeParameter_isDeclared _) (.bind fun _ => ?_)
  refine .ite (typeParameter_isDeclared g _) (.bind fun _ => ?_)
  refine .ite (constantParameter_isDeclared g _) ?_
  intro c p d h
  obtain ⟨underscore, hpeek, h⟩ := (looks_peek _).exists_of_bind h
  cases underscore with
  | false => exact absurd h (unexpected_ne_ok _ _ _)
  | true =>
    obtain ⟨name, _, hname, ⟨⟩⟩ := bind_eq_ok.mp h
    have hfits : (Terminal.word "_").fits c.rest = true := congrArg Prod.fst (Except.ok.inj hpeek)
    exact .inr ⟨anyIdentifier_of_word hfits hname, rfl, rfl⟩

lemma parameters_areDeclared :
    (parameters g).Answers fun generics => ∀ p ∈ generics.parameters, p.IsDeclared := by
  refine .bind fun accepted => ?_
  cases accepted with
  | false => exact .pure nofun
  | true =>
    have hlisted : (listedParameter? g).Answers fun p? => ∀ p, p? = some p → p.IsDeclared := by
      refine .bind fun _ => .ite (.pure nofun) (.bind_of (parameter_isDeclared g) fun p hp => ?_)
      refine .bind fun _ => .ite (.pure ?_) (.bind fun _ => .pure ?_)
      · rintro _ ⟨⟩
        exact hp
      · -- the comma behind a parameter is no part of how it is declared
        rintro _ ⟨⟩
        exact hp
    exact .bind_of hlisted.collect fun ps hps => .bind fun _ => .pure hps

/-! ### Variants -/

/-- A named field has a name or is an underscore. -/
lemma namedField_fits : (namedField g).Answers fun f =>
    f.name = "_" ∨ Terminal.identifier.fits [.ident f.name] = true := by
  refine .bind fun _ => .bind fun _ => ?_
  intro c f d h
  obtain ⟨underscore, hpeek, h⟩ := (looks_peek _).exists_of_bind h
  extract_lets behindName at h
  have hname (name : String) : (behindName name).Answers (·.name = name) := by
    refine .bind fun _ => .bind fun _ => .bind fun _ => .bind fun _ => ?_
    exact .ite (.bind fun _ => .bind fun _ => .pure rfl) (.bind fun _ => .pure rfl)
  cases underscore with
  | false =>
    obtain ⟨name, _, hread, h⟩ := bind_eq_ok.mp h
    obtain rfl := hname name h
    exact .inr (identifier_fits hread)
  | true =>
    obtain ⟨name, _, hread, h⟩ := bind_eq_ok.mp h
    obtain rfl := hname name h
    exact .inl (anyIdentifier_of_word (congrArg Prod.fst (Except.ok.inj hpeek)) hread)

/-- The name of a variant is an identifier, and so are the names of its fields. -/
lemma variant_isNamed : (variant g).Answers Variant.IsNamed := by
  refine .bind fun _ => .bind fun _ => .bind_of identifier_fits fun name hname => ?_
  refine .bind fun _ => .bind fun _ => ?_
  extract_lets behindFields
  have hfields (fields : Fields) (h : ∀ named, fields = .named named →
      ∀ f ∈ named, f.name = "_" ∨ Terminal.identifier.fits [.ident f.name] = true) :
      (behindFields fields).Answers Variant.IsNamed := by
    refine .bind fun _ => .ite (.bind fun _ => .bind fun _ => ?_) ?_
    · exact .bind fun _ => .pure ⟨hname, h⟩
    · exact .bind fun _ => .pure ⟨hname, h⟩
  refine .ite ?_ (.ite ?_ ?_)
  · refine .bind_of (((namedField_fits g).separatedBy ",").group .curly) fun named hnamed => ?_
    refine hfields _ ?_
    rintro _ ⟨⟩
    exact hnamed
  · exact .bind fun fields => hfields _ nofun
  · exact hfields _ nofun

lemma enumeration_isNamed (attributes : List Attribute) (written : Code) :
    (enumeration g attributes written).Answers fun item =>
      ∀ e, item = .enumeration e → e.IsNamed := by
  refine .bind fun _ => .bind fun _ => .bind fun _ => .bind_of identifier_fits fun name hname => ?_
  refine .bind_of (parameters_areDeclared g) fun generics hgenerics => .bind fun _ => ?_
  refine .bind_of (((variant_isNamed g).separatedBy ",").group .curly) fun variants hvariants => ?_
  refine .pure ?_
  rintro _ ⟨⟩
  exact ⟨hname, hgenerics, hvariants⟩

end Read

lemma Code.isNamed_of_item? {code : Code} {e : Enumeration}
    (h : code.item? = .ok (.enumeration e)) : e.IsNamed := by
  obtain ⟨_, hdeclaration, -⟩ := run_eq_ok_iff.mp h
  obtain ⟨_, _, _, -, hitem, -⟩ := Read.declaration_eq_ok_iff.mp hdeclaration
  obtain ⟨_, _, -, henumeration, -⟩ := Read.item_eq_ok_enumeration _ hitem
  exact Read.enumeration_isNamed _ _ _ henumeration e rfl

end UnionView
