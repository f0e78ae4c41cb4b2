import UnionView.Grammar.File
import UnionView.Proofs.Syntax.Reader

/-!
# Outlines

An item keeps little of a struct and less of an implementation. `Code.outline?` reads a file of
plain structs and of implementations of traits and keeps what they declare: the names of the fields
of a struct, the trait and the type of an implementation. It is put together from the readers of the
grammar, and what it reads is a declaration (`Read.exists_declaration`).
-/

namespace UnionView

open Reader

/-- The path without generic arguments. -/
def Path.bare (p : Path) : Path :=
  { p with first := { name := p.first.name }, more := p.more.map fun s => { name := s.name } }

/-- What a struct or an implementation of a trait declares, with the paths of its attributes. -/
inductive Outline
  | struct (attributes : List Path) (name : String) (fields : List String)
  | implementation (attributes : List Path) (trait type : Path)
deriving DecidableEq, Repr

namespace Outline

def attributes : Outline → List Path
  | struct attributes _ _ => attributes
  | implementation attributes _ _ => attributes

/-- The item is of the kind that the outline is of, with its attributes and its name if it has
one. -/
def Describes (o : Outline) (item : Item) : Prop :=
  item.attributes.map (·.content.path) = o.attributes ∧
    match o with
    | struct _ name _ => ∃ attributes keyword, item = .named .struct attributes keyword name
    | implementation _ _ _ => ∃ attributes keyword, item = .unnamed .implBlock attributes keyword

end Outline

namespace Read

variable (g : Grammar) (attributes : List Path)

/-! ### Readers that keep more -/

/-- A struct with fields in braces, from its keyword on. -/
def structOutline : Reader Outline := do
  word "struct"
  let name ← identifier
  let _ ← parameters g
  let _ ← predicates g
  let fields ← namedFields g
  return .struct attributes name (fields.map (·.name))

/-- What may stand in front of the trait of an implementation that is not a plain one. -/
def implModifiers : List Terminal :=
  [.word "const", .operator "?", .operator "!"]

def typePath : Reader Path := do
  match ← g.type true with
  | .path p => return p.bare
  | _ => expected "a path"

/-- What an implementation declares, in braces. -/
def implContents : Reader (List Attribute) :=
  group .curly do
    let inner ← innerAttributes g
    let _ ← untilEnd (implItem g)
    return inner

/-- An implementation of a trait for a type, from its trait on. -/
def implOutlineRest : Reader Outline := do
  if ← peekAny implModifiers then unexpected []
  let trait ← typePath g
  word "for"
  let type ← typePath g
  let _ ← predicates g
  let inner ← implContents g
  return .implementation (attributes ++ inner.map (·.content.path)) trait type

/-- An implementation of a trait for a type, from its keyword on. -/
def implOutline : Reader Outline := do
  word "impl"
  if ← startsParameters then
    let _ ← parameters g
  implOutlineRest g attributes

/-- A struct, which may be public, or an implementation of a trait. -/
def itemOutline : Reader Outline := do
  if ← peekWord "impl" then implOutline g attributes
  else
    let _ ← visibility
    structOutline g attributes

/-- A declaration of a file that is a struct or an implementation of a trait. -/
def outline : Reader Outline := do
  let attributes ← collect declaredAttribute?
  let paths := attributes.map (·.content.path)
  afresh fun c => itemOutline (grammar (8 * c.rest.length + 63)) paths c

end Read

/-- The outlines of the declarations of a file. -/
def Code.outline? (code : Code) : Except Fault (List Outline) :=
  Reader.run (untilEnd Read.outline) code

/-! ### What has an outline is a declaration -/

namespace Read

variable {g : Grammar} {c d : Cursor} {o : Outline} (attributes : List Attribute)

lemma exists_struct (h : structOutline g (attributes.map (·.content.path)) c = .ok (o, d)) :
    ∃ item, struct g attributes c = .ok (item, d) ∧ o.Describes item := by
  obtain ⟨⟨⟩, c₁, hword, h⟩ := bind_eq_ok.mp h
  obtain ⟨name, c₂, hname, h⟩ := bind_eq_ok.mp h
  obtain ⟨generics, c₃, hgenerics, h⟩ := bind_eq_ok.mp h
  obtain ⟨restricted, c₄, hrestricted, h⟩ := bind_eq_ok.mp h
  obtain ⟨fields, c₅, hfields, ⟨⟩⟩ := bind_eq_ok.mp h
  have hbrace : (Terminal.group .curly).fits c₄.rest = true := by
    obtain ⟨_, _, htake, -⟩ := bind_eq_ok.mp hfields
    exact (take_eq_ok.mp htake).1
  have hround : (Terminal.group .round).fits c₄.rest = false := by
    generalize c₄.rest = rest at hbrace
    cases rest with
    | nil => rfl
    | cons token rest => cases token <;> simp_all [Terminal.fits]
  have hbody : structBody g c₃ = .ok ((), d) := by
    unfold structBody
    rw [bind_of_ok hrestricted, bind_of_ok (peek_apply _ _), hround, Bool.and_false,
      if_neg Bool.false_ne_true, bind_of_ok (peek_apply _ _), if_pos hbrace, bind_of_ok hfields]
    rfl
  refine ⟨_, ?_, rfl, attributes, c.mark, rfl⟩
  unfold struct
  rw [bind_of_ok (mark_apply c), bind_of_ok hword, bind_of_ok hname, bind_of_ok hgenerics,
    bind_of_ok hbody]
  rfl

lemma typePath_eq_ok {p : Path} (h : typePath g c = .ok (p, d)) :
    ∃ q, g.type true c = .ok (.path q, d) := by
  obtain ⟨t, c₁, htype, h⟩ := bind_eq_ok.mp h
  split at h
  · cases h
    exact ⟨_, htype⟩
  · exact absurd h (expected_ne_ok _ _ _)

lemma exists_implementationRest (start keyword : Mark)
    (h : implOutlineRest g (attributes.map (·.content.path)) c = .ok (o, d)) :
    ∃ item, (do
      let constant := (← peekWord "const") ||
        ((← peekOperator "?") && (← peekSecond (.word "const")))
      if constant then
        let _ ← acceptOperator "?"
        word "const"
      let negation ← mark
      let negative ←
        if (← peekOperator "!") && !(← peekSecond (.group .curly)) then acceptOperator "!"
        else pure false
      let first ← g.type true
      let forType ← acceptWord "for"
      if forType then
        let _ ← g.type true
      else if negative then failAt negation .negativeInherentImpl
      let isTrait :=
        match first with
        | .path _ => true
        | _ => false
      let _ ← predicates g
      let inner ← implContents g
      return if false || constant || (forType && !isTrait) then Item.unclassified start
        else .unnamed .implBlock (attributes ++ inner) keyword) c = .ok (item, d) ∧
      o.Describes item := by
  obtain ⟨modified, _, ⟨⟩, h⟩ := bind_eq_ok.mp h
  split at h
  · exact absurd h (unexpected_ne_ok _ _ _)
  rename_i hplain
  obtain ⟨hconst, hquestion, hnot⟩ : (Terminal.word "const").fits c.rest = false ∧
      (Terminal.operator "?").fits c.rest = false ∧
      (Terminal.operator "!").fits c.rest = false := by
    simpa [implModifiers] using hplain
  obtain ⟨trait, c₁, htrait, h⟩ := bind_eq_ok.mp h
  obtain ⟨⟨⟩, c₂, hfor, h⟩ := bind_eq_ok.mp h
  obtain ⟨type, c₃, htype, h⟩ := bind_eq_ok.mp h
  obtain ⟨restricted, c₄, hrestricted, h⟩ := bind_eq_ok.mp h
  obtain ⟨inner, c₅, hinner, ⟨⟩⟩ := bind_eq_ok.mp h
  obtain ⟨_, htrait⟩ := typePath_eq_ok htrait
  obtain ⟨_, htype⟩ := typePath_eq_ok htype
  have hfor' : acceptWord "for" c₁ = .ok (true, c₂) := by
    obtain ⟨hfits, hadvance⟩ := take_eq_ok.mp hfor
    unfold acceptWord accept
    rw [bind_of_ok (peek_apply _ _), if_pos hfits, bind_of_ok hadvance]
    rfl
  have hconst' : peekWord "const" c = .ok (false, c) := by rw [← hconst]; rfl
  have hsecond (t : Terminal) : peekSecond t c = .ok (t.fits (c.skip 1), c) := rfl
  refine ⟨_, ?_, List.map_append, attributes ++ inner, keyword, rfl⟩
  rw [bind_of_ok hconst', bind_of_ok (peekOperator_apply _ _), hquestion, bind_of_ok (hsecond _)]
  simp only [Bool.false_and, Bool.or_false, if_neg Bool.false_ne_true]
  rw [bind_of_ok (mark_apply c), bind_of_ok (peekOperator_apply _ _), hnot, bind_of_ok (hsecond _)]
  simp only [Bool.false_and, if_neg Bool.false_ne_true, pure_bind]
  rw [bind_of_ok htrait, bind_of_ok hfor', if_pos rfl, bind_of_ok htype, bind_of_ok hrestricted,
    bind_of_ok hinner]
  rfl

lemma exists_implementation (start : Mark)
    (h : implOutline g (attributes.map (·.content.path)) c = .ok (o, d)) :
    ∃ item, implementation g start attributes false c = .ok (item, d) ∧ o.Describes item := by
  obtain ⟨⟨⟩, c₁, hword, h⟩ := bind_eq_ok.mp h
  obtain ⟨starts, c₂, hstarts, h⟩ := bind_eq_ok.mp h
  have hnone (text : String) (htext : "impl" ≠ text) : acceptWord text c = .ok (false, c) := by
    have hfits : (Terminal.word text).fits c.rest = false := by
      rw [word_eq_ok hword]
      exact beq_eq_false_iff_ne.mpr htext
    unfold acceptWord accept
    rw [bind_of_ok (peek_apply _ _), hfits]
    rfl
  unfold implementation
  rw [bind_of_ok (hnone "default" (by decide)), bind_of_ok (hnone "unsafe" (by decide)),
    bind_of_ok (mark_apply c), bind_of_ok hword, bind_of_ok hstarts]
  cases starts with
  | false => exact exists_implementationRest attributes start c.mark h
  | true =>
    obtain ⟨_, c₃, hparameters, h⟩ := bind_eq_ok.mp h
    rw [if_pos rfl, bind_of_ok hparameters]
    exact exists_implementationRest attributes start c.mark h

lemma exists_item (start : Mark)
    (h : itemOutline g (attributes.map (·.content.path)) c = .ok (o, d)) :
    ∃ found, item g start attributes c = .ok (found, d) ∧ o.Describes found := by
  obtain ⟨impl, _, ⟨⟩, h⟩ := bind_eq_ok.mp h
  split at h
  · rename_i himpl
    obtain ⟨rest, hrest⟩ := fits_word_iff.mp himpl
    obtain ⟨found, hfound, hdescribes⟩ := exists_implementation attributes start h
    refine ⟨found, ?_, hdescribes⟩
    rw [← hfound]
    obtain ⟨_, behind, written, leftover⟩ := c
    obtain rfl : _ = Token.ident "impl" :: rest := hrest
    rfl
  · obtain ⟨written, c₁, hvisible, h⟩ := bind_eq_ok.mp h
    obtain ⟨found, hfound, hdescribes⟩ := exists_struct attributes h
    obtain ⟨⟨⟩, c₂, hword, -⟩ := bind_eq_ok.mp h
    have hrest := word_eq_ok hword
    refine ⟨found, ?_, hdescribes⟩
    unfold item
    rw [bind_of_ok (mark_apply c), bind_of_ok hvisible, ← hfound]
    obtain ⟨_, behind, written, leftover⟩ := c₁
    obtain rfl : _ = Token.ident "struct" :: c₂.rest := hrest
    rfl

lemma exists_declaration (h : outline c = .ok (o, d)) :
    ∃ found, declaration c = .ok (found, d) ∧ o.Describes found := by
  obtain ⟨attributes, c₁, hattributes, h⟩ := bind_eq_ok.mp h
  obtain ⟨e, hitem, rfl⟩ := afresh_eq_ok_iff.mp h
  obtain ⟨found, hfound, hdescribes⟩ := exists_item attributes c.mark hitem
  refine ⟨found, ?_, hdescribes⟩
  unfold declaration
  rw [bind_of_ok (mark_apply c), bind_of_ok hattributes]
  exact afresh_eq_ok_iff.mpr ⟨e, hfound, rfl⟩

end Read

end UnionView
