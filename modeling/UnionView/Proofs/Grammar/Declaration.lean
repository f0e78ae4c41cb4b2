import UnionView.Proofs.Grammar.Attribute
import UnionView.Proofs.Grammar.Item

/-!
# Declarations

A declaration is read in two parts that do not see each other: its attributes, and the item behind
them. So an enumeration is found with its keyword and its name at the end that its marks point at
(`declaration_eq_ok_enumeration`), and it stays the same whatever attributes are put in front of
it (`declaration_of_attributes`).
-/

namespace UnionView

open Reader

namespace Read

/-! ### What is in front of an item -/

lemma forward_plainSegments (fuel : Nat) : (Path.plainSegments fuel).Forward := by
  induction fuel with
  | zero => exact .noIdentifier
  | succ fuel ih =>
    refine .bind .anyIdentifier fun _ => .bind (.accept _) fun _ => .ite ?_ (.pure _)
    exact .bind (.of_looks (looks_peekAny _)) fun _ =>
      .ite (.bind ih fun _ => .pure _) (.fail _)

lemma forward_plain : Path.plain.Forward :=
  .bind (.accept _) fun _ => .bind (.of_looks (looks_peekAny _)) fun _ =>
    .ite (.bind .get fun _ => .bind (forward_plainSegments _) fun _ => .pure _) .noIdentifier

lemma forward_visibility : visibility.Forward := by
  refine .bind (.capture ?_) fun _ => .bind (.write _) fun _ => .pure _
  refine .bind (.accept _) fun _ => .ite (.bind .get fun c => ?_) (.pure _)
  generalize c.rest = rest
  split
  · exact .group _ (.bind (.take _) fun _ => .bind forward_plain fun _ => .pure _)
  · exact .ite (.group _ (.bind .anyIdentifier fun _ => .pure _)) (.pure _)
  · exact .pure _

/-! ### The two parts of a declaration -/

/-- The item of a declaration is read from the code behind the attributes and from nothing else. -/
lemma declaration_eq_ok_iff {c d : Cursor} {item : Item} :
    declaration c = .ok (item, d) ↔ ∃ attributes c₁ c₂,
      collect declaredAttribute? c = .ok (attributes, c₁) ∧
      Read.item (grammar (8 * c₁.rest.length + 63)) c.mark attributes
        { rest := c₁.rest, behind := c₁.behind } = .ok (item, c₂) ∧
      d = { c₂ with
        written := c₂.written ++ c₁.written, leftover := c₁.leftover.or c₂.leftover } := by
  -- the item itself is the outermost of the forms that the grammar of a code is nested for
  unfold declaration
  rw [bind_of_ok (mark_apply c)]
  simp only [bind_eq_ok, afresh_eq_ok_iff]
  constructor
  · rintro ⟨attributes, c₁, hattributes, c₂, hitem, hd⟩
    exact ⟨attributes, c₁, c₂, hattributes, hitem, hd⟩
  · rintro ⟨attributes, c₁, c₂, hattributes, hitem, hd⟩
    exact ⟨attributes, c₁, hattributes, c₂, hitem, hd⟩

/-- Where an enumeration is declared: its keyword and its name stand behind the attributes, and
its mark is that of the keyword. -/
lemma declaration_eq_ok_enumeration {c d : Cursor} {e : Enumeration}
    (h : declaration c = .ok (.enumeration e, d)) :
    ∃ c₁ pre rest, collect declaredAttribute? c = .ok (e.attributes, c₁) ∧
      c₁.rest = pre ++ .ident "enum" :: .ident e.name :: rest ∧
      e.keyword = rest.length + 2 + c₁.behind ∧ (d.leftover = none → c₁.leftover = none) := by
  obtain ⟨attributes, c₁, c₂, hattributes, hitem, rfl⟩ := declaration_eq_ok_iff.mp h
  obtain ⟨written, c₃, hvisibility, henumeration, -⟩ := item_eq_ok_enumeration _ hitem
  obtain ⟨hattributes', hkeyword, ⟨rest, hrest⟩, -⟩ := enumeration_eq_ok _ henumeration
  obtain ⟨⟨pre, hpre⟩, hbehind⟩ := forward_visibility hvisibility
  refine ⟨c₁, pre, rest, ?_, ?_, ?_, fun hleft => (Option.or_eq_none_iff.mp hleft).1⟩
  · rw [hattributes', hattributes]
  · rw [← hrest]
    exact hpre.symm
  · rw [hkeyword, Cursor.mark, hrest, hbehind]
    rfl

/-- Other attributes in front of an enumeration are taken over, and nothing else changes. -/
lemma declaration_of_attributes {c c' c₁ c₁' d : Cursor} {attributes : List Attribute}
    {e : Enumeration} (h : declaration c = .ok (.enumeration e, d))
    (hc : collect declaredAttribute? c = .ok (e.attributes, c₁))
    (hc' : collect declaredAttribute? c' = .ok (attributes, c₁'))
    (hrest : c₁'.rest = c₁.rest) (hbehind : c₁'.behind = c₁.behind)
    (hleft : c₁'.leftover = c₁.leftover) :
    ∃ d', declaration c' = .ok (.enumeration { e with attributes }, d') ∧ d'.rest = d.rest ∧
      d'.leftover = d.leftover := by
  obtain ⟨_, _, c₂, hattributes, hitem, rfl⟩ := declaration_eq_ok_iff.mp h
  rw [hc] at hattributes
  obtain ⟨rfl, rfl⟩ := Prod.mk.inj (Except.ok.inj hattributes)
  obtain ⟨written, c₃, -, henumeration, hagain⟩ := item_eq_ok_enumeration _ hitem
  obtain ⟨-, -, -, hother⟩ := enumeration_eq_ok _ henumeration
  refine ⟨_, declaration_eq_ok_iff.mpr ⟨attributes, c₁', c₂, hc', ?_, rfl⟩, rfl, ?_⟩
  · rw [hrest, hbehind, hagain, hother]
  · rw [hleft]

lemma forward_declaredAttributes : (collect declaredAttribute?).Forward :=
  forward_declaredAttribute?.collect

end Read

/-! ### Whole codes -/

/-- Code that is an enumeration contains its keyword and its name, where the mark of the keyword
points at. -/
lemma Code.keyword_of_item? {code : Code} {e : Enumeration}
    (h : code.item? = .ok (.enumeration e)) :
    ∃ pre rest, code = pre ++ .ident "enum" :: .ident e.name :: rest ∧
      e.keyword = rest.length + 2 := by
  obtain ⟨d, hdeclaration, -⟩ := run_eq_ok_iff.mp h
  obtain ⟨c, pre, rest, hattributes, hrest, hkeyword, -⟩ :=
    Read.declaration_eq_ok_enumeration hdeclaration
  obtain ⟨⟨front, hfront⟩, hbehind⟩ := Read.forward_declaredAttributes hattributes
  refine ⟨front ++ pre, rest, ?_, ?_⟩
  · rw [List.append_assoc, ← hrest]
    exact hfront.symm
  · rw [hkeyword, hbehind]
    rfl

end UnionView
