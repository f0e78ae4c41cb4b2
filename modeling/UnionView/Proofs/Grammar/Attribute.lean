import UnionView.Grammar.File
import UnionView.Proofs.Syntax.Reader

/-!
# The attributes of a declaration

`Attributed post code attributes` says that `code` is the attributes followed by `post`. The reader
of attributes finds what the relation says and nothing else, and taking one of the attributes out of
the code (`Code.withoutAttribute`) leaves the others as they are.
-/

namespace UnionView

open Reader

/-! ### Codes that begin with attributes -/

/-- The code in the brackets of an attribute is read as `m`, and to its end. -/
def Meta.IsContent (m : Meta) (inner : Code) : Prop :=
  ∃ d, Read.meta? inner.grammar { rest := inner } = .ok (m, d) ∧ d.isEnded = true ∧
    d.leftover = none

def attributeTokens (spacing : Spacing) (inner : Code) (closer : Delimiter) : Code :=
  .punct '#' spacing :: .opening .square :: inner ++ [.closing closer]

/-- The code is some attributes and, behind them, `post`. The marks of an attribute count what
stands behind it. -/
inductive Attributed (post : Code) : Code → List Attribute → Prop
  | nil : Attributed post post []
  | cons {spacing : Spacing} {inner rest : Code} {closer : Delimiter} {m : Meta}
      {attributes : List Attribute} (closes : Code.Closes 0 inner) (content : m.IsContent inner)
      (others : Attributed post rest attributes) :
      Attributed post (attributeTokens spacing inner closer ++ rest)
        ({ mark := (attributeTokens spacing inner closer ++ rest).length
           content := m.shift (rest.length + 1) } :: attributes)

lemma attributeTokens_append (spacing : Spacing) (inner : Code) (closer : Delimiter)
    (rest : Code) : attributeTokens spacing inner closer ++ rest =
      .punct '#' spacing :: .opening .square :: (inner ++ .closing closer :: rest) := by
  simp [attributeTokens]

namespace Read

/-! ### One attribute -/

lemma fits_hash_iff {code : Code} : (Terminal.operator "#").fits code = true ↔
    ∃ spacing rest, code = .punct '#' spacing :: rest :=
  fits_mark_iff rfl

lemma hash_of_rest {c : Cursor} {spacing : Spacing} {rest : Code}
    (h : c.rest = .punct '#' spacing :: rest) :
    operator "#" c = .ok ((), { c with rest, written := .punct '#' .alone :: c.written }) :=
  operator_of_mark rfl h

lemma fits_group_iff {d : Delimiter} {code : Code} :
    (Terminal.group d).fits code = true ↔ ∃ rest, code = .opening d :: rest := by
  cases code with
  | nil => simp [Terminal.fits]
  | cons token rest => cases token <;> simp [Terminal.fits]

/-- There is no further attribute where no `#` follows. -/
lemma declaredAttribute?_eq_none_iff {c d : Cursor} :
    declaredAttribute? c = .ok (none, d) ↔
      (Terminal.operator "#").fits c.rest = false ∧ d = c := by
  unfold declaredAttribute?
  rw [bind_of_ok (peekOperator_apply "#" c)]
  cases (Terminal.operator "#").fits c.rest with
  | false => simp [eq_comm]
  | true =>
    simp only [if_true, Bool.true_eq_false, false_and, iff_false]
    intro h
    obtain ⟨a, _, -, ⟨⟩⟩ := bind_eq_ok.mp h

lemma forward_declaredContent : declaredContent.Forward :=
  .bind (.of_looks (looks_peek _)) fun _ => .ite (.bind .rawGroup fun _ => .inside _ _ _) (.fail _)

lemma forward_declaredAttribute? : declaredAttribute?.Forward :=
  .bind (.of_looks (looks_peek _)) fun _ => .ite
    (.bind (.bind .mark fun _ => .bind (.take _) fun _ => .bind forward_declaredContent
      fun _ => .pure _) fun _ => .pure _) (.pure _)

/-- The content of an attribute is a closed group, if something stands behind it and nothing is left
over in it. -/
lemma declaredContent_eq_ok {c d : Cursor} {content : Meta}
    (h : declaredContent c = .ok (content, d)) (hne : d.rest ≠ []) (hleft : d.leftover = none) :
    ∃ (inner : Code) (closer : Delimiter) (m : Meta),
      c.rest = .opening .square :: (inner ++ .closing closer :: d.rest) ∧ Code.Closes 0 inner ∧
      m.IsContent inner ∧ content = m.shift (d.rest.length + 1 + c.behind) ∧
      d.behind = c.behind ∧ c.leftover = none := by
  unfold declaredContent at h
  rw [bind_of_ok (peek_apply _ c)] at h
  by_cases hsquare : (Terminal.group .square).fits c.rest = true
  · rw [if_pos hsquare] at h
    obtain ⟨g, c₁, hgroup, hinside⟩ := bind_eq_ok.mp h
    obtain ⟨m, e, hmeta, hended, heleft, rfl, rfl, hleft₁⟩ := inside_eq_ok_iff.mp ⟨hinside, hleft⟩
    obtain ⟨closer, hrest, hcloses, hcloseAt, hbehind, hleft₂⟩ := rawGroup_eq_ok hgroup hne
    obtain ⟨_, hopening⟩ := fits_group_iff.mp hsquare
    have hdelimiter : g.delimiter = .square :=
      Token.opening.inj (List.cons.inj (hrest.symm.trans hopening)).1
    refine ⟨g.inner, closer, m, ?_, hcloses, ⟨e, hmeta, hended, heleft⟩, ?_, hbehind, ?_⟩
    · rw [hrest, hdelimiter]
    · rw [hcloseAt]
    · rw [← hleft₂, hleft₁]
  · rw [if_neg hsquare] at h
    exact (expected_ne_ok _ _ _ h).elim

lemma declaredContent_of_closes {c : Cursor} {inner rest : Code} {closer : Delimiter} {m : Meta}
    (hcloses : Code.Closes 0 inner) (hcontent : m.IsContent inner)
    (hrest : c.rest = .opening .square :: (inner ++ .closing closer :: rest))
    (hleft : c.leftover = none) :
    ∃ written, declaredContent c =
      .ok (m.shift (rest.length + 1 + c.behind), { c with rest, written }) := by
  obtain ⟨written, hgroup⟩ := rawGroup_of_closed hrest hcloses
  obtain ⟨e, hmeta, hended, heleft⟩ := hcontent
  refine ⟨written, ?_⟩
  unfold declaredContent
  rw [bind_of_ok (peek_apply _ c), if_pos (fits_group_iff.mpr ⟨_, hrest⟩), bind_of_ok hgroup]
  exact And.left (inside_eq_ok_iff.mpr ⟨m, e, hmeta, hended, heleft, rfl, rfl, hleft⟩)

/-- An attribute is read where a `#` follows. -/
lemma declaredAttribute?_eq_some_iff {c d : Cursor} {a : Attribute} :
    declaredAttribute? c = .ok (some a, d) ↔ ∃ spacing rest content,
      c.rest = .punct '#' spacing :: rest ∧
      declaredContent { c with rest, written := .punct '#' .alone :: c.written } =
        .ok (content, d) ∧
      a = { mark := c.mark, content } := by
  unfold declaredAttribute?
  rw [bind_of_ok (peekOperator_apply "#" c)]
  constructor
  · intro h
    by_cases hhash : (Terminal.operator "#").fits c.rest = true
    · obtain ⟨spacing, rest, hrest⟩ := fits_hash_iff.mp hhash
      rw [if_pos hhash] at h
      obtain ⟨_, _, h, ⟨⟩⟩ := bind_eq_ok.mp h
      obtain ⟨_, _, ⟨⟩, h⟩ := bind_eq_ok.mp h
      rw [bind_of_ok (hash_of_rest hrest)] at h
      obtain ⟨content, _, hcontent, ⟨⟩⟩ := bind_eq_ok.mp h
      exact ⟨spacing, rest, content, hrest, hcontent, rfl⟩
    · rw [if_neg hhash] at h
      cases h
  · rintro ⟨spacing, rest, content, hrest, hcontent, rfl⟩
    rw [if_pos (fits_hash_iff.mpr ⟨_, _, hrest⟩)]
    refine bind_eq_ok.mpr ⟨_, _, ?_, rfl⟩
    unfold declaredAttribute
    rw [bind_of_ok (mark_apply c), bind_of_ok (hash_of_rest hrest), bind_of_ok hcontent]
    rfl

/-- Every attribute takes a token, the `#`. -/
lemma length_lt_of_declaredAttribute? ⦃c : Cursor⦄ ⦃a : Attribute⦄ ⦃d : Cursor⦄
    (h : declaredAttribute? c = .ok (some a, d)) : d.rest.length < c.rest.length := by
  obtain ⟨spacing, rest, content, hrest, hcontent, -⟩ := declaredAttribute?_eq_some_iff.mp h
  have hle := (forward_declaredContent hcontent).1.length_le
  rw [hrest, List.length_cons]
  exact Nat.lt_succ_of_le hle

/-! ### All attributes -/

lemma mark_of_behind {c : Cursor} (h : c.behind = 0) : c.mark = c.rest.length := by
  rw [Cursor.mark, h]
  rfl

/-- Attributes that are read one after the other are the tokens of attributes. -/
lemma attributed_of_steps {c d : Cursor} {attributes : List Attribute}
    (h : Steps declaredAttribute? c attributes d) (hbehind : c.behind = 0) (hne : d.rest ≠ [])
    (hleft : d.leftover = none) : Attributed d.rest c.rest attributes ∧ c.leftover = none := by
  induction h with
  | nil c => exact ⟨.nil, hleft⟩
  | @cons c c' d a attributes first others ih =>
    obtain ⟨spacing, rest, content, hrest, hcontent, rfl⟩ := declaredAttribute?_eq_some_iff.mp first
    have hne' : c'.rest ≠ [] := by
      intro hnil
      have hsuffix := (others.forward forward_declaredAttribute?).1
      rw [hnil, List.suffix_nil] at hsuffix
      exact hne hsuffix
    have hbehind' : c'.behind = 0 := (forward_declaredContent hcontent).2.trans hbehind
    -- that the group was closed follows from what stands behind it, so the others come first
    obtain ⟨hattributed, hleft'⟩ := ih hbehind' hne hleft
    obtain ⟨inner, closer, m, hopening, hcloses, hm, rfl, -, hleft''⟩ :=
      declaredContent_eq_ok hcontent hne' hleft'
    refine ⟨?_, hleft''⟩
    change rest = _ at hopening
    have htokens : Attributed d.rest (attributeTokens spacing inner closer ++ c'.rest) _ :=
      .cons hcloses hm hattributed
    rw [attributeTokens_append, ← hopening, ← hrest] at htokens
    rw [mark_of_behind hbehind, hbehind]
    exact htokens

/-- The tokens of attributes are read as these attributes. -/
lemma steps_of_attributed {post code : Code} {attributes : List Attribute}
    (h : Attributed post code attributes) {c : Cursor} (hrest : c.rest = code)
    (hbehind : c.behind = 0) (hleft : c.leftover = none) :
    ∃ written, Steps declaredAttribute? c attributes { c with rest := post, written } := by
  induction h generalizing c with
  | nil =>
    subst hrest
    exact ⟨c.written, .nil c⟩
  | @cons spacing inner rest closer m attributes closes content others ih =>
    rw [attributeTokens_append] at hrest
    let c₁ : Cursor := { c with
      rest := .opening .square :: (inner ++ .closing closer :: rest)
      written := .punct '#' .alone :: c.written }
    obtain ⟨written, hcontent⟩ := declaredContent_of_closes (c := c₁) closes content rfl hleft
    have hfirst := declaredAttribute?_eq_some_iff.mpr ⟨spacing, _, _, hrest, hcontent, rfl⟩
    obtain ⟨written', hothers⟩ := ih (c := { c₁ with rest, written }) rfl hbehind hleft
    refine ⟨written', .cons ?_ hothers⟩
    rw [hfirst, mark_of_behind hbehind, hrest, attributeTokens_append]
    simp [c₁, hbehind]

/-- The reader of attributes finds those in front of the code, up to the first token that is not
that of an attribute. -/
lemma attributed_of_collect {code : Code} {attributes : List Attribute} {d : Cursor}
    (h : collect declaredAttribute? { rest := code } = .ok (attributes, d)) (hne : d.rest ≠ [])
    (hleft : d.leftover = none) :
    Attributed d.rest code attributes ∧ (Terminal.operator "#").fits d.rest = false := by
  obtain ⟨c, hsteps, hlast⟩ := (collect_eq_ok_iff length_lt_of_declaredAttribute?).mp h
  obtain ⟨hhash, rfl⟩ := declaredAttribute?_eq_none_iff.mp hlast
  exact ⟨(attributed_of_steps hsteps rfl hne hleft).1, hhash⟩

lemma collect_of_attributed {post code : Code} {attributes : List Attribute}
    (h : Attributed post code attributes) (hhash : (Terminal.operator "#").fits post = false) :
    ∃ written, collect declaredAttribute? { rest := code } =
      .ok (attributes, { rest := post, written }) := by
  obtain ⟨written, hsteps⟩ := steps_of_attributed h (c := { rest := code }) rfl rfl rfl
  refine ⟨written, (collect_eq_ok_iff length_lt_of_declaredAttribute?).mpr ⟨_, hsteps, ?_⟩⟩
  exact declaredAttribute?_eq_none_iff.mpr ⟨hhash, rfl⟩

end Read

/-! ### Taking an attribute out -/

/-- The code without the attribute whose `#` the mark points at: without its two token trees. -/
def Code.withoutAttribute (code : Code) (a : Attribute) : Code :=
  code.take (code.length - a.mark) ++ dropTree (dropTree (code.drop (code.length - a.mark)))

lemma Code.withoutAttribute_append (pre : Code) {code : Code} {a : Attribute}
    (h : a.mark ≤ code.length) :
    (pre ++ code).withoutAttribute a = pre ++ code.withoutAttribute a := by
  have hlength : (pre ++ code).length - a.mark = pre.length + (code.length - a.mark) := by
    rw [List.length_append]
    exact Nat.add_sub_assoc h _
  unfold withoutAttribute
  rw [hlength, List.take_length_add_append, List.drop_length_add_append, List.append_assoc]

lemma Code.withoutAttribute_attributeTokens {spacing : Spacing} {inner rest : Code}
    {closer : Delimiter} (hcloses : Code.Closes 0 inner) {a : Attribute}
    (h : a.mark = (attributeTokens spacing inner closer ++ rest).length) :
    (attributeTokens spacing inner closer ++ rest).withoutAttribute a = rest := by
  unfold withoutAttribute
  rw [h, Nat.sub_self, attributeTokens_append]
  simp [Code.dropTree, hcloses closer rest]

lemma Attributed.mark_le {post code : Code} {attributes : List Attribute}
    (h : Attributed post code attributes) : ∀ a ∈ attributes, a.mark ≤ code.length := by
  induction h with
  | nil => simp
  | cons closes content others ih =>
    intro a ha
    obtain rfl | ha := List.mem_cons.mp ha
    · exact Nat.le_refl _
    · rw [List.length_append]
      exact Nat.le_add_left_of_le (ih a ha)

/-- Taking an attribute out leaves the other attributes and what stands behind them. The marks of
the attributes before it change, their contents do not. -/
lemma Attributed.withoutAttribute {post code : Code} {before after : List Attribute}
    {a : Attribute} (h : Attributed post code (before ++ a :: after)) :
    ∃ before', Attributed post (code.withoutAttribute a) (before' ++ after) ∧
      before'.map (·.content.path) = before.map (·.content.path) := by
  induction before generalizing code with
  | nil =>
    cases h with
    | cons closes content others =>
      refine ⟨[], ?_, rfl⟩
      rw [Code.withoutAttribute_attributeTokens closes rfl]
      exact others
  | cons b before ih =>
    cases h with
    | cons closes content others =>
      obtain ⟨before', hothers, hpaths⟩ := ih others
      have hmark := others.mark_le a (List.mem_append_right _ List.mem_cons_self)
      rw [Code.withoutAttribute_append _ hmark]
      -- fewer tokens stand behind the first attribute now, so its marks are others
      refine ⟨_ :: before', .cons closes content hothers, ?_⟩
      rw [List.map_cons, List.map_cons, hpaths]
      rfl

end UnionView
