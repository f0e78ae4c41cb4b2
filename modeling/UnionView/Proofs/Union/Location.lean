import UnionView.Proofs.Dispatch.Outcome
import UnionView.Proofs.Grammar.Keyword

/-!
# Where a refusal points

An item that is no union is refused with an error that points at a place. Most items are refused at
their keyword, which is behind their attributes: there it stays whatever attributes are put in front
of the item or taken away. The error for a block of foreign declarations, for an invocation and for
an item that is not understood points at the first token instead, so it moves with the attributes
(`location_of_refusal`).
-/

namespace UnionView

open Reader

/-! ### Attributes in front of an item -/

/-- Attributes take tokens in front of what stands behind them. -/
lemma Attributed.exists_append {post code : Code} {attributes : List Attribute}
    (h : Attributed post code attributes) :
    ∃ pre, code = pre ++ post ∧ (pre = [] ↔ attributes = []) := by
  induction h with
  | nil => exact ⟨[], rfl, by simp⟩
  | cons closes content others ih =>
    obtain ⟨pre, rfl, -⟩ := ih
    refine ⟨_ ++ pre, (List.append_assoc _ _ _).symm, ?_⟩
    simp [attributeTokens]

lemma Attributed.length_withoutAttribute_lt {post code : Code} {attributes : List Attribute}
    {a : Attribute} (h : Attributed post code attributes) (ha : a ∈ attributes) :
    (code.withoutAttribute a).length < code.length := by
  induction h with
  | nil => cases ha
  | cons closes content others ih =>
    obtain rfl | ha := List.mem_cons.mp ha
    · rw [Code.withoutAttribute_attributeTokens closes rfl]
      simp only [attributeTokens, List.cons_append, List.length_cons, List.length_append]
      omega
    · rw [Code.withoutAttribute_append _ (others.mark_le a ha), List.length_append,
        List.length_append]
      exact Nat.add_lt_add_left (ih ha) _

/-- There is no item without tokens. -/
lemma Read.item_nil_ne_ok (g : Grammar) (start : Mark) (attributes : List Attribute)
    (behind : Nat) (r : Item × Cursor) :
    Read.item g start attributes { rest := [], behind } ≠ .ok r := by
  intro h
  cases h

/-- Code that is an item is made of attributes and a rest, and with other attributes the rest is
the same item, but for them and the place where it begins. -/
lemma Code.exists_item?_of_attributed {code : Code} {item : Item} (h : code.item? = .ok item) :
    ∃ (bare : Code) (attributes : List Attribute) (build : Mark → List Attribute → Item),
      Attributed bare code attributes ∧ (Terminal.operator "#").fits bare = false ∧
      Item.IsPlaced (Cursor.HasWord { rest := bare }) build ∧
      item = build code.length attributes ∧
      ∀ code' attributes', Attributed bare code' attributes' →
        code'.item? = .ok (build code'.length attributes') := by
  obtain ⟨d, hdeclaration, hleft, hrest⟩ := run_eq_ok_iff.mp h
  obtain ⟨attributes, c, c', hattributes, hitem, rfl⟩ :=
    Read.declaration_eq_ok_iff.mp hdeclaration
  obtain ⟨hleft, hleft'⟩ := Option.or_eq_none_iff.mp hleft
  have hbehind : c.behind = 0 := (Read.forward_declaredAttributes hattributes).2
  rw [hbehind] at hitem
  have hne : c.rest ≠ [] := by
    intro hnil
    rw [hnil] at hitem
    exact Read.item_nil_ne_ok _ _ _ _ _ hitem
  obtain ⟨hattributed, hhash⟩ := Read.attributed_of_collect hattributes hne hleft
  obtain ⟨build, hbuild, hplaced⟩ := Read.item_isUniform _ _ hitem
  have hagain (code' : Code) (attributes' : List Attribute)
      (hother : Attributed c.rest code' attributes') :
      code'.item? = .ok (build code'.length attributes') := by
    obtain ⟨written, hcollect⟩ := Read.collect_of_attributed hother hhash
    have hdeclaration' := Read.declaration_eq_ok_iff.mpr
      ⟨attributes', _, c', hcollect, hbuild code'.length attributes', rfl⟩
    exact run_eq_ok_iff.mpr ⟨_, hdeclaration', hleft', hrest⟩
  refine ⟨c.rest, attributes, build, hattributed, hhash, hplaced, ?_, hagain⟩
  exact Except.ok.inj (h.symm.trans (hagain code attributes hattributed))

/-! ### Places -/

/-- A word in the code of a listing stands at a place of the listing, and the mark points there,
whatever is put in front. -/
lemma Listing.exists_of_hasWord {bare : Listing} {text : String} {mark : Mark}
    (h : Cursor.HasWord { rest := bare.code } text mark) :
    ∃ before place behind, bare = before ++ ⟨.ident text, place⟩ :: behind ∧
      mark ≤ bare.length ∧
      ∀ dress : Listing, Listing.positionAt (dress ++ bare) mark = place := by
  obtain ⟨behind, ⟨before, hcode⟩, rfl⟩ := h
  obtain ⟨before, tail, rfl, -, htail⟩ := List.map_eq_append_iff.mp hcode.symm
  obtain ⟨placed, behind, rfl, htoken, rfl⟩ := List.map_eq_cons_iff.mp htail
  obtain ⟨token, place⟩ := placed
  obtain rfl : token = .ident text := htoken
  refine ⟨before, place, behind, rfl, ?_, ?_⟩
  · simp
  · intro dress
    rw [← List.append_assoc, List.length_map]
    exact Listing.positionAt_append_cons (dress ++ before) behind _

/-! ### Errors -/

/-- The error for the same item when the item begins elsewhere. An error that points at a keyword
stays where it is. -/
def NotAUnion.movedTo (e : NotAUnion) (start : Mark) : Option String → NotAUnion
  | some _ => e
  | none => { e with mark := start }

@[simp] lemma NotAUnion.message_movedTo (e : NotAUnion) (start : Mark) (keyword? : Option String) :
    (e.movedTo start keyword?).message = e.message := by
  cases keyword? <;> rfl

/-- Where the error for an item points, and that for the same item in another place. -/
lemma Item.IsPlaced.refused {found : String → Mark → Prop}
    {build : Mark → List Attribute → Item} (h : IsPlaced found build) {start : Mark}
    {attributes : List Attribute} {e : NotAUnion}
    (hrefused : (build start attributes).extract = .error e) :
    (∀ text, (build start attributes).keyword? = some text → found text e.mark) ∧
      ((build start attributes).keyword? = none → e.mark = start) ∧
      ∀ start' attributes', (build start' attributes').extract =
        .error (e.movedTo start' (build start attributes).keyword?) := by
  cases h with
  | union e' item =>
    rw [item] at hrefused
    cases hrefused
  | @keyword text e' known item error =>
    cases (error start attributes).symm.trans hrefused
    simp only [item, NotAUnion.movedTo]
    refine ⟨?_, nofun, error⟩
    rintro _ ⟨⟩
    exact known
  | beginning kind item error =>
    cases (error start attributes).symm.trans hrefused
    simp only [item, NotAUnion.movedTo]
    exact ⟨nofun, fun _ => rfl, error⟩

/-- Where the error for an item points, wherever the item begins, and `bare` is the item without the
attributes in front of it. -/
structure NotAUnion.PointsInto (e : NotAUnion) (bare : Listing) (keyword? : Option String) :
    Prop where
  /-- The keyword is one of the tokens behind the attributes. -/
  keyword : ∀ text, keyword? = some text → ∃ before place behind,
    bare = before ++ ⟨.ident text, place⟩ :: behind ∧ e.mark ≤ bare.length ∧
      ∀ dress : Listing, Listing.positionAt (dress ++ bare) e.mark = place
  /-- Other attributes in front of the item do not change the error, unless it points at the first
  token. -/
  dressed : ∀ code attributes, Attributed bare.code code attributes →
    code.extract = .error (e.movedTo code.length keyword?)

namespace NotAUnion.PointsInto

variable {e : NotAUnion} {bare : Listing} {keyword? : Option String} {code : Code}
  {attributes : List Attribute}

lemma eq_movedTo (h : e.PointsInto bare keyword?)
    (hattributed : Attributed bare.code code attributes) (hextract : code.extract = .error e) :
    e = e.movedTo code.length keyword? :=
  Except.error.inj (hextract.symm.trans (h.dressed code attributes hattributed))

/-- The error points behind the attributes if it points at a keyword, or if there are none. -/
lemma mark_le_iff (h : e.PointsInto bare keyword?)
    (hattributed : Attributed bare.code code attributes) (hextract : code.extract = .error e) :
    e.mark ≤ bare.length ↔ keyword? ≠ none ∨ attributes = [] := by
  cases keyword? with
  | some text =>
    obtain ⟨before, place, behind, -, hinside, -⟩ := h.keyword text rfl
    simp [hinside]
  | none =>
    obtain ⟨pre, rfl, hpre⟩ := hattributed.exists_append
    have hlength : (pre ++ bare.code).length ≤ bare.length ↔ pre = [] := by
      rw [List.length_append, Listing.code, List.length_map, ← List.length_eq_zero_iff]
      omega
    rw [h.eq_movedTo hattributed hextract]
    exact (hlength.trans hpre).trans (or_iff_right (absurd rfl)).symm

/-- Taking an attribute off does not move the error, if it points at a keyword, and moves it
otherwise. -/
lemma withoutAttribute (h : e.PointsInto bare keyword?)
    (hattributed : Attributed bare.code code attributes) (hextract : code.extract = .error e)
    {a : Attribute} (ha : a ∈ attributes) :
    ∃ e', (code.withoutAttribute a).extract = .error e' ∧ e'.message = e.message ∧
      (e'.mark = e.mark ↔ keyword? ≠ none) := by
  have hshorter := hattributed.length_withoutAttribute_lt ha
  have heq := h.eq_movedTo hattributed hextract
  obtain ⟨pre, post, rfl⟩ := List.append_of_mem ha
  obtain ⟨pre', hwithout, -⟩ := hattributed.withoutAttribute
  refine ⟨_, h.dressed _ _ hwithout, e.message_movedTo _ _, ?_⟩
  cases keyword? with
  | some text => simp [movedTo]
  | none =>
    rw [heq]
    simp [movedTo, Nat.ne_of_lt hshorter]

end NotAUnion.PointsInto

/-- In a listing that is refused the item stands behind its attributes, and the error points into
it. -/
lemma Listing.exists_pointsInto {listing : Listing} {item : Item} {e : NotAUnion}
    (read : listing.code.item? = .ok item) (refused : item.extract = .error e) :
    ∃ (dress bare : Listing) (attributes : List Attribute), listing = dress ++ bare ∧
      Attributed bare.code listing.code attributes ∧
      (Terminal.operator "#").fits bare.code = false ∧ e.PointsInto bare item.keyword? := by
  obtain ⟨bareCode, attributes, build, hattributed, hhash, hplaced, hitem, hread⟩ :=
    Code.exists_item?_of_attributed read
  obtain ⟨pre, hcode, -⟩ := hattributed.exists_append
  obtain ⟨dress, bare, rfl, rfl, rfl⟩ := List.map_eq_append_iff.mp hcode
  rw [hitem] at refused
  obtain ⟨hkeyword, -, hmoved⟩ := hplaced.refused refused
  rw [← hitem] at hkeyword hmoved
  refine ⟨dress, bare, attributes, rfl, hattributed, hhash, ?_⟩
  constructor
  · intro text htext
    exact Listing.exists_of_hasWord (hkeyword text htext)
  · intro code attributes' hother
    simp only [Code.extract, hread code attributes' hother, hmoved]

/-- The error for a listing that is an item, but no union, points at a keyword behind the attributes
of the item and does not depend on them, unless the item is a block of foreign declarations, an
invocation or not understood: then it points at the first token. So it is at a token behind the
attributes exactly if it points at a keyword or there are no attributes, and it stays where it is
when an attribute is taken off exactly if it points at a keyword. The same holds of an item that is
read anywhere inside a listing, behind attributes that begin at `start`. -/
theorem location_of_refusal {listing : Listing} {item : Item} {e : NotAUnion}
    (read : listing.code.item? = .ok item) (refused : item.extract = .error e) :
    (∃ (dress bare : Listing) (attributes : List Attribute), listing = dress ++ bare ∧
        Attributed bare.code listing.code attributes ∧
        (Terminal.operator "#").fits bare.code = false ∧
        e.PointsInto bare item.keyword? ∧
        (e.mark ≤ bare.length ↔ item.keyword? ≠ none ∨ attributes = []) ∧
        ∀ a ∈ attributes, ∃ e', (listing.code.withoutAttribute a).extract = .error e' ∧
          e'.message = e.message ∧ (e'.mark = e.mark ↔ item.keyword? ≠ none)) ∧
      ∀ (g : Grammar) (start : Mark) (attributes : List Attribute) (c d : Cursor) (inner : Item)
        (e : NotAUnion), Read.item g start attributes c = .ok (inner, d) →
        inner.extract = .error e →
        (∀ text, inner.keyword? = some text → c.HasWord text e.mark) ∧
          (inner.keyword? = none → e.mark = start) ∧
          ∀ start' attributes', ∃ inner', Read.item g start' attributes' c = .ok (inner', d) ∧
            inner'.extract = .error (e.movedTo start' inner.keyword?) := by
  constructor
  · obtain ⟨dress, bare, attributes, hlisting, hattributed, hhash, hpoints⟩ :=
      Listing.exists_pointsInto read refused
    have hextract : listing.code.extract = .error e := by
      simp only [Code.extract, read, refused]
    refine ⟨dress, bare, attributes, hlisting, hattributed, hhash, hpoints, ?_, ?_⟩
    · exact hpoints.mark_le_iff hattributed hextract
    · intro a ha
      exact hpoints.withoutAttribute hattributed hextract ha
  · intro g start attributes c d inner e hread hrefused
    obtain ⟨build, hbuild, hplaced⟩ := Read.item_isUniform g c hread
    cases (hbuild start attributes).symm.trans hread
    obtain ⟨hkeyword, hbeginning, hmoved⟩ := hplaced.refused hrefused
    refine ⟨hkeyword, hbeginning, ?_⟩
    intro start' attributes'
    exact ⟨_, hbuild start' attributes', hmoved start' attributes'⟩

/-- A block of foreign declarations behind a request. -/
def requestedBlock : Listing :=
  [⟨.punct '#' .alone, ⟨1, 1⟩⟩, ⟨.opening .square, ⟨1, 2⟩⟩,
    ⟨.ident "with_switch_case_view", ⟨1, 3⟩⟩, ⟨.closing .square, ⟨1, 24⟩⟩,
    ⟨.ident "extern", ⟨1, 26⟩⟩, ⟨.literal "\"C\"", ⟨1, 33⟩⟩, ⟨.opening .curly, ⟨1, 37⟩⟩,
    ⟨.closing .curly, ⟨1, 38⟩⟩]

/-- The request in front of `requestedBlock`. -/
def blockRequest : Attribute :=
  { mark := 8
    content :=
      { mark := 6, nameMark := 6, path := Path.ofName "with_switch_case_view", form := .bare } }

/-- The block is refused at its request, and without the request somewhere else. -/
theorem location_of_requestedBlock :
    requestedBlock.code.item? = .ok (.unnamed .externBlock [blockRequest] 8) ∧
      ∃ (dress bare : Listing) (attributes : List Attribute), requestedBlock = dress ++ bare ∧
        Attributed bare.code requestedBlock.code attributes ∧
        (Terminal.operator "#").fits bare.code = false ∧
        (NotAUnion.unnamed "extern block" 8).PointsInto bare none ∧
        (8 ≤ bare.length ↔ attributes = []) ∧
        ∀ a ∈ attributes, ∃ e', (requestedBlock.code.withoutAttribute a).extract = .error e' ∧
          e'.message = (NotAUnion.unnamed "extern block" 8).message ∧ e'.mark ≠ 8 := by
  have read : requestedBlock.code.item? = .ok (.unnamed .externBlock [blockRequest] 8) := rfl
  obtain ⟨⟨dress, bare, attributes, hsplit, hattributed, hhash, hpoints, hmark, htaken⟩, -⟩ :=
    location_of_refusal read rfl
  refine ⟨read, dress, bare, attributes, hsplit, hattributed, hhash, hpoints, ?_, ?_⟩
  · exact hmark.trans (or_iff_right (absurd rfl))
  · intro a ha
    obtain ⟨e', hextract, hmessage, hiff⟩ := htaken a ha
    exact ⟨e', hextract, hmessage, fun h => hiff.mp h rfl⟩

end UnionView
