import UnionView.Grammar.File
import UnionView.Proofs.Syntax.Reader
import UnionView.Proofs.Token.Piece

/-!
# Reading what was printed

An identifier that was read is read as itself (`readText_identifier`), and the text of a plain path
that was read is read as this path (`readText_plainPath`), whatever the text looked like from which
it was read first.
-/

namespace UnionView

open Reader

lemma readText_eq_ok_iff {α : Type} {read : Code → Except Fault α} {text : String}
    {listing : Listing} {a : α} : readText read text = .ok (listing, a) ↔
      Listing.ofText text = .ok listing ∧ read listing.code = .ok a := by
  unfold readText
  constructor
  · intro h
    split at h
    · cases h
    · rename_i listing' htext
      split at h
      · cases h
      · rename_i b hread
        cases h
        exact ⟨htext, hread⟩
  · rintro ⟨htext, hread⟩
    simp only [htext, hread]

/-! ### Identifiers -/

/-- An identifier is taken where it stands. -/
lemma Reader.identifier_of_fits {c : Cursor} {name : String} {rest : Code}
    (hrest : c.rest = .ident name :: rest) (hfits : Terminal.identifier.fits c.rest = true) :
    ∃ written, identifier c = .ok (name, { c with rest, written }) := by
  refine ⟨.ident name :: c.written, ?_⟩
  unfold identifier
  rw [bind_of_ok (get_apply c), bind_of_ok ((take_of_fits hfits).trans (advance_apply _ c))]
  simp [hrest, nameAt, Terminal.width, Terminal.canonical]

lemma Code.identifier?_eq_ok_iff {code : Code} {name : String} :
    code.identifier? = .ok name ↔
      code = [.ident name] ∧ Terminal.identifier.fits [.ident name] = true := by
  constructor
  · intro h
    obtain ⟨c, hread, -, hrest⟩ := run_eq_ok_iff.mp h
    have hcode : code = _ := identifier_eq_ok hread
    rw [hrest] at hcode
    obtain ⟨_, _, ⟨⟩, hread⟩ := bind_eq_ok.mp hread
    obtain ⟨_, _, htake, -⟩ := bind_eq_ok.mp hread
    have hfits := (take_eq_ok.mp htake).1
    rw [hcode] at hfits
    exact ⟨hcode, hfits⟩
  · rintro ⟨rfl, hfits⟩
    obtain ⟨written, hread⟩ := identifier_of_fits (c := { rest := [.ident name] }) rfl hfits
    exact run_eq_ok_iff.mpr ⟨_, hread, rfl, rfl⟩

theorem readText_identifier {text name : String} {listing : Listing}
    (h : readText Code.identifier? text = .ok (listing, name)) :
    ∃ listing', readText Code.identifier? name = .ok (listing', name) := by
  obtain ⟨htext, hread⟩ := readText_eq_ok_iff.mp h
  obtain ⟨hcode, hfits⟩ := Code.identifier?_eq_ok_iff.mp hread
  have hsound := Listing.isSound_of_ofText htext
  rw [hcode] at hsound
  obtain ⟨listing', htext', hcode'⟩ := hsound.isReadFrom_text
  have hname : Code.text [.ident name] = name := by
    simp [Code.text, Code.spell, Preceding.gap]
  rw [hname] at htext'
  refine ⟨listing', readText_eq_ok_iff.mpr ⟨htext', ?_⟩⟩
  exact Code.identifier?_eq_ok_iff.mpr ⟨hcode', hfits⟩

/-! ### Sound paths -/

/-- The name of a segment is one, and its generic arguments are sound code. -/
structure PathSegment.IsSound (s : PathSegment) : Prop where
  name : Lexer.IsName s.name.toList
  arguments : s.arguments.IsSound

def Path.IsSound (p : Path) : Prop :=
  ∀ s ∈ p.segments, s.IsSound

lemma PathSegment.IsSound.code {s : PathSegment} (h : s.IsSound) : s.code.IsSound :=
  .append (a := [.ident s.name]) (Code.isSound_word h.name) h.arguments

namespace Path

lemma isSound_separator : separator.IsSound := Code.isSound_operator (by decide)

lemma isSound_segmentsCode {segments : List PathSegment} (h : ∀ s ∈ segments, s.IsSound) :
    (segmentsCode segments).IsSound := by
  induction segments with
  | nil => exact Code.isSound_nil
  | cons s segments ih =>
    obtain ⟨hs, hsegments⟩ := List.forall_mem_cons.mp h
    cases segments with
    | nil => exact hs.code
    | cons next segments => exact (hs.code.append isSound_separator).append (ih hsegments)

lemma IsSound.code {p : Path} (h : p.IsSound) : p.code.IsSound := by
  have hroot : Code.IsSound (if p.rooted then separator else []) := by
    split
    · exact isSound_separator
    · exact Code.isSound_nil
  exact hroot.append (isSound_segmentsCode h)

end Path

/-! ### Plain paths -/

namespace PathSegment

/-- A segment of a plain path: a name that may stand there, without arguments. -/
structure IsPlain (s : PathSegment) : Prop where
  arguments : s.arguments = []
  fits : Path.segmentStarts.any (·.fits [.ident s.name]) = true

lemma IsPlain.code {s : PathSegment} (h : s.IsPlain) : s.code = [.ident s.name] := by
  rw [PathSegment.code, h.arguments]

lemma IsPlain.eq_name {s : PathSegment} (h : s.IsPlain) : s = { name := s.name } := by
  obtain ⟨name, arguments⟩ := s
  obtain rfl := h.arguments
  rfl

end PathSegment

namespace Path

/-- Whether a name may stand in a path does not depend on what follows it. -/
lemma fits_segmentStarts_cons (name : String) (rest : Code) :
    segmentStarts.any (·.fits (.ident name :: rest)) =
      segmentStarts.any (·.fits [.ident name]) := rfl

lemma exists_of_fits_segmentStarts {code : Code}
    (h : segmentStarts.any (·.fits code) = true) : ∃ name rest, code = .ident name :: rest := by
  cases code with
  | nil => cases h
  | cons token rest =>
    cases token with
    | ident name => exact ⟨name, rest, rfl⟩
    | punct | literal | opening | closing => cases h

lemma anyIdentifier_of_rest {c : Cursor} {name : String} {rest : Code}
    (h : c.rest = .ident name :: rest) :
    ∃ written, anyIdentifier c = .ok (name, { c with rest, written }) := by
  refine ⟨.ident name :: c.written, ?_⟩
  unfold anyIdentifier
  rw [bind_of_ok (get_apply c)]
  simp only [h]
  rw [bind_of_ok (advance_apply _ c)]
  simp [h, Terminal.width, Terminal.canonical]

/-- The segments that are read have their names from the code. -/
lemma plainSegments_eq_ok {fuel : Nat} {c d : Cursor} {first : PathSegment}
    {more : List PathSegment} (h : plainSegments fuel c = .ok ((first, more), d))
    (hstart : segmentStarts.any (·.fits c.rest) = true) :
    ∀ s ∈ first :: more, s.IsPlain ∧ Token.ident s.name ∈ c.rest := by
  induction fuel generalizing c first more with
  | zero => exact absurd h (noIdentifier_ne_ok _ _)
  | succ fuel ih =>
    obtain ⟨name, rest, hrest⟩ := exists_of_fits_segmentStarts hstart
    obtain ⟨written, hname⟩ := anyIdentifier_of_rest hrest
    rw [plainSegments, bind_of_ok hname] at h
    have hfirst : PathSegment.IsPlain { name } ∧ Token.ident name ∈ c.rest := by
      rw [hrest] at hstart ⊢
      exact ⟨⟨rfl, hstart⟩, List.mem_cons_self⟩
    obtain ⟨accepted, c₁, haccept, h⟩ := bind_eq_ok.mp h
    have hsuffix := (Forward.accept _ haccept).1
    cases accepted with
    | false =>
      cases h
      simpa using hfirst
    | true =>
      obtain ⟨found, c₂, hfound, h⟩ := bind_eq_ok.mp h
      obtain rfl := looks_peekAny _ hfound
      cases found with
      | false => exact absurd h (expected_ne_ok _ _ _)
      | true =>
        obtain ⟨⟨next, others⟩, c₃, hnext, ⟨⟩⟩ := bind_eq_ok.mp h
        have hmore := ih hnext (congrArg Prod.fst (Except.ok.inj hfound))
        refine List.forall_mem_cons.mpr ⟨hfirst, fun s hs => ?_⟩
        obtain ⟨hplain, hmem⟩ := hmore s hs
        refine ⟨hplain, ?_⟩
        rw [hrest]
        exact List.mem_cons_of_mem _ (hsuffix.subset hmem)

lemma plain_eq_ok {c d : Cursor} {p : Path} (h : plain c = .ok (p, d)) :
    ∀ s ∈ p.segments, s.IsPlain ∧ Token.ident s.name ∈ c.rest := by
  obtain ⟨rooted, c₁, haccept, h⟩ := bind_eq_ok.mp h
  have hsuffix := (Forward.accept _ haccept).1
  obtain ⟨found, c₂, hfound, h⟩ := bind_eq_ok.mp h
  obtain rfl := looks_peekAny _ hfound
  cases found with
  | false => exact absurd h (noIdentifier_ne_ok _ _)
  | true =>
    obtain ⟨_, _, ⟨⟩, h⟩ := bind_eq_ok.mp h
    obtain ⟨⟨first, more⟩, c₃, hsegments, ⟨⟩⟩ := bind_eq_ok.mp h
    intro s hs
    obtain ⟨hplain, hmem⟩ :=
      plainSegments_eq_ok hsegments (congrArg Prod.fst (Except.ok.inj hfound)) s hs
    exact ⟨hplain, hsuffix.subset hmem⟩

/-! ### Plain paths as they are printed -/

lemma segmentsCode_cons_cons (s next : PathSegment) (more : List PathSegment) :
    segmentsCode (s :: next :: more) = s.code ++ separator ++ segmentsCode (next :: more) := rfl

/-- The printed segments of a plain path begin with the first name. -/
lemma exists_segmentsCode {s : PathSegment} (h : s.IsPlain) (more : List PathSegment) :
    ∃ behind, segmentsCode (s :: more) = .ident s.name :: behind := by
  cases more with
  | nil => exact ⟨[], h.code⟩
  | cons next more => exact ⟨_, by rw [segmentsCode_cons_cons, h.code, List.append_assoc]; rfl⟩

lemma length_lt_segmentsCode (more : List PathSegment) (s : PathSegment) :
    more.length < (segmentsCode (s :: more)).length := by
  induction more generalizing s with
  | nil => exact Nat.succ_pos _
  | cons next more ih =>
    have hnext := ih next
    rw [segmentsCode_cons_cons, List.length_append, List.length_append, PathSegment.code,
      List.length_cons, List.length_cons]
    omega

lemma fits_segmentsCode {s : PathSegment} (h : s.IsPlain) (more : List PathSegment) :
    segmentStarts.any (·.fits (segmentsCode (s :: more))) = true := by
  obtain ⟨behind, hcode⟩ := exists_segmentsCode h more
  rw [hcode, fits_segmentStarts_cons]
  exact h.fits

lemma acceptOperator_of_separator {c : Cursor} {rest : Code} (h : c.rest = separator ++ rest) :
    ∃ written, acceptOperator "::" c = .ok (true, { c with rest, written }) := by
  have hfits : (Terminal.operator "::").fits c.rest = true := by
    rw [h]
    rfl
  refine ⟨(separator).reverse ++ c.written, ?_⟩
  unfold acceptOperator accept
  rw [bind_of_ok (peek_apply _ c), hfits, if_pos rfl, bind_of_ok (advance_apply _ c), h]
  rfl

lemma acceptOperator_of_not_fits {c : Cursor} {text : String}
    (h : (Terminal.operator text).fits c.rest = false) :
    acceptOperator text c = .ok (false, c) := by
  unfold acceptOperator accept
  rw [bind_of_ok (peek_apply _ c), h]
  rfl

/-- The segments of a plain path are read from the tokens that they are printed as. -/
lemma plainSegments_segmentsCode {more : List PathSegment} {first : PathSegment} {fuel : Nat}
    {c : Cursor} (hplain : ∀ s ∈ first :: more, s.IsPlain) (hfuel : more.length < fuel)
    (hrest : c.rest = segmentsCode (first :: more)) :
    ∃ written, plainSegments fuel c = .ok ((first, more), { c with rest := [], written }) := by
  have hfirst := hplain first List.mem_cons_self
  induction more generalizing first fuel c with
  | nil =>
    obtain ⟨fuel, rfl⟩ := Nat.exists_eq_succ_of_ne_zero (Nat.ne_of_gt hfuel)
    rw [segmentsCode, hfirst.code] at hrest
    obtain ⟨written, hname⟩ := anyIdentifier_of_rest hrest
    refine ⟨written, ?_⟩
    rw [plainSegments, bind_of_ok hname, bind_of_ok (acceptOperator_of_not_fits rfl),
      hfirst.eq_name]
    rfl
  | cons next more ih =>
    obtain ⟨fuel, rfl⟩ := Nat.exists_eq_succ_of_ne_zero (Nat.ne_of_gt (Nat.zero_lt_of_lt hfuel))
    have hnext := hplain next (List.mem_cons_of_mem _ List.mem_cons_self)
    rw [segmentsCode_cons_cons, hfirst.code, List.append_assoc, List.singleton_append] at hrest
    obtain ⟨written, hname⟩ := anyIdentifier_of_rest hrest
    let c₁ : Cursor := { c with rest := separator ++ segmentsCode (next :: more), written }
    obtain ⟨written', haccept⟩ := acceptOperator_of_separator (c := c₁) rfl
    let c₂ : Cursor := { c₁ with rest := segmentsCode (next :: more), written := written' }
    have hfound : peekAny segmentStarts c₂ = .ok (true, c₂) := by
      show Except.ok (segmentStarts.any (·.fits (segmentsCode (next :: more))), c₂) = _
      rw [fits_segmentsCode hnext]
    obtain ⟨written'', hmore⟩ := ih (c := c₂)
      (fun s hs => hplain s (List.mem_cons_of_mem _ hs)) (Nat.lt_of_succ_lt_succ hfuel) rfl hnext
    refine ⟨written'', ?_⟩
    rw [plainSegments, bind_of_ok hname, bind_of_ok haccept]
    simp only [if_true]
    rw [bind_of_ok hfound]
    simp only [if_true]
    rw [bind_of_ok hmore, hfirst.eq_name]
    rfl

/-- A plain path is read from the tokens that it is printed as. -/
lemma plainPath?_code {p : Path} (hplain : ∀ s ∈ p.segments, s.IsPlain) :
    p.code.plainPath? = .ok p := by
  have hfirst := hplain p.first List.mem_cons_self
  obtain ⟨written, haccept⟩ : ∃ written, acceptOperator "::" { rest := p.code } =
      .ok (p.rooted, { rest := segmentsCode p.segments, written }) := by
    cases hrooted : p.rooted with
    | true =>
      have hcode : p.code = separator ++ segmentsCode p.segments := by
        rw [Path.code, hrooted, if_pos rfl]
      exact acceptOperator_of_separator (c := { rest := p.code }) hcode
    | false =>
      have hcode : p.code = segmentsCode p.segments := by
        rw [Path.code, hrooted]
        rfl
      obtain ⟨behind, hbehind⟩ := exists_segmentsCode hfirst p.more
      refine ⟨[], ?_⟩
      rw [hcode]
      apply acceptOperator_of_not_fits
      show (Terminal.operator "::").fits (segmentsCode (p.first :: p.more)) = false
      rw [hbehind]
      rfl
  let c : Cursor := { rest := segmentsCode p.segments, written }
  have hfound : peekAny segmentStarts c = .ok (true, c) := by
    show Except.ok (segmentStarts.any (·.fits (segmentsCode (p.first :: p.more))), c) = _
    rw [fits_segmentsCode hfirst]
  have hfuel : p.more.length < (segmentsCode p.segments).length + 1 :=
    Nat.lt_succ_of_lt (length_lt_segmentsCode p.more p.first)
  obtain ⟨written', hsegments⟩ := plainSegments_segmentsCode (c := c) hplain hfuel rfl
  refine run_eq_ok_iff.mpr ⟨{ c with rest := [], written := written' }, ?_, rfl, rfl⟩
  unfold plain
  rw [bind_of_ok haccept, bind_of_ok hfound]
  simp only [if_true]
  rw [bind_of_ok (get_apply c), bind_of_ok hsegments]
  rfl

/-! ### The text of a plain path -/

variable {text : String} {p : Path} {listing : Listing}

/-- The text of a sound plain path is read as this path. -/
lemma readText_text (hplain : ∀ s ∈ p.segments, s.IsPlain) (hsound : p.IsSound) :
    ∃ listing, readText Code.plainPath? p.text = .ok (listing, p) := by
  obtain ⟨listing, hlisting, hcode⟩ := hsound.code.isReadFrom_text
  refine ⟨listing, readText_eq_ok_iff.mpr ⟨hlisting, ?_⟩⟩
  rw [hcode]
  exact plainPath?_code hplain

lemma isSound_of_readText (h : readText Code.plainPath? text = .ok (listing, p)) :
    (∀ s ∈ p.segments, s.IsPlain) ∧ p.IsSound := by
  obtain ⟨htext, hread⟩ := readText_eq_ok_iff.mp h
  obtain ⟨c, hread, -, -⟩ := run_eq_ok_iff.mp hread
  have hsegments := plain_eq_ok hread
  refine ⟨fun s hs => (hsegments s hs).1, fun s hs => ?_⟩
  obtain ⟨hplain, hmem⟩ := hsegments s hs
  have hname := (Listing.isSound_of_ofText htext).lexed _ hmem
  exact ⟨hname, hplain.arguments ▸ Code.isSound_nil⟩

end Path

/-- The text of a plain path that was read is read as this path. -/
theorem readText_plainPath {text : String} {p : Path} {listing : Listing}
    (h : readText Code.plainPath? text = .ok (listing, p)) :
    ∃ listing', readText Code.plainPath? p.text = .ok (listing', p) := by
  obtain ⟨hplain, hsound⟩ := Path.isSound_of_readText h
  exact Path.readText_text hplain hsound

end UnionView
