import UnionView.Proofs.Token.Layout
import UnionView.Proofs.Token.Quotation
import UnionView.Token.Printer

/-!
# Printed code is read back

A joint character belongs together with the token behind it, so that code can be printed only if
behind each of them stands a token that goes on with it (`Code.IsGlued`). What was read from a text
is glued, and the text of lexed and glued code is a layout of it (`layout_spell`).
-/

namespace UnionView

open Text Lexer

/-! ### Joint characters -/

/-- Whether the token goes on with a joint character in front of it. -/
def Token.Joins (mark : Char) (token : Token) : Prop :=
  if mark = '\'' then startsLifetime token.spelling = true
  else ∃ c ∈ token.spelling.head?, isPunctuation c = true ∧ (mark = '/' → c ≠ '/' ∧ c ≠ '*')

/-- Whether the code goes on with a joint character in front of it. -/
def Code.Continues (mark : Char) (code : Code) : Prop :=
  ∃ token ∈ code.head?, token.Joins mark

/-- Behind every joint character stands what goes on with it. -/
def Code.IsGlued : Code → Prop
  | [] => True
  | token :: code =>
    (∀ mark, token = .punct mark .joint → Code.Continues mark code) ∧ Code.IsGlued code

namespace Code

@[simp] lemma isGlued_nil : IsGlued [] := trivial

lemma isGlued_cons {token : Token} {code : Code} :
    IsGlued (token :: code) ↔
      (∀ mark, token = .punct mark .joint → Continues mark code) ∧ IsGlued code :=
  Iff.rfl

lemma Continues.append {mark : Char} {code : Code} (h : Continues mark code) (behind : Code) :
    Continues mark (code ++ behind) := by
  obtain ⟨token, htoken, hjoins⟩ := h
  obtain ⟨code, rfl⟩ := List.head?_eq_some_iff.mp htoken
  exact ⟨token, rfl, hjoins⟩

/-- What is behind some code matters to its last token only. -/
lemma IsGlued.append_of {a b b' : Code} (h : IsGlued (a ++ b)) (hb' : IsGlued b')
    (hcontinues : ∀ mark, .punct mark .joint ∈ a.getLast? → Continues mark b → Continues mark b') :
    IsGlued (a ++ b') := by
  induction a with
  | nil => exact hb'
  | cons token a ih =>
    cases a with
    | nil => exact ⟨fun mark hmark => hcontinues mark (hmark ▸ rfl) (h.1 mark hmark), hb'⟩
    | cons u a => exact ⟨fun mark hmark => h.1 mark hmark, ih h.2 hcontinues⟩

lemma IsGlued.append {a b : Code} (ha : IsGlued a) (hb : IsGlued b) : IsGlued (a ++ b) := by
  rw [← List.append_nil a] at ha
  refine ha.append_of hb fun mark _ h => ?_
  obtain ⟨_, ⟨⟩, -⟩ := h

lemma IsGlued.of_append {a b : Code} (h : IsGlued (a ++ b)) : IsGlued b := by
  induction a with
  | nil => exact h
  | cons token a ih => exact ih h.2

end Code

/-! ### Printing -/

namespace Token

/-- What a token in front of another one leaves to it. -/
def preceding : Token → Preceding
  | .punct _ spacing => .ofSpacing spacing
  | .opening _ => .boundary
  | _ => .token

/-- The space in front of a token. -/
def gap (p : Preceding) : Token → List Char
  | .closing d => p.gapBeforeCloser d
  | _ => p.gap

/-- The space that a token brings along. -/
def gapBehind : Token → List Char
  | .opening .curly => [' ']
  | _ => []

end Token

namespace Code

lemma spell_cons (p : Preceding) (token : Token) (code : Code) : spell p (token :: code) =
    token.gap p ++ (token.spelling ++ (token.gapBehind ++ spell token.preceding code)) := by
  cases token with
  | opening d => cases d <;> rfl
  | _ => rfl

end Code

namespace Token

lemma gap_cases (p : Preceding) (token : Token) : token.gap p = [] ∨ token.gap p = [' '] := by
  cases token with
  | closing d => cases p <;> cases d <;> simp [gap, Preceding.gapBeforeCloser]
  | _ => cases p <;> simp [gap, Preceding.gap]

/-- Behind any token that stands for itself a space follows, or the end of a group. -/
lemma endsToken_gap {token : Token} {cs : List Char} :
    EndsToken (token.gap .token ++ (token.spelling ++ cs)) := by
  cases token with
  | closing d =>
    cases d <;> rintro c ⟨⟩ <;> decide
  | _ => exact endsToken_of_isBlank (by decide) _

/-- No bracket goes on with a joint character. -/
lemma not_joins_bracket (mark : Char) (d : Delimiter) :
    ¬Joins mark (.opening d) ∧ ¬Joins mark (.closing d) := by
  unfold Joins
  constructor <;> split <;> cases d <;> simp [spelling, Delimiter.opener, Delimiter.closer] <;>
    decide

lemma not_isName_of_isLiteral {text : List Char} (h : Literal.IsLiteral text) :
    ¬IsName text := by
  intro hname
  have hident := leaf?_of_name hname (show EndsName [] from nofun)
  rw [List.append_nil] at hident
  unfold leaf? at hident
  rw [h] at hident
  cases hident

lemma identRest?_append {cs rest : List Char} (h : identRest? cs = some rest) (hrest : rest ≠ [])
    (tail : List Char) : identRest? (cs ++ tail) = some (rest ++ tail) := by
  have hword {cs : List Char} (h : wordRest? cs = some rest) :
      wordRest? (cs ++ tail) = some (rest ++ tail) := by
    cases cs with
    | nil => cases h
    | cons c cs =>
      rw [wordRest?] at h
      split at h
      · rename_i hc
        have hbehind : Literal.identTail cs = rest := Option.some.inj h
        rw [List.cons_append, wordRest?, if_pos hc, Literal.identTail, List.dropWhile_append]
        rw [Literal.identTail] at hbehind
        rw [hbehind, if_neg (by simpa using hrest)]
      · cases h
  unfold identRest? at h
  split at h
  · rename_i cs
    obtain ⟨hbehind, hraw⟩ := Option.filter_eq_some_iff.mp h
    obtain ⟨word, rfl, -⟩ := wordRest?_eq_some hbehind
    rw [List.cons_append, List.cons_append, identRest?, hword hbehind]
    rw [taken_append] at hraw
    rw [List.append_assoc, Option.filter_some, taken_append, if_pos hraw]
  · rename_i hhash
    rw [← hword h]
    unfold identRest?
    split
    · rename_i behind heq
      rcases cs with _ | ⟨c, _ | ⟨d, cs⟩⟩
      · cases h
      · cases heq
        cases h
        exact absurd rfl hrest
      · cases heq
        exact absurd rfl (hhash cs)
    · rfl

/-- A literal does not end where a name at its front does. -/
lemma exists_of_identRest?_of_isLiteral {text rest : List Char} (hliteral : Literal.IsLiteral text)
    (h : identRest? text = some rest) : ∃ c behind, rest = c :: behind := by
  apply List.exists_cons_of_ne_nil
  rintro rfl
  obtain ⟨name, hname, hisName⟩ := identRest?_eq_some h
  rw [List.append_nil] at hname
  exact not_isName_of_isLiteral hliteral (hname ▸ hisName)

/-- Whether a quote is that of a lifetime is told by the name behind it and one more character. -/
lemma startsLifetime_append_of_rest {cs behind : List Char} {c : Char}
    (h : identRest? cs = some (c :: behind)) (tail : List Char) :
    startsLifetime (cs ++ tail) = startsLifetime cs := by
  have hlength : 2 ≤ cs.length := by
    obtain ⟨name, rfl, hname⟩ := identRest?_eq_some h
    obtain ⟨d, rest, rfl, -⟩ := hname.exists_head
    simp
    omega
  have hraw : ['r', '#'] <+: cs ++ tail ↔ ['r', '#'] <+: cs :=
    ⟨fun h => List.prefix_of_prefix_length_le h (List.prefix_append cs tail) hlength,
      fun h => h.trans (List.prefix_append cs tail)⟩
  unfold startsLifetime
  rw [identRest?_append h (List.cons_ne_nil c behind), h, List.cons_append]
  by_cases hquote : c = '\''
  · subst hquote
    rfl
  by_cases hhash : c = '#'
  · rw [hhash]
    exact Bool.eq_iff_iff.mpr
      (List.isPrefixOf_iff_prefix.trans (hraw.trans List.isPrefixOf_iff_prefix.symm))
  · simp [hquote, hhash]

/-- A quote in front of a name is that of a lifetime, unless a quote or a hash follows. -/
lemma startsLifetime_of_name {name tail : List Char} (hname : IsName name) (ends : EndsName tail) :
    startsLifetime (name ++ tail) = true := by
  unfold startsLifetime
  rw [identRest?_of_name hname ends]
  cases tail with
  | nil => rfl
  | cons c tail =>
    have hmark := (ends c rfl).2
    split
    · rename_i heq
      cases heq
    · rename_i heq
      cases heq
      cases hmark
    · rename_i heq
      cases heq
      cases hmark
    · rfl

/-- The quote of a lifetime stands in front of what an identifier starts with. -/
lemma isIdentStart_of_startsLifetime {c : Char} {cs : List Char}
    (h : startsLifetime (c :: cs) = true) : isIdentStart c = true := by
  by_contra hstart
  have hident : identRest? (c :: cs) = none := by
    unfold identRest?
    split
    · rename_i heq
      cases heq
      exact absurd (by decide) hstart
    · rw [wordRest?, if_neg hstart]
  unfold startsLifetime at h
  rw [hident] at h
  cases h

/-- The quote of a lifetime goes on with a token that it goes on with alone. -/
lemma startsLifetime_append {token : Token} {tail : List Char} (hlexed : token.IsLexed)
    (hfollow : token.MayFollow tail) (h : startsLifetime token.spelling = true) :
    startsLifetime (token.spelling ++ tail) = true := by
  cases token with
  | ident name => exact startsLifetime_of_name hlexed hfollow
  | literal text =>
    obtain rfl | hliteral := hlexed
    · cases h
    rw [spelling] at h ⊢
    cases hident : identRest? text.toList with
    | none =>
      rw [startsLifetime, hident] at h
      cases h
    | some rest =>
      obtain ⟨c, behind, rfl⟩ := exists_of_identRest?_of_isLiteral hliteral hident
      rwa [startsLifetime_append_of_rest hident]
  | punct mark spacing =>
    have hmark := isPunctuation_of_isIdentStart (isIdentStart_of_startsLifetime h)
    rw [hlexed.1] at hmark
    cases hmark
  | opening d => cases d <;> cases h
  | closing d => cases d <;> cases h

lemma spelling_ne_nil {token : Token} (h : token.IsLexed) : token.spelling ≠ [] := by
  cases token with
  | ident name =>
    obtain ⟨c, cs, hname, -⟩ := IsName.exists_head h
    rw [spelling, hname]
    exact List.cons_ne_nil c cs
  | literal text =>
    obtain rfl | h := h
    · decide
    · intro hnil
      rw [spelling] at hnil
      rw [hnil] at h
      cases h
  | _ => exact List.cons_ne_nil _ _

/-- A token that begins with a punctuation character still does if something may follow it. -/
lemma startsPunctuation_append {token : Token} {tail : List Char} {c : Char}
    (hlexed : token.IsLexed) (hfollow : token.MayFollow tail) (hc : c ∈ token.spelling.head?)
    (hmark : isPunctuation c = true) : startsPunctuation (token.spelling ++ tail) = true := by
  obtain ⟨cs, hspelling⟩ := List.head?_eq_some_iff.mp hc
  cases token with
  | ident name =>
    obtain ⟨d, rest, hname, hd⟩ := IsName.exists_head hlexed
    rw [spelling, hname] at hspelling
    cases hspelling
    rw [isPunctuation_of_isIdentStart hd] at hmark
    cases hmark
  | punct mark spacing => exact hfollow.1
  | literal text =>
    rw [spelling] at hspelling
    obtain rfl | hliteral := hlexed
    · cases hspelling
      cases hmark
    · rw [hspelling] at hliteral
      by_cases hquote : c = '\''
      · rw [spelling, hspelling, List.cons_append, startsPunctuation_cons, hquote]
        rfl
      · rw [Literal.IsLiteral, rest?_of_isPunctuation hmark hquote] at hliteral
        cases hliteral
  | opening d => cases d <;> cases hspelling <;> cases hmark
  | closing d => cases d <;> cases hspelling <;> cases hmark

/-- No token begins with a comment, so that any may follow a round bracket. -/
lemma mayFollow_round {token : Token} {tail : List Char} (hlexed : token.IsLexed)
    (hfollow : token.MayFollow tail) :
    (Token.opening .round).MayFollow (token.spelling ++ tail) := by
  rintro ⟨rest, heq⟩
  have hcomment : '/' :: '*' :: ("ERROR*/)".toList ++ rest) = token.spelling ++ tail :=
    (List.cons.inj heq).2
  obtain ⟨c, cs, hspelling⟩ := List.exists_cons_of_ne_nil (spelling_ne_nil hlexed)
  have hhead : '/' ∈ token.spelling.head? := by
    rw [hspelling] at hcomment ⊢
    rw [(List.cons.inj hcomment).1]
    rfl
  have hstarts := startsPunctuation_append hlexed hfollow hhead (by decide)
  rw [← hcomment, startsPunctuation_cons] at hstarts
  cases hstarts

/-- What goes on with a joint character goes on with it whatever follows. -/
lemma mayFollow_of_joins {mark : Char} {token : Token} {tail : List Char}
    (hmark : isPunctuation mark = true) (hlexed : token.IsLexed) (hfollow : token.MayFollow tail)
    (hjoins : token.Joins mark) :
    (Token.punct mark .joint).MayFollow (token.spelling ++ tail) := by
  unfold Joins at hjoins
  rw [Token.MayFollow]
  split at hjoins
  · rename_i hquote
    subst hquote
    rw [if_pos rfl, startsPunctuation_cons]
    exact ⟨rfl, startsLifetime_append hlexed hfollow hjoins⟩
  · rename_i hquote
    obtain ⟨c, hc, hcmark, hslash⟩ := hjoins
    rw [if_neg hquote, startsPunctuation_append hlexed hfollow hc hcmark]
    obtain ⟨cs, hspelling⟩ := List.head?_eq_some_iff.mp hc
    refine ⟨?_, by simp⟩
    rw [hspelling, List.cons_append, startsPunctuation_cons, hmark]
    by_cases hmark' : mark = '/'
    · simp [hslash hmark']
    · simp [hmark']

end Token

namespace Code

variable {tail : List Char}

lemma endsToken_spell (code : Code) (ends : EndsToken tail) :
    EndsToken (spell .token code ++ tail) := by
  cases code with
  | nil => exact ends
  | cons token code =>
    rw [spell_cons, List.append_assoc, List.append_assoc]
    exact Token.endsToken_gap

/-- Behind every token that stands for itself a gap or the end of a group is printed. -/
lemma mayFollow_spell_of_preceding {token : Token} {code : Code} (hlexed : token.IsLexed)
    (hpreceding : token.preceding = .token) (ends : EndsToken tail) :
    token.MayFollow (token.gapBehind ++ spell token.preceding code ++ tail) := by
  have hbehind : token.gapBehind = [] := by
    cases token with
    | opening d => cases hpreceding
    | _ => rfl
  have hjoint : ¬token.IsJoint := by
    cases token with
    | punct mark spacing =>
      cases spacing with
      | alone => exact not_false
      | joint => cases hpreceding
    | _ => exact not_false
  rw [hbehind, hpreceding, List.nil_append]
  exact mayFollow_of_endsToken hlexed hjoint (endsToken_spell code ends)

/-- What is printed behind a token may follow it. -/
lemma mayFollow_spell {token : Token} {code : Code} (hlexed : ∀ t ∈ token :: code, t.IsLexed)
    (hglued : IsGlued (token :: code)) (ends : EndsToken tail) :
    token.MayFollow (token.gapBehind ++ spell token.preceding code ++ tail) := by
  induction code generalizing token with
  | nil =>
    have htoken := hlexed token List.mem_cons_self
    cases token with
    | punct mark spacing =>
      cases spacing with
      | alone => exact mayFollow_spell_of_preceding htoken rfl ends
      | joint =>
        obtain ⟨_, ⟨⟩, -⟩ := hglued.1 mark rfl
    | opening d =>
      refine mayFollow_of_endsToken htoken not_false ?_
      cases d with
      | curly => exact endsToken_of_isBlank (by decide) _
      | _ => exact ends
    | _ => exact mayFollow_spell_of_preceding htoken rfl ends
  | cons u code ih =>
    have htoken := hlexed token List.mem_cons_self
    have hu := hlexed u (List.mem_cons_of_mem _ List.mem_cons_self)
    have hfollow := ih (fun t ht => hlexed t (List.mem_cons_of_mem _ ht)) hglued.2
    cases token with
    | punct mark spacing =>
      cases spacing with
      | alone => exact mayFollow_spell_of_preceding htoken rfl ends
      | joint =>
        obtain ⟨_, ⟨⟩, hjoins⟩ := hglued.1 mark rfl
        have hgap : u.gap .jointMark = [] := by
          cases u with
          | closing d => exact absurd hjoins (Token.not_joins_bracket mark d).2
          | _ => rfl
        rw [spell_cons]
        show (Token.punct mark .joint).MayFollow (u.gap .jointMark ++ _ ++ tail)
        rw [hgap, List.nil_append, List.append_assoc]
        exact Token.mayFollow_of_joins htoken.1 hu hfollow hjoins
    | opening d =>
      cases d with
      | curly => exact mayFollow_of_endsToken htoken not_false (endsToken_of_isBlank (by decide) _)
      | square =>
        intro hprefix
        cases (List.cons_prefix_cons.mp hprefix).1
      | round =>
        -- the comment in it would begin with a slash and a star
        have hgap : u.gap .boundary = [] := by cases u <;> rfl
        have htext : spell .boundary (u :: code) ++ tail =
            u.spelling ++ (u.gapBehind ++ spell u.preceding code ++ tail) := by
          rw [spell_cons, hgap, List.nil_append, List.append_assoc]
        show Token.MayFollow (spell .boundary (u :: code) ++ tail) (.opening .round)
        rw [htext]
        exact Token.mayFollow_round hu hfollow
    | _ => exact mayFollow_spell_of_preceding htoken rfl ends

/-- The text of lexed and glued code is a layout of it, also in front of a layout of other code. -/
lemma layout_spell {code behind : Code} {p : Preceding} (hlexed : ∀ t ∈ code, t.IsLexed)
    (hglued : code.IsGlued) (ends : EndsToken tail) (h : Layout behind tail) :
    Layout (code ++ behind) (spell p code ++ tail) := by
  induction code generalizing p with
  | nil => exact h
  | cons token code ih =>
    have hread := next?_of_mayFollow (hlexed token List.mem_cons_self)
      (mayFollow_spell hlexed hglued ends)
    have hmore := ih (p := token.preceding) (fun t ht => hlexed t (List.mem_cons_of_mem _ ht))
      hglued.2
    have hbehind : Layout (code ++ behind)
        (token.gapBehind ++ spell token.preceding code ++ tail) := by
      cases token with
      | opening d =>
        cases d with
        | curly => exact hmore.blank (by decide)
        | _ => exact hmore
      | _ => exact hmore
    have htoken := Layout.token hread hbehind
    rw [spell_cons, List.append_assoc, List.append_assoc]
    obtain hgap | hgap := token.gap_cases p
    · rw [hgap]
      exact htoken
    · rw [hgap]
      exact htoken.blank (by decide)

end Code

/-! ### Code that was read -/

/-- What was read, or can be: every token is one, joint characters have what they belong to, and
brackets match. -/
structure Code.IsSound (code : Code) : Prop where
  lexed : ∀ token ∈ code, token.IsLexed
  glued : code.IsGlued
  balanced : code.IsBalanced

namespace Lexer

/-- What comes first in a layout: nothing, a documentation comment or a token. -/
lemma layout_cases {code : Code} {cs : List Char} (h : Layout code cs) :
    (code = [] ∧ afterBlanks cs = []) ∨
    (∃ d behind, documentation? (afterBlanks cs) = some d ∧ code = d.code ++ behind) ∨
    ∃ token behind rest, next? (afterBlanks cs) = some (token, rest) ∧ code = token :: behind := by
  induction h with
  | ending => exact .inl ⟨rfl, rfl⟩
  | blanks same more ih => rwa [same]
  | documentation comment more ih => exact .inr (.inl ⟨_, _, comment, rfl⟩)
  | @token token code cs read more ih =>
    refine .inr (.inr ⟨token, code, cs, ?_, rfl⟩)
    rwa [afterBlanks_of_next? (by rw [read]; exact Option.some_ne_none _)]

lemma isName_doc : IsName ['d', 'o', 'c'] :=
  .plain ⟨'d', ['o', 'c'], rfl, by decide,
    List.all_eq_true.mp (by decide : ['o', 'c'].all isIdentContinue = true)⟩

lemma isLexed_documentation (d : Documentation) : ∀ token ∈ d.code, token.IsLexed := by
  have hliteral : (Token.literal (quoteLiteral d.text)).IsLexed :=
    .inr (Literal.isLiteral_quoteLiteral d.text)
  have hdoc : (Token.ident "doc").IsLexed := isName_doc
  have hmark {mark : Char} (hmark : isPunctuation mark = true ∧ mark ≠ '\'') :
      (Token.punct mark .alone).IsLexed := ⟨hmark.1, fun hquote => absurd hquote hmark.2⟩
  unfold Documentation.code
  intro token htoken
  simp only [groupCode, List.mem_cons, List.mem_append, List.not_mem_nil, or_false] at htoken
  rcases htoken with (rfl | htoken) | (rfl | rfl | rfl | rfl) | rfl
  · exact hmark (by decide)
  · split at htoken
    · obtain rfl := List.mem_singleton.mp htoken
      exact hmark (by decide)
    · cases htoken
  · trivial
  · exact hdoc
  · exact hmark (by decide)
  · exact hliteral
  · trivial

lemma isLexed_of_layout {code : Code} {cs : List Char} (h : Layout code cs) :
    ∀ token ∈ code, token.IsLexed := by
  induction h with
  | ending => simp
  | blanks same more ih => exact ih
  | @documentation d code cs comment more ih =>
    exact List.forall_mem_append.mpr ⟨isLexed_documentation d, ih⟩
  | token read more ih => exact List.forall_mem_cons.mpr ⟨(next?_eq_some read).1, ih⟩

lemma isGlued_documentation (d : Documentation) : d.code.IsGlued := by
  unfold Documentation.code
  cases d.inner <;> simp [groupCode, Code.isGlued_cons]

/-- What a character was read in front of may follow it. -/
lemma mayFollow_of_next? {mark : Char} {spacing : Spacing} {cs : List Char}
    (h : next? (mark :: cs) = some (.punct mark spacing, cs)) :
    (Token.punct mark spacing).MayFollow cs := by
  unfold next? at h
  split at h
  · cases h
  rename_i c behind heq
  cases heq
  split at h
  · cases h
  split at h
  · cases h
  · cases h
  unfold leaf? at h
  split at h
  · cases h
  split at h
  · rename_i hstarts
    refine ⟨hstarts, ?_⟩
    split at h
    · rename_i heq
      cases heq
      split at h
      · rw [if_pos rfl]
        assumption
      · cases h
    · rename_i hquote heq
      cases heq
      rw [if_neg hquote]
      split at h
      · cases h
        simpa using ‹_›
      · cases h
        exact eq_false_of_ne_true ‹_›
    · cases h
  · split at h
    · cases h
    · obtain ⟨_, -, heq⟩ := Option.map_eq_some_iff.mp h
      cases heq

/-- A text that begins with neither a blank nor a comment is read from its first character on. -/
lemma front_of_head {c : Char} {cs : List Char} (hblank : isBlank c = false)
    (hcomment : ∀ d behind, c = '/' → cs = d :: behind → d ≠ '/' ∧ d ≠ '*') :
    afterBlanks (c :: cs) = c :: cs ∧ documentation? (c :: cs) = none := by
  refine ⟨afterBlanks_of_front hblank ?_, ?_⟩
  · by_contra hsome
    obtain ⟨rest, hrest⟩ := Option.ne_none_iff_exists'.mp hsome
    obtain ⟨d, behind, hd, heq, -⟩ := exists_of_ordinaryComment? hrest
    cases heq
    obtain ⟨hslash, hstar⟩ := hcomment d behind rfl rfl
    exact hd.elim hslash hstar
  · by_contra hsome
    obtain ⟨doc, hdoc⟩ := Option.ne_none_iff_exists'.mp hsome
    obtain ⟨d, behind, hd, heq, -⟩ := exists_of_documentation? hdoc
    cases heq
    obtain ⟨hslash, hstar⟩ := hcomment d behind rfl rfl
    exact hd.elim hslash hstar

lemma isBlank_of_isPunctuation {c : Char} (h : isPunctuation c = true) : isBlank c = false := by
  by_contra hblank
  have hc : isPunctuation c = false :=
    eq_false_of_isBlank (Bool.of_not_eq_false hblank) (by decide)
  rw [h] at hc
  cases hc

/-- Behind the hash of a raw quotation stands no name. -/
lemma wordRest?_of_raw {cs : List Char} (h : Literal.IsLiteral ('r' :: '#' :: cs))
    (rest : List Char) : wordRest? (cs ++ rest) = none := by
  have hopened : Literal.rawOpened .text ('#' :: cs) = some [] := h
  have hquote : (cs.dropWhile (· == '#')).head? = some '"' := by
    by_contra hquote
    rw [rawOpened_eq_none (by rwa [List.dropWhile_cons_of_pos rfl])] at hopened
    cases hopened
  cases cs with
  | nil => cases hquote
  | cons c cs =>
    have hc : isIdentStart c = false := by
      by_cases hhash : c = '#'
      · rw [hhash]
        decide
      · rw [List.dropWhile_cons_of_neg (by simpa using hhash)] at hquote
        cases hquote
        decide
    rw [List.cons_append, wordRest?, hc]
    rfl

/-- Whether a quote is that of a lifetime is told by the literal behind it alone. -/
lemma startsLifetime_of_literal {text rest : List Char} (hliteral : Literal.IsLiteral text)
    (h : startsLifetime (text ++ rest) = true) : startsLifetime text = true := by
  cases hident : identRest? text with
  | some behind =>
    obtain ⟨c, behind, rfl⟩ := Token.exists_of_identRest?_of_isLiteral hliteral hident
    rwa [← Token.startsLifetime_append_of_rest hident rest]
  | none =>
    have hnone : identRest? (text ++ rest) = none := by
      cases text with
      | nil => cases hliteral
      | cons c cs =>
        unfold identRest? at hident
        split at hident
        · rename_i behind heq
          cases heq
          rw [List.cons_append, List.cons_append, identRest?, wordRest?_of_raw hliteral]
          rfl
        · have hstart : isIdentStart c = false := by
            by_contra hstart
            rw [wordRest?, if_pos (Bool.of_not_eq_false hstart)] at hident
            cases hident
          have hc := Token.isIdentStart_of_startsLifetime h
          rw [hstart] at hc
          cases hc
    unfold startsLifetime at h
    rw [hnone] at h
    cases h

lemma startsLifetime_of_append {token : Token} {rest : List Char} (hlexed : token.IsLexed)
    (h : startsLifetime (token.spelling ++ rest) = true) :
    startsLifetime token.spelling = true := by
  cases token with
  | ident name =>
    have hname := Token.startsLifetime_of_name hlexed (show EndsName [] from nofun)
    rwa [List.append_nil] at hname
  | literal text =>
    obtain rfl | hliteral := hlexed
    · cases h
    · exact startsLifetime_of_literal hliteral h
  | punct mark spacing =>
    have hmark := isPunctuation_of_isIdentStart (Token.isIdentStart_of_startsLifetime h)
    rw [hlexed.1] at hmark
    cases hmark
  | opening d =>
    have hstart := Token.isIdentStart_of_startsLifetime h
    cases d <;> cases hstart
  | closing d =>
    have hstart := Token.isIdentStart_of_startsLifetime h
    cases d <;> cases hstart

/-- What a joint character was read in front of goes on with it. -/
lemma continues_of_mayFollow {mark : Char} {code : Code} {cs : List Char} (h : Layout code cs)
    (hfollow : (Token.punct mark .joint).MayFollow cs) : code.Continues mark := by
  obtain ⟨hmark, hbehind⟩ := hfollow
  have hfront : cs ≠ [] ∧ afterBlanks cs = cs ∧ documentation? cs = none := by
    cases cs with
    | nil => split at hbehind <;> cases hbehind
    | cons c cs =>
      refine ⟨List.cons_ne_nil c cs, ?_⟩
      split at hbehind
      · have hstart := Token.isIdentStart_of_startsLifetime hbehind
        refine front_of_head (isBlank_of_isIdentStart hstart) fun d behind hslash => ?_
        exact absurd hslash (ne_of_isIdentStart hstart (by decide))
      · have hstarts : startsPunctuation (c :: cs) = true := by simpa using hbehind
        refine front_of_head (isBlank_of_isPunctuation (isPunctuation_of_startsPunctuation hstarts))
          fun d behind hslash hcs => ?_
        rw [startsPunctuation_cons, hslash, hcs] at hstarts
        simp at hstarts
        exact hstarts.2
  obtain ⟨hne, hfront⟩ := hfront
  obtain ⟨rfl, hnil⟩ | ⟨d, behind, hdoc, rfl⟩ | ⟨token, behind, rest, hnext, rfl⟩ := layout_cases h
  · rw [hfront.1] at hnil
    exact absurd hnil hne
  · rw [hfront.1, hfront.2] at hdoc
    cases hdoc
  · rw [hfront.1] at hnext
    obtain ⟨hlexed, hspelled, rfl⟩ := next?_eq_some hnext
    refine ⟨token, rfl, ?_⟩
    unfold Token.Joins
    split at hbehind
    · rename_i hquote
      rw [if_pos hquote]
      exact startsLifetime_of_append hlexed hbehind
    · rename_i hquote
      rw [if_neg hquote]
      obtain ⟨c, cs, hspelling⟩ := List.exists_cons_of_ne_nil hspelled
      rw [hspelling, List.cons_append] at hbehind hmark
      refine ⟨c, by rw [hspelling]; rfl, isPunctuation_of_startsPunctuation hbehind,
        fun hslash => ?_⟩
      subst hslash
      rw [startsPunctuation_cons] at hmark
      simp at hmark
      exact hmark.2

lemma isGlued_of_layout {code : Code} {cs : List Char} (h : Layout code cs) : code.IsGlued := by
  induction h with
  | ending => exact Code.isGlued_nil
  | blanks same more ih => exact ih
  | documentation comment more ih => exact (isGlued_documentation _).append ih
  | @token token code cs read more ih =>
    refine ⟨?_, ih⟩
    rintro mark rfl
    exact continues_of_mayFollow more (mayFollow_of_next? read)

end Lexer

theorem Listing.isSound_of_ofText {text : String} {listing : Listing}
    (h : ofText text = .ok listing) : listing.code.IsSound := by
  obtain ⟨hlayout, hbalanced⟩ := ofText_iff_layout.mp ⟨listing, h, rfl⟩
  exact ⟨isLexed_of_layout hlayout, isGlued_of_layout hlayout, hbalanced⟩

def Code.IsReadFrom (code : Code) (text : String) : Prop :=
  ∃ listing, Listing.ofText text = .ok listing ∧ listing.code = code

namespace Code

/-- A layout that does not begin with a byte order mark is read as its code. -/
lemma isReadFrom_of_layout {code : Code} {text : String} (h : Layout code text.toList)
    (hbalanced : code.IsBalanced) (hmark : text.toList.head? ≠ some byteOrderMark) :
    code.IsReadFrom text := by
  have htext : withoutMark text.toList = text.toList := by
    unfold withoutMark
    split
    · rename_i c rest hcons
      rw [hcons] at hmark ⊢
      exact if_neg fun hc => hmark (congrArg some hc)
    · rename_i hnil
      exact hnil.symm
  refine Listing.ofText_iff_layout.mpr ⟨?_, hbalanced⟩
  rwa [htext]

theorem IsSound.isReadFrom_text {code : Code} (h : code.IsSound) : code.IsReadFrom code.text := by
  have htext : code.text.toList = spell .boundary code := String.toList_ofList
  have hlayout : Layout (code ++ []) (spell .boundary code ++ []) :=
    layout_spell h.lexed h.glued endsToken_nil .ending
  rw [List.append_nil, List.append_nil] at hlayout
  refine isReadFrom_of_layout (htext ▸ hlayout) h.balanced ?_
  rw [htext]
  cases code with
  | nil => exact nofun
  | cons token code =>
    have htoken := h.lexed token List.mem_cons_self
    have hread := next?_of_mayFollow htoken (mayFollow_spell h.lexed h.glued endsToken_nil)
    have hgap : token.gap .boundary = [] := by cases token <;> rfl
    obtain ⟨c, cs, hspelling⟩ := List.exists_cons_of_ne_nil (Token.spelling_ne_nil htoken)
    rw [spell_cons, hgap, List.nil_append, hspelling]
    rintro ⟨⟩
    rw [hspelling] at hread
    exact absurd hread (by rw [List.cons_append, next?_byteOrderMark]; exact nofun)

end Code

end UnionView
