import UnionView.Proofs.Token.Name

/-!
# Tokens and the characters they are read from

`next?` reads one token of any kind. A token that was read is lexed (`Token.IsLexed`), and a lexed
token is read from its own characters as long as what follows does not change it
(`next?_of_mayFollow`).
-/

namespace UnionView

open Text Lexer

def Token.spelling : Token → List Char
  | .ident name => name.toList
  | .punct mark _ => [mark]
  | .literal text => text.toList
  | .opening d => [d.opener]
  | .closing d => [d.closer]

def Token.IsLexed : Token → Prop
  | .ident name => IsName name.toList
  | .punct mark spacing => isPunctuation mark = true ∧ (mark = '\'' → spacing = .joint)
  | .literal text => text = errorLiteral ∨ Literal.IsLiteral text.toList
  | .opening _ => True
  | .closing _ => True

/-- Whether the characters may stand directly behind the token: with them, it is still read as
what it is. -/
def Token.MayFollow (cs : List Char) : Token → Prop
  | .ident _ => EndsName cs
  | .punct mark spacing => startsPunctuation (mark :: cs) = true ∧
      if mark = '\'' then startsLifetime cs = true
      else startsPunctuation cs = decide (spacing = .joint)
  | .literal _ => Literal.EndsNumber cs
  | .opening d => ¬errorLiteral.toList <+: d.opener :: cs
  | .closing _ => True

/-- A punctuation character that belongs together with what is behind it. -/
def Token.IsJoint : Token → Prop
  | .punct _ .joint => True
  | _ => False

namespace Lexer

/-- The token at the front of a text, of whatever kind, and what is left behind it. -/
def next? : List Char → Option (Token × List Char)
  | [] => none
  | c :: rest =>
    if errorLiteral.toList.isPrefixOf (c :: rest) then
      some (.literal errorLiteral, (c :: rest).drop errorLiteral.length)
    else match Delimiter.ofOpener? c, Delimiter.ofCloser? c with
      | some d, _ => some (.opening d, rest)
      | none, some d => some (.closing d, rest)
      | none, none => leaf? (c :: rest)

/-! ### Tokens that were read -/

lemma startsPunctuation_cons (c : Char) (cs : List Char) :
    startsPunctuation (c :: cs) =
      (isPunctuation c && !(c == '/' && cs.head?.any fun d => d == '/' || d == '*')) := by
  unfold startsPunctuation
  split
  · rename_i heq
    cases heq
    rfl
  · rename_i heq
    cases heq
    rfl
  · rename_i hline hblock heq
    cases heq
    by_cases hslash : c = '/'
    · subst hslash
      cases cs with
      | nil => rfl
      | cons d cs =>
        have hd : d ≠ '/' ∧ d ≠ '*' :=
          ⟨fun hd => hline cs rfl (by rw [hd]), fun hd => hblock cs rfl (by rw [hd])⟩
        simp [hd]
    · simp [hslash]
  · rename_i heq
    cases heq

lemma isPunctuation_of_startsPunctuation {c : Char} {cs : List Char}
    (h : startsPunctuation (c :: cs) = true) : isPunctuation c = true := by
  rw [startsPunctuation_cons, Bool.and_eq_true] at h
  exact h.1

/-- A leaf that was read is lexed, stands at the front of the text and is no empty text. -/
lemma leaf?_eq_some {cs rest : List Char} {token : Token} (h : leaf? cs = some (token, rest)) :
    token.IsLexed ∧ token.spelling ≠ [] ∧ cs = token.spelling ++ rest := by
  unfold leaf? at h
  cases hliteral : Literal.rest? cs with
  | some rest' =>
    rw [hliteral] at h
    cases h
    obtain ⟨text, rfl, htext⟩ := Literal.isLiteral_of_rest? hliteral
    have hspelling :
        (Token.literal (String.ofList (taken (text ++ rest) rest))).spelling = text := by
      rw [taken_append, Token.spelling, String.toList_ofList]
    refine ⟨.inr (by rw [taken_append, String.toList_ofList]; exact htext), ?_, by rw [hspelling]⟩
    rw [hspelling]
    rintro rfl
    cases htext
  | none =>
    rw [hliteral] at h
    simp only at h
    split at h
    · rename_i hmark
      split at h
      · rename_i behind
        split at h
        · cases h
          exact ⟨⟨by decide, fun _ => rfl⟩, by simp [Token.spelling], rfl⟩
        · cases h
      · rename_i c behind hquote
        cases h
        exact ⟨⟨isPunctuation_of_startsPunctuation hmark, fun heq => absurd heq hquote⟩,
          by simp [Token.spelling], rfl⟩
      · cases h
    · split at h
      · cases h
      · obtain ⟨behind, hident, heq⟩ := Option.map_eq_some_iff.mp h
        cases heq
        obtain ⟨name, rfl, hname⟩ := identRest?_eq_some hident
        have hspelling :
            (Token.ident (String.ofList (taken (name ++ rest) rest))).spelling = name := by
          rw [taken_append, Token.spelling, String.toList_ofList]
        refine ⟨?_, ?_, by rw [hspelling]⟩
        · rw [Token.IsLexed, taken_append, String.toList_ofList]
          exact hname
        · rw [hspelling]
          obtain ⟨c, cs, rfl, -⟩ := hname.exists_head
          exact List.cons_ne_nil _ _

lemma ofOpener?_eq_some {c : Char} {d : Delimiter} (h : Delimiter.ofOpener? c = some d) :
    c = d.opener := by
  unfold Delimiter.ofOpener? at h
  split at h <;> cases h <;> rfl

lemma ofCloser?_eq_some {c : Char} {d : Delimiter} (h : Delimiter.ofCloser? c = some d) :
    c = d.closer := by
  unfold Delimiter.ofCloser? at h
  split at h <;> cases h <;> rfl

/-- A token that was read is lexed, stands at the front of the text and is no empty text. -/
lemma next?_eq_some {cs rest : List Char} {token : Token} (h : next? cs = some (token, rest)) :
    token.IsLexed ∧ token.spelling ≠ [] ∧ cs = token.spelling ++ rest := by
  unfold next? at h
  split at h
  · cases h
  rename_i c behind
  split at h
  · rename_i hprefix
    cases h
    obtain ⟨rest, hrest⟩ := List.isPrefixOf_iff_prefix.mp hprefix
    refine ⟨.inl rfl, by decide, ?_⟩
    rw [← hrest]
    rfl
  split at h
  · rename_i d hopener
    cases h
    refine ⟨trivial, by simp [Token.spelling], ?_⟩
    rw [ofOpener?_eq_some hopener]
    rfl
  · rename_i hcloser
    cases h
    refine ⟨trivial, by simp [Token.spelling], ?_⟩
    rw [ofCloser?_eq_some hcloser]
    rfl
  · exact leaf?_eq_some h

/-! ### Reading a token from its own characters -/

lemma next?_of_not_bracket {c : Char} (hopen : Delimiter.ofOpener? c = none)
    (hclose : Delimiter.ofCloser? c = none) (cs : List Char) :
    next? (c :: cs) = leaf? (c :: cs) := by
  have hround : c ≠ '(' := by
    rintro rfl
    cases hopen
  have herror : errorLiteral.toList.isPrefixOf (c :: cs) = false := by
    simp [errorLiteral, List.isPrefixOf, hround.symm]
  simp only [next?, herror, hopen, hclose, Bool.false_eq_true, if_false]

lemma not_bracket_of_isIdentStart {c : Char} (hc : isIdentStart c = true) :
    Delimiter.ofOpener? c = none ∧ Delimiter.ofCloser? c = none := by
  unfold Delimiter.ofOpener? Delimiter.ofCloser?
  constructor <;> split <;> first | rfl | cases hc

lemma next?_of_name {name tail : List Char} (hname : IsName name) (ends : EndsName tail) :
    next? (name ++ tail) = some (.ident (String.ofList name), tail) := by
  have hleaf := leaf?_of_name hname ends
  obtain ⟨c, rest, rfl, hc⟩ := hname.exists_head
  obtain ⟨hopen, hclose⟩ := not_bracket_of_isIdentStart hc
  rw [← hleaf]
  exact next?_of_not_bracket hopen hclose _

lemma next?_of_literal {text tail : List Char} (htext : Literal.IsLiteral text)
    (ends : Literal.EndsNumber tail) :
    next? (text ++ tail) = some (.literal (String.ofList text), tail) := by
  have hleaf : leaf? (text ++ tail) = some (.literal (String.ofList text), tail) := by
    unfold leaf?
    rw [htext.rest?_append ends]
    simp only [taken_append]
  have hbracket : ∃ c cs, text = c :: cs ∧ Delimiter.ofOpener? c = none ∧
      Delimiter.ofCloser? c = none := by
    cases text with
    | nil => cases htext
    | cons c cs =>
      refine ⟨c, cs, rfl, ?_⟩
      unfold Delimiter.ofOpener? Delimiter.ofCloser?
      constructor <;> split <;> first | rfl | cases htext
  obtain ⟨c, cs, rfl, hopen, hclose⟩ := hbracket
  rw [← hleaf]
  exact next?_of_not_bracket hopen hclose _

lemma next?_of_errorLiteral (tail : List Char) :
    next? (errorLiteral.toList ++ tail) = some (.literal errorLiteral, tail) := by
  rfl

/-- The quote of a lifetime is not taken for the beginning of a literal. -/
lemma rest?_of_startsLifetime {cs : List Char} (h : startsLifetime cs = true) :
    Literal.rest? ('\'' :: cs) = none := by
  show Literal.singleOpened .text cs = none
  rw [Literal.singleOpened_eq]
  split
  · -- the second quote would be read as the one that ends the value
    rename_i behind hvalue
    unfold Literal.valueRest at hvalue
    split at hvalue
    · cases h
    · rename_i c cs _
      cases hvalue
      have hident : identRest? (c :: '\'' :: behind) =
          if isIdentStart c then some ('\'' :: behind) else none := by
        unfold identRest?
        split
        · rename_i heq
          cases heq
        · rfl
      unfold startsLifetime at h
      by_cases hc : isIdentStart c = true
      · rw [hident, if_pos hc] at h
        cases h
      · rw [hident, if_neg hc] at h
        cases h
    · cases hvalue
  · rfl

lemma rest?_of_isPunctuation {mark : Char} (hmark : isPunctuation mark = true)
    (hquote : mark ≠ '\'') (cs : List Char) : Literal.rest? (mark :: cs) = none := by
  have hdigit : isDigit mark = false := by
    have hnone : ['~', '!', '@', '#', '$', '%', '^', '&', '*', '-', '=', '+', '|', ';', ':', ',',
        '<', '.', '>', '/', '?', '\''].all (fun d => !isDigit d) = true := by
      decide
    simpa using List.all_eq_true.mp hnone mark (List.contains_iff_mem.mp hmark)
  unfold Literal.rest?
  split <;>
    first
    | (rename_i heq; cases heq; first | exact absurd rfl hquote | cases hmark)
    | exact Literal.numberRest_eq_none hdigit cs

lemma not_bracket_of_isPunctuation {c : Char} (hc : isPunctuation c = true) :
    Delimiter.ofOpener? c = none ∧ Delimiter.ofCloser? c = none := by
  unfold Delimiter.ofOpener? Delimiter.ofCloser?
  constructor <;> split <;> first | rfl | cases hc

lemma next?_of_mark {mark : Char} {spacing : Spacing} {tail : List Char}
    (hlexed : (Token.punct mark spacing).IsLexed)
    (hfollow : (Token.punct mark spacing).MayFollow tail) :
    next? (mark :: tail) = some (.punct mark spacing, tail) := by
  obtain ⟨hmark, hspacing⟩ := hlexed
  obtain ⟨hstarts, hbehind⟩ := hfollow
  obtain ⟨hopen, hclose⟩ := not_bracket_of_isPunctuation hmark
  rw [next?_of_not_bracket hopen hclose]
  unfold leaf?
  split at hbehind
  · rename_i hquote
    obtain rfl := hspacing hquote
    subst hquote
    rw [rest?_of_startsLifetime hbehind]
    simp only [hstarts, hbehind, if_true]
  · rename_i hquote
    rw [rest?_of_isPunctuation hmark hquote]
    simp only [hstarts, if_true, hbehind]
    cases spacing <;> rfl

/-- A lexed token is read from its characters, if what follows may follow it. -/
lemma next?_of_mayFollow {token : Token} {tail : List Char} (hlexed : token.IsLexed)
    (hfollow : token.MayFollow tail) :
    next? (token.spelling ++ tail) = some (token, tail) := by
  cases token with
  | ident name => simpa [Token.spelling] using next?_of_name hlexed hfollow
  | punct mark spacing => exact next?_of_mark hlexed hfollow
  | literal text =>
    obtain rfl | htext := hlexed
    · exact next?_of_errorLiteral tail
    · simpa [Token.spelling] using next?_of_literal htext hfollow
  | opening d =>
    have herror : ¬errorLiteral.toList.isPrefixOf (d.opener :: tail) = true := fun h =>
      hfollow (List.isPrefixOf_iff_prefix.mp h)
    show next? (d.opener :: tail) = _
    unfold next?
    simp only [if_neg herror, Delimiter.ofOpener?_opener]
  | closing d => cases d <;> rfl

/-- Nothing follows that any token would go on with: no letter or digit, no punctuation and no
double quote. -/
def EndsToken (cs : List Char) : Prop :=
  ∀ c ∈ cs.head?, isIdentContinue c = false ∧ isPunctuation c = false ∧ c ≠ '"'

lemma endsToken_nil : EndsToken [] := nofun

lemma endsToken_of_isBlank {c : Char} (hc : isBlank c = true) (cs : List Char) :
    EndsToken (c :: cs) := by
  rintro d ⟨⟩
  refine ⟨eq_false_of_isBlank hc (by decide +kernel), eq_false_of_isBlank hc (by decide), ?_⟩
  rintro rfl
  cases hc

lemma EndsToken.ne {c d : Char} {cs : List Char} (h : EndsToken (c :: cs))
    (hd : isPunctuation d = true) : c ≠ d := by
  rintro rfl
  rw [(h c rfl).2.1] at hd
  cases hd

lemma EndsToken.endsName {cs : List Char} (h : EndsToken cs) : EndsName cs := by
  intro c hc
  obtain ⟨cs, rfl⟩ := List.head?_eq_some_iff.mp hc
  have hsingle : c ≠ '\'' := h.ne (by decide)
  have hhash : c ≠ '#' := h.ne (by decide)
  exact ⟨(h c rfl).1, by simp [isQuoteMark, (h c rfl).2.2, hsingle, hhash]⟩

lemma EndsToken.endsNumber {cs : List Char} (h : EndsToken cs) : Literal.EndsNumber cs := by
  intro c hc
  obtain ⟨cs, rfl⟩ := List.head?_eq_some_iff.mp hc
  exact ⟨(h c rfl).1, h.ne (by decide), h.ne (by decide), h.ne (by decide)⟩

/-- What ends every token may follow every token that does not belong together with what is behind
it. -/
lemma mayFollow_of_endsToken {token : Token} {cs : List Char} (hlexed : token.IsLexed)
    (hjoint : ¬token.IsJoint) (ends : EndsToken cs) : token.MayFollow cs := by
  cases token with
  | ident name => exact ends.endsName
  | punct mark spacing =>
    cases spacing with
    | joint => exact absurd trivial hjoint
    | alone =>
      have hquote : mark ≠ '\'' := fun hquote => by cases hlexed.2 hquote
      rw [Token.MayFollow, startsPunctuation_cons, if_neg hquote, hlexed.1]
      cases cs with
      | nil => simp [startsPunctuation]
      | cons c cs =>
        have hslash : c ≠ '/' := ends.ne (by decide)
        have hstar : c ≠ '*' := ends.ne (by decide)
        rw [startsPunctuation_cons, (ends c rfl).2.1]
        simp [hslash, hstar]
  | literal text => exact ends.endsNumber
  | opening d =>
    intro hprefix
    have hbehind := (List.cons_prefix_cons.mp hprefix).2
    cases cs with
    | nil => simp at hbehind
    | cons c cs =>
      have hslash : c ≠ '/' := ends.ne (by decide)
      exact hslash (List.cons_prefix_cons.mp hbehind).1.symm
  | closing d => trivial

end Lexer

end UnionView
