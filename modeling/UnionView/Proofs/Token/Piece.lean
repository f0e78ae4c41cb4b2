import UnionView.Proofs.Token.Printing

/-!
# Pieces of code

Sound code is put together from sound parts: words, operators, groups and code that was read. A
part that was read may end with a joint character whose other half was left behind; as a *piece*
(`Code.IsPiece`) it can stand in front of a comma and of every other mark that is no slash or star.
-/

namespace UnionView

open Text Lexer

namespace Code

/-! ### The ends of code -/

/-- No quote without its name stands at the end. -/
def IsUnquoted (code : Code) : Prop :=
  .punct '\'' .joint ∉ code.getLast?

/-- Nothing at the end belongs together with what is behind it. -/
def IsClosed (code : Code) : Prop :=
  ∀ token ∈ code.getLast?, ¬token.IsJoint

/-- The code is not empty, and nothing at its end belongs together with what is behind it. -/
def Ends (code : Code) : Prop :=
  ∃ token ∈ code.getLast?, ¬token.IsJoint

@[simp] lemma isUnquoted_nil : IsUnquoted [] := nofun

@[simp] lemma isClosed_nil : IsClosed [] := nofun

lemma mem_getLast?_append {token : Token} {a b : Code} (h : token ∈ (a ++ b).getLast?) :
    token ∈ b.getLast? ∨ token ∈ a.getLast? := by
  rw [List.getLast?_append, Option.mem_def, Option.or_eq_some_iff] at h
  exact h.imp id And.right

lemma IsUnquoted.append {a b : Code} (ha : a.IsUnquoted) (hb : b.IsUnquoted) :
    IsUnquoted (a ++ b) :=
  fun h => (mem_getLast?_append h).elim hb ha

lemma IsClosed.isUnquoted {code : Code} (h : code.IsClosed) : code.IsUnquoted :=
  fun hquote => h _ hquote trivial

lemma IsClosed.append {a b : Code} (ha : a.IsClosed) (hb : b.IsClosed) : IsClosed (a ++ b) :=
  fun token h => (mem_getLast?_append h).elim (hb token) (ha token)

lemma Ends.isClosed {code : Code} (h : code.Ends) : code.IsClosed := by
  intro token htoken
  obtain ⟨last, hlast, hjoint⟩ := h
  rwa [Option.mem_unique htoken hlast]

lemma Ends.append (a : Code) {b : Code} (hb : b.Ends) : Ends (a ++ b) := by
  obtain ⟨last, hlast, hjoint⟩ := hb
  exact ⟨last, by rw [List.getLast?_append, hlast]; rfl, hjoint⟩

lemma Ends.append_of_isClosed {a b : Code} (ha : a.Ends) (hb : b.IsClosed) : Ends (a ++ b) := by
  cases hlast : b.getLast? with
  | none =>
    rw [List.getLast?_eq_none_iff.mp hlast, List.append_nil]
    exact ha
  | some token => exact Ends.append a ⟨token, hlast, hb token hlast⟩

lemma ends_single {token : Token} (h : ¬token.IsJoint) : Ends [token] :=
  ⟨token, rfl, h⟩

lemma ends_group (d : Delimiter) (inner : Code) : (groupCode d inner).Ends :=
  Ends.append (.opening d :: inner) (ends_single not_false)

/-- Code that is closed is glued whatever was behind it. -/
lemma IsClosed.isGlued {a b : Code} (ha : a.IsClosed) (h : IsGlued (a ++ b)) : IsGlued a := by
  rw [← List.append_nil a]
  exact h.append_of isGlued_nil fun mark hlast => absurd trivial (ha _ hlast)

/-- In front of a bracket, and at the end, no joint character stands. -/
lemma not_continues_bracket (mark : Char) (d : Delimiter) (code : Code) :
    ¬Continues mark (.opening d :: code) ∧ ¬Continues mark (.closing d :: code) := by
  constructor
  · rintro ⟨_, ⟨⟩, hjoins⟩
    exact (Token.not_joins_bracket mark d).1 hjoins
  · rintro ⟨_, ⟨⟩, hjoins⟩
    exact (Token.not_joins_bracket mark d).2 hjoins

/-- No joint character goes on with a number. -/
lemma not_continues_number {text : String} (h : Literal.isNumber text = true) (mark : Char)
    (code : Code) : ¬Continues mark (.literal text :: code) := by
  rintro ⟨_, ⟨⟩, hjoins⟩
  rw [Token.Joins, Token.spelling] at hjoins
  unfold Literal.isNumber at h
  cases htext : text.toList with
  | nil =>
    rw [htext] at h
    cases h
  | cons c cs =>
    rw [htext] at h hjoins
    have hdigit : isDigit c = true := h
    split at hjoins
    · unfold startsLifetime at hjoins
      cases hident : identRest? (c :: cs) with
      | none =>
        rw [hident] at hjoins
        cases hjoins
      | some rest =>
        obtain ⟨name, hname, hhead⟩ := identRest?_eq_some hident
        obtain ⟨_, _, rfl, hstart⟩ := hhead.exists_head
        obtain ⟨rfl, -⟩ := List.cons.inj hname
        rw [isDigit_of_isIdentStart hstart] at hdigit
        cases hdigit
    · obtain ⟨_, ⟨⟩, hmark, -⟩ := hjoins
      rw [isPunctuation_of_isDigit hdigit] at hmark
      cases hmark

lemma not_continues_nil (mark : Char) : ¬Continues mark [] := by
  rintro ⟨_, ⟨⟩, -⟩

/-- Code is closed in front of what no joint character goes on with. -/
lemma IsGlued.isClosed {a b : Code} (h : IsGlued (a ++ b)) (hb : ∀ mark, ¬Continues mark b) :
    a.IsClosed := by
  rintro token htoken hjoint
  obtain ⟨a, rfl⟩ := List.getLast?_eq_some_iff.mp htoken
  rw [List.append_assoc] at h
  cases token with
  | punct mark spacing =>
    cases spacing with
    | joint => exact hb mark (h.of_append.1 mark rfl)
    | alone => exact hjoint
  | _ => exact hjoint

/-- Only a quote in front of a word is joint. -/
lemma IsGlued.isClosed_of_word {a b : Code} {name : String} (hname : IsName name.toList)
    (ha : a.IsUnquoted) (h : IsGlued (a ++ .ident name :: b)) : a.IsClosed := by
  rintro token htoken hjoint
  obtain ⟨code, rfl⟩ := List.getLast?_eq_some_iff.mp htoken
  rw [List.append_assoc] at h
  cases token with
  | punct mark spacing =>
    cases spacing with
    | joint =>
      obtain ⟨_, ⟨⟩, hjoins⟩ := h.of_append.1 mark rfl
      unfold Token.Joins at hjoins
      split at hjoins
      · rename_i hquote
        exact ha (hquote ▸ htoken)
      · obtain ⟨c, hc, hmark, -⟩ := hjoins
        obtain ⟨d, cs, hspelled, hd⟩ := hname.exists_head
        rw [Token.spelling, hspelled] at hc
        cases hc
        rw [isPunctuation_of_isIdentStart hd] at hmark
        cases hmark
    | alone => exact hjoint
  | _ => exact hjoint

/-! ### Marks -/

/-- Whether a mark goes on with a joint character whatever it is, a quote apart: together they begin
no comment. -/
def isPlainMark (c : Char) : Bool :=
  isPunctuation c && c != '\'' && c != '/' && c != '*'

lemma continues_mark {mark c : Char} (hquote : mark ≠ '\'') (hc : isPlainMark c = true)
    (spacing : Spacing) (code : Code) : Continues mark (.punct c spacing :: code) := by
  simp only [isPlainMark, Bool.and_eq_true, bne_iff_ne] at hc
  obtain ⟨⟨⟨hc, -⟩, hslash⟩, hstar⟩ := hc
  refine ⟨_, rfl, ?_⟩
  rw [Token.Joins, if_neg hquote]
  exact ⟨c, rfl, hc, fun _ => ⟨hslash, hstar⟩⟩

/-- Whether code goes on with a joint character is told by the first character of its first
token. -/
lemma Continues.of_mark {mark c : Char} {spacing : Spacing} {code : Code}
    (h : Continues mark (.punct c spacing :: code)) (spacing' : Spacing) (code' : Code) :
    Continues mark (.punct c spacing' :: code') := by
  obtain ⟨_, ⟨⟩, hjoins⟩ := h
  exact ⟨_, rfl, hjoins⟩

lemma isLexed_mark {c : Char} (hc : isPlainMark c = true) (spacing : Spacing) :
    (Token.punct c spacing).IsLexed := by
  simp only [isPlainMark, Bool.and_eq_true, bne_iff_ne] at hc
  exact ⟨hc.1.1.1, fun hquote => absurd hquote hc.1.1.2⟩

lemma ends_operator {marks : List Char} (hne : marks ≠ []) : (operatorCode marks).Ends := by
  induction marks with
  | nil => exact absurd rfl hne
  | cons c marks ih =>
    cases marks with
    | nil => exact ends_single not_false
    | cons d marks => exact Ends.append [.punct c .joint] (ih (List.cons_ne_nil d marks))

lemma isBalanced_operator (marks : List Char) : (operatorCode marks).IsBalanced := by
  induction marks with
  | nil => rfl
  | cons c marks ih =>
    cases marks with
    | nil => rfl
    | cons d marks => exact IsBalanced.append (a := [.punct c .joint]) rfl ih

/-! ### Sound code -/

lemma isSound_nil : IsSound [] :=
  ⟨nofun, isGlued_nil, isBalanced_nil⟩

lemma IsSound.isClosed {code : Code} (h : code.IsSound) : code.IsClosed := by
  have hglued := h.glued
  rw [← List.append_nil code] at hglued
  exact hglued.isClosed not_continues_nil

lemma IsSound.append {a b : Code} (ha : a.IsSound) (hb : b.IsSound) : IsSound (a ++ b) where
  lexed := List.forall_mem_append.mpr ⟨ha.lexed, hb.lexed⟩
  glued := ha.glued.append hb.glued
  balanced := ha.balanced.append hb.balanced

lemma IsSound.group {code : Code} (h : code.IsSound) (d : Delimiter) :
    (groupCode d code).IsSound where
  lexed := by
    refine List.forall_mem_cons.mpr ⟨trivial, List.forall_mem_append.mpr ⟨h.lexed, ?_⟩⟩
    exact List.forall_mem_singleton.mpr trivial
  glued := ⟨nofun, h.glued.append ⟨nofun, isGlued_nil⟩⟩
  balanced := h.balanced.group d

lemma isSound_word {name : String} (h : IsName name.toList) : IsSound [.ident name] :=
  ⟨List.forall_mem_singleton.mpr h, ⟨nofun, isGlued_nil⟩, rfl⟩

lemma isSound_literal {text : String} (h : Literal.IsLiteral text.toList) :
    IsSound [.literal text] :=
  ⟨List.forall_mem_singleton.mpr (.inr h), ⟨nofun, isGlued_nil⟩, rfl⟩

lemma isLexed_operator {marks : List Char} (h : marks.all isPlainMark = true) :
    ∀ token ∈ operatorCode marks, token.IsLexed := by
  induction marks with
  | nil => exact nofun
  | cons c marks ih =>
    obtain ⟨hc, hmarks⟩ := Bool.and_eq_true_iff.mp h
    cases marks with
    | nil => exact List.forall_mem_singleton.mpr (isLexed_mark hc .alone)
    | cons d marks => exact List.forall_mem_cons.mpr ⟨isLexed_mark hc .joint, ih hmarks⟩

lemma continues_operator {mark c : Char} (hquote : mark ≠ '\'') (hc : isPlainMark c = true)
    (marks : List Char) (code : Code) : Continues mark (operatorCode (c :: marks) ++ code) := by
  cases marks with
  | nil => exact continues_mark hquote hc .alone code
  | cons d marks => exact continues_mark hquote hc .joint _

lemma isGlued_operator {marks : List Char} (h : marks.all isPlainMark = true) :
    (operatorCode marks).IsGlued := by
  induction marks with
  | nil => exact isGlued_nil
  | cons c marks ih =>
    obtain ⟨hc, hmarks⟩ := Bool.and_eq_true_iff.mp h
    cases marks with
    | nil => exact ⟨nofun, isGlued_nil⟩
    | cons d marks =>
      refine ⟨?_, ih hmarks⟩
      rintro mark ⟨⟩
      have hquote : c ≠ '\'' := by
        rintro rfl
        cases hc
      have hcontinues := continues_operator hquote (Bool.and_eq_true_iff.mp hmarks).1 marks []
      rwa [List.append_nil] at hcontinues

lemma isSound_operator {marks : List Char} (h : marks.all isPlainMark = true) :
    (operatorCode marks).IsSound :=
  ⟨isLexed_operator h, isGlued_operator h, isBalanced_operator marks⟩

/-! ### Pieces -/

/-- Code that was cut off behind some of its tokens, if it can stand in front of a comma. -/
structure IsPiece (code : Code) : Prop where
  lexed : ∀ token ∈ code, token.IsLexed
  glued : IsGlued (code ++ operatorCode [','])
  balanced : code.IsBalanced
  unquoted : code.IsUnquoted

lemma IsSound.isPiece {code : Code} (h : code.IsSound) : code.IsPiece :=
  ⟨h.lexed, h.glued.append (isGlued_operator (by decide)), h.balanced, h.isClosed.isUnquoted⟩

/-- A quote apart, what stood behind some code can be replaced by an operator. -/
lemma IsGlued.append_operator {code behind : Code} (h : IsGlued (code ++ behind))
    (hquote : code.IsUnquoted) {marks : List Char} (hne : marks ≠ [])
    (hmarks : marks.all isPlainMark = true) : IsGlued (code ++ operatorCode marks) := by
  refine h.append_of (isGlued_operator hmarks) fun mark hlast _ => ?_
  obtain ⟨c, marks, rfl⟩ := List.exists_cons_of_ne_nil hne
  have hmark : mark ≠ '\'' := by
    rintro rfl
    exact hquote hlast
  have hcontinues := continues_operator hmark (Bool.and_eq_true_iff.mp hmarks).1 marks []
  rwa [List.append_nil] at hcontinues

namespace IsPiece

variable {code : Code}

lemma isSound (h : code.IsPiece) (hclosed : code.IsClosed) : code.IsSound :=
  ⟨h.lexed, hclosed.isGlued h.glued, h.balanced⟩

lemma append_operator (h : code.IsPiece) {marks : List Char} (hne : marks ≠ [])
    (hmarks : marks.all isPlainMark = true) : IsSound (code ++ operatorCode marks) where
  lexed := List.forall_mem_append.mpr ⟨h.lexed, isLexed_operator hmarks⟩
  glued := h.glued.append_operator h.unquoted hne hmarks
  balanced := h.balanced.append (isBalanced_operator marks)

end IsPiece

lemma IsSound.append_piece {a b : Code} (ha : a.IsSound) (hb : b.IsPiece) : IsPiece (a ++ b) where
  lexed := List.forall_mem_append.mpr ⟨ha.lexed, hb.lexed⟩
  glued := by
    rw [List.append_assoc]
    exact ha.glued.append hb.glued
  balanced := ha.balanced.append hb.balanced
  unquoted := ha.isClosed.isUnquoted.append hb.unquoted

end Code

end UnionView
