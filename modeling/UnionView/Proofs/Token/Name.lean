import UnionView.Proofs.Token.Literal
import UnionView.Token.Lexer

/-!
# Names as they are read

What is read as an identifier has the characters of a name (`IsName`), and a name is read as the
identifier that it is wherever nothing follows that it would go on with (`leaf?_of_name`).
-/

namespace UnionView.Lexer

open Text

/-! ### Names -/

/-- The characters of a word: one that starts identifiers, and some that go on with one. -/
def IsWord (cs : List Char) : Prop :=
  ∃ c rest, cs = c :: rest ∧ isIdentStart c = true ∧ ∀ d ∈ rest, isIdentContinue d = true

instance (cs : List Char) : Decidable (IsWord cs) :=
  match cs with
  | [] => isFalse nofun
  | c :: rest => decidable_of_iff (isIdentStart c = true ∧ rest.all isIdentContinue = true)
      ⟨fun ⟨hc, hrest⟩ => ⟨c, rest, rfl, hc, List.all_eq_true.mp hrest⟩,
        fun ⟨_, _, h, hc, hrest⟩ => by cases h; exact ⟨hc, List.all_eq_true.mpr hrest⟩⟩

/-- The characters of an identifier: a word, or the mark of a raw identifier and a word that may
stand behind it. -/
inductive IsName : List Char → Prop
  | plain {cs : List Char} (word : IsWord cs) : IsName cs
  | raw {cs : List Char} (word : IsWord cs) (rawable : String.ofList cs ∉ unrawable) :
      IsName ('r' :: '#' :: cs)

lemma IsName.exists_head {name : List Char} (h : IsName name) :
    ∃ c rest, name = c :: rest ∧ isIdentStart c = true := by
  cases h with
  | plain word =>
    obtain ⟨c, rest, rfl, hc, -⟩ := word
    exact ⟨c, rest, rfl, hc⟩
  | raw word rawable => exact ⟨'r', _, rfl, by decide⟩

lemma taken_append (cs rest : List Char) : taken (cs ++ rest) rest = cs := by
  simp [taken]

lemma wordRest?_eq_some {cs rest : List Char} (h : wordRest? cs = some rest) :
    ∃ word, cs = word ++ rest ∧ IsWord word := by
  cases cs with
  | nil => cases h
  | cons c cs =>
    rw [wordRest?] at h
    by_cases hc : isIdentStart c = true
    · rw [if_pos hc] at h
      obtain rfl := Option.some.inj h
      refine ⟨c :: cs.takeWhile isIdentContinue, ?_, c, _, rfl, hc, fun d => ?_⟩
      · rw [List.cons_append, Literal.identTail, List.takeWhile_append_dropWhile]
      · exact List.all_eq_true.mp List.all_takeWhile d
    · rw [if_neg hc] at h
      cases h

lemma identRest?_eq_some {cs rest : List Char} (h : identRest? cs = some rest) :
    ∃ name, cs = name ++ rest ∧ IsName name := by
  unfold identRest? at h
  split at h
  · rename_i cs
    obtain ⟨hword, hraw⟩ := Option.filter_eq_some_iff.mp h
    obtain ⟨word, rfl, hword'⟩ := wordRest?_eq_some hword
    rw [taken_append] at hraw
    refine ⟨'r' :: '#' :: word, rfl, .raw hword' fun hmem => ?_⟩
    simp [hmem] at hraw
  · obtain ⟨word, rfl, hword⟩ := wordRest?_eq_some h
    exact ⟨word, rfl, .plain hword⟩

/-! ### What stands behind a name -/

/-- A character that opens a quotation or a raw one. -/
def isQuoteMark (c : Char) : Bool :=
  c = '"' || c = '\'' || c = '#'

/-- Nothing follows that a name would go on with, or that would make a literal of it. -/
def EndsName (cs : List Char) : Prop :=
  ∀ c ∈ cs.head?, isIdentContinue c = false ∧ isQuoteMark c = false

lemma EndsName.endsWord {cs : List Char} (h : EndsName cs) : Literal.EndsWord cs :=
  fun c hc => (h c hc).1

/-- Whether such a character follows, directly or behind an `r`. The character in front may then
begin a literal. -/
def opensLiteral : List Char → Bool
  | [] => false
  | c :: rest => isQuoteMark c || (c == 'r' && rest.head?.any isQuoteMark)

lemma isQuoteMark_of_isIdentContinue {c : Char} (h : isIdentContinue c = true) :
    isQuoteMark c = false := by
  have hquote : c ≠ '"' := ne_of_isIdentContinue h (by decide)
  have hsingle : c ≠ '\'' := ne_of_isIdentContinue h (by decide)
  have hhash : c ≠ '#' := ne_of_isIdentContinue h (by decide)
  simp [isQuoteMark, hquote, hsingle, hhash]

lemma isQuoteMark_of_head?_append {word tail : List Char}
    (hword : ∀ c ∈ word, isIdentContinue c = true) (ends : EndsName tail) :
    (word ++ tail).head?.any isQuoteMark = false := by
  cases word with
  | nil =>
    cases tail with
    | nil => rfl
    | cons c tail => exact (ends c rfl).2
  | cons d word => exact isQuoteMark_of_isIdentContinue (hword d List.mem_cons_self)

/-- Behind the first character of a word no literal begins. -/
lemma opensLiteral_word_append {word tail : List Char}
    (hword : ∀ c ∈ word, isIdentContinue c = true) (ends : EndsName tail) :
    opensLiteral (word ++ tail) = false := by
  cases word with
  | nil =>
    cases tail with
    | nil => rfl
    | cons c tail =>
      have hr : c ≠ 'r' := ends.endsWord.ne (by decide)
      simp [opensLiteral, (ends c rfl).2, hr]
  | cons d word =>
    have hd := isQuoteMark_of_isIdentContinue (hword d List.mem_cons_self)
    have hhead := isQuoteMark_of_head?_append
      (fun c hc => hword c (List.mem_cons_of_mem _ hc)) ends
    rw [List.cons_append, opensLiteral, hd, hhead, Bool.and_false, Bool.or_false]

lemma opensLiteral_append {cs : List Char} (h : opensLiteral cs = true) (rest : List Char) :
    opensLiteral (cs ++ rest) = true := by
  cases cs with
  | nil => cases h
  | cons c cs =>
    rw [opensLiteral] at h
    rw [List.cons_append, opensLiteral]
    cases cs with
    | nil =>
      rw [List.head?_nil, Option.any_none, Bool.and_false, Bool.or_false] at h
      rw [h, Bool.true_or]
    | cons d cs => exact h

/-- A raw quotation has a quote behind its hashes. -/
lemma rawOpened_eq_none {kind : Literal.Kind} {cs : List Char}
    (h : (cs.dropWhile (· == '#')).head? ≠ some '"') : Literal.rawOpened kind cs = none := by
  have hdrop : cs.drop (cs.takeWhile (· == '#')).length = cs.dropWhile (· == '#') := by
    have hsplit := List.takeWhile_append_dropWhile (p := (· == '#')) (l := cs)
    generalize cs.takeWhile (· == '#') = hashes at hsplit ⊢
    generalize cs.dropWhile (· == '#') = rest at hsplit ⊢
    rw [← hsplit, List.drop_left]
  unfold Literal.rawOpened
  simp only [hdrop]
  split
  · rename_i heq
    rw [heq] at h
    exact absurd rfl h
  · rfl

lemma rawOpened_of_head? {kind : Literal.Kind} {cs : List Char}
    (h : cs.head?.any isQuoteMark = false) : Literal.rawOpened kind cs = none := by
  apply rawOpened_eq_none
  cases cs with
  | nil => simp
  | cons c cs =>
    have hc : isQuoteMark c = false := h
    have hhash : (c == '#') = false := by
      by_contra hhash
      obtain rfl := beq_iff_eq.mp (Bool.of_not_eq_false hhash)
      cases hc
    rw [List.dropWhile_cons_of_neg (by simp [hhash])]
    rintro ⟨⟩
    cases hc

/-- No literal stands where an identifier begins and no quotation is opened behind it. -/
lemma literal_rest?_eq_none {c : Char} {cs : List Char} (hc : isIdentStart c = true)
    (h : opensLiteral cs = false) : Literal.rest? (c :: cs) = none := by
  have hhead : cs.head?.any isQuoteMark = false := by
    cases cs with
    | nil => rfl
    | cons d cs => exact (Bool.or_eq_false_iff.mp h).1
  have hbehind : ∀ ds, cs = 'r' :: ds → ds.head?.any isQuoteMark = false := by
    rintro ds rfl
    exact h
  unfold Literal.rest?
  split
  · rename_i heq
    exact absurd (List.cons.inj heq).1 (ne_of_isIdentStart hc (by decide))
  · rename_i heq
    exact absurd (List.cons.inj heq).1 (ne_of_isIdentStart hc (by decide))
  · rename_i heq
    cases heq
    exact rawOpened_of_head? hhead
  · rename_i heq
    cases heq
    cases hhead
  · rename_i heq
    cases heq
    exact rawOpened_of_head? (hbehind _ rfl)
  · rename_i heq
    cases heq
    cases hhead
  · rename_i heq
    cases heq
    cases hhead
  · rename_i heq
    cases heq
    exact rawOpened_of_head? (hbehind _ rfl)
  · exact Literal.numberRest_eq_none (isDigit_of_isIdentStart hc) cs

/-- Every beginning of a literal opens a quotation. -/
lemma literalStarts_eq_false {c : Char} {cs : List Char} (h : opensLiteral cs = false) :
    (literalStarts.any fun start => start.toList.isPrefixOf (c :: cs)) = false := by
  have hopens : ∀ start ∈ literalStarts, opensLiteral start.toList.tail = true := by
    decide
  by_contra hany
  obtain ⟨start, hmem, hprefix⟩ := List.any_eq_true.mp (Bool.of_not_eq_false hany)
  obtain ⟨rest, hrest⟩ := List.isPrefixOf_iff_prefix.mp hprefix
  have hstart := hopens start hmem
  generalize start.toList = ds at hstart hrest
  cases ds with
  | nil => cases hstart
  | cons d ds =>
    obtain ⟨-, rfl⟩ := List.cons.inj hrest
    have happend := opensLiteral_append hstart rest
    rw [List.tail_cons] at happend
    exact absurd happend (by simpa using h)

/-! ### Reading a name -/

lemma wordRest?_append {word tail : List Char} (hword : IsWord word)
    (ends : Literal.EndsWord tail) : wordRest? (word ++ tail) = some tail := by
  obtain ⟨c, cs, rfl, hc, hcs⟩ := hword
  have hnil : Literal.identTail cs = [] := List.dropWhile_eq_nil_iff.mpr hcs
  rw [List.cons_append, wordRest?, if_pos hc, Literal.identTail_append ends, hnil, List.nil_append]

lemma startsPunctuation_eq_false {c : Char} (hc : isIdentStart c = true) (cs : List Char) :
    startsPunctuation (c :: cs) = false := by
  unfold startsPunctuation
  split
  · rfl
  · rfl
  · rename_i heq
    cases heq
    exact isPunctuation_of_isIdentStart hc
  · rfl

lemma identRest?_of_word {word tail : List Char} (hword : IsWord word) (ends : EndsName tail) :
    identRest? (word ++ tail) = some tail := by
  have hrest := wordRest?_append hword ends.endsWord
  obtain ⟨c, cs, rfl, -, hcs⟩ := hword
  have hopens := opensLiteral_word_append hcs ends
  unfold identRest?
  split
  · -- a raw name has a hash behind its first character
    rename_i heq
    have hhash : cs ++ tail = '#' :: _ := (List.cons.inj heq).2
    rw [hhash] at hopens
    cases hopens
  · exact hrest

lemma identRest?_of_raw {word tail : List Char} (hword : IsWord word)
    (rawable : String.ofList word ∉ unrawable) (ends : EndsName tail) :
    identRest? ('r' :: '#' :: word ++ tail) = some tail := by
  rw [List.cons_append, List.cons_append, identRest?, wordRest?_append hword ends.endsWord]
  simp [Option.filter, taken_append, rawable]

lemma identRest?_of_name {name tail : List Char} (hname : IsName name) (ends : EndsName tail) :
    identRest? (name ++ tail) = some tail := by
  cases hname with
  | plain word => exact identRest?_of_word word ends
  | raw word rawable => exact identRest?_of_raw word rawable ends

/-- A plain name is read as the identifier that it is. -/
lemma leaf?_of_word {word tail : List Char} (hword : IsWord word) (ends : EndsName tail) :
    leaf? (word ++ tail) = some (.ident (String.ofList word), tail) := by
  have hident := identRest?_of_word hword ends
  obtain ⟨c, cs, rfl, hc, hcs⟩ := hword
  have hopens := opensLiteral_word_append hcs ends
  unfold leaf?
  rw [List.cons_append, literal_rest?_eq_none hc hopens]
  simp only [startsPunctuation_eq_false hc, literalStarts_eq_false hopens, Bool.false_eq_true,
    if_false]
  rw [← List.cons_append, hident, Option.map_some, taken_append]

/-- A raw name is read as the identifier that it is, with its mark. -/
lemma leaf?_of_raw {word tail : List Char} (hword : IsWord word)
    (rawable : String.ofList word ∉ unrawable) (ends : EndsName tail) :
    leaf? ('r' :: '#' :: word ++ tail) =
      some (.ident (String.ofList ('r' :: '#' :: word)), tail) := by
  have hident := identRest?_of_raw hword rawable ends
  obtain ⟨c, cs, rfl, hc, hcs⟩ := hword
  have hquote : '"' ≠ c := (ne_of_isIdentStart hc (by decide)).symm
  have hhash : '#' ≠ c := (ne_of_isIdentStart hc (by decide)).symm
  have hliteral : Literal.rest? ('r' :: '#' :: (c :: cs) ++ tail) = none := by
    show Literal.rawOpened .text ('#' :: c :: (cs ++ tail)) = none
    apply rawOpened_eq_none
    rw [List.dropWhile_cons_of_pos rfl, List.dropWhile_cons_of_neg (by simp [hhash.symm])]
    exact fun h => hquote (Option.some.inj h).symm
  have hstarts : (literalStarts.any fun start =>
      start.toList.isPrefixOf ('r' :: '#' :: (c :: cs) ++ tail)) = false := by
    simp [literalStarts, List.isPrefixOf, hquote, hhash]
  have hmark : startsPunctuation ('r' :: '#' :: (c :: cs) ++ tail) = false := rfl
  unfold leaf?
  simp only [hliteral, hmark, hstarts, hident, Bool.false_eq_true, if_false, Option.map_some,
    taken_append]

/-- A name is read as the identifier that it is, if nothing follows that would change it. -/
lemma leaf?_of_name {name tail : List Char} (hname : IsName name) (ends : EndsName tail) :
    leaf? (name ++ tail) = some (.ident (String.ofList name), tail) := by
  cases hname with
  | plain word => exact leaf?_of_word word ends
  | raw word rawable => exact leaf?_of_raw word rawable ends

end UnionView.Lexer
