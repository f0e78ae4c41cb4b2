import Mathlib.Data.List.TakeWhile
import UnionView.Proofs.Text.CharClass
import UnionView.Token.Literal

/-!
# Literals as they are read

A literal that is read from the front of a text is read from there again if other text stands behind
it, as long as that text does not go on with it (`exists_of_rest?`). A quotation ends by itself, so
anything may follow but the letters of its suffix; a number needs to know that no digit, point or
sign follows.
-/

namespace UnionView.Literal

open Text

/-! ### Quotations -/

lemma exists_of_unicodeRest {cs rest : List Char} {value digits v : Nat}
    (h : unicodeRest value digits cs = some (v, rest)) : ∃ text ≠ [], cs = text ++ rest ∧
      ∀ tail, unicodeRest value digits (text ++ tail) = some (v, tail) := by
  induction cs generalizing value digits with
  | nil => cases h
  | cons c cs ih =>
    rw [unicodeRest] at h
    have hcons {value' digits' : Nat} (h : unicodeRest value' digits' cs = some (v, rest))
        (hstep : ∀ cs, unicodeRest value digits (c :: cs) = unicodeRest value' digits' cs) :
        ∃ text ≠ [], c :: cs = text ++ rest ∧
          ∀ tail, unicodeRest value digits (text ++ tail) = some (v, tail) := by
      obtain ⟨text, -, rfl, htext⟩ := ih h
      exact ⟨c :: text, List.cons_ne_nil _ _, rfl, fun tail => (hstep _).trans (htext tail)⟩
    split at h
    · rename_i d hd
      split at h
      · cases h
      · rename_i hdigits
        exact hcons h fun cs => by simp [unicodeRest, hd, hdigits]
    · rename_i hd
      split at h
      · cases h
      · rename_i hdigits
        split at h
        · rename_i hunderscore
          exact hcons h fun cs => by rw [unicodeRest, hd]; simp [hdigits, hunderscore]
        · rename_i hunderscore
          split at h
          · rename_i hend
            cases h
            refine ⟨[c], List.cons_ne_nil _ _, rfl, fun tail => ?_⟩
            rw [List.singleton_append, unicodeRest, hd]
            simp only [hdigits, hunderscore, hend, if_true, if_false]
          · cases h

lemma exists_of_escapeRest {kind : Kind} {cs rest : List Char}
    (h : escapeRest kind cs = some rest) : ∃ text ≠ [], cs = text ++ rest ∧
      ∀ tail, escapeRest kind (text ++ tail) = some tail := by
  unfold escapeRest at h
  split at h
  · rename_i high low cs
    split at h
    · rename_i hallowed
      cases h
      exact ⟨['x', high, low], by simp, rfl, fun tail => if_pos hallowed⟩
    · cases h
  · rename_i cs
    split at h
    · cases h
    · rename_i hkind
      split at h
      · rename_i value cs' hunicode
        split at h
        · cases h
        · rename_i hzero
          cases h
          obtain ⟨text, -, rfl, htext⟩ := exists_of_unicodeRest hunicode
          refine ⟨'u' :: '{' :: text, by simp, rfl, fun tail => ?_⟩
          rw [List.cons_append, List.cons_append]
          simp only [escapeRest, hkind, htext, hzero, if_false, Bool.false_eq_true]
      · cases h
  · split at h
    · cases h
    · rename_i hkind
      cases h
      exact ⟨['0'], by simp, rfl, fun tail => if_neg hkind⟩
  · rename_i c cs hx hu hzero
    split at h
    · rename_i hplain
      cases h
      have hc : c ≠ 'x' ∧ c ≠ 'u' ∧ c ≠ '0' := by
        refine ⟨?_, ?_, ?_⟩ <;> rintro rfl <;> revert hplain <;> decide
      refine ⟨[c], by simp, rfl, fun tail => ?_⟩
      rw [List.singleton_append]
      unfold escapeRest
      split
      · rename_i heq
        exact absurd (List.cons.inj heq).1 hc.1
      · rename_i heq
        exact absurd (List.cons.inj heq).1 hc.2.1
      · rename_i heq
        exact absurd (List.cons.inj heq).1 hc.2.2
      · rename_i heq
        obtain ⟨rfl, rfl⟩ := List.cons.inj heq
        exact if_pos hplain
      · rename_i heq
        cases heq
    · cases h
  · cases h

/-- Behind a removed line break stands what is no blank. -/
lemma exists_of_continuationRest {returned : Bool} {cs rest : List Char}
    (h : continuationRest returned cs = some rest) : ∃ text c behind, cs = text ++ c :: behind ∧
      rest = c :: behind ∧
        ∀ tail, continuationRest returned (text ++ c :: tail) = some (c :: tail) := by
  induction cs generalizing returned with
  | nil => cases h
  | cons d cs ih =>
    have hcons {returned' : Bool} (h : continuationRest returned' cs = some rest)
        (hstep : ∀ cs, continuationRest returned (d :: cs) = continuationRest returned' cs) :
        ∃ text c behind, d :: cs = text ++ c :: behind ∧ rest = c :: behind ∧
          ∀ tail, continuationRest returned (text ++ c :: tail) = some (c :: tail) := by
      obtain ⟨text, c, behind, rfl, rfl, htext⟩ := ih h
      exact ⟨d :: text, c, behind, rfl, rfl, fun tail => (hstep _).trans (htext tail)⟩
    rw [continuationRest] at h
    split at h
    · rename_i hreturned
      split at h
      · rename_i hd
        exact hcons h fun cs => by rw [continuationRest, if_pos hreturned, if_pos hd]
      · cases h
    · rename_i hreturned
      split at h
      · rename_i hd
        exact hcons h fun cs => by rw [continuationRest, if_neg hreturned, if_pos hd]
      · rename_i hreturn
        split at h
        · rename_i hd
          exact hcons h fun cs => by
            rw [continuationRest, if_neg hreturned, if_neg hreturn, if_pos hd]
        · rename_i hd
          cases h
          refine ⟨[], d, cs, rfl, rfl, fun tail => ?_⟩
          rw [List.nil_append, continuationRest, if_neg hreturned, if_neg hreturn, if_neg hd]

/-- Behind a part of a plain quotation that begins with the character: the character itself, an
escape or a line break. -/
def partRest (kind : Kind) (c : Char) (cs : List Char) : Option (List Char) :=
  if c = '\r' then
    match cs with
    | '\n' :: cs => some cs
    | _ => none
  else if c = '\\' then
    match cs with
    | '\n' :: cs => continuationRest false cs
    | '\r' :: cs => continuationRest true cs
    | cs => escapeRest kind cs
  else if kind.allows c then some cs
  else none

/-- A plain quotation is read part by part. -/
lemma quotedRest_cons (kind : Kind) (fuel : Nat) (c : Char) (cs : List Char) :
    quotedRest kind (fuel + 1) (c :: cs) =
      if c = '"' then some cs else (partRest kind c cs).bind (quotedRest kind fuel) := by
  conv_lhs => unfold quotedRest
  unfold partRest
  split
  · rfl
  split
  · split
    · rfl
    · simp
  split
  · split
    · rfl
    · rfl
    · simp
  split <;> rfl

/-- A part of a plain quotation is read again if the next part begins with the same character. -/
lemma exists_of_partRest {kind : Kind} {c : Char} {cs rest : List Char}
    (h : partRest kind c cs = some rest) : ∃ text, cs = text ++ rest ∧
      ∀ tail, tail.head? = rest.head? → partRest kind c (text ++ tail) = some tail := by
  unfold partRest at h
  split at h
  · rename_i hreturn
    split at h
    · cases h
      exact ⟨['\n'], rfl, fun tail _ => if_pos hreturn⟩
    · cases h
  rename_i hreturn
  split at h
  · rename_i hbackslash
    have hcontinuation {returned : Bool} {cs : List Char} {d : Char}
        (hd : ∀ cs, partRest kind c (d :: cs) = continuationRest returned cs)
        (h : continuationRest returned cs = some rest) :
        ∃ text, d :: cs = text ++ rest ∧
          ∀ tail, tail.head? = rest.head? → partRest kind c (text ++ tail) = some tail := by
      obtain ⟨blanks, e, behind, rfl, rfl, hblanks⟩ := exists_of_continuationRest h
      refine ⟨d :: blanks, rfl, fun tail hhead => ?_⟩
      obtain ⟨tail, rfl⟩ := List.head?_eq_some_iff.mp hhead
      rw [List.cons_append, hd, hblanks]
    split at h
    · exact hcontinuation (fun cs => by simp [partRest, hbackslash]) h
    · exact hcontinuation (fun cs => by simp [partRest, hbackslash]) h
    · rename_i hnewline hcr
      obtain ⟨text, hne, rfl, htext⟩ := exists_of_escapeRest h
      obtain ⟨e, text, rfl⟩ := List.exists_cons_of_ne_nil hne
      refine ⟨e :: text, rfl, fun tail _ => ?_⟩
      unfold partRest
      rw [if_neg hreturn, if_pos hbackslash]
      split
      · rename_i heq
        exact absurd (by rw [List.cons_append, (List.cons.inj heq).1]) (hnewline (text ++ rest))
      · rename_i heq
        exact absurd (by rw [List.cons_append, (List.cons.inj heq).1]) (hcr (text ++ rest))
      · exact htext tail
  rename_i hbackslash
  split at h
  · rename_i hallowed
    cases h
    refine ⟨[], rfl, fun tail _ => ?_⟩
    unfold partRest
    rw [if_neg hreturn, if_neg hbackslash, if_pos hallowed, List.nil_append]
  · cases h

/-- A plain quotation is read as far as its closing quote, whatever follows. -/
lemma exists_of_quotedRest {kind : Kind} {fuel : Nat} {cs rest : List Char}
    (h : quotedRest kind fuel cs = some rest) : ∃ text ≠ [], cs = text ++ rest ∧
      ∀ tail fuel', text.length ≤ fuel' → quotedRest kind fuel' (text ++ tail) = some tail := by
  induction fuel generalizing cs with
  | zero => cases h
  | succ fuel ih =>
    cases cs with
    | nil => cases h
    | cons c cs =>
      rw [quotedRest_cons] at h
      by_cases hquote : c = '"'
      · rw [if_pos hquote] at h
        cases h
        refine ⟨[c], by simp, rfl, fun tail fuel' hfuel => ?_⟩
        obtain ⟨fuel', rfl⟩ : ∃ n, fuel' = n + 1 := Nat.exists_eq_add_one.mpr hfuel
        rw [List.singleton_append, quotedRest_cons, if_pos hquote]
      · rw [if_neg hquote] at h
        obtain ⟨behind, hpart, hbehind⟩ := Option.bind_eq_some_iff.mp h
        obtain ⟨first, rfl, hfirst⟩ := exists_of_partRest hpart
        obtain ⟨text, hne, rfl, htext⟩ := ih hbehind
        refine ⟨c :: (first ++ text), by simp, by simp, fun tail fuel' hfuel => ?_⟩
        rw [List.length_cons, List.length_append] at hfuel
        obtain ⟨fuel', rfl⟩ : ∃ n, fuel' = n + 1 := ⟨fuel' - 1, by omega⟩
        have hhead : (text ++ tail).head? = (text ++ rest).head? := by
          obtain ⟨d, text, rfl⟩ := List.exists_cons_of_ne_nil hne
          rfl
        rw [List.cons_append, List.append_assoc, quotedRest_cons, if_neg hquote,
          hfirst _ hhead, Option.bind_some]
        exact htext tail fuel' (by omega)

/-- A raw quotation is read as far as its closing quote and the hashes behind it. -/
lemma exists_of_rawRest {kind : Kind} {hashes : Nat} {cs rest : List Char}
    (h : rawRest kind hashes cs = some rest) : ∃ text, cs = text ++ rest ∧ hashes < text.length ∧
      ∀ tail, rawRest kind hashes (text ++ tail) = some tail := by
  fun_induction rawRest kind hashes cs with
  | case1 => cases h
  | case2 cs hclosing =>
    cases h
    have hlength : (cs.take hashes).length = hashes := by
      rw [hclosing, List.length_replicate]
    refine ⟨'"' :: cs.take hashes, by simp, by simp [hlength], fun tail => ?_⟩
    have htake : (cs.take hashes ++ tail).take hashes = cs.take hashes :=
      List.take_left' hlength
    have hdrop : (cs.take hashes ++ tail).drop hashes = tail := List.drop_left' hlength
    rw [List.cons_append, rawRest, htake, if_pos hclosing, hdrop]
  | case3 cs hclosing ih =>
    obtain ⟨text, rfl, hlength, htext⟩ := ih h
    refine ⟨'"' :: text, rfl, by simp; omega, fun tail => ?_⟩
    have htake (tail : List Char) : (text ++ tail).take hashes = text.take hashes :=
      List.take_append_of_le_length (by omega)
    rw [htake] at hclosing
    rw [List.cons_append, rawRest, htake, if_neg hclosing, htext]
  | case4 cs ih =>
    obtain ⟨text, rfl, hlength, htext⟩ := ih h
    refine ⟨'\r' :: '\n' :: text, rfl, by simp; omega, fun tail => ?_⟩
    rw [List.cons_append, List.cons_append, rawRest, htext]
  | case5 => cases h
  | case6 c cs hquote hnewline hreturn hallowed ih =>
    obtain ⟨text, rfl, hlength, htext⟩ := ih h
    refine ⟨c :: text, rfl, by simp; omega, fun tail => ?_⟩
    rw [List.cons_append, rawRest, if_pos hallowed, htext]
    · exact hquote
    · exact fun _ hc _ => hreturn hc
    · exact hreturn
  | case7 => cases h

/-! ### Suffixes -/

/-- No character follows that an identifier goes on with. -/
def EndsWord (cs : List Char) : Prop :=
  ∀ c ∈ cs.head?, isIdentContinue c = false

lemma endsWord_nil : EndsWord [] := nofun

lemma EndsWord.isIdentStart {c : Char} {cs : List Char} (h : EndsWord (c :: cs)) :
    isIdentStart c = false := by
  by_contra hstart
  have hcontinue := isIdentContinue_of_isIdentStart (Bool.of_not_eq_false hstart)
  rw [h c rfl] at hcontinue
  cases hcontinue

/-- Where the characters end that a text is searched past, nothing changes with what follows. -/
lemma dropWhile_append_of_head {p : Char → Bool} {tail : List Char}
    (h : ∀ c ∈ tail.head?, p c = false) (cs : List Char) :
    (cs ++ tail).dropWhile p = cs.dropWhile p ++ tail := by
  have htail : tail.dropWhile p = tail := by
    cases tail with
    | nil => rfl
    | cons c tail => exact List.dropWhile_cons_of_neg (by simp [h c rfl])
  rw [List.dropWhile_append, htail]
  split
  · rename_i hempty
    rw [List.isEmpty_iff.mp hempty, List.nil_append]
  · rfl

lemma identTail_append {tail : List Char} (h : EndsWord tail) (cs : List Char) :
    identTail (cs ++ tail) = identTail cs ++ tail :=
  dropWhile_append_of_head h cs

lemma suffixRest_append {tail : List Char} (h : EndsWord tail) (cs : List Char) :
    suffixRest (cs ++ tail) = suffixRest cs ++ tail := by
  cases cs with
  | nil =>
    cases tail with
    | nil => rfl
    | cons c tail =>
      show suffixRest (c :: tail) = c :: tail
      rw [suffixRest, if_neg (by simp [h.isIdentStart])]
  | cons c cs =>
    rw [List.cons_append, suffixRest, suffixRest]
    split
    · exact identTail_append h cs
    · rfl

/-- What stands in front of the rest behind a suffix is nothing but the suffix. -/
lemma exists_of_suffixRest (cs : List Char) :
    ∃ suffix, cs = suffix ++ suffixRest cs ∧ suffixRest suffix = [] := by
  cases cs with
  | nil => exact ⟨[], rfl, rfl⟩
  | cons c cs =>
    rw [suffixRest]
    split
    · rename_i hc
      refine ⟨c :: cs.takeWhile isIdentContinue, ?_, ?_⟩
      · rw [List.cons_append, identTail, List.takeWhile_append_dropWhile]
      · rw [suffixRest, if_pos hc]
        exact List.dropWhile_eq_nil_iff.mpr fun d => List.all_eq_true.mp List.all_takeWhile d
    · exact ⟨[], rfl, rfl⟩

/-! ### Whole quotations -/

lemma exists_of_quotedOpened {kind : Kind} {cs rest : List Char}
    (h : quotedOpened kind cs = some rest) : ∃ text, cs = text ++ rest ∧
      ∀ tail, EndsWord tail → quotedOpened kind (text ++ tail) = some tail := by
  obtain ⟨behind, hquoted, rfl⟩ := Option.map_eq_some_iff.mp h
  obtain ⟨text, -, rfl, htext⟩ := exists_of_quotedRest hquoted
  obtain ⟨suffix, hbehind, hsuffix⟩ := exists_of_suffixRest behind
  refine ⟨text ++ suffix, by rw [List.append_assoc, ← hbehind], fun tail htail => ?_⟩
  unfold quotedOpened
  rw [List.append_assoc, htext _ _ (by simp; omega), Option.map_some,
    suffixRest_append htail, hsuffix, List.nil_append]

lemma exists_of_rawOpened {kind : Kind} {cs rest : List Char}
    (h : rawOpened kind cs = some rest) : ∃ text, cs = text ++ rest ∧
      ∀ tail, EndsWord tail → rawOpened kind (text ++ tail) = some tail := by
  have hsplit := List.takeWhile_append_dropWhile (p := (· == '#')) (l := cs)
  have hhashes : cs.takeWhile (· == '#') =
      List.replicate (cs.takeWhile (· == '#')).length '#' :=
    List.eq_replicate_of_mem fun c hc =>
      beq_iff_eq.mp (List.all_eq_true.mp List.all_takeWhile c hc)
  have hdrop : cs.drop (cs.takeWhile (· == '#')).length = cs.dropWhile (· == '#') := by
    generalize cs.takeWhile (· == '#') = hashes at hsplit ⊢
    generalize cs.dropWhile (· == '#') = rest at hsplit ⊢
    rw [← hsplit, List.drop_left]
  unfold rawOpened at h
  simp only [hdrop] at h
  generalize (cs.takeWhile (· == '#')).length = hashes at h hhashes
  rw [hhashes] at hsplit
  split at h
  · rename_i inner hquote
    split at h
    · rename_i hcount
      obtain ⟨behind, hraw, rfl⟩ := Option.map_eq_some_iff.mp h
      obtain ⟨text, rfl, -, htext⟩ := exists_of_rawRest hraw
      obtain ⟨suffix, hbehind, hsuffix⟩ := exists_of_suffixRest behind
      refine ⟨List.replicate hashes '#' ++ '"' :: (text ++ suffix), ?_, fun tail htail => ?_⟩
      · rw [← hsplit, hquote]
        simp [← hbehind]
      · have hmore : List.replicate hashes '#' ++ '"' :: (text ++ suffix) ++ tail =
            List.replicate hashes '#' ++ '"' :: (text ++ (suffix ++ tail)) := by
          simp
        have htake : ((List.replicate hashes '#' ++ '"' :: (text ++ (suffix ++ tail))).takeWhile
            (· == '#')).length = hashes := by
          rw [List.takeWhile_append_of_pos (by simp)]
          simp
        unfold rawOpened
        simp only [hmore, htake]
        rw [List.drop_left' (List.length_replicate ..)]
        simp only [hcount, if_true, htext, Option.map_some, suffixRest_append htail, hsuffix,
          List.nil_append]
    · cases h
  · cases h

/-- Behind the value between two single quotes. -/
def valueRest (kind : Kind) : List Char → Option (List Char)
  | '\\' :: cs => escapeRest kind cs
  | c :: cs => if kind.allows c then some cs else none
  | [] => none

lemma singleOpened_eq (kind : Kind) (cs : List Char) :
    singleOpened kind cs =
      match valueRest kind cs with
      | some ('\'' :: rest) => some (suffixRest rest)
      | _ => none := by
  unfold singleOpened valueRest
  rfl

lemma exists_of_valueRest {kind : Kind} {cs rest : List Char}
    (h : valueRest kind cs = some rest) : ∃ text, cs = text ++ rest ∧
      ∀ tail, valueRest kind (text ++ tail) = some tail := by
  unfold valueRest at h
  split at h
  · obtain ⟨text, -, rfl, htext⟩ := exists_of_escapeRest h
    exact ⟨'\\' :: text, rfl, htext⟩
  · rename_i c cs hbackslash
    split at h
    · rename_i hallowed
      cases h
      refine ⟨[c], rfl, fun tail => ?_⟩
      rw [List.singleton_append, valueRest, if_pos hallowed]
      exact hbackslash
    · cases h
  · cases h

lemma exists_of_singleOpened {kind : Kind} {cs rest : List Char}
    (h : singleOpened kind cs = some rest) : ∃ text, cs = text ++ rest ∧
      ∀ tail, EndsWord tail → singleOpened kind (text ++ tail) = some tail := by
  rw [singleOpened_eq] at h
  split at h
  · rename_i behind hvalue
    cases h
    obtain ⟨value, rfl, hlocal⟩ := exists_of_valueRest hvalue
    obtain ⟨suffix, hbehind, hsuffix⟩ := exists_of_suffixRest behind
    refine ⟨value ++ '\'' :: suffix, ?_, fun tail htail => ?_⟩
    · rw [List.append_assoc, List.cons_append, ← hbehind]
    · rw [singleOpened_eq, List.append_assoc, List.cons_append, hlocal]
      exact congrArg some (by rw [suffixRest_append htail, hsuffix, List.nil_append])
  · cases h

/-! ### Numbers -/

/-- Nothing follows that a number may go on with: no letter or digit, no point and no sign. -/
def EndsNumber (cs : List Char) : Prop :=
  ∀ c ∈ cs.head?, isIdentContinue c = false ∧ c ≠ '.' ∧ c ≠ '+' ∧ c ≠ '-'

lemma EndsNumber.endsWord {cs : List Char} (h : EndsNumber cs) : EndsWord cs :=
  fun c hc => (h c hc).1

lemma isIdentContinue_of_isDigit {c : Char} (h : isDigit c = true) : isIdentContinue c = true := by
  have hascii : c.toNat < 128 := by
    simp only [isDigit, Bool.and_eq_true, decide_eq_true_eq, Char.le_def,
      UInt32.le_iff_toNat_le] at h
    exact Nat.lt_of_le_of_lt h.2 (by decide)
  unfold isIdentContinue
  rw [if_pos hascii, h, Bool.or_true]

lemma isIdentContinue_of_isLetter {c : Char} (h : isLetter c = true) :
    isIdentContinue c = true := by
  have hascii : c.toNat < 128 := by
    simp only [isLetter, Bool.or_eq_true, Bool.and_eq_true, decide_eq_true_eq, Char.le_def,
      UInt32.le_iff_toNat_le] at h
    have hz : 'z'.val.toNat < 128 := by decide
    have hZ : 'Z'.val.toNat < 128 := by decide
    exact h.elim (fun h => Nat.lt_of_le_of_lt h.2 hz) fun h => Nat.lt_of_le_of_lt h.2 hZ
  apply isIdentContinue_of_isIdentStart
  rw [isIdentStart, if_pos hascii, h, Bool.true_or]

lemma isIdentContinue_of_hexValue? {c : Char} {n : Nat} (h : hexValue? c = some n) :
    isIdentContinue c = true := by
  unfold hexValue? at h
  split at h
  · exact isIdentContinue_of_isDigit ‹_›
  have hf : 'f'.val.toNat ≤ 'z'.val.toNat := by decide
  have hF : 'F'.val.toNat ≤ 'Z'.val.toNat := by decide
  apply isIdentContinue_of_isLetter
  simp only [Bool.and_eq_true, decide_eq_true_eq, Char.le_def, UInt32.le_iff_toNat_le] at h
  simp only [isLetter, Bool.or_eq_true, Bool.and_eq_true, decide_eq_true_eq, Char.le_def,
    UInt32.le_iff_toNat_le]
  split at h
  · rename_i hlower
    exact .inl ⟨hlower.1, hlower.2.trans hf⟩
  split at h
  · rename_i hupper
    exact .inr ⟨hupper.1, hupper.2.trans hF⟩
  · cases h

lemma EndsWord.isDigit {c : Char} {cs : List Char} (h : EndsWord (c :: cs)) :
    isDigit c = false := by
  by_contra hdigit
  have hcontinue := isIdentContinue_of_isDigit (Bool.of_not_eq_false hdigit)
  rw [h c rfl] at hcontinue
  cases hcontinue

lemma EndsWord.hexValue? {c : Char} {cs : List Char} (h : EndsWord (c :: cs)) :
    hexValue? c = none := by
  by_contra hhex
  obtain ⟨n, hn⟩ := Option.ne_none_iff_exists'.mp hhex
  have hcontinue := isIdentContinue_of_hexValue? hn
  rw [h c rfl] at hcontinue
  cases hcontinue

lemma EndsWord.ne {c d : Char} {cs : List Char} (h : EndsWord (c :: cs))
    (hd : isIdentContinue d = true) : c ≠ d := by
  rintro rfl
  rw [h c rfl] at hd
  cases hd

/-- Behind the point of a number: digits and an exponent. -/
def pointRest (cs : List Char) : Option (List Char) :=
  if cs.head?.any (fun d => d = '.' || isIdentStart d) then none
  else match dropDigits cs with
    | e :: rest =>
      if e = 'e' || e = 'E' then (exponentRest false false rest).orElse fun _ => some (e :: rest)
      else some (e :: rest)
    | [] => some []

/-- Behind the first digits of a number with a point or an exponent. -/
def behindDigits : List Char → Option (List Char)
  | '.' :: rest => pointRest rest
  | e :: rest => if e = 'e' || e = 'E' then exponentRest false false rest else none
  | [] => none

lemma fractionRest_cons (c : Char) (cs : List Char) :
    fractionRest (c :: cs) = if isDigit c then behindDigits (dropDigits cs) else none := by
  unfold fractionRest
  cases hdigit : isDigit c with
  | false => simp [hdigit]
  | true =>
    simp only [hdigit, Bool.not_true, Bool.false_eq_true, if_false, if_true]
    rfl

section Ending

variable {tail : List Char}

lemma dropDigits_append (h : EndsWord tail) (cs : List Char) :
    dropDigits (cs ++ tail) = dropDigits cs ++ tail := by
  refine dropWhile_append_of_head (fun c hc => ?_) cs
  obtain ⟨tail, rfl⟩ := List.head?_eq_some_iff.mp hc
  have hunderscore : c ≠ '_' := h.ne (by decide)
  simp [h.isDigit, hunderscore]

lemma endOfNumber_append (h : EndsWord tail) (cs : List Char) :
    endOfNumber (cs ++ tail) = (endOfNumber cs).map (· ++ tail) := by
  unfold endOfNumber
  rw [suffixRest_append h]
  cases suffixRest cs with
  | nil =>
    cases tail with
    | nil => rfl
    | cons c tail => simp [h c rfl]
  | cons c cs =>
    simp only [List.cons_append]
    split <;> rfl

lemma wholeRest_append (h : EndsWord tail) (base : Nat) (bare : Bool) (cs : List Char) :
    wholeRest base bare (cs ++ tail) = (wholeRest base bare cs).map (· ++ tail) := by
  induction cs generalizing bare with
  | nil =>
    cases tail with
    | nil => cases bare <;> rfl
    | cons c tail =>
      have hunderscore : c ≠ '_' := h.ne (by decide)
      cases bare <;> simp [wholeRest, h.isDigit, h.hexValue?, hunderscore]
  | cons c cs ih =>
    rw [List.cons_append, wholeRest, wholeRest]
    split
    · split
      · rfl
      · exact ih false
    split
    · split
      · rfl
      · exact ih bare
    split
    · split
      · exact ih false
      · split <;> rfl
    · split <;> rfl

lemma integerRest_append (h : EndsWord tail) (cs : List Char) :
    integerRest (cs ++ tail) = (integerRest cs).map (· ++ tail) := by
  -- the mark of a base lies within the word
  have hmark {d : Char} {rest : List Char} (hd : isIdentContinue d = true)
      (heq : cs ++ tail = '0' :: d :: rest) : ∃ cs', cs = '0' :: d :: cs' ∧ rest = cs' ++ tail := by
    rcases cs with _ | ⟨c, _ | ⟨c', cs⟩⟩
    · cases heq
      exact absurd rfl (h.ne (d := '0') (by decide))
    · cases heq
      exact absurd rfl (h.ne hd)
    · cases heq
      exact ⟨cs, rfl, rfl⟩
  unfold integerRest
  split
  · rename_i heq
    obtain ⟨cs', rfl, rfl⟩ := hmark (by decide) heq
    exact wholeRest_append h 16 true cs'
  · rename_i heq
    obtain ⟨cs', rfl, rfl⟩ := hmark (by decide) heq
    exact wholeRest_append h 8 true cs'
  · rename_i heq
    obtain ⟨cs', rfl, rfl⟩ := hmark (by decide) heq
    exact wholeRest_append h 2 true cs'
  · rename_i hx ho hb
    split
    · exact absurd rfl (hx _)
    · exact absurd rfl (ho _)
    · exact absurd rfl (hb _)
    · exact wholeRest_append h 10 true cs

lemma exponentRest_append (h : EndsNumber tail) (signed valued : Bool) (cs : List Char) :
    exponentRest signed valued (cs ++ tail) =
      (exponentRest signed valued cs).map (· ++ tail) := by
  induction cs generalizing signed valued with
  | nil =>
    cases tail with
    | nil => cases valued <;> rfl
    | cons c tail =>
      obtain ⟨-, -, hplus, hminus⟩ := h c rfl
      have hunderscore : c ≠ '_' := h.endsWord.ne (by decide)
      cases valued <;> simp [exponentRest, h.endsWord.isDigit, hunderscore, hplus, hminus]
  | cons c cs ih =>
    rw [List.cons_append, exponentRest, exponentRest]
    split
    · split
      · rfl
      · split
        · rfl
        · exact ih true valued
    split
    · exact ih signed true
    split
    · exact ih signed valued
    · split <;> rfl

lemma pointRest_append (h : EndsNumber tail) (cs : List Char) :
    pointRest (cs ++ tail) = (pointRest cs).map (· ++ tail) := by
  have hhead : ((cs ++ tail).head?.any fun d => d = '.' || isIdentStart d) =
      cs.head?.any fun d => d = '.' || isIdentStart d := by
    cases cs with
    | nil =>
      cases tail with
      | nil => rfl
      | cons d tail => simp [(h d rfl).2.1, h.endsWord.isIdentStart]
    | cons d cs => rfl
  unfold pointRest
  rw [hhead, dropDigits_append h.endsWord]
  split
  · rfl
  cases dropDigits cs with
  | nil =>
    cases tail with
    | nil => rfl
    | cons d tail =>
      have he : d ≠ 'e' := h.endsWord.ne (by decide)
      have hE : d ≠ 'E' := h.endsWord.ne (by decide)
      simp [he, hE]
  | cons e es =>
    simp only [List.cons_append]
    split
    · rw [exponentRest_append h]
      cases exponentRest false false es <;> rfl
    · rfl

lemma behindDigits_append (h : EndsNumber tail) (cs : List Char) :
    behindDigits (cs ++ tail) = (behindDigits cs).map (· ++ tail) := by
  cases cs with
  | nil =>
    cases tail with
    | nil => rfl
    | cons d tail =>
      have he : d ≠ 'e' := h.endsWord.ne (by decide)
      have hE : d ≠ 'E' := h.endsWord.ne (by decide)
      simp [behindDigits, (h d rfl).2.1, he, hE]
  | cons d ds =>
    by_cases hpoint : d = '.'
    · subst hpoint
      exact pointRest_append h ds
    · simp only [List.cons_append, behindDigits]
      split
      · exact exponentRest_append h false false ds
      · rfl

lemma fractionRest_append (h : EndsNumber tail) (cs : List Char) :
    fractionRest (cs ++ tail) = (fractionRest cs).map (· ++ tail) := by
  cases cs with
  | nil =>
    cases tail with
    | nil => rfl
    | cons c tail => simp [fractionRest, h.endsWord.isDigit]
  | cons c cs =>
    rw [List.cons_append, fractionRest_cons, fractionRest_cons, dropDigits_append h.endsWord,
      behindDigits_append h]
    split <;> rfl

/-- A number is read in the same way if text follows that it does not go on with. -/
lemma numberRest_append (h : EndsNumber tail) (cs : List Char) :
    numberRest (cs ++ tail) = (numberRest cs).map (· ++ tail) := by
  have hend (mid : Option (List Char)) : (mid.map (· ++ tail)).bind endOfNumber =
      (mid.bind endOfNumber).map (· ++ tail) := by
    cases mid with
    | none => rfl
    | some cs => exact endOfNumber_append h.endsWord cs
  rw [numberRest, numberRest, fractionRest_append h, integerRest_append h.endsWord, hend, hend]
  cases (fractionRest cs).bind endOfNumber <;> rfl

/-! ### Numbers in front of other text -/

lemma exists_of_endOfNumber {mid : List Char} (h : endOfNumber mid = some tail) :
    EndsWord tail ∧ ∃ suffix, mid = suffix ++ tail ∧ suffixRest suffix = [] := by
  obtain ⟨suffix, hmid, hsuffix⟩ := exists_of_suffixRest mid
  unfold endOfNumber at h
  split at h
  · rename_i heq
    cases h
    exact ⟨endsWord_nil, suffix, by rw [← heq]; exact hmid, hsuffix⟩
  · rename_i c rest heq
    split at h
    · cases h
    · rename_i hc
      cases h
      refine ⟨?_, suffix, by rw [← heq]; exact hmid, hsuffix⟩
      rintro d ⟨⟩
      exact eq_false_of_ne_true hc

lemma suffix_of_exponentRest {signed valued : Bool} {cs mid : List Char}
    (h : exponentRest signed valued cs = some mid) :
    mid <:+ cs ∧ (valued = false → mid.length < cs.length) := by
  induction cs generalizing signed valued with
  | nil =>
    rw [exponentRest] at h
    split at h
    · cases h
      simp_all
    · cases h
  | cons c cs ih =>
    have hcons {signed' valued' : Bool} (h : exponentRest signed' valued' cs = some mid) :
        mid <:+ c :: cs ∧ (valued = false → mid.length < (c :: cs).length) :=
      have hsuffix := (ih h).1
      ⟨hsuffix.trans (List.suffix_cons _ _), fun _ => Nat.lt_succ_of_le hsuffix.length_le⟩
    have hself (hvalued : valued = true) (h : some (c :: cs) = some mid) :
        mid <:+ c :: cs ∧ (valued = false → mid.length < (c :: cs).length) := by
      cases h
      exact ⟨List.suffix_rfl, fun hfalse => absurd (hvalued.symm.trans hfalse) (by decide)⟩
    rw [exponentRest] at h
    split at h
    · split at h
      · exact hself ‹_› h
      · split at h
        · cases h
        · exact hcons h
    split at h
    · exact hcons h
    split at h
    · exact hcons h
    split at h
    · exact hself ‹_› h
    · cases h

/-- Whether an exponent is read does not depend on a sign behind it. -/
lemma exponentRest_append_iff (h : EndsWord tail) {signed valued : Bool} {cs mid : List Char} :
    exponentRest signed valued (cs ++ tail) = some (mid ++ tail) ↔
      exponentRest signed valued cs = some mid := by
  induction cs generalizing signed valued with
  | nil =>
    cases valued with
    | false =>
      refine ⟨fun hmid => ?_, nofun⟩
      have hlength := (suffix_of_exponentRest hmid).2 rfl
      rw [List.nil_append, List.length_append] at hlength
      omega
    | true =>
      have hnil : exponentRest signed true tail = some tail := by
        cases tail with
        | nil => rfl
        | cons c tail =>
          have hunderscore : c ≠ '_' := h.ne (by decide)
          simp [exponentRest, h.isDigit, hunderscore]
      rw [List.nil_append, hnil, exponentRest]
      simp [eq_comm]
  | cons c cs ih =>
    rw [List.cons_append, exponentRest, exponentRest]
    have hself : some (c :: (cs ++ tail)) = some (mid ++ tail) ↔ some (c :: cs) = some mid := by
      rw [← List.cons_append, Option.some_inj, List.append_cancel_right_eq, Option.some_inj]
    split
    · split
      · exact hself
      · split
        · simp
        · exact ih
    split
    · exact ih
    split
    · exact ih
    · split
      · exact hself
      · simp

lemma dropDigits_suffix (cs : List Char) : dropDigits cs <:+ cs :=
  List.dropWhile_suffix _

lemma suffix_of_pointRest {cs mid : List Char} (h : pointRest cs = some mid) : mid <:+ cs := by
  unfold pointRest at h
  split at h
  · cases h
  split at h
  · rename_i e more hmore
    have hsuffix : e :: more <:+ cs := hmore ▸ dropDigits_suffix cs
    split at h
    · cases hexponent : exponentRest false false more with
      | none =>
        rw [hexponent] at h
        cases h
        exact hsuffix
      | some rest =>
        rw [hexponent] at h
        cases h
        exact ((suffix_of_exponentRest hexponent).1.trans (List.suffix_cons e more)).trans hsuffix
    · cases h
      exact hsuffix
  · cases h
    exact List.nil_suffix

lemma suffix_of_behindDigits {c : Char} {cs mid : List Char}
    (h : behindDigits (c :: cs) = some mid) : mid <:+ cs := by
  unfold behindDigits at h
  split at h
  · rename_i heq
    cases heq
    exact suffix_of_pointRest h
  · rename_i heq
    cases heq
    split at h
    · exact (suffix_of_exponentRest h).1
    · cases h
  · cases h

lemma suffix_of_fractionRest {cs mid : List Char} (h : fractionRest cs = some mid) :
    mid <:+ cs := by
  cases cs with
  | nil => cases h
  | cons c cs =>
    rw [fractionRest_cons] at h
    split at h
    · have hdigits := dropDigits_suffix cs
      cases hdrop : dropDigits cs with
      | nil =>
        rw [hdrop] at h
        cases h
      | cons d ds =>
        rw [hdrop] at h hdigits
        exact ((suffix_of_behindDigits h).trans (List.suffix_cons d ds)).trans
          (hdigits.trans (List.suffix_cons c cs))
    · cases h

/-- Digits behind a point are read without the text behind them as well. -/
lemma pointRest_of_append (h : EndsWord tail) {cs mid : List Char}
    (hmid : pointRest (cs ++ tail) = some (mid ++ tail)) : pointRest cs = some mid := by
  unfold pointRest at hmid ⊢
  rw [dropDigits_append h] at hmid
  split at hmid
  · cases hmid
  rename_i hhead
  have hhead' : ¬(cs.head?.any fun d => d = '.' || isIdentStart d) = true := by
    cases cs with
    | nil => simp
    | cons d cs => exact hhead
  rw [if_neg hhead']
  cases hdrop : dropDigits cs with
  | nil =>
    have hnil : some tail = some (mid ++ tail) := by
      rw [hdrop, List.nil_append] at hmid
      cases tail with
      | nil => exact hmid
      | cons d tail =>
        have he : d ≠ 'e' := h.ne (by decide)
        have hE : d ≠ 'E' := h.ne (by decide)
        simpa [he, hE] using hmid
    simpa using hnil
  | cons e es =>
    rw [hdrop, List.cons_append] at hmid
    have hself (hmid : some (e :: (es ++ tail)) = some (mid ++ tail)) :
        some (e :: es) = some mid := by
      rwa [← List.cons_append, Option.some_inj, List.append_cancel_right_eq,
        ← Option.some_inj] at hmid
    simp only at hmid ⊢
    split at hmid
    · rename_i he
      rw [if_pos he]
      cases hmore : exponentRest false false (es ++ tail) with
      | some rest =>
        rw [hmore] at hmid
        have hrest : rest = mid ++ tail := Option.some.inj hmid
        rw [(exponentRest_append_iff h).mp (hrest ▸ hmore)]
        rfl
      | none =>
        have hexponent : exponentRest false false es = none := by
          by_contra hsome
          obtain ⟨rest, hrest⟩ := Option.ne_none_iff_exists'.mp hsome
          rw [(exponentRest_append_iff h).mpr hrest] at hmore
          cases hmore
        rw [hmore] at hmid
        rw [hexponent]
        exact hself hmid
    · rename_i he
      rw [if_neg he]
      exact hself hmid

lemma behindDigits_of_append (h : EndsWord tail) {cs mid : List Char}
    (hmid : behindDigits (cs ++ tail) = some (mid ++ tail)) : behindDigits cs = some mid := by
  cases cs with
  | nil =>
    -- the number would end behind a character of the text that follows
    cases tail with
    | nil => cases hmid
    | cons d tail =>
      have hlength := (suffix_of_behindDigits hmid).length_le
      simp at hlength
      omega
  | cons d ds =>
    by_cases hpoint : d = '.'
    · subst hpoint
      exact pointRest_of_append h hmid
    · simp only [List.cons_append, behindDigits] at hmid ⊢
      split at hmid
      · rename_i he
        rw [if_pos he]
        exact (exponentRest_append_iff h).mp hmid
      · cases hmid

/-- A number with a point or an exponent is read without the text behind it as well. -/
lemma fractionRest_of_append (h : EndsWord tail) {cs mid : List Char}
    (hmid : fractionRest (cs ++ tail) = some (mid ++ tail)) : fractionRest cs = some mid := by
  cases cs with
  | nil =>
    cases tail with
    | nil => cases hmid
    | cons c tail => simp [fractionRest, h.isDigit] at hmid
  | cons c cs =>
    rw [List.cons_append, fractionRest_cons, dropDigits_append h] at hmid
    rw [fractionRest_cons]
    split at hmid
    · rename_i hdigit
      rw [if_pos hdigit]
      exact behindDigits_of_append h hmid
    · cases hmid

/-- The digits of a whole number can all stand in an identifier. -/
lemma exists_of_wholeRest {base : Nat} {bare : Bool} {cs mid : List Char}
    (h : wholeRest base bare cs = some mid) :
    ∃ text, cs = text ++ mid ∧ ∀ c ∈ text, isIdentContinue c = true := by
  induction cs generalizing bare with
  | nil =>
    cases bare with
    | false =>
      cases h
      exact ⟨[], rfl, by simp⟩
    | true => cases h
  | cons c cs ih =>
    have hcons {bare' : Bool} (hc : isIdentContinue c = true)
        (h : wholeRest base bare' cs = some mid) :
        ∃ text, c :: cs = text ++ mid ∧ ∀ c ∈ text, isIdentContinue c = true := by
      obtain ⟨text, rfl, htext⟩ := ih h
      exact ⟨c :: text, rfl, List.forall_mem_cons.mpr ⟨hc, htext⟩⟩
    have hself (h : (if bare then none else some (c :: cs)) = some mid) :
        ∃ text, c :: cs = text ++ mid ∧ ∀ c ∈ text, isIdentContinue c = true := by
      split at h
      · cases h
      · exact ⟨[], Option.some.inj h, by simp⟩
    rw [wholeRest] at h
    split at h
    · rename_i hdigit
      split at h
      · cases h
      · exact hcons (isIdentContinue_of_isDigit hdigit) h
    split at h
    · rename_i hunderscore
      split at h
      · cases h
      · exact hcons (by rw [hunderscore]; decide) h
    split at h
    · rename_i hhex
      split at h
      · exact hcons (isIdentContinue_of_hexValue? hhex) h
      · exact hself h
    · exact hself h

lemma exists_of_integerRest {cs mid : List Char} (h : integerRest cs = some mid) :
    ∃ text, cs = text ++ mid ∧ ∀ c ∈ text, isIdentContinue c = true := by
  have hmarked {base : Nat} {d : Char} {cs : List Char} (hd : isIdentContinue d = true)
      (h : wholeRest base true cs = some mid) :
      ∃ text, '0' :: d :: cs = text ++ mid ∧ ∀ c ∈ text, isIdentContinue c = true := by
    have hzero : isIdentContinue '0' = true := by decide
    obtain ⟨text, rfl, htext⟩ := exists_of_wholeRest h
    exact ⟨'0' :: d :: text, rfl, by simpa [hzero, hd] using htext⟩
  unfold integerRest at h
  split at h
  · exact hmarked (by decide) h
  · exact hmarked (by decide) h
  · exact hmarked (by decide) h
  · exact exists_of_wholeRest h

lemma isIdentContinue_of_suffixRest {suffix : List Char} (h : suffixRest suffix = []) :
    ∀ c ∈ suffix, isIdentContinue c = true := by
  cases suffix with
  | nil => simp
  | cons c cs =>
    rw [suffixRest] at h
    split at h
    · rename_i hc
      exact List.forall_mem_cons.mpr
        ⟨isIdentContinue_of_isIdentStart hc, List.dropWhile_eq_nil_iff.mp h⟩
    · cases h

lemma endOfNumber_of_suffixRest {suffix : List Char} (h : suffixRest suffix = []) :
    endOfNumber suffix = some [] := by
  unfold endOfNumber
  rw [h]

/-- A number at the front of a text is one by itself. -/
lemma exists_of_numberRest {cs rest : List Char} (h : numberRest cs = some rest) :
    ∃ text ≠ [], cs = text ++ rest ∧ numberRest text = some [] := by
  suffices hnumber : ∃ text, cs = text ++ rest ∧ numberRest text = some [] by
    obtain ⟨text, hcs, htext⟩ := hnumber
    refine ⟨text, ?_, hcs, htext⟩
    rintro rfl
    cases htext
  rw [numberRest] at h
  cases hfraction : (fractionRest cs).bind endOfNumber with
  | some rest' =>
    rw [hfraction] at h
    obtain rfl : rest' = rest := Option.some.inj h
    obtain ⟨mid, hmid, hend⟩ := Option.bind_eq_some_iff.mp hfraction
    obtain ⟨hrest, suffix, rfl, hsuffix⟩ := exists_of_endOfNumber hend
    obtain ⟨text, rfl⟩ := suffix_of_fractionRest hmid
    refine ⟨text ++ suffix, by rw [List.append_assoc], ?_⟩
    rw [← List.append_assoc] at hmid
    rw [numberRest, fractionRest_of_append hrest hmid, Option.bind_some,
      endOfNumber_of_suffixRest hsuffix]
    rfl
  | none =>
    rw [hfraction] at h
    obtain ⟨mid, hmid, hend⟩ := Option.bind_eq_some_iff.mp h
    obtain ⟨hrest, suffix, rfl, hsuffix⟩ := exists_of_endOfNumber hend
    obtain ⟨text, rfl, htext⟩ := exists_of_integerRest hmid
    refine ⟨text ++ suffix, by rw [List.append_assoc], ?_⟩
    have hword : ∀ c ∈ text ++ suffix, isIdentContinue c = true :=
      List.forall_mem_append.mpr ⟨htext, isIdentContinue_of_suffixRest hsuffix⟩
    rw [← List.append_assoc, integerRest_append hrest, Option.map_eq_some_iff] at hmid
    obtain ⟨behind, hinteger, hbehind⟩ := hmid
    obtain rfl := List.append_cancel_right hbehind
    rw [numberRest, hinteger, Option.bind_some, endOfNumber_of_suffixRest hsuffix]
    cases hpoint : (fractionRest (text ++ behind)).bind endOfNumber with
    | none => rfl
    | some more =>
      -- a word that is read as a number with an exponent is read to its end
      obtain ⟨mid, hmid, hend⟩ := Option.bind_eq_some_iff.mp hpoint
      obtain ⟨hmore, suffix', rfl, -⟩ := exists_of_endOfNumber hend
      have hmem := (List.suffix_append suffix' more).trans (suffix_of_fractionRest hmid)
      cases more with
      | nil => rfl
      | cons c more =>
        have hc := hword c (hmem.subset List.mem_cons_self)
        rw [hmore c rfl] at hc
        cases hc

end Ending

/-! ### Literals -/

lemma ten_le_of_hexValue? {c : Char} (hc : isDigit c = false) {n : Nat}
    (h : hexValue? c = some n) : 10 ≤ n := by
  unfold hexValue? at h
  rw [hc] at h
  simp only [Bool.false_eq_true, if_false, Bool.and_eq_true, decide_eq_true_eq, Char.le_def,
    UInt32.le_iff_toNat_le] at h
  split at h
  · rename_i hlower
    have hlow : 97 ≤ c.toNat := hlower.1
    have hn := Option.some.inj h
    omega
  · split at h
    · rename_i hupper
      have hlow : 65 ≤ c.toNat := hupper.1
      have hn := Option.some.inj h
      omega
    · cases h

lemma numberRest_eq_none {c : Char} (hc : isDigit c = false) (cs : List Char) :
    numberRest (c :: cs) = none := by
  have hzero : c ≠ '0' := by
    rintro rfl
    cases hc
  have hfraction : fractionRest (c :: cs) = none := by
    rw [fractionRest, hc]
    rfl
  have hwhole : wholeRest 10 true (c :: cs) = none := by
    rw [wholeRest, hc]
    simp only [Bool.false_eq_true, if_false]
    split
    · rfl
    · cases hhex : hexValue? c with
      | none => rfl
      | some n => simp only [if_neg (Nat.not_lt.mpr (ten_le_of_hexValue? hc hhex)), if_true]
  have hinteger : integerRest (c :: cs) = none := by
    unfold integerRest
    split
    · rename_i heq
      exact absurd (List.cons.inj heq).1 hzero
    · rename_i heq
      exact absurd (List.cons.inj heq).1 hzero
    · rename_i heq
      exact absurd (List.cons.inj heq).1 hzero
    · exact hwhole
  rw [numberRest, hfraction, hinteger]
  rfl

lemma rest?_of_isDigit {c : Char} (hc : isDigit c = true) (cs : List Char) :
    rest? (c :: cs) = numberRest (c :: cs) := by
  unfold rest?
  split <;> first | rfl | (rename_i heq; cases heq; cases hc)

/-- What every literal at the front of a text is like: it is read by itself, and what may follow
does not change that. -/
lemma exists_of_rest? {cs rest : List Char} (h : rest? cs = some rest) :
    ∃ text ≠ [], cs = text ++ rest ∧
      ∀ tail, EndsNumber tail → rest? (text ++ tail) = some tail := by
  have hopened (opening : List Char) {cs : List Char} {f : List Char → Option (List Char)}
      (hopening : opening ≠ []) (hrest : ∀ cs, rest? (opening ++ cs) = f cs)
      (hf : ∃ text, cs = text ++ rest ∧ ∀ tail, EndsWord tail → f (text ++ tail) = some tail) :
      ∃ text ≠ [], opening ++ cs = text ++ rest ∧
        ∀ tail, EndsNumber tail → rest? (text ++ tail) = some tail := by
    obtain ⟨text, rfl, htext⟩ := hf
    refine ⟨opening ++ text, by simp [hopening], by simp, fun tail htail => ?_⟩
    rw [List.append_assoc, hrest, htext tail htail.endsWord]
  unfold rest? at h
  split at h
  · exact hopened ['"'] (by simp) (fun _ => rfl) (exists_of_quotedOpened h)
  · exact hopened ['\''] (by simp) (fun _ => rfl) (exists_of_singleOpened h)
  · exact hopened ['r'] (by simp) (fun _ => rfl) (exists_of_rawOpened h)
  · exact hopened ['b', '"'] (by simp) (fun _ => rfl) (exists_of_quotedOpened h)
  · exact hopened ['b', 'r'] (by simp) (fun _ => rfl) (exists_of_rawOpened h)
  · exact hopened ['b', '\''] (by simp) (fun _ => rfl) (exists_of_singleOpened h)
  · exact hopened ['c', '"'] (by simp) (fun _ => rfl) (exists_of_quotedOpened h)
  · exact hopened ['c', 'r'] (by simp) (fun _ => rfl) (exists_of_rawOpened h)
  · obtain ⟨text, hne, rfl, hnumber⟩ := exists_of_numberRest h
    refine ⟨text, hne, rfl, fun tail htail => ?_⟩
    obtain ⟨c, cs, rfl⟩ := List.exists_cons_of_ne_nil hne
    have hc : isDigit c = true := by
      by_contra hdigit
      rw [numberRest_eq_none (eq_false_of_ne_true hdigit)] at hnumber
      cases hnumber
    rw [List.cons_append, rest?_of_isDigit hc, ← List.cons_append, numberRest_append htail, hnumber]
    rfl

/-- The text of a literal: one stands there, and nothing is left behind it. -/
def IsLiteral (text : List Char) : Prop :=
  rest? text = some []

lemma dropDigits_of_wholeRest {bare : Bool} {cs : List Char}
    (h : wholeRest 10 bare cs = some []) : dropDigits cs = [] := by
  induction cs generalizing bare with
  | nil => rfl
  | cons c cs ih =>
    rw [dropDigits, List.dropWhile_cons]
    rw [wholeRest] at h
    split at h
    · rename_i hdigit
      split at h
      · cases h
      · rw [hdigit]
        exact ih h
    rename_i hdigit
    split at h
    · rename_i hunderscore
      subst hunderscore
      split at h
      · cases h
      · exact ih h
    split at h
    · rename_i hhex
      have hten := ten_le_of_hexValue? (eq_false_of_ne_true hdigit) hhex
      rw [if_neg (Nat.not_lt.mpr hten)] at h
      split at h <;> cases h
    · split at h <;> cases h

lemma isLiteral_of_integerRest {cs : List Char} (h : integerRest cs = some []) : IsLiteral cs := by
  cases cs with
  | nil => cases h
  | cons c cs =>
    have hc : isDigit c = true := by
      by_contra hc
      have hnone := numberRest_eq_none (eq_false_of_ne_true hc) cs
      rw [numberRest, h] at hnone
      cases hfraction : (fractionRest (c :: cs)).bind endOfNumber with
      | none =>
        rw [hfraction] at hnone
        cases hnone
      | some rest =>
        rw [hfraction] at hnone
        cases hnone
    have hfraction : fractionRest (c :: cs) = none := by
      unfold integerRest at h
      split at h
      · rename_i heq
        cases heq
        rfl
      · rename_i heq
        cases heq
        rfl
      · rename_i heq
        cases heq
        rfl
      · have hdigits := dropDigits_of_wholeRest h
        rw [dropDigits, List.dropWhile_cons, hc] at hdigits
        rw [fractionRest, hc, show dropDigits cs = [] from hdigits]
        rfl
    rw [IsLiteral, rest?_of_isDigit hc, numberRest, h, hfraction]
    rfl

/-- The text in front of what is left behind a literal is one. -/
lemma isLiteral_of_rest? {cs rest : List Char} (h : rest? cs = some rest) :
    ∃ text, cs = text ++ rest ∧ IsLiteral text := by
  obtain ⟨text, -, hcs, htext⟩ := exists_of_rest? h
  refine ⟨text, hcs, ?_⟩
  have hnil := htext [] nofun
  rwa [List.append_nil] at hnil

/-- A literal is read as what it is, if nothing follows that it may go on with. -/
lemma IsLiteral.rest?_append {text tail : List Char} (h : IsLiteral text)
    (htail : EndsNumber tail) : rest? (text ++ tail) = some tail := by
  obtain ⟨text', -, htext, happend⟩ := exists_of_rest? h
  rw [List.append_nil] at htext
  subst htext
  exact happend tail htail

end UnionView.Literal
