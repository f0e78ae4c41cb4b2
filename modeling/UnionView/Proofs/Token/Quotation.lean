import Mathlib.Algebra.Group.Nat.Defs
import UnionView.Proofs.Token.Literal
import UnionView.Text.Quoted

/-!
# Quoted texts are literals

Every text is a literal of source code once it is quoted (`isLiteral_quoteLiteral`): each of its
characters is written as one part of a quotation, by itself or as an escape.
-/

namespace UnionView.Literal

open Text

/-! ### Code points in hexadecimal digits -/

lemma hexValue?_digitChar {n : Nat} (h : n < 16) : hexValue? n.digitChar = some n := by
  have hall : ∀ m < 16, hexValue? (Nat.digitChar m) = some m := by decide
  exact hall n h

/-- Digits add up to the number that they were written for. -/
lemma unicodeRest_hexDigits (n : Nat) {value digits : Nat} (cs : List Char)
    (h : digits + (hexDigits n).length ≤ 6) :
    unicodeRest value digits (hexDigits n ++ cs) =
      unicodeRest (value * 16 ^ (hexDigits n).length + n) (digits + (hexDigits n).length) cs := by
  induction n using Nat.strong_induction_on generalizing value digits cs with
  | _ n ih =>
    by_cases hn : n < 16
    · have hdigits : hexDigits n = [n.digitChar] := Nat.toDigits_of_lt_base hn
      rw [hdigits] at h ⊢
      have hsix : digits ≠ 6 := by
        simp only [List.length_singleton] at h
        omega
      rw [List.singleton_append, unicodeRest, hexValue?_digitChar hn]
      simp [hsix]
    · have hlast : n % 16 < 16 := Nat.mod_lt _ (by decide)
      have hdigits : hexDigits n = hexDigits (n / 16) ++ [(n % 16).digitChar] :=
        Nat.toDigits_of_base_le (by decide) (by omega)
      rw [hdigits] at h ⊢
      rw [List.length_append, List.length_singleton] at h ⊢
      have hsix : digits + (hexDigits (n / 16)).length ≠ 6 := by omega
      rw [List.append_assoc, ih (n / 16) (by omega) _ (by omega), List.singleton_append,
        unicodeRest, hexValue?_digitChar hlast]
      simp only [hsix, if_false]
      congr 1
      rw [Nat.pow_succ, ← Nat.mul_assoc]
      generalize value * 16 ^ (hexDigits (n / 16)).length = front
      omega

/-- The code point of a character is read from its digits. -/
lemma unicodeRest_of_char (c : Char) (cs : List Char) :
    unicodeRest 0 0 (hexDigits c.toNat ++ '}' :: cs) = some (c.toNat, cs) := by
  have hvalid : c.toNat < 0xD800 ∨ (0xE000 ≤ c.toNat ∧ c.toNat ≤ 0x10FFFF) := by
    have hc := c.valid
    change c.toNat < 0xD800 ∨ (0xDFFF < c.toNat ∧ c.toNat < 0x110000) at hc
    omega
  have hlength : (hexDigits c.toNat).length ≤ 6 :=
    (Nat.length_toDigits_le_iff (by decide) (by decide)).mpr (by omega)
  have hpos : 0 < (hexDigits c.toNat).length := Nat.length_toDigits_pos
  rw [unicodeRest_hexDigits c.toNat _ (by omega), unicodeRest]
  have hbrace : hexValue? '}' = none := by decide
  simp only [hbrace]
  have hne : (hexDigits c.toNat).length ≠ 0 := by omega
  simp only [Nat.zero_mul, Nat.zero_add, hne, if_false]
  simp [hvalid]

/-! ### Escapes -/

/-- An escape is read as one part of a quotation, and so is a character that needs none. -/
lemma exists_partRest_escape (c : Char) : ∃ d written, escape c = d :: written ∧ d ≠ '"' ∧
    ∀ cs, partRest .text d (written ++ cs) = some cs := by
  unfold escape
  split
  · exact ⟨'\\', ['0'], rfl, by decide, fun _ => rfl⟩
  split
  · exact ⟨'\\', ['t'], rfl, by decide, fun _ => rfl⟩
  split
  · exact ⟨'\\', ['r'], rfl, by decide, fun _ => rfl⟩
  split
  · exact ⟨'\\', ['n'], rfl, by decide, fun _ => rfl⟩
  split
  · exact ⟨'\\', ['\\'], rfl, by decide, fun _ => rfl⟩
  split
  · exact ⟨'\\', ['"'], rfl, by decide, fun _ => rfl⟩
  split
  · refine ⟨'\\', 'u' :: '{' :: (hexDigits c.toNat ++ ['}']), rfl, by decide, fun cs => ?_⟩
    have hescape : escapeRest .text ('u' :: '{' :: (hexDigits c.toNat ++ '}' :: cs)) = some cs := by
      unfold escapeRest
      simp only [unicodeRest_of_char]
      rfl
    rw [List.cons_append, List.cons_append, List.append_assoc]
    exact hescape
  · rename_i hreturn _ hbackslash hquote _
    refine ⟨c, [], rfl, hquote, fun cs => ?_⟩
    unfold partRest
    rw [if_neg hreturn, if_neg hbackslash]
    rfl

lemma quotedRest_escapeLiteral (text cs : List Char) {fuel : Nat}
    (hfuel : (escapeLiteral text).length < fuel) :
    quotedRest .text fuel (escapeLiteral text ++ '"' :: cs) = some cs := by
  induction text generalizing fuel with
  | nil =>
    obtain ⟨fuel, rfl⟩ : ∃ n, fuel = n + 1 := ⟨fuel - 1, by omega⟩
    rfl
  | cons c text ih =>
    rw [escapeLiteral] at hfuel ⊢
    have hpart {d : Char} {written : List Char} (hd : d ≠ '"')
        (hwritten : ∀ cs, partRest .text d (written ++ cs) = some cs)
        (hfuel : (d :: written ++ escapeLiteral text).length < fuel) :
        quotedRest .text fuel (d :: written ++ escapeLiteral text ++ '"' :: cs) = some cs := by
      obtain ⟨fuel, rfl⟩ : ∃ n, fuel = n + 1 := ⟨fuel - 1, by omega⟩
      rw [List.length_append, List.length_cons] at hfuel
      rw [List.append_assoc, List.cons_append, quotedRest_cons, if_neg hd, hwritten,
        Option.bind_some, ih (by omega)]
    split at hfuel
    · rename_i hzero
      simp only [if_pos hzero]
      exact hpart (by decide) (fun _ => rfl) hfuel
    · rename_i hzero
      simp only [if_neg hzero]
      obtain ⟨d, written, hescape, hd, hwritten⟩ := exists_partRest_escape c
      rw [hescape] at hfuel ⊢
      exact hpart hd hwritten hfuel

theorem isLiteral_quoteLiteral (text : List Char) : IsLiteral (quoteLiteral text).toList := by
  rw [quoteLiteral, String.toList_ofList, List.cons_append, IsLiteral]
  show quotedOpened .text (escapeLiteral text ++ ['"']) = some []
  unfold quotedOpened
  rw [quotedRest_escapeLiteral text [] (by rw [List.length_append]; omega)]
  rfl

end UnionView.Literal
