import Mathlib.Tactic.ByContra
import Mathlib.Tactic.Lemma
import UnionView.Text.CharClass

/-!
# Characters that identifiers start with

No such character is a blank, a digit or a punctuation character, and none of them can be taken
for a character that is known and does not start an identifier.
-/

namespace UnionView.Text

lemma ne_of_isIdentStart {c d : Char} (h : isIdentStart c = true) (hd : isIdentStart d = false) :
    c ≠ d := by
  rintro rfl
  rw [h] at hd
  cases hd

lemma ne_of_isIdentContinue {c d : Char} (h : isIdentContinue c = true)
    (hd : isIdentContinue d = false) : c ≠ d := by
  rintro rfl
  rw [h] at hd
  cases hd

lemma isPunctuation_of_isIdentStart {c : Char} (h : isIdentStart c = true) :
    isPunctuation c = false := by
  by_contra hmark
  have hmem := List.contains_iff_mem.mp (Bool.of_not_eq_false hmark)
  have hnone : ['~', '!', '@', '#', '$', '%', '^', '&', '*', '-', '=', '+', '|', ';', ':', ',', '<',
      '.', '>', '/', '?', '\''].all (fun d => !isIdentStart d) = true := by
    decide
  have hc := List.all_eq_true.mp hnone c hmem
  rw [h] at hc
  cases hc

/-- A class whose code points are listed has no character that an identifier starts with, if none
of these code points is one. -/
lemma not_mem_of_isIdentStart {c : Char} (h : isIdentStart c = true) {codes : List Nat}
    (hcodes : ∀ n ∈ codes, isIdentStart (Char.ofNat n) = false) : c.toNat ∉ codes := by
  intro hmem
  have hc := hcodes _ hmem
  rw [Char.ofNat_toNat] at hc
  exact ne_of_isIdentStart h hc rfl

lemma isDigit_of_isIdentStart {c : Char} (h : isIdentStart c = true) : isDigit c = false := by
  by_contra hdigit
  simp only [isDigit, Bool.not_eq_false, Bool.and_eq_true, decide_eq_true_eq, Char.le_def,
    UInt32.le_iff_toNat_le] at hdigit
  obtain ⟨hlow, hhigh⟩ := hdigit
  change 48 ≤ c.toNat at hlow
  change c.toNat ≤ 57 at hhigh
  have hmem : c.toNat ∈ [48, 49, 50, 51, 52, 53, 54, 55, 56, 57] := by
    simp only [List.mem_cons, List.not_mem_nil, or_false]
    omega
  exact not_mem_of_isIdentStart h (by decide) hmem

lemma isPunctuation_of_isDigit {c : Char} (h : isDigit c = true) : isPunctuation c = false := by
  by_contra hmark
  have hmem := List.contains_iff_mem.mp (Bool.of_not_eq_false hmark)
  have hnone : ['~', '!', '@', '#', '$', '%', '^', '&', '*', '-', '=', '+', '|', ';', ':', ',', '<',
      '.', '>', '/', '?', '\''].all (fun d => !isDigit d) = true := by
    decide
  have hc := List.all_eq_true.mp hnone c hmem
  rw [h] at hc
  cases hc

/-- The code points of the characters that separate tokens. -/
def blankCodes : List Nat :=
  [9, 10, 11, 12, 13, 0x20, 0x85, 0xA0, 0x1680, 0x2000, 0x2001, 0x2002, 0x2003, 0x2004, 0x2005,
    0x2006, 0x2007, 0x2008, 0x2009, 0x200A, 0x200E, 0x200F, 0x2028, 0x2029, 0x202F, 0x205F, 0x3000]

/-- What holds of none of these code points holds of no blank. -/
lemma eq_false_of_isBlank {c : Char} (h : isBlank c = true) {p : Char → Bool}
    (hp : ∀ n ∈ blankCodes, p (Char.ofNat n) = false) : p c = false := by
  simp only [isBlank, isWhiteSpace, Bool.or_eq_true, Bool.and_eq_true, decide_eq_true_eq,
    beq_iff_eq] at h
  have hmem : c.toNat ∈ blankCodes := by
    simp only [blankCodes, List.mem_cons, List.not_mem_nil, or_false]
    omega
  have hc := hp _ hmem
  rwa [Char.ofNat_toNat] at hc

lemma isBlank_of_isIdentStart {c : Char} (h : isIdentStart c = true) : isBlank c = false := by
  by_contra hblank
  have hc : isIdentStart c = false :=
    eq_false_of_isBlank (Bool.of_not_eq_false hblank) (by decide +kernel)
  rw [h] at hc
  cases hc

end UnionView.Text
