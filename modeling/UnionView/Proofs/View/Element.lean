import Mathlib.Tactic.Lemma
import UnionView.View.Element

/-!
# Elements are drawn by their texts

What is drawn of an element are the texts that stand in it at any depth (`Element.leaves`), from
left to right and each on a line of its own. Groups leave no trace: it does not matter how they are
nested, nor which of them were made anew without the children that draw nothing
(`Element.regroup`).
-/

namespace UnionView

namespace Element

/-! ### The texts of an element -/

mutual

/-- The texts that stand in an element at any depth, from left to right. -/
def leaves : Element → List String
  | empty => []
  | text s => [s]
  | group children => leavesOf children

def leavesOf : List Element → List String
  | [] => []
  | e :: rest => e.leaves ++ leavesOf rest

end

@[simp] lemma leaves_empty : empty.leaves = [] := by rw [leaves]

@[simp] lemma leaves_text (s : String) : (text s).leaves = [s] := by rw [leaves]

@[simp] lemma leaves_group (children : List Element) :
    (group children).leaves = leavesOf children := by rw [leaves]

@[simp] lemma leavesOf_nil : leavesOf [] = [] := by rw [leavesOf]

@[simp] lemma leavesOf_cons (e : Element) (rest : List Element) :
    leavesOf (e :: rest) = e.leaves ++ leavesOf rest := by rw [leavesOf]

mutual

/-- An element draws nothing exactly if no text stands in it. -/
lemma isEmpty_iff_leaves (e : Element) : e.isEmpty = true ↔ e.leaves = [] := by
  match e with
  | empty => simp [isEmpty]
  | text s => simp [isEmpty]
  | group children =>
    rw [isEmpty, leaves_group]
    exact allEmpty_iff_leavesOf children

/-- Several elements draw nothing exactly if no text stands in any of them. -/
lemma allEmpty_iff_leavesOf (children : List Element) :
    allEmpty children = true ↔ leavesOf children = [] := by
  match children with
  | [] => simp [allEmpty]
  | e :: rest =>
    rw [allEmpty, Bool.and_eq_true, leavesOf_cons, List.append_eq_nil_iff]
    exact and_congr (isEmpty_iff_leaves e) (allEmpty_iff_leavesOf rest)

end

lemma leaves_eq_nil {e : Element} (h : e.isEmpty = true) : e.leaves = [] :=
  (isEmpty_iff_leaves e).mp h

lemma leaves_ne_nil {e : Element} (h : ¬e.isEmpty = true) : e.leaves ≠ [] :=
  fun hnil => h ((isEmpty_iff_leaves e).mpr hnil)

/-- Elements with the same texts agree on whether they draw anything. -/
lemma isEmpty_congr {e other : Element} (h : other.leaves = e.leaves) :
    other.isEmpty = e.isEmpty := by
  rw [Bool.eq_iff_iff, isEmpty_iff_leaves, isEmpty_iff_leaves, h]

/-! ### The text that is drawn -/

lemma linesOf_eq_nil_iff (children : List Element) :
    linesOf children = [] ↔ leavesOf children = [] := by
  induction children with
  | nil => simp [linesOf]
  | cons e rest ih =>
    rw [linesOf, leavesOf_cons]
    by_cases h : e.isEmpty = true
    · simp [h, leaves_eq_nil h, ih]
    · simp [h, leaves_ne_nil h]

mutual

/-- The text of an element is made of the texts that stand in it. -/
lemma toText_eq_leaves (e : Element) : e.toText = String.intercalate "\n" e.leaves := by
  match e with
  | empty => simp [toText]
  | text s => simp [toText]
  | group children =>
    rw [toText, leaves_group]
    exact intercalate_linesOf children

/-- A line of a group may hold several lines, which are separated in the same way. -/
lemma intercalate_linesOf (children : List Element) :
    String.intercalate "\n" (linesOf children) = String.intercalate "\n" (leavesOf children) := by
  match children with
  | [] => simp [linesOf]
  | e :: rest =>
    have hrest := intercalate_linesOf rest
    rw [linesOf, leavesOf_cons]
    by_cases h : e.isEmpty = true
    · -- no separator is written for what draws nothing
      rw [if_pos h, leaves_eq_nil h, List.nil_append]
      exact hrest
    · rw [if_neg h]
      have htext := toText_eq_leaves e
      by_cases hnil : leavesOf rest = []
      · rw [hnil, (linesOf_eq_nil_iff rest).mpr hnil, List.append_nil]
        simpa using htext
      · have hlines : linesOf rest ≠ [] := fun hlines => hnil ((linesOf_eq_nil_iff rest).mp hlines)
        rw [String.intercalate_cons_of_ne_nil hlines,
          String.intercalate_append_of_ne_nil (leaves_ne_nil h) hnil, htext, hrest]

end

/-! ### Writing an element -/

mutual

/-- Writes an element behind what was written before. -/
def writeTo (out : String) : Element → String
  | empty => out
  | text s => out ++ s
  | group children => writeAllTo true out children

/-- Writes the children of a group that draw something. A line ends in front of each of them but the
first. -/
def writeAllTo (first : Bool) (out : String) : List Element → String
  | [] => out
  | e :: rest =>
    if e.isEmpty then writeAllTo first out rest
    else writeAllTo false (writeTo (if first then out else out ++ "\n") e) rest

end

mutual

lemma writeTo_eq (out : String) (e : Element) : e.writeTo out = out ++ e.toText := by
  match e with
  | empty => simp [writeTo, toText]
  | text s => simp [writeTo, toText]
  | group children =>
    rw [writeTo, toText]
    exact (writeAllTo_eq out children).1

/-- The children of a group are written as its lines, the first of which begins on a line that was
begun before, or on a new one. -/
lemma writeAllTo_eq (out : String) (children : List Element) :
    writeAllTo true out children = out ++ String.intercalate "\n" (linesOf children) ∧
      writeAllTo false out children =
        if linesOf children = [] then out
        else out ++ "\n" ++ String.intercalate "\n" (linesOf children) := by
  match children with
  | [] => simp [writeAllTo, linesOf]
  | e :: rest =>
    rw [writeAllTo, writeAllTo, linesOf]
    by_cases h : e.isEmpty = true
    · simp only [h, if_true]
      exact writeAllTo_eq out rest
    · have hbehind (before : String) := (writeAllTo_eq (before ++ e.toText) rest).2
      simp only [h, if_true, if_false, Bool.false_eq_true, writeTo_eq, hbehind]
      by_cases hnil : linesOf rest = []
      · simp [hnil]
      · simp [hnil, String.intercalate_cons_of_ne_nil hnil, String.append_assoc]

end

/-! ### Groups made anew -/

mutual

/-- The element with the groups at the chosen positions made anew, without the children that draw
nothing. A position is the way from the root to the group, the number of a child at each step. -/
def regroup (chosen : List Nat → Bool) : Element → Element
  | empty => empty
  | text s => text s
  | group children =>
    if chosen [] then grouped (regroupAll chosen 0 children)
    else group (regroupAll chosen 0 children)

/-- The same for the children of a group, the first of which has the given number. -/
def regroupAll (chosen : List Nat → Bool) (number : Nat) : List Element → List Element
  | [] => []
  | e :: rest =>
    regroup (fun position => chosen (number :: position)) e :: regroupAll chosen (number + 1) rest

end

/-- Leaving out what draws nothing keeps all texts. -/
lemma leaves_grouped (children : List Element) :
    (grouped children).leaves = leavesOf children := by
  rw [grouped, leaves_group]
  induction children with
  | nil => rfl
  | cons e rest ih =>
    by_cases h : e.isEmpty = true
    · simp [h, leaves_eq_nil h, ih]
    · simp [h, ih]

mutual

/-- Groups that are made anew keep the texts that stand in them. -/
lemma leaves_regroup (chosen : List Nat → Bool) (e : Element) :
    (e.regroup chosen).leaves = e.leaves := by
  match e with
  | empty => rw [regroup]
  | text s => rw [regroup]
  | group children =>
    rw [regroup, leaves_group]
    split
    · rw [leaves_grouped, leavesOf_regroupAll]
    · rw [leaves_group, leavesOf_regroupAll]

lemma leavesOf_regroupAll (chosen : List Nat → Bool) (number : Nat) (children : List Element) :
    leavesOf (regroupAll chosen number children) = leavesOf children := by
  match children with
  | [] => rw [regroupAll]
  | e :: rest =>
    rw [regroupAll, leavesOf_cons, leavesOf_cons, leaves_regroup, leavesOf_regroupAll]

end

/-- What is written of an element are the texts that stand in it, from left to right and with one
line feed between any two, and it draws nothing exactly if there are none. So elements with the same
texts look the same however their groups are nested, and so does an element in which any groups were
made anew without the children that draw nothing. -/
theorem drawing_of_leaves (e : Element) :
    e.toText = String.intercalate "\n" e.leaves ∧
      (∀ out, e.writeTo out = out ++ e.toText) ∧
      (e.isEmpty = true ↔ e.leaves = []) ∧
      (∀ other : Element, other.leaves = e.leaves →
        other.toText = e.toText ∧ other.isEmpty = e.isEmpty) ∧
      ∀ chosen, (e.regroup chosen).toText = e.toText ∧
        (e.regroup chosen).isEmpty = e.isEmpty := by
  have hsame (other : Element) (h : other.leaves = e.leaves) :
      other.toText = e.toText ∧ other.isEmpty = e.isEmpty := by
    constructor
    · rw [toText_eq_leaves, toText_eq_leaves, h]
    · exact isEmpty_congr h
  refine ⟨toText_eq_leaves e, fun out => writeTo_eq out e, isEmpty_iff_leaves e, hsame, ?_⟩
  intro chosen
  exact hsame _ (leaves_regroup chosen e)

/-- Three texts, the second of which is empty, in groups and between elements that draw nothing. -/
def nestedTexts : Element :=
  group [group [text "7 is odd", group [empty]], empty, group [group [text ""], text "blue"]]

/-- Three texts nested in another way look the same: three lines, the second of which is empty. -/
theorem drawing_of_nestedTexts :
    nestedTexts.toText = "7 is odd\n\nblue" ∧
      (group [text "7 is odd", group [text "", group [text "blue"]]]).toText =
        nestedTexts.toText ∧
      nestedTexts.isEmpty = false ∧
      (nestedTexts.regroup fun position => position.length < 2).toText = nestedTexts.toText := by
  obtain ⟨htext, -, hempty, hsame, hregroup⟩ := drawing_of_leaves nestedTexts
  have hleaves : nestedTexts.leaves = ["7 is odd", "", "blue"] := by
    simp [nestedTexts]
  refine ⟨?_, ?_, ?_, (hregroup _).1⟩
  · rw [htext, hleaves]
    rfl
  · exact (hsame _ (by simp [hleaves])).1
  · rw [Bool.eq_false_iff, ne_eq, hempty, hleaves]
    exact List.cons_ne_nil _ _

end Element

end UnionView
