import UnionView.Proofs.Grammar.Declaration

/-!
# Generic parameters as they are read

A list of parameters that was read has a comma behind every parameter but the last one, which may
have none (`Generics.IsPunctuated`). Whoever prints the list relies on it.
-/

namespace UnionView

open Reader

/-- A comma stands behind every parameter that another one follows. -/
def Generics.IsPunctuated (g : Generics) : Prop :=
  g.parameters.Pairwise fun p _ => p.comma = true

namespace Read

variable (g : Grammar)

/-- A parameter with the comma behind it, unless the list ends. -/
def listedParameter? : Reader (Option Parameter) := do
  if ← peekOperator ">" then return none
  let p ← parameter g
  if ← peekOperator ">" then return some p
  operator ","
  return some { p with comma := true }

/-- Behind a parameter without a comma the list ends. -/
lemma listedParameter?_eq_some {c d : Cursor} {p : Parameter}
    (h : listedParameter? g c = .ok (some p, d)) :
    ¬(Terminal.operator ">").fits c.rest = true ∧
      (p.comma = true ∨ (Terminal.operator ">").fits d.rest = true) := by
  unfold listedParameter? at h
  rw [bind_of_ok (peekOperator_apply ">" c)] at h
  by_cases hend : (Terminal.operator ">").fits c.rest = true
  · rw [if_pos hend] at h
    cases h
  rw [if_neg hend] at h
  refine ⟨hend, ?_⟩
  obtain ⟨q, c₁, -, h⟩ := bind_eq_ok.mp h
  rw [bind_of_ok (peekOperator_apply ">" c₁)] at h
  by_cases hlast : (Terminal.operator ">").fits c₁.rest = true
  · rw [if_pos hlast] at h
    cases h
    exact .inr hlast
  · -- the list goes on, so a comma was read
    rw [if_neg hlast] at h
    obtain ⟨_, _, -, ⟨⟩⟩ := bind_eq_ok.mp h
    exact .inl rfl

lemma parameters_punctuated : (parameters g).Answers Generics.IsPunctuated := by
  refine .bind fun accepted => ?_
  cases accepted with
  | false => exact .pure .nil
  | true =>
    intro c generics d h
    obtain ⟨ps, c₁, hcollect, h⟩ := bind_eq_ok.mp h
    obtain ⟨_, c₂, -, ⟨⟩⟩ := bind_eq_ok.mp h
    obtain ⟨c', hsteps, -⟩ : ∃ c', Steps (listedParameter? g) _ ps c' ∧ _ :=
      collect_go_eq_ok_iff.mp hcollect
    exact hsteps.pairwise (E := fun code => (Terminal.operator ">").fits code = true)
      fun _ _ _ => listedParameter?_eq_some g

/-- A `where` behind the name of an enumeration leaves its parameters as they are. -/
lemma enumeration_punctuated {attributes : List Attribute} {written : Code} {c d : Cursor}
    {e : Enumeration} (h : enumeration g attributes written c = .ok (.enumeration e, d)) :
    e.generics.IsPunctuated := by
  obtain ⟨_, _, -, h⟩ := bind_eq_ok.mp h
  obtain ⟨_, _, -, h⟩ := bind_eq_ok.mp h
  obtain ⟨_, _, -, h⟩ := bind_eq_ok.mp h
  obtain ⟨_, _, -, h⟩ := bind_eq_ok.mp h
  obtain ⟨generics, _, hgenerics, h⟩ := bind_eq_ok.mp h
  obtain ⟨_, _, -, h⟩ := bind_eq_ok.mp h
  obtain ⟨_, _, -, ⟨⟩⟩ := bind_eq_ok.mp h
  have hpunctuated : generics.IsPunctuated := parameters_punctuated g hgenerics
  exact hpunctuated

end Read

/-- The parameters of an enumeration that was read. -/
lemma Code.isPunctuated_of_item? {code : Code} {e : Enumeration}
    (h : code.item? = .ok (.enumeration e)) : e.generics.IsPunctuated := by
  obtain ⟨_, hdeclaration, -⟩ := run_eq_ok_iff.mp h
  obtain ⟨_, _, _, -, hitem, -⟩ := Read.declaration_eq_ok_iff.mp hdeclaration
  obtain ⟨_, _, -, henumeration, -⟩ := Read.item_eq_ok_enumeration _ hitem
  exact Read.enumeration_punctuated _ henumeration

end UnionView
