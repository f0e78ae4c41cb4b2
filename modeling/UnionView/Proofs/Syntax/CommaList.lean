import Mathlib.Data.List.Forall2
import UnionView.Proofs.Syntax.Taking
import UnionView.Proofs.Writing.Grammar

/-!
# Lists with commas

`Code.IsList element code as` says that the code is some elements with commas between them and
allowed at the end, where `element code a rest` says that the element `a` stands at the front of
`code` and `rest` behind it. What is read as such a list is one
(`Reader.isList_of_separatedBy`), and such a list is read (`Reader.separatedBy_of_isList`), if both
are so for its elements.
-/

namespace UnionView

variable {α β : Type} {element : Code → α → Code → Prop} {element' : Code → β → Code → Prop}
  {code : Code}

/-- Elements up to the end of the code, with commas between them and allowed at the end. -/
inductive Code.IsList (element : Code → α → Code → Prop) : Code → List α → Prop
  | nil : IsList element [] []
  | last {code : Code} {a : α} (single : element code a []) : IsList element code [a]
  | cons {code rest : Code} {spacing : Spacing} {a : α} {as : List α}
      (first : element code a (.punct ',' spacing :: rest)) (others : IsList element rest as) :
      IsList element code (a :: as)

namespace Code.IsList

/-- If every element is one of another list, the elements are those of another list. -/
lemma exists_forall₂ {R : α → β → Prop}
    (h : ∀ code b rest, element' code b rest → ∃ a, element code a rest ∧ R a b) {bs : List β}
    (hlist : code.IsList element' bs) : ∃ as, code.IsList element as ∧ List.Forall₂ R as bs := by
  induction hlist with
  | nil => exact ⟨[], .nil, .nil⟩
  | last single =>
    obtain ⟨a, ha, hR⟩ := h _ _ _ single
    exact ⟨[a], .last ha, .cons hR .nil⟩
  | cons first _ ih =>
    obtain ⟨a, ha, hR⟩ := h _ _ _ first
    obtain ⟨as, has, hRs⟩ := ih
    exact ⟨a :: as, .cons ha has, .cons hR hRs⟩

lemma of_forall₂ {R : α → β → Prop} {as : List α} {bs : List β} (hR : List.Forall₂ R as bs)
    (hlist : code.IsList (fun code a rest => ∀ b, R a b → element' code b rest) as) :
    code.IsList element' bs := by
  induction hlist generalizing bs with
  | nil =>
    cases hR
    exact .nil
  | last single =>
    obtain _ | ⟨hb, ⟨⟩⟩ := hR
    exact .last (single _ hb)
  | cons first _ ih =>
    obtain _ | ⟨hb, hbs⟩ := hR
    exact .cons (first _ hb) (ih hbs)

end Code.IsList

namespace Reader

variable {p : Reader α}

/-- An element of a list, and the comma behind it unless the list ends. -/
def listElement (p : Reader α) : Reader α := do
  let a ← p
  if !(← isEnded) then operator ","
  return a

/-- Behind an element of a list the list ends or a comma follows. -/
lemma listElement_eq_ok {c d : Cursor} {a : α} (h : listElement p c = .ok (a, d)) :
    ∃ e, p c = .ok (a, e) ∧ d.leftover = e.leftover ∧ d.behind = e.behind ∧
      (e.isEnded = true ∧ d = e ∨ ∃ spacing, e.rest = .punct ',' spacing :: d.rest) := by
  obtain ⟨_, e, he, h⟩ := bind_eq_ok.mp h
  obtain ⟨_, _, ⟨⟩, h⟩ := bind_eq_ok.mp h
  split at h
  · obtain ⟨_, _, hcomma, ⟨⟩⟩ := bind_eq_ok.mp h
    obtain ⟨spacing, rest, hrest⟩ := (fits_mark_iff rfl).mp (take_eq_ok.mp hcomma).1
    rw [operator_of_mark rfl hrest] at hcomma
    cases hcomma
    exact ⟨e, he, rfl, rfl, .inr ⟨spacing, hrest⟩⟩
  · rename_i hend
    cases h
    exact ⟨d, he, rfl, rfl, .inl ⟨by simpa using hend, rfl⟩⟩

lemma elementStep_eq_ok {c d : Cursor} {answer : Option α}
    (h : elementStep p c = .ok (answer, d)) :
    c.isEnded = true ∧ answer = none ∧ d = c ∨
      c.isEnded = false ∧ ∃ a, answer = some a ∧ p c = .ok (a, d) := by
  obtain ⟨_, _, ⟨⟩, h⟩ := bind_eq_ok.mp h
  split at h
  · rename_i hended
    cases h
    exact .inl ⟨hended, rfl, rfl⟩
  · rename_i hended
    obtain ⟨a, _, hp, ⟨⟩⟩ := bind_eq_ok.mp h
    exact .inr ⟨eq_false_of_ne_true hended, a, rfl, hp⟩

/-- If nothing is left over behind some steps, nothing was left over before them. -/
lemma Steps.none_of_none {step : Reader (Option α)} [step.Tidy] {c d : Cursor} {as : List α}
    (h : Steps step c as d) (hleft : d.leftover = none) : c.leftover = none := by
  induction h with
  | nil => exact hleft
  | cons first _ ih => exact (Tidy.yields first (ih hleft)).1

/-- Elements that are read one after the other up to the end of the code are a list. -/
lemma isList_of_steps [p.Tidy] {behind : Nat} {whole : Code}
    (hp : ∀ ⦃c a d⦄, p c = .ok (a, d) → c.rest <:+ whole → c.behind = behind →
      c.leftover = none → d.leftover = none → element c.rest a d.rest) {c d : Cursor} {as : List α}
    (h : Steps (elementStep (listElement p)) c as d) (hrest : d.rest = [])
    (hleft : d.leftover = none) (hsuffix : c.rest <:+ whole) (hbehind : c.behind = behind) :
    c.rest.IsList element as := by
  have htidy : (elementStep (listElement p)).Tidy := by
    unfold elementStep listElement
    infer_instance
  induction h with
  | nil c =>
    rw [hrest]
    exact .nil
  | @cons c c' d a as first others ih =>
    obtain ⟨-, ⟨⟩, -⟩ | ⟨-, _, ⟨⟩, hfirst⟩ := elementStep_eq_ok first
    obtain ⟨e, he, heleft, hebehind, hcomma⟩ := listElement_eq_ok hfirst
    rw [others.none_of_none hleft] at heleft
    obtain ⟨hnone, ⟨hesuffix, hebehind'⟩, -⟩ := Tidy.yields he heleft.symm
    have helement := hp he hsuffix hbehind hnone heleft.symm
    obtain ⟨hended, rfl⟩ | ⟨spacing, hcomma⟩ := hcomma
    · -- where the list ends there is no further step
      cases others with
      | nil =>
        rw [hrest] at helement
        exact .last helement
      | cons second =>
        obtain ⟨-, ⟨⟩, -⟩ | ⟨hopen, -⟩ := elementStep_eq_ok second
        rw [hended] at hopen
        cases hopen
    · rw [hcomma] at helement hesuffix
      exact .cons helement (ih hrest hleft
        ((List.suffix_cons _ _).trans (hesuffix.trans hsuffix))
        (hebehind.trans (hebehind'.trans hbehind)))

/-- What is read as a list up to the end of the code is a list, if this is so for what is read as
its elements. -/
lemma isList_of_separatedBy [p.Tidy] {behind : Nat} {whole : Code}
    (hp : ∀ ⦃c a d⦄, p c = .ok (a, d) → c.rest <:+ whole → c.behind = behind →
      c.leftover = none → d.leftover = none → element c.rest a d.rest) {d : Cursor} {as : List α}
    (h : separatedBy "," p { rest := whole, behind } = .ok (as, d)) (hrest : d.rest = [])
    (hleft : d.leftover = none) : whole.IsList element as := by
  obtain ⟨c, hsteps, hend⟩ := collect_go_eq_ok_iff.mp h
  have hsame : d = c := by
    obtain ⟨-, hlast⟩ | ⟨-, rfl⟩ := hend
    · obtain ⟨-, -, rfl⟩ | ⟨-, _, ⟨⟩, -⟩ := elementStep_eq_ok (p := listElement p) hlast
      rfl
    · rfl
  subst hsame
  exact isList_of_steps hp hsteps hrest hleft List.suffix_rfl rfl

/-- A step takes an element and the comma behind it. -/
lemma elementStep_of_listElement {c d : Cursor} {a : α} (hopen : c.isEnded = false)
    (h : listElement p c = .ok (a, d)) : elementStep (listElement p) c = .ok (some a, d) := by
  refine bind_eq_ok.mpr ⟨_, _, rfl, ?_⟩
  rw [hopen, if_neg Bool.false_ne_true]
  exact bind_eq_ok.mpr ⟨a, d, h, rfl⟩

lemma listElement_of_ended {c d : Cursor} {a : α} (h : p c = .ok (a, d))
    (hended : d.isEnded = true) : listElement p c = .ok (a, d) := by
  refine bind_eq_ok.mpr ⟨a, d, h, bind_eq_ok.mpr ⟨_, _, rfl, ?_⟩⟩
  rw [hended]
  rfl

lemma listElement_of_comma {c d : Cursor} {a : α} {spacing : Spacing} {rest : Code}
    (h : p c = .ok (a, d)) (hcomma : d.rest = .punct ',' spacing :: rest) :
    ∃ written, listElement p c = .ok (a, { d with rest, written }) := by
  refine ⟨.punct ',' .alone :: d.written,
    bind_eq_ok.mpr ⟨a, d, h, bind_eq_ok.mpr ⟨_, _, rfl, ?_⟩⟩⟩
  have hopen : d.isEnded = false := by
    rw [Cursor.isEnded, hcomma]
  rw [hopen]
  exact bind_eq_ok.mpr ⟨_, _, operator_of_mark rfl hcomma, rfl⟩

/-- The elements of a list are read one after the other up to its end. -/
lemma steps_of_isList {behind : Nat}
    (hp : ∀ ⦃code a rest⦄, element code a rest → rest.length < code.length ∧
      Cursor.isEnded { rest := code } = false ∧ ∀ written, ∃ written',
        p { rest := code, behind, written } = .ok (a, { rest, behind, written := written' }))
    {as : List α} (h : code.IsList element as) (written : Code) :
    as.length ≤ code.length ∧ ∃ written', Steps (elementStep (listElement p))
      { rest := code, behind, written } as { rest := [], behind, written := written' } := by
  induction h generalizing written with
  | nil => exact ⟨Nat.le_refl _, written, .nil _⟩
  | @last code a single =>
    obtain ⟨hlength, hopen, hrun⟩ := hp single
    obtain ⟨written', hrun⟩ := hrun written
    have hlast := listElement_of_ended hrun (by rfl)
    exact ⟨hlength, written', .cons (elementStep_of_listElement hopen hlast) (.nil _)⟩
  | @cons code rest spacing a as first _ ih =>
    obtain ⟨hlength, hopen, hrun⟩ := hp first
    obtain ⟨written', hrun⟩ := hrun written
    obtain ⟨written'', hcomma⟩ := listElement_of_comma hrun rfl
    obtain ⟨hle, written''', hsteps⟩ := ih written''
    rw [List.length_cons] at hlength ⊢
    refine ⟨by omega, written''', .cons (elementStep_of_listElement hopen hcomma) hsteps⟩

/-- A list is read up to the end of the code, if this is so for its elements. -/
lemma separatedBy_of_isList {behind : Nat}
    (hp : ∀ ⦃code a rest⦄, element code a rest → rest.length < code.length ∧
      Cursor.isEnded { rest := code } = false ∧ ∀ written, ∃ written',
        p { rest := code, behind, written } = .ok (a, { rest, behind, written := written' }))
    {as : List α} (h : code.IsList element as) :
    ∃ written, separatedBy "," p { rest := code, behind } =
      .ok (as, { rest := [], behind, written }) := by
  obtain ⟨hle, written, hsteps⟩ := steps_of_isList hp h []
  exact ⟨written, collect_go_eq_ok_iff.mpr ⟨_, hsteps, .inl ⟨Nat.lt_succ_of_le hle, rfl⟩⟩⟩

end Reader

end UnionView
