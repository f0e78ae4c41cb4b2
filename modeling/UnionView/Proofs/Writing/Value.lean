import UnionView.Proofs.Attribute.Arguments
import UnionView.Proofs.Writing.Item

/-!
# Values and arguments that are read of sound code

An expression that is a path was read by the reader of paths, so in sound code the path is sound.
With it are the paths in the arguments of an attribute
(`AttributeArguments.isSound_of_ofCode`).
-/

namespace UnionView

open Reader

/-! ### Expressions -/

/-- If the expression is a path, the path is sound. -/
def Form.IsSound (form : Form) : Prop :=
  ∀ p, form = .path p → p.IsSound

lemma Form.isSound_of_not_isPath {form : Form} (h : ¬form.IsPath) : form.IsSound := by
  rintro p rfl
  exact absurd trivial h

namespace Read

variable {g : Grammar} [g.IsTidy]

lemma gives_of_not_isPath {p : Reader Form} [p.Tidy] (h : p.Answers (¬·.IsPath)) :
    p.Gives Form.IsSound :=
  (Gives.of_answers h).mono fun _ => Form.isSound_of_not_isPath

/-- What the grammar answers where a path may be read is sound. -/
structure HasSoundForms (g : Grammar) : Prop where
  expression : ∀ allowStruct, (g.expression allowStruct).Gives Form.IsSound
  operand : ∀ allowStruct, (g.operand allowStruct).Gives Form.IsSound
  operation : ∀ left allowStruct base, left.IsSound →
    (g.operation left allowStruct base).Gives Form.IsSound

lemma gives_pathOperand (allowStruct : Bool) :
    (pathOperand g allowStruct).Gives Form.IsSound := by
  refine .bind (P := fun answer => ∀ p, answer = some p → p.IsSound)
    (yields_qualifiedPath g true) fun answer => ?_
  refine .seq fun _ => .seq fun _ => .ite ?_ (.seq fun _ => .ite ?_ ?_)
  · exact .seq fun _ => .seq fun _ => .pure fun _ => Form.isSound_of_not_isPath not_false
  · exact .seq fun _ => .pure fun _ => Form.isSound_of_not_isPath not_false
  · cases answer with
    | none => exact .pure fun _ => Form.isSound_of_not_isPath not_false
    | some p =>
      refine .pure fun hp => ?_
      rintro _ ⟨⟩
      exact hp p rfl

lemma gives_atom (allowStruct : Bool) : (atom g allowStruct).Gives Form.IsSound := by
  have hother {form : Form} (h : ¬form.IsPath) : (pure form : Reader Form).Gives Form.IsSound :=
    .pure (Form.isSound_of_not_isPath h)
  refine .seq fun _ => .ite (.seq fun _ => hother not_false) ?_
  refine .seq fun _ => .ite (.seq fun _ => .seq fun _ => .seq fun _ => hother not_false) ?_
  refine .seq fun _ => .ite (.seq fun _ => hother not_false) ?_
  refine .seq fun _ => .seq fun _ => .ite ?_ ?_
  · exact .seq fun _ => .seq fun _ => .seq fun _ => .seq fun _ => hother not_false
  refine .seq fun _ => .ite (gives_pathOperand allowStruct) ?_
  refine .seq fun _ => .ite (.seq fun _ => hother not_false) ?_
  refine .seq fun _ => .ite (.seq fun _ => hother not_false) ?_
  refine .seq fun _ => .ite (hother not_false) (.seq fun _ => .ite (hother not_false) ?_)
  refine .seq fun _ => .ite (gives_of_not_isPath (answers_range allowStruct)) ?_
  refine .seq fun _ => .ite (hother not_false) ?_
  exact .seq fun _ => .ite (.seq fun _ => hother not_false) (.expected _)

lemma gives_trailers {first : Form} (h : first.IsSound) :
    (trailers g first).Gives Form.IsSound := by
  refine .seq fun c => ?_
  generalize c.rest.length + 1 = fuel
  induction fuel generalizing first with
  | zero => exact .pure h
  | succ fuel ih =>
    have hother : (trailers.go g fuel .other).Gives Form.IsSound :=
      ih (Form.isSound_of_not_isPath not_false)
    refine .seq fun _ => .ite (.seq fun _ => hother) (.seq fun _ => .seq fun _ => ?_)
    refine .ite (.seq fun _ => .seq fun _ => hother) (.seq fun _ => ?_)
    exact .ite (.seq fun _ => hother) (.seq fun _ => .ite (.seq fun _ => hother) (.pure h))

lemma gives_operand (allowStruct : Bool) : (operand g allowStruct).Gives Form.IsSound := by
  have hother : (pure .other : Reader Form).Gives Form.IsSound :=
    .pure (Form.isSound_of_not_isPath not_false)
  refine .seq fun attributes => .seq fun _ => .ite ?_ (.seq fun _ => .ite ?_ ?_)
  · refine .seq fun _ => .seq fun _ => .seq fun _ => ?_
    extract_lets behindBorrow
    have hbehind (u : Unit) : (behindBorrow u).Gives Form.IsSound := .seq fun _ => hother
    exact .ite (.seq fun _ => .seq fun _ => hbehind ()) (.seq fun _ => hbehind ())
  · exact gives_of_not_isPath (answers_signs allowStruct)
  · refine .seq fun _ => .bind (gives_atom allowStruct) fun first => .of_imp fun hfirst => ?_
    refine .bind (gives_trailers hfirst) fun form => ?_
    exact .ite (.failAt _ _) (.pure id)

lemma gives_operation (allowStruct : Bool) (base : Precedence) {left : Form}
    (h : left.IsSound) : (operation g left allowStruct base).Gives Form.IsSound := by
  refine .seq fun c => ?_
  generalize c.rest.length + 1 = fuel
  induction fuel generalizing left with
  | zero => exact .pure h
  | succ fuel ih =>
    have hstep : (operationStep g left allowStruct base).Gives fun next =>
        ∀ form, next = some form → ¬form.IsPath :=
      .of_answers (answers_operationStep left allowStruct base)
    refine .bind hstep fun next => ?_
    cases next with
    | none => exact .pure fun _ => h
    | some form => exact .of_imp fun hform => ih (Form.isSound_of_not_isPath (hform form rfl))

end Read

lemma hasSoundForms_grammar (fuel : Nat) : Read.HasSoundForms (grammar fuel) := by
  induction fuel with
  | zero => exact ⟨fun _ => .unexpected [], fun _ => .unexpected [], fun _ _ _ _ => .unexpected []⟩
  | succ fuel ih =>
    refine ⟨fun allowStruct => ?_, Read.gives_operand, fun _ allowStruct base h =>
      Read.gives_operation allowStruct base h⟩
    exact .bind (ih.operand allowStruct) fun left => .of_imp (ih.operation left allowStruct .jump)

/-! ### Arguments -/

/-- If the value of the argument is a path, the path is sound. -/
def Meta.HasSoundPath (m : Meta) : Prop :=
  ∀ p, m.HasPath p → p.IsSound

def WrittenArgument.IsSound : WrittenArgument → Prop
  | runtime p => p.IsSound
  | renderers entries => ∀ r ∈ entries, r.renderer.IsSound

/-- The paths in the arguments are sound. -/
structure AttributeArguments.IsSound (a : AttributeArguments) : Prop where
  runtime : ∀ p, a.runtime = some p → p.IsSound
  renderers : ∀ entry ∈ a.renderers, entry.2.IsSound

namespace Read

lemma gives_metaValue (fuel : Nat) : (metaValue (grammar fuel)).Gives Form.IsSound := by
  refine .seq fun _ => .ite ?_ (.seq fun _ => .seq fun _ => .ite (.fail _) ?_)
  · exact .seq fun _ => .pure (Form.isSound_of_not_isPath not_false)
  · exact (hasSoundForms_grammar fuel).expression true

lemma gives_assignedPath (fuel : Nat) : (metaAssignment (grammar fuel)).Gives fun form =>
    ∀ equals value p, form = .value equals value (.path p) → p.IsSound := by
  refine .seq fun _ => .seq fun _ => .seq fun _ => .bind (gives_metaValue fuel) fun _ => .pure ?_
  rintro h _ _ p ⟨⟩
  exact h p rfl

lemma gives_argument (fuel : Nat) :
    (meta? (grammar fuel)).Gives fun m => m.IsSound ∧ m.HasSoundPath := by
  have hpath : (meta? (grammar fuel)).Gives Meta.HasSoundPath := by
    refine .seq fun _ => .seq fun _ => .seq fun _ => .seq fun _ => .ite ?_ (.ite ?_ ?_)
    · refine .seq fun _ => .pure ?_
      rintro _ ⟨_, _, ⟨⟩⟩
    · refine .bind (gives_assignedPath fuel) fun _ => .pure fun h p => ?_
      rintro ⟨equals, value, hform⟩
      exact h equals value p hform
    · refine .pure ?_
      rintro _ ⟨_, _, ⟨⟩⟩
  exact (gives_meta? (grammar fuel)).and hpath

lemma gives_assignment (fuel : Nat) : (assignment (grammar fuel)).Gives Meta.HasSoundPath := by
  refine .seq fun _ => .bind (gives_assignedPath fuel) fun _ => .pure fun h p => ?_
  rintro ⟨equals, value, hform⟩
  exact h equals value p hform

end Read

lemma forall_mem_of_forall₂ {α β : Type} {R : α → β → Prop} {P : α → Prop} {Q : β → Prop}
    {as : List α} {bs : List β} (h : List.Forall₂ R as bs) (has : ∀ a ∈ as, P a)
    (hR : ∀ a b, P a → R a b → Q b) : ∀ b ∈ bs, Q b := by
  induction h with
  | nil => exact nofun
  | cons hab _ ih =>
    obtain ⟨ha, has⟩ := List.forall_mem_cons.mp has
    exact List.forall_mem_cons.mpr ⟨hR _ _ ha hab, ih has⟩

lemma WrittenArgument.isSound_of_means {fuel : Nat} {m : Meta} {argument : WrittenArgument}
    (hcode : m.IsSound) (hpath : m.HasSoundPath) (h : m.Means (grammar fuel) argument) :
    argument.IsSound := by
  cases argument with
  | runtime p => exact hpath p h.2
  | renderers entries =>
    obtain ⟨group, hgroup, hentries⟩ := Except.bind_eq_ok_iff.mp h.2
    obtain ⟨metas, hmetas, hrenderers⟩ := Except.bind_eq_ok_iff.mp hentries
    have hsound := Gives.run (.separatedBy (Read.gives_assignment fuel))
      (hcode group (Meta.group?_eq_ok_iff.mp hgroup)) hmetas
    refine forall_mem_of_forall₂ (Except.mapM_eq_ok_iff.mp hrenderers) hsound fun m r hm hr => ?_
    exact hm r.renderer (Meta.renderer?_eq_ok_iff.mp hr).2.2

/-- The paths in the arguments that are read of sound code are sound. -/
theorem AttributeArguments.isSound_of_ofCode {code : Code} {behind : Nat} {a : AttributeArguments}
    (hcode : code.IsSound) (h : ofCode code behind = .ok a) : a.IsSound := by
  obtain ⟨c, hread, hleft, -⟩ := run_eq_ok_iff.mp (Except.mapError_eq_ok_iff.mp h)
  obtain ⟨metas, d, hmetas, hread⟩ := bind_eq_ok.mp hread
  obtain ⟨written, hwritten, hread⟩ := Except.bind_eq_ok_iff.mp hread
  obtain ⟨a, hchecked, ⟨⟩⟩ := Except.bind_eq_ok_iff.mp hread
  have hsound : ∀ m ∈ metas, m.IsSound ∧ m.HasSoundPath := by
    obtain ⟨-, -, hpasses⟩ :=
      YieldsBehind.separatedBy (Read.gives_argument _) hmetas hleft
    obtain ⟨_, -, hall⟩ := hpasses hcode.isSoundEnd
    exact hall
  obtain ⟨arguments, hmeans, -, hruntime, hrenderers⟩ :=
    WrittenArguments.foldlM_add_eq_ok_iff.mp hwritten
  have harguments : ∀ argument ∈ arguments, argument.IsSound :=
    forall_mem_of_forall₂ hmeans hsound fun m argument hm =>
      WrittenArgument.isSound_of_means hm.1 hm.2
  obtain ⟨-, hruntime', hrenderers'⟩ := checked_eq_ok_iff.mp hchecked
  constructor
  · intro p hp
    rw [hruntime', hruntime] at hp
    obtain ⟨argument, hmem, hargument⟩ := List.mem_filterMap.mp (List.mem_of_head? hp)
    cases argument with
    | runtime =>
      cases hargument
      exact harguments _ hmem
    | renderers => cases hargument
  · rw [hrenderers', hrenderers]
    refine List.forall_mem_map.mpr fun r hr => ?_
    obtain ⟨argument, hmem, hargument⟩ := List.mem_flatMap.mp hr
    cases argument with
    | runtime => cases hargument
    | renderers => exact harguments _ hmem r hargument

end UnionView
