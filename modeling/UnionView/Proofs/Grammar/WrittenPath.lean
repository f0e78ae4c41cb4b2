import UnionView.Grammar.File
import UnionView.Proofs.Syntax.Path

/-!
# Paths in expressions

A path that an expression is (`Form.path`) consists of written segments: names that may stand in
a path, with nothing behind them or with arguments in angle brackets behind `::`. The readers of
expressions contain each other, so this is proved for the whole grammar at once
(`hasWrittenPaths_grammar`), by induction on how deep it is nested.
-/

namespace UnionView

open Reader

namespace Path

/-- What a name of a path may be in an import. -/
def importStarts : List Terminal :=
  [.identifier, .word "self", .word "super", .word "crate", .word "try"]

/-- Whether a name may stand in an import. -/
def isImportName (name : String) : Bool :=
  importStarts.any (·.fits [.ident name])

end Path

/-- A segment of a path as it is read: arguments stand in angle brackets behind `::`. -/
structure PathSegment.IsWritten (s : PathSegment) : Prop where
  name : s.name = "Self" ∨ Path.isImportName s.name = true
  arguments : s.arguments = [] ∨
    ∃ inner, s.arguments = Path.separator ++ .punct '<' .alone :: inner

def Path.IsWritten (p : Path) : Prop :=
  ∀ s ∈ p.segments, s.IsWritten

/-- If the expression is a path, its segments are written ones. -/
def Form.IsWritten (form : Form) : Prop :=
  ∀ p, form = .path p → p.IsWritten

/-- If a value is assigned that is a path, its segments are written ones. -/
def MetaForm.IsWritten (form : MetaForm) : Prop :=
  ∀ equals value form', form = .value equals value form' → form'.IsWritten

namespace Read

variable {g : Grammar}

/-! ### Segments -/

lemma silent_angleList (element : Reader Bool) : (angleList element).Silent := by
  refine .collect (.bind (.of_looks (looks_peek _)) fun _ => .ite (.pure _) ?_)
  refine .bind (.capture _) fun _ => .bind (.of_looks (looks_peek _)) fun _ => .ite (.pure _) ?_
  exact .bind (.capture _) fun _ => .pure _

lemma acceptOperator_of_fits {c d : Cursor} {text : String} {accepted : Bool}
    (hfits : (Terminal.operator text).fits c.rest = true)
    (h : acceptOperator text c = .ok (accepted, d)) :
    d.written = (operatorCode text.toList).reverse ++ c.written := by
  unfold acceptOperator accept at h
  rw [bind_of_ok (peek_apply _ c), hfits, if_pos rfl, bind_of_ok (advance_apply _ c)] at h
  cases h
  rfl

lemma written_of_operator {c d : Cursor} {text : String} (h : operator text c = .ok ((), d)) :
    d.written = (operatorCode text.toList).reverse ++ c.written := by
  obtain ⟨-, ⟨⟩⟩ := take_eq_ok.mp h
  rfl

/-- Arguments behind `::` are written down with `::` and their bracket first. -/
lemma arguments_eq_ok {c d : Cursor} (hstart : (Terminal.operator "::").fits c.rest = true)
    (h : arguments g c = .ok ((), d)) :
    ∃ inner : Code, d.written =
      (Path.separator ++ .punct '<' .alone :: inner).reverse ++ c.written := by
  obtain ⟨_, c₁, haccept, h⟩ := bind_eq_ok.mp h
  obtain ⟨_, c₂, hopen, h⟩ := bind_eq_ok.mp h
  obtain ⟨entries, c₃, hlist, h⟩ := bind_eq_ok.mp h
  obtain ⟨_, c₄, ⟨⟩, h⟩ := bind_eq_ok.mp h
  refine ⟨lifetimesFirst entries ++ operatorCode ['>'], ?_⟩
  rw [written_of_operator h]
  show _ ++ ((lifetimesFirst entries).reverse ++ c₃.written) = _
  rw [silent_angleList _ hlist, written_of_operator hopen, acceptOperator_of_fits hstart haccept]
  simp [Path.separator, operatorCode]

/-- The arguments that are handed over behind `::`. -/
lemma capture_arguments_eq_ok {c d : Cursor} {code : Code}
    (hstart : (Terminal.operator "::").fits c.rest = true)
    (h : capture (arguments g) c = .ok (((), code), d)) :
    ∃ inner : Code, code = Path.separator ++ .punct '<' .alone :: inner := by
  simp only [capture] at h
  split at h
  · rename_i c' harguments
    obtain ⟨inner, hinner⟩ := arguments_eq_ok (c := { c with written := [] }) hstart harguments
    cases h
    refine ⟨inner, ?_⟩
    rw [hinner, List.append_nil, List.reverse_reverse]
  · cases h

lemma anyIdentifier_eq_ok {c d : Cursor} {name : String} (h : anyIdentifier c = .ok (name, d)) :
    c.rest = .ident name :: d.rest := by
  obtain ⟨_, _, ⟨⟩, h⟩ := bind_eq_ok.mp h
  generalize hrest : c.rest = rest at h
  split at h
  · obtain ⟨_, _, hadvance, ⟨⟩⟩ := bind_eq_ok.mp h
    rw [advance_apply] at hadvance
    cases hadvance
    rw [hrest]
    rfl
  · exact absurd h (expected_ne_ok _ _ _)

lemma fits_of_identifier {c d : Cursor} {name : String} (h : identifier c = .ok (name, d)) :
    Terminal.identifier.fits [.ident name] = true := by
  have hrest := identifier_eq_ok h
  obtain ⟨_, _, ⟨⟩, h⟩ := bind_eq_ok.mp h
  obtain ⟨_, _, htake, ⟨⟩⟩ := bind_eq_ok.mp h
  have hfits := (take_eq_ok.mp htake).1
  rw [hrest] at hfits
  exact hfits

lemma isImportName_of_fits {name : String} {rest : Code}
    (h : [Terminal.word "super", .word "self", .word "crate", .word "try"].any
      (·.fits (.ident name :: rest)) = true) : Path.isImportName name = true := by
  simp only [List.any_cons, List.any_nil, Terminal.fits, Bool.or_false, Bool.or_eq_true,
    beq_iff_eq] at h
  simp only [Path.isImportName, Path.importStarts, List.any_cons, List.any_nil, Terminal.fits,
    Bool.or_false, Bool.or_eq_true, beq_iff_eq]
  obtain h | h | h | h := h
  · exact .inr (.inr (.inl h))
  · exact .inr (.inl h)
  · exact .inr (.inr (.inr (.inl h)))
  · exact .inr (.inr (.inr (.inr h)))

/-- Behind a name that may stand in a path there are no arguments, or arguments behind `::`. -/
lemma segment_isWritten : (segment g true).Answers PathSegment.IsWritten := by
  intro c
  refine AnswersOn.of_look (looks_peekAny _) fun isWord hword => ?_
  cases isWord with
  | true =>
    intro s d h
    obtain ⟨name, _, hname, ⟨⟩⟩ := bind_eq_ok.mp h
    have hfits := congrArg Prod.fst (Except.ok.inj hword)
    rw [anyIdentifier_eq_ok hname] at hfits
    exact ⟨.inr (isImportName_of_fits hfits), .inl rfl⟩
  | false =>
    rw [if_neg Bool.false_ne_true]
    refine .of_look (looks_peek _) fun isSelf hself => ?_
    extract_lets behindName
    have hbehind : ∀ name, (name = "Self" ∨ Path.isImportName name = true) →
        (behindName name).Answers PathSegment.IsWritten := by
      intro name hname c s d h
      obtain ⟨_, _, ⟨⟩, h⟩ := bind_eq_ok.mp h
      obtain ⟨_, _, ⟨⟩, h⟩ := bind_eq_ok.mp h
      obtain ⟨third, _, hthird, h⟩ := bind_eq_ok.mp h
      obtain ⟨⟩ := hthird
      split at h
      · rename_i hstart
        obtain ⟨⟨_, code⟩, _, hcapture, h⟩ := bind_eq_ok.mp h
        obtain ⟨_, _, ⟨⟩, ⟨⟩⟩ := bind_eq_ok.mp h
        simp only [Bool.false_or, Bool.and_eq_true] at hstart
        exact ⟨hname, .inr (capture_arguments_eq_ok hstart.1 hcapture)⟩
      · cases h
        exact ⟨hname, .inl rfl⟩
    intro s d h
    cases isSelf with
    | true =>
      obtain ⟨name, _, hname, h⟩ := bind_eq_ok.mp h
      have hfits := congrArg Prod.fst (Except.ok.inj hself)
      rw [anyIdentifier_eq_ok hname] at hfits
      exact hbehind name (.inl (beq_iff_eq.mp hfits)) h
    | false =>
      obtain ⟨name, _, hname, h⟩ := bind_eq_ok.mp h
      refine hbehind name (.inr ?_) h
      unfold Path.isImportName Path.importStarts
      rw [List.any_cons, fits_of_identifier hname, Bool.true_or]

lemma path_isWritten : (path g true).Answers Path.IsWritten := by
  refine .bind fun rooted => .bind_of segment_isWritten fun first hfirst => ?_
  refine .bind_of (.collect (P := PathSegment.IsWritten) ?_) fun more hmore => ?_
  · refine .bind fun _ => .bind fun _ => .ite ?_ (.pure nofun)
    refine .bind fun _ => .bind_of segment_isWritten fun s hs => .pure ?_
    rintro _ ⟨⟩
    exact hs
  · exact .pure (List.forall_mem_cons.mpr ⟨hfirst, hmore⟩)

/-! ### Expressions -/

lemma qualifiedPath_isWritten :
    (qualifiedPath g true).Answers fun answer => ∀ p, answer = some p → p.IsWritten := by
  refine .bind fun _ => .ite ?_ (.bind_of path_isWritten fun p hp => .pure ?_)
  · refine .bind fun _ => .bind fun _ => ?_
    extract_lets behindTrait
    have hbehind : ∀ u, (behindTrait u).Answers fun answer =>
        ∀ p, answer = some p → p.IsWritten :=
      fun _ => .bind fun _ => .bind fun _ => .bind fun _ => .pure nofun
    exact .ite (.bind fun _ => hbehind ()) (hbehind ())
  · rintro _ ⟨⟩
    exact hp

lemma pathOperand_isWritten (allowStruct : Bool) :
    (pathOperand g allowStruct).Answers Form.IsWritten := by
  refine .bind_of qualifiedPath_isWritten fun answer hanswer => .bind fun _ => .bind fun _ => ?_
  refine .ite (.bind fun _ => .bind fun _ => .pure nofun) (.bind fun _ => .ite ?_ ?_)
  · exact .bind fun _ => .pure nofun
  · cases answer with
    | none => exact .pure nofun
    | some p =>
      refine .pure ?_
      rintro _ ⟨⟩
      exact hanswer p rfl

lemma range_isWritten (allowStruct : Bool) : (range g allowStruct).Answers Form.IsWritten := by
  refine .bind fun _ => ?_
  extract_lets behindBound
  have hbehind : ∀ u, (behindBound u).Answers Form.IsWritten := fun _ => .pure nofun
  exact .bind fun _ => .ite (.bind fun _ => hbehind ()) (hbehind ())

/-- An operand that is a path is one that begins with a path. -/
lemma atom_isWritten (allowStruct : Bool) : (atom g allowStruct).Answers Form.IsWritten := by
  refine .bind fun _ => .ite (.bind fun _ => .pure nofun) ?_
  refine .bind fun _ => .ite (.bind fun _ => .bind fun _ => .bind fun _ => .pure nofun) ?_
  refine .bind fun _ => .ite (.bind fun _ => .pure nofun) ?_
  refine .bind fun _ => .bind fun _ => .ite ?_ ?_
  · exact .bind fun _ => .bind fun _ => .bind fun _ => .bind fun _ => .pure nofun
  refine .bind fun _ => .ite (pathOperand_isWritten allowStruct) ?_
  refine .bind fun _ => .ite (.bind fun _ => .pure nofun) ?_
  refine .bind fun _ => .ite (.bind fun _ => .pure nofun) ?_
  refine .bind fun _ => .ite (.pure nofun) ?_
  refine .bind fun _ => .ite (.pure nofun) ?_
  refine .bind fun _ => .ite (range_isWritten allowStruct) ?_
  refine .bind fun _ => .ite (.pure nofun) ?_
  exact .bind fun _ => .ite (.bind fun _ => .pure nofun) (.expected _)

lemma trailers_isWritten {first : Form} (h : first.IsWritten) :
    (trailers g first).Answers Form.IsWritten := by
  have hgo : ∀ fuel {form : Form}, form.IsWritten →
      (trailers.go g fuel form).Answers Form.IsWritten := by
    intro fuel
    induction fuel with
    | zero => exact fun h => .pure h
    | succ fuel ih =>
      intro form h
      have hother : (trailers.go g fuel .other).Answers Form.IsWritten := ih nofun
      refine .bind fun _ => .ite (.bind fun _ => hother) (.bind fun _ => .bind fun _ => ?_)
      refine .ite (.bind fun _ => .bind fun _ => hother) (.bind fun _ => ?_)
      refine .ite (.bind fun _ => hother) (.bind fun _ => ?_)
      exact .ite (.bind fun _ => hother) (.pure h)
  exact .bind fun _ => hgo _ h

/-- The readers of expressions that the grammar provides answer written paths only. -/
structure HasWrittenPaths (g : Grammar) : Prop where
  expression : ∀ allowStruct, (g.expression allowStruct).Answers Form.IsWritten
  operand : ∀ allowStruct, (g.operand allowStruct).Answers Form.IsWritten
  operation : ∀ {left : Form} allowStruct base, left.IsWritten →
    (g.operation left allowStruct base).Answers Form.IsWritten

lemma operand_isWritten (allowStruct : Bool) :
    (operand g allowStruct).Answers Form.IsWritten := by
  refine .bind fun attributes => .bind fun _ => .ite ?_ (.bind fun _ => .ite ?_ ?_)
  · refine .bind fun _ => .bind fun _ => .bind fun _ => ?_
    extract_lets behindBorrow
    have hbehind : ∀ u, (behindBorrow u).Answers Form.IsWritten := fun _ =>
      .bind fun _ => .pure nofun
    exact .ite (.bind fun _ => .bind fun _ => hbehind ()) (.bind fun _ => hbehind ())
  · refine .bind_of (Q := fun state => ∀ form, state.1 = some form → form.IsWritten)
      (.forIn nofun fun sign state _ => ?_) fun state hstate => ?_
    · refine .bind fun _ => .ite (.bind fun _ => .pure ?_) (.pure nofun)
      rintro _ ⟨⟩
      nofun
    · obtain ⟨_ | form, _⟩ := state
      · exact .pure nofun
      · exact .pure (hstate form rfl)
  · refine .bind fun _ => .bind_of (atom_isWritten allowStruct) fun form hform => ?_
    refine .bind_of (trailers_isWritten hform) fun form hform => ?_
    exact .ite (.failAt _ _) (.pure hform)

/-! ### Operators -/

/-- The answer of one operator is no path. -/
lemma operationStep_isWritten (left : Form) (allowStruct : Bool) (base : Precedence) :
    (operationStep g left allowStruct base).Answers fun answer =>
      ∀ form, answer = some form → form.IsWritten := by
  have hsome {form : Form} (h : form.IsWritten) :
      ∀ form', some form = some form' → form'.IsWritten := by
    rintro _ ⟨⟩
    exact h
  refine .ite (.pure nofun) (.bind fun next => ?_)
  split
  · split
    · exact .pure nofun
    · extract_lets behindCheck
      have hbehind : ∀ u, (behindCheck u).Answers fun answer =>
          ∀ form, answer = some form → form.IsWritten := by
        refine fun _ => .bind fun _ => .bind fun _ => .pure (hsome ?_)
        split <;> nofun
      exact .ite (.bind fun _ => hbehind ()) (hbehind ())
  · refine .bind fun _ => .ite (.bind fun _ => .bind fun _ => .pure (hsome nofun)) ?_
    refine .bind fun _ => .ite ?_ (.bind fun _ => .ite ?_ (.pure nofun))
    · exact .bind_of (range_isWritten allowStruct) fun _ hrange => .pure (hsome hrange)
    · exact .bind fun _ => .bind fun _ => .bind fun _ => .pure (hsome nofun)

lemma operation_isWritten {left : Form} (allowStruct : Bool) (base : Precedence)
    (h : left.IsWritten) : (operation g left allowStruct base).Answers Form.IsWritten := by
  have hgo : ∀ fuel {form : Form}, form.IsWritten →
      (operation.go g allowStruct base fuel form).Answers Form.IsWritten := by
    intro fuel
    induction fuel with
    | zero => exact fun h => .pure h
    | succ fuel ih =>
      intro form h
      refine .bind_of (operationStep_isWritten form allowStruct base) fun answer hanswer => ?_
      cases answer with
      | none => exact .pure h
      | some next => exact ih (hanswer next rfl)
  exact .bind fun _ => hgo _ h

variable (g) in
lemma expression_isWritten (hg : HasWrittenPaths g) (allowStruct : Bool) :
    (expression g allowStruct).Answers Form.IsWritten :=
  .bind_of (hg.operand allowStruct) fun _ hleft => hg.operation allowStruct _ hleft

/-! ### Values of arguments -/

variable (g) in
/-- If the value of an argument is a path, its segments are written ones. -/
lemma meta?_isWritten (hg : HasWrittenPaths g) : (meta? g).Answers fun m => m.form.IsWritten := by
  have hvalue : (metaValue g).Answers Form.IsWritten := by
    refine .bind fun _ => .ite (.bind fun _ => .pure nofun) (.bind fun _ => .bind fun _ => ?_)
    exact .ite (.fail _) (hg.expression true)
  have hassignment : (metaAssignment g).Answers MetaForm.IsWritten := by
    refine .bind fun _ => .bind fun _ => .bind fun _ => .bind_of hvalue fun form hform => .pure ?_
    rintro _ _ _ ⟨⟩
    exact hform
  refine .bind fun _ => .bind fun _ => ?_
  extract_lets behindForm
  have hbehind : ∀ form, form.IsWritten → (behindForm form).Answers fun m => m.form.IsWritten :=
    fun _ h => .pure h
  refine .bind fun _ => .bind fun _ => .ite ?_ (.ite (.bind_of hassignment hbehind) ?_)
  · exact .bind fun _ => .bind_of (Q := MetaForm.IsWritten) (.pure nofun) hbehind
  · exact .bind_of (Q := MetaForm.IsWritten) (.pure nofun) hbehind

end Read

/-- Paths that expressions are consist of written segments, however deep they are nested. -/
lemma hasWrittenPaths_grammar (fuel : Nat) : Read.HasWrittenPaths (grammar fuel) := by
  induction fuel with
  | zero =>
    exact ⟨fun _ => .unexpected _, fun _ => .unexpected _, fun _ _ _ => .unexpected _⟩
  | succ fuel ih =>
    refine ⟨fun allowStruct => ?_, fun allowStruct => ?_, fun allowStruct base h => ?_⟩
    · exact Read.expression_isWritten _ ih allowStruct
    · exact Read.operand_isWritten allowStruct
    · exact Read.operation_isWritten allowStruct base h

end UnionView
