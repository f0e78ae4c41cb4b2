import UnionView.Proofs.Grammar.Attribute
import UnionView.Proofs.Grammar.WrittenPath

/-!
# Values that are paths

Whether the value of an argument is a path, and which one, is told by its tokens: what was written
down before has no say in it (`steady_metaValue`). Of other values this is not so, because a
statement in a block looks at what was written down for its expression. So the readers are only
followed where the answer is a path.
-/

namespace UnionView

open Reader

def Form.IsPath : Form → Prop
  | .path _ => True
  | _ => False

namespace Reader

variable {α β : Type} {P : α → Prop} {Q : β → Prop}

/-- An answer that the reader has on the cursor, and that has the property, does not depend on what
was written down before. -/
def SteadyOn (c : Cursor) (p : Reader α) (P : α → Prop) : Prop :=
  ∀ ⦃a d⦄, p c = .ok (a, d) → P a →
    ∀ written, ∃ written', p { c with written } = .ok (a, { d with written := written' })

/-- An answer of the reader that has the property does not depend on what was written down
before. -/
def Steady (p : Reader α) (P : α → Prop) : Prop :=
  ∀ c, SteadyOn c p P

namespace SteadyOn

variable {c : Cursor} {p : Reader α} {f : α → Reader β}

/-- The second reader has an answer with the property only behind one of the first reader. -/
lemma bind_of (hp : SteadyOn c p P) (hf : ∀ a, P a → Steady (f a) Q)
    (hother : ∀ ⦃a d⦄, p c = .ok (a, d) → ¬P a → (f a).Answers fun b => ¬Q b) :
    SteadyOn c (p >>= f) Q := by
  intro b e hrun hb written
  obtain ⟨a, d, hfirst, hsecond⟩ := bind_eq_ok.mp hrun
  have ha : P a := by_contra fun ha => hother hfirst ha hsecond hb
  obtain ⟨written', hfirst'⟩ := hp hfirst ha written
  obtain ⟨written'', hsecond'⟩ := hf a ha d hsecond hb written'
  exact ⟨written'', bind_eq_ok.mpr ⟨a, _, hfirst', hsecond'⟩⟩

end SteadyOn

namespace Steady

variable {p : Reader α}

lemma pure (a : α) : (pure a : Reader α).Steady P := by
  rintro c _ d ⟨⟩ - written
  exact ⟨written, rfl⟩

lemma of_answers (h : p.Answers fun a => ¬P a) : p.Steady P :=
  fun _ _ _ hrun ha => absurd ha (h hrun)

lemma bind_of {f : α → Reader β} (hp : p.Steady P) (hf : ∀ a, P a → (f a).Steady Q)
    (hother : ∀ a, ¬P a → (f a).Answers fun b => ¬Q b) : (p >>= f).Steady Q :=
  fun c => (hp c).bind_of hf fun a _ _ => hother a

lemma bind {f : α → Reader β} (hp : p.Steady fun _ => True) (hf : ∀ a, (f a).Steady Q) :
    (p >>= f).Steady Q :=
  hp.bind_of (fun a _ => hf a) fun _ ha => absurd trivial ha

lemma ite {b : Bool} {q : Reader α} (hp : p.Steady P) (hq : q.Steady P) :
    (if b then p else q).Steady P := by
  split
  · exact hp
  · exact hq

/-- If the cursor is only looked at, and never what was written down. -/
lemma get {f : Cursor → Reader β} (h : ∀ c written, f { c with written } = f c)
    (hf : ∀ c, (f c).Steady Q) : (get >>= f).Steady Q := by
  intro c b d hrun hb written
  obtain ⟨_, _, ⟨⟩, hrun⟩ := bind_eq_ok.mp hrun
  obtain ⟨written', hrun'⟩ := hf c c hrun hb written
  refine ⟨written', bind_eq_ok.mpr ⟨_, _, rfl, ?_⟩⟩
  rw [h]
  exact hrun'

lemma mark (P : Mark → Prop) : mark.Steady P := .get (fun _ _ => rfl) fun _ => .pure _

lemma isEnded (P : Bool → Prop) : isEnded.Steady P := .get (fun _ _ => rfl) fun _ => .pure _

lemma peek (t : Terminal) (P : Bool → Prop) : (peek t).Steady P :=
  .get (fun _ _ => rfl) fun _ => .pure _

lemma peekSecond (t : Terminal) (P : Bool → Prop) : (peekSecond t).Steady P :=
  .get (fun _ _ => rfl) fun _ => .pure _

lemma peekThird (t : Terminal) (P : Bool → Prop) : (peekThird t).Steady P :=
  .get (fun _ _ => rfl) fun _ => .pure _

lemma peekAny (ts : List Terminal) (P : Bool → Prop) : (peekAny ts).Steady P :=
  .get (fun _ _ => rfl) fun _ => .pure _

lemma advance (t : Terminal) (P : Unit → Prop) : (advance t).Steady P := by
  rintro c _ d ⟨⟩ - written
  exact ⟨_, rfl⟩

lemma take (t : Terminal) (P : Unit → Prop) : (take t).Steady P := by
  intro c a d h ha written
  obtain ⟨hfits, hadvance⟩ := take_eq_ok.mp h
  obtain ⟨written', hadvance'⟩ := advance t P c hadvance ha written
  exact ⟨written', take_eq_ok.mpr ⟨hfits, hadvance'⟩⟩

lemma accept (t : Terminal) (P : Bool → Prop) : (accept t).Steady P :=
  .bind (.peek t _) fun _ => .ite (.bind (.advance t _) fun _ => .pure _) (.pure _)

lemma identifier (P : String → Prop) : identifier.Steady P :=
  .get (fun _ _ => rfl) fun _ => .bind (.take _ _) fun _ => .pure _

lemma anyIdentifier (P : String → Prop) : anyIdentifier.Steady P := by
  refine .get (fun _ _ => rfl) fun c => ?_
  generalize c.rest = rest
  split
  · exact .bind (.advance _ _) fun _ => .pure _
  · exact .of_answers (.expected _)

lemma write (code : Code) (P : Unit → Prop) : (write code).Steady P := by
  rintro c _ d ⟨⟩ - written
  exact ⟨_, rfl⟩

lemma capture (p : Reader α) (P : α × Code → Prop) : (capture p).Steady P := by
  intro c r d h _ written
  simp only [Reader.capture] at h ⊢
  split at h
  · cases h
    exact ⟨written, rfl⟩
  · cases h

lemma ahead (hp : p.Steady P) : (ahead p).Steady P := by
  intro c a d h ha written
  simp only [Reader.ahead] at h ⊢
  cases hrun : p c with
  | error fault =>
    rw [hrun] at h
    cases h
  | ok r =>
    rw [hrun] at h
    cases h
    obtain ⟨written', hrun'⟩ := hp c hrun ha written
    rw [hrun']
    exact ⟨written, rfl⟩

lemma collect {step : Reader (Option α)} (hstep : step.Steady fun _ => True)
    (P : List α → Prop) : (collect step).Steady P := by
  have hgo : ∀ fuel, (collect.go step fuel).Steady fun _ => True := by
    intro fuel
    induction fuel with
    | zero => exact .pure _
    | succ fuel ih =>
      refine .bind hstep fun answer => ?_
      cases answer with
      | none => exact .pure _
      | some a => exact .bind ih fun _ => .pure _
  refine .get (fun _ _ => rfl) fun c => ?_
  exact fun d as e hrun _ => hgo _ d hrun trivial

end Steady

end Reader

namespace Read

variable {g : Grammar}

/-! ### Paths -/

lemma steady_segment : (segment g true).Steady fun _ => True := by
  refine .bind (.peekAny _ _) fun _ => .ite (.bind (.anyIdentifier _) fun _ => .pure _) ?_
  refine .bind (.peek _ _) fun _ => ?_
  extract_lets behindName
  have hbehind : ∀ name, (behindName name).Steady fun _ => True := by
    intro name
    refine .bind (.pure _) fun _ => .bind (.peek _ _) fun _ => .bind (.peekThird _ _) fun _ => ?_
    refine .ite ?_ (.pure _)
    exact .bind (.capture _ _) fun _ => .bind (.write _ _) fun _ => .pure _
  exact .ite (.bind (.anyIdentifier _) hbehind) (.bind (.identifier _) hbehind)

lemma steady_path : (path g true).Steady fun _ => True := by
  refine .bind (.accept _ _) fun _ => .bind steady_segment fun _ => ?_
  refine .bind (.collect ?_ _) fun _ => .pure _
  refine .bind (.peek _ _) fun _ => .bind (.peekThird _ _) fun _ => .ite ?_ (.pure _)
  exact .bind (.take _ _) fun _ => .bind steady_segment fun _ => .pure _

lemma steady_qualifiedPath : (qualifiedPath g true).Steady fun p => p ≠ none := by
  refine .bind (.accept _ _) fun _ => .ite (.of_answers ?_) (.bind steady_path fun _ => .pure _)
  refine .bind fun _ => .bind fun _ => ?_
  extract_lets behindTrait
  have hbehind : ∀ u, (behindTrait u).Answers fun p => ¬p ≠ none :=
    fun _ => .bind fun _ => .bind fun _ => .bind fun _ => .pure (not_not.mpr rfl)
  exact .ite (.bind fun _ => hbehind ()) (hbehind ())

/-! ### Operands -/

lemma steady_pathOperand (allowStruct : Bool) :
    (pathOperand g allowStruct).Steady Form.IsPath := by
  have hother (form : Form) (h : ¬form.IsPath) : (pure form : Reader Form).Answers (¬·.IsPath) :=
    .pure h
  refine steady_qualifiedPath.bind_of (fun p hp => ?_) fun p hp => ?_
  · obtain ⟨p, rfl⟩ := Option.ne_none_iff_exists'.mp hp
    refine .bind (.peek _ _) fun _ => .bind (.peek _ _) fun _ =>
      .ite ?_ (.bind (.peek _ _) fun _ => ?_)
    · exact .of_answers (.bind fun _ => .bind fun _ => hother _ not_false)
    · exact .ite (.of_answers (.bind fun _ => hother _ not_false)) (.pure _)
  · obtain rfl := not_not.mp hp
    refine .bind fun _ => .bind fun _ => .ite ?_ (.bind fun _ => .ite ?_ (hother _ not_false))
    · exact .bind fun _ => .bind fun _ => hother _ not_false
    · exact .bind fun _ => hother _ not_false

lemma steady_startsParameters : startsParameters.Steady fun _ => True := by
  refine .bind (.peek _ _) fun _ => .ite (.pure _) ?_
  refine .bind (.peekSecond _ _) fun _ => .bind (.peekSecond _ _) fun _ => .ite (.pure _) ?_
  refine .bind (.peekSecond _ _) fun _ => .ite (.pure _) ?_
  refine .bind (.peekSecond _ _) fun _ => .bind (.peekSecond _ _) fun _ => .ite ?_ (.pure _)
  refine .bind (.peekThird _ _) fun _ => .bind (.peekThird _ _) fun _ => ?_
  refine .bind (.peekThird _ _) fun _ => .bind (.peekThird _ _) fun _ => ?_
  exact .bind (.peekThird _ _) fun _ => .pure _

lemma steady_startsAsyncBlock : startsAsyncBlock.Steady fun _ => True :=
  .bind (.peek _ _) fun _ => .bind (.peekSecond _ _) fun _ => .bind (.peekSecond _ _) fun _ =>
    .bind (.peekThird _ _) fun _ => .pure _

lemma steady_startsClosure : startsClosure.Steady fun _ => True := by
  have hparameters : startsParametersAfterWord.Steady fun _ => True := by
    refine .ahead (.bind (.get (fun _ _ => rfl) fun c => ?_) fun _ => .ite ?_ (.pure _))
    · generalize c.rest = rest
      split <;> exact .pure _
    · exact .bind (.anyIdentifier _) fun _ => steady_startsParameters
  refine .bind (.peekAny _ _) fun _ => .ite (.pure _) (.bind (.peek _ _) fun _ => ?_)
  refine .ite hparameters (.bind (.peek _ _) fun _ => ?_)
  refine .ite (.bind (.peekSecond _ _) fun _ => .pure _) (.bind (.peek _ _) fun _ => ?_)
  exact .bind (.peekSecond _ _) fun _ => .bind (.peekSecond _ _) fun _ => .pure _

lemma steady_startsPath : startsPath.Steady fun _ => True := by
  refine .bind (.peekAny _ _) fun _ => .ite (.pure _) (.bind (.peek _ _) fun _ => ?_)
  exact .bind (.peekSecond _ _) fun _ => .bind (.peekSecond _ _) fun _ => .pure _

lemma answers_range (allowStruct : Bool) : (range g allowStruct).Answers (¬·.IsPath) := by
  refine .bind fun _ => ?_
  extract_lets behindBound
  have hbehind : ∀ u, (behindBound u).Answers (¬·.IsPath) := fun _ => .pure not_false
  exact .bind fun _ => .ite (.bind fun _ => hbehind ()) (hbehind ())

/-- An operand that is a path begins with a path. -/
lemma steady_atom (allowStruct : Bool) : (atom g allowStruct).Steady Form.IsPath := by
  refine .bind (.peek _ _) fun _ => .ite (.of_answers (.bind fun _ => .pure not_false)) ?_
  refine .bind steady_startsAsyncBlock fun _ => .ite (.of_answers ?_) ?_
  · exact .bind fun _ => .bind fun _ => .bind fun _ => .pure not_false
  refine .bind steady_startsClosure fun _ => .ite (.of_answers (.bind fun _ => .pure not_false)) ?_
  refine .bind (.peek _ _) fun _ => .bind (.peekSecond _ _) fun _ => .ite (.of_answers ?_) ?_
  · exact .bind fun _ => .bind fun _ => .bind fun _ => .bind fun _ => .pure not_false
  refine .bind steady_startsPath fun _ => .ite (steady_pathOperand allowStruct) (.of_answers ?_)
  refine .bind fun _ => .ite (.bind fun _ => .pure not_false) ?_
  refine .bind fun _ => .ite (.bind fun _ => .pure not_false) ?_
  refine .bind fun _ => .ite (.pure not_false) ?_
  refine .bind fun _ => .ite (.pure not_false) ?_
  refine .bind fun _ => .ite (answers_range allowStruct) ?_
  refine .bind fun _ => .ite (.pure not_false) ?_
  exact .bind fun _ => .ite (.bind fun _ => .pure not_false) (.expected _)

lemma answers_trailersGo (fuel : Nat) {form : Form} (h : ¬form.IsPath) :
    (trailers.go g fuel form).Answers (¬·.IsPath) := by
  induction fuel generalizing form with
  | zero => exact .pure h
  | succ fuel ih =>
    have hother : (trailers.go g fuel .other).Answers (¬·.IsPath) := ih not_false
    refine .bind fun _ => .ite (.bind fun _ => hother) (.bind fun _ => .bind fun _ => ?_)
    refine .ite (.bind fun _ => .bind fun _ => hother) (.bind fun _ => ?_)
    exact .ite (.bind fun _ => hother) (.bind fun _ => .ite (.bind fun _ => hother) (.pure h))

lemma steady_trailers (first : Form) : (trailers g first).Steady Form.IsPath := by
  refine .get (fun _ _ => rfl) fun c => ?_
  generalize c.rest.length = fuel
  have hother : (trailers.go g fuel .other).Answers (¬·.IsPath) := answers_trailersGo fuel not_false
  refine .bind (.peek _ _) fun _ => .ite (.of_answers (.bind fun _ => hother)) ?_
  refine .bind (.peek _ _) fun _ => .bind (.peek _ _) fun _ => .ite (.of_answers ?_) ?_
  · exact .bind fun _ => .bind fun _ => hother
  refine .bind (.peek _ _) fun _ => .ite (.of_answers (.bind fun _ => hother)) ?_
  exact .bind (.peek _ _) fun _ => .ite (.of_answers (.bind fun _ => hother)) (.pure _)

/-- Something that has a sign in front is no path. -/
lemma answers_signs (allowStruct : Bool) : Answers (do
    for sign in ["*", "!", "-"] do
      if ← acceptOperator sign then
        let _ ← g.operand allowStruct
        return Form.other
    return Form.other) (¬·.IsPath) := by
  have hnever : ∀ form : Form, none = some form → ¬form.IsPath := by
    rintro _ ⟨⟩
  refine .bind_of (Q := fun state => ∀ form, state.1 = some form → ¬form.IsPath)
    (.forIn hnever fun sign state _ => ?_) fun state hstate => ?_
  · refine .bind fun _ => .ite (.bind fun _ => .pure ?_) (.pure hnever)
    rintro _ ⟨⟩
    exact not_false
  · obtain ⟨_ | form, _⟩ := state
    · exact .pure not_false
    · exact .pure (hstate form rfl)

/-- The readers of expressions that the grammar provides are steady where they answer a path, unless
an attribute comes first. -/
structure HasSteadyPaths (g : Grammar) : Prop where
  expression : ∀ allowStruct c, (Terminal.operator "#").fits c.rest = false →
    SteadyOn c (g.expression allowStruct) Form.IsPath
  operand : ∀ allowStruct c, (Terminal.operator "#").fits c.rest = false →
    SteadyOn c (g.operand allowStruct) Form.IsPath
  operation : ∀ left allowStruct base, (g.operation left allowStruct base).Steady Form.IsPath
  ofOther : ∀ left allowStruct base, ¬left.IsPath →
    (g.operation left allowStruct base).Answers (¬·.IsPath)

lemma steady_operand (allowStruct : Bool) {c : Cursor}
    (hattribute : (Terminal.operator "#").fits c.rest = false) :
    SteadyOn c (operand g allowStruct) Form.IsPath := by
  have hnone (written : Code) :
      outerAttributes g { c with written } = .ok ([], { c with written }) := by
    unfold outerAttributes collect
    rw [bind_of_ok (get_apply _), collect.go, bind_assoc, bind_of_ok (peekOperator_apply "#" _)]
    simp only [hattribute]
    rfl
  have hbehind {f : List Attribute → Reader Form} (h : (f []).Steady Form.IsPath) :
      SteadyOn c (outerAttributes g >>= f) Form.IsPath := by
    intro form d hrun hform written
    rw [bind_of_ok (hnone c.written)] at hrun
    obtain ⟨written', hrun'⟩ := h c hrun hform written
    exact ⟨written', by rw [bind_of_ok (hnone written), hrun']⟩
  refine hbehind (.bind (.accept _ _) fun _ => .ite (.of_answers ?_) ?_)
  · refine .bind fun _ => .bind fun _ => .bind fun _ => ?_
    extract_lets behindBorrow
    have hborrow : ∀ u, (behindBorrow u).Answers (¬·.IsPath) :=
      fun _ => .bind fun _ => .pure not_false
    exact .ite (.bind fun _ => .bind fun _ => hborrow ()) (.bind fun _ => hborrow ())
  refine .bind (.peekAny _ _) fun _ => .ite (.of_answers (answers_signs allowStruct)) ?_
  refine .bind (.mark _) fun _ =>
    (steady_atom allowStruct).bind_of (fun first _ => ?_) fun first h => ?_
  · refine (steady_trailers first).bind_of (fun form _ => ?_) fun form h => ?_
    · exact .ite (.of_answers (.failAt _ _)) (.pure _)
    · exact .ite (.failAt _ _) (.pure h)
  · refine .bind_of (.bind fun _ => answers_trailersGo _ h) fun form h => ?_
    exact .ite (.failAt _ _) (.pure h)

/-! ### Operators -/

/-- Something that has an operator is no path. -/
lemma answers_operationStep (left : Form) (allowStruct : Bool) (base : Precedence) :
    (operationStep g left allowStruct base).Answers fun next =>
      ∀ form, next = some form → ¬form.IsPath := by
  have hsome {form : Form} (h : ¬form.IsPath) : ∀ next, some form = some next → ¬next.IsPath := by
    rintro _ ⟨⟩
    exact h
  refine .ite (.pure nofun) (.bind fun next => ?_)
  split
  · split
    · exact .pure nofun
    · extract_lets behindCheck
      have hbehind : ∀ u, (behindCheck u).Answers fun next =>
          ∀ form, next = some form → ¬form.IsPath := by
        refine fun _ => .bind fun _ => .bind fun _ => .pure (hsome ?_)
        split <;> exact not_false
      exact .ite (.bind fun _ => hbehind ()) (hbehind ())
  · refine .bind fun _ => .ite (.bind fun _ => .bind fun _ => .pure (hsome not_false)) ?_
    refine .bind fun _ => .ite ?_ (.bind fun _ => .ite ?_ (.pure nofun))
    · exact .bind_of (answers_range allowStruct) fun _ h => .pure (hsome h)
    · exact .bind fun _ => .bind fun _ => .bind fun _ => .pure (hsome not_false)

lemma steady_operationStep (left : Form) (allowStruct : Bool) (base : Precedence) :
    (operationStep g left allowStruct base).Steady (· = none) := by
  have hsome {form : Form} : ¬some form = none := nofun
  refine .ite (.pure _) (.bind (.get (fun _ _ => rfl) fun _ => .pure _) fun next => ?_)
  split
  · split
    · exact .pure _
    · extract_lets behindCheck
      have hbehind : ∀ u, (behindCheck u).Answers fun next => ¬next = none :=
        fun _ => .bind fun _ => .bind fun _ => .pure hsome
      exact .of_answers (.ite (.bind fun _ => hbehind ()) (hbehind ()))
  · refine .bind (.bind (.peek _ _) fun _ => .bind (.peek _ _) fun _ => .pure _) fun _ => .ite ?_ ?_
    · exact .of_answers (.bind fun _ => .bind fun _ => .pure hsome)
    refine .bind (.peek _ _) fun _ => .ite (.of_answers (.bind fun _ => .pure hsome)) ?_
    refine .bind (.peek _ _) fun _ => .ite (.of_answers ?_) (.pure _)
    exact .bind fun _ => .bind fun _ => .bind fun _ => .pure hsome

lemma answers_operationGo (allowStruct : Bool) (base : Precedence) (fuel : Nat) {left : Form}
    (h : ¬left.IsPath) : (operation.go g allowStruct base fuel left).Answers (¬·.IsPath) := by
  induction fuel generalizing left with
  | zero => exact .pure h
  | succ fuel ih =>
    refine .bind_of (answers_operationStep left allowStruct base) fun next hnext => ?_
    cases next with
    | none => exact .pure h
    | some form => exact ih (hnext form rfl)

lemma steady_operation (left : Form) (allowStruct : Bool) (base : Precedence) :
    (operation g left allowStruct base).Steady Form.IsPath := by
  refine .get (fun _ _ => rfl) fun c => ?_
  generalize c.rest.length = fuel
  intro c
  refine (steady_operationStep left allowStruct base c).bind_of (fun next hnext => ?_) ?_
  · exact hnext ▸ .pure left
  · intro next d hrun hnext
    obtain ⟨form, rfl⟩ := Option.ne_none_iff_exists'.mp hnext
    exact answers_operationGo allowStruct base fuel
      (answers_operationStep left allowStruct base hrun form rfl)

end Read

/-- The value of an argument is steady where it is a path. -/
lemma hasSteadyPaths_grammar (fuel : Nat) : Read.HasSteadyPaths (grammar fuel) := by
  induction fuel with
  | zero =>
    have hnone : (unexpected [] : Reader Form).Steady Form.IsPath := .of_answers (.unexpected _)
    exact ⟨fun _ c _ => hnone c, fun _ c _ => hnone c, fun _ _ _ => hnone,
      fun _ _ _ _ => .unexpected _⟩
  | succ fuel ih =>
    refine ⟨fun allowStruct c hattribute => ?_, fun allowStruct c hattribute => ?_,
      fun left allowStruct base => ?_, fun left allowStruct base h => ?_⟩
    · refine (ih.operand allowStruct c hattribute).bind_of (fun left _ => ?_) fun left _ _ h => ?_
      · exact ih.operation left allowStruct .jump
      · exact ih.ofOther left allowStruct .jump h
    · exact Read.steady_operand allowStruct hattribute
    · exact Read.steady_operation left allowStruct base
    · exact .bind fun _ => Read.answers_operationGo allowStruct base _ h

namespace Read

/-- There are no attributes where `#` is not followed by square brackets. -/
lemma outerAttributes_ne_ok {g : Grammar} {c : Cursor}
    (hattribute : (Terminal.operator "#").fits c.rest = true)
    (hsquare : (Terminal.group .square).fits (c.skip 1) = false) (r : List Attribute × Cursor) :
    outerAttributes g c ≠ .ok r := by
  obtain ⟨spacing, rest, hrest⟩ := fits_hash_iff.mp hattribute
  have hskip : c.skip 1 = rest := by
    rw [Cursor.skip, hrest]
    rfl
  rw [hskip] at hsquare
  intro h
  obtain ⟨_, _, ⟨⟩, h⟩ := bind_eq_ok.mp h
  obtain ⟨_, _, hstep, -⟩ := bind_eq_ok.mp h
  rw [bind_of_ok (peekOperator_apply "#" c), if_pos hattribute] at hstep
  obtain ⟨_, _, hstep, -⟩ := bind_eq_ok.mp hstep
  obtain ⟨_, _, ⟨⟩, hstep⟩ := bind_eq_ok.mp hstep
  rw [bind_of_ok (hash_of_rest hrest)] at hstep
  obtain ⟨_, _, hgroup, -⟩ := bind_eq_ok.mp hstep
  obtain ⟨_, _, htake, -⟩ := bind_eq_ok.mp hgroup
  rw [(take_eq_ok.mp htake).1] at hsquare
  cases hsquare

lemma expression_ne_ok {fuel : Nat} {allowStruct : Bool} {c : Cursor}
    (hattribute : (Terminal.operator "#").fits c.rest = true)
    (hsquare : (Terminal.group .square).fits (c.skip 1) = false) (r : Form × Cursor) :
    (grammar fuel).expression allowStruct c ≠ .ok r := by
  intro h
  obtain _ | _ | fuel := fuel
  · exact unexpected_ne_ok _ _ _ h
  · obtain ⟨_, _, h, -⟩ := bind_eq_ok.mp h
    exact unexpected_ne_ok _ _ _ h
  · obtain ⟨_, _, h, -⟩ := bind_eq_ok.mp h
    obtain ⟨_, _, h, -⟩ := bind_eq_ok.mp h
    exact outerAttributes_ne_ok hattribute hsquare _ h

/-- The value of an argument is the same path whatever was written down before. -/
theorem steady_metaValue (fuel : Nat) : (metaValue (grammar fuel)).Steady Form.IsPath := by
  have hlone : (ahead (accept .literal >>= fun found =>
      if found then isEnded else pure false)).Steady fun _ => True :=
    .ahead (.bind (.accept _ _) fun _ => .ite (.isEnded _) (.pure _))
  refine .bind hlone fun _ => .ite (.of_answers (.bind fun _ => .pure not_false)) ?_
  intro c form d h hform written
  rw [bind_of_ok (peekOperator_apply "#" c)] at h
  obtain ⟨_, _, ⟨⟩, h⟩ := bind_eq_ok.mp h
  cases hattribute : (Terminal.operator "#").fits c.rest with
  | true =>
    cases hsquare : (Terminal.group .square).fits (c.skip 1) with
    | true =>
      rw [hattribute, hsquare, Bool.and_true, if_pos rfl] at h
      exact absurd h (fail_ne_ok _ _ _)
    | false =>
      rw [hattribute, hsquare, Bool.and_false, if_neg Bool.false_ne_true] at h
      exact absurd h (expression_ne_ok hattribute hsquare _)
  | false =>
    rw [hattribute, Bool.false_and, if_neg Bool.false_ne_true] at h
    obtain ⟨written', hrun⟩ :=
      (hasSteadyPaths_grammar fuel).expression true c hattribute h hform written
    refine ⟨written', ?_⟩
    rw [bind_of_ok (peekOperator_apply "#" _)]
    refine bind_eq_ok.mpr ⟨_, _, rfl, ?_⟩
    rw [hattribute, Bool.false_and, if_neg Bool.false_ne_true]
    exact hrun

end Read

end UnionView
