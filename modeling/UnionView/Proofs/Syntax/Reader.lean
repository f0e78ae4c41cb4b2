import UnionView.Proofs.Failure
import UnionView.Syntax.Reader

/-!
# What readers do

Five ways to say what a reader does, each with the rules that lead from the parts of a reader to
the whole of it: how it runs on a given cursor, what its answers have in common
(`Reader.Answers`), that it only looks (`Reader.Looks`), that it takes tokens from the front of
the code and nowhere else (`Reader.Forward`), and that it writes nothing down (`Reader.Silent`). A
repetition is described by its steps
(`Reader.Steps`), apart from the bound on their number.
-/

namespace UnionView.Reader

variable {α β : Type}

/-! ### Running -/

/-- Two readers in a row have an answer if both have one. -/
lemma bind_eq_ok {p : Reader α} {f : α → Reader β} {c : Cursor} {r : β × Cursor} :
    (p >>= f) c = .ok r ↔ ∃ a d, p c = .ok (a, d) ∧ f a d = .ok r := by
  have hbind : (p >>= f) c = (p c).bind fun s => f s.1 s.2 := rfl
  rw [hbind]
  cases p c with
  | error fault => simp [Except.bind]
  | ok s =>
    obtain ⟨a, d⟩ := s
    simp [Except.bind, and_assoc]

/-- How two readers in a row go on once the first one has an answer. -/
lemma bind_of_ok {p : Reader α} {c d : Cursor} {a : α} (h : p c = .ok (a, d))
    (f : α → Reader β) : (p >>= f) c = f a d := by
  have hbind : (p >>= f) c = (p c).bind fun s => f s.1 s.2 := rfl
  rw [hbind, h]
  rfl

@[simp] lemma pure_apply (a : α) (c : Cursor) : (pure a : Reader α) c = .ok (a, c) := rfl

@[simp] lemma get_apply (c : Cursor) : (get : Reader Cursor) c = .ok (c, c) := rfl

@[simp] lemma mark_apply (c : Cursor) : mark c = .ok (c.mark, c) := rfl

@[simp] lemma peek_apply (t : Terminal) (c : Cursor) : peek t c = .ok (t.fits c.rest, c) := rfl

@[simp] lemma peekOperator_apply (text : String) (c : Cursor) :
    peekOperator text c = .ok ((Terminal.operator text).fits c.rest, c) := rfl

@[simp] lemma peekAny_apply (ts : List Terminal) (c : Cursor) :
    peekAny ts c = .ok (ts.any (·.fits c.rest), c) := rfl

lemma failAt_ne_ok (place : Mark) (cause : Cause) (c : Cursor) (r : α × Cursor) :
    failAt place cause c ≠ .ok r := by
  intro h
  cases h

lemma fail_ne_ok (cause : Cause) (c : Cursor) (r : α × Cursor) : fail cause c ≠ .ok r := by
  intro h
  cases h

lemma expected_ne_ok (what : String) (c : Cursor) (r : α × Cursor) : expected what c ≠ .ok r :=
  fail_ne_ok _ c r

lemma unexpected_ne_ok (ts : List Terminal) (c : Cursor) (r : α × Cursor) :
    unexpected ts c ≠ .ok r := by
  intro h
  cases h

lemma noIdentifier_ne_ok (c : Cursor) (r : α × Cursor) : noIdentifier c ≠ .ok r := by
  unfold noIdentifier
  rw [bind_of_ok (get_apply c)]
  intro h
  generalize c.rest = rest at h
  split at h
  · exact fail_ne_ok _ _ _ h
  · exact expected_ne_ok _ _ _ h

/-- A terminal can be taken where it fits, and nowhere else. -/
lemma take_eq_ok {t : Terminal} {c : Cursor} {r : Unit × Cursor} :
    take t c = .ok r ↔ t.fits c.rest = true ∧ advance t c = .ok r := by
  unfold take
  rw [bind_of_ok (peek_apply t c)]
  split
  · rename_i h
    simp only [h, true_and]
  · rename_i h
    simp only [h, Bool.false_eq_true, false_and, iff_false]
    split
    · rw [bind_of_ok (mark_apply c)]
      exact failAt_ne_ok _ _ _ _
    · exact noIdentifier_ne_ok _ _
    · exact expected_ne_ok _ _ _

lemma advance_apply (t : Terminal) (c : Cursor) : advance t c = .ok ((), { c with
    rest := c.rest.drop (t.width c.rest)
    written := (t.canonical c.rest).reverse ++ c.written }) := rfl

lemma take_of_fits {t : Terminal} {c : Cursor} (h : t.fits c.rest = true) :
    take t c = advance t c := by
  unfold take
  rw [bind_of_ok (peek_apply t c), if_pos h]

/-- Where a terminal does not come next, it is not taken. -/
lemma eq_of_accept_false {t : Terminal} {c d : Cursor} (h : accept t c = .ok (false, d)) :
    d = c := by
  unfold accept at h
  rw [bind_of_ok (peek_apply t c)] at h
  split at h
  · obtain ⟨_, _, -, ⟨⟩⟩ := bind_eq_ok.mp h
  · cases h
    rfl

lemma fits_word_iff {text : String} {code : Code} :
    (Terminal.word text).fits code = true ↔ ∃ rest, code = .ident text :: rest := by
  cases code with
  | nil => simp [Terminal.fits]
  | cons token rest => cases token <;> simp [Terminal.fits]

/-- An operator of one character comes next if the character does. -/
lemma fits_mark_iff {text : String} {mark : Char} (htext : text.toList = [mark]) {code : Code} :
    (Terminal.operator text).fits code = true ↔
      ∃ spacing rest, code = .punct mark spacing :: rest := by
  cases code with
  | nil => simp [Terminal.fits, htext, Code.startsWith]
  | cons token rest => cases token <;> simp [Terminal.fits, htext, Code.startsWith]

lemma operator_of_mark {text : String} {mark : Char} (htext : text.toList = [mark]) {c : Cursor}
    {spacing : Spacing} {rest : Code} (h : c.rest = .punct mark spacing :: rest) :
    operator text c = .ok ((), { c with rest, written := .punct mark .alone :: c.written }) := by
  have hwidth : text.length = 1 := by
    rw [← String.length_toList, htext]
    rfl
  unfold operator
  rw [take_of_fits ((fits_mark_iff htext).mpr ⟨_, _, h⟩), advance_apply]
  simp [h, Terminal.width, hwidth, Terminal.canonical, htext, operatorCode]

/-- A keyword is the token in front of what is left. -/
lemma word_eq_ok {text : String} {c d : Cursor} (h : word text c = .ok ((), d)) :
    c.rest = .ident text :: d.rest := by
  obtain ⟨hfits, h⟩ := take_eq_ok.mp h
  obtain ⟨rest, hrest⟩ := fits_word_iff.mp hfits
  rw [advance_apply] at h
  cases h
  simp [hrest, Terminal.width]

/-- An identifier is the token in front of what is left. -/
lemma identifier_eq_ok {name : String} {c d : Cursor} (h : identifier c = .ok (name, d)) :
    c.rest = .ident name :: d.rest := by
  obtain ⟨_, _, ⟨⟩, h⟩ := bind_eq_ok.mp h
  obtain ⟨_, _, htake, ⟨⟩⟩ := bind_eq_ok.mp h
  obtain ⟨hfits, hadvance⟩ := take_eq_ok.mp htake
  rw [advance_apply] at hadvance
  cases hadvance
  cases hrest : c.rest with
  | nil =>
    rw [hrest] at hfits
    cases hfits
  | cons token rest =>
    rw [hrest] at hfits
    cases token <;> simp_all [Terminal.fits, Terminal.width, nameAt]

/-! ### Answers -/

/-- Every answer of the reader has the property. -/
def Answers (p : Reader α) (P : α → Prop) : Prop :=
  ∀ ⦃c a d⦄, p c = .ok (a, d) → P a

/-- Every answer that the reader has on the cursor has the property. -/
def AnswersOn (c : Cursor) (p : Reader α) (P : α → Prop) : Prop :=
  ∀ ⦃a d⦄, p c = .ok (a, d) → P a

namespace Answers

variable {P : α → Prop} {Q : β → Prop}

lemma pure {a : α} (h : P a) : (pure a : Reader α).Answers P := by
  rintro c a d ⟨⟩
  exact h

lemma bind {p : Reader β} {f : β → Reader α} (h : ∀ b, (f b).Answers P) :
    (p >>= f).Answers P := by
  intro c a d hrun
  obtain ⟨b, d', -, hrun⟩ := bind_eq_ok.mp hrun
  exact h b hrun

/-- If the second reader needs to know something of the answer of the first one. -/
lemma bind_of {p : Reader β} {f : β → Reader α} (hp : p.Answers Q)
    (hf : ∀ b, Q b → (f b).Answers P) : (p >>= f).Answers P := by
  intro c a d hrun
  obtain ⟨b, d', hfirst, hrun⟩ := bind_eq_ok.mp hrun
  exact hf b (hp hfirst) hrun

lemma ite {b : Bool} {p q : Reader α} (hp : p.Answers P) (hq : q.Answers P) :
    (if b then p else q).Answers P := by
  split
  · exact hp
  · exact hq

lemma fail (cause : Cause) : (fail cause : Reader α).Answers P :=
  fun _ _ _ h => absurd h (fail_ne_ok _ _ _)

/-- What a loop answers is what it began with or what one of its rounds answered. -/
lemma forIn {σ : Type} {P : σ → Prop} {xs : List β} {s : σ}
    {f : β → σ → Reader (ForInStep σ)} (hs : P s)
    (hf : ∀ x s, P s → (f x s).Answers fun r => P r.value) : (forIn xs s f).Answers P := by
  induction xs generalizing s with
  | nil => exact .pure hs
  | cons x xs ih =>
    rw [List.forIn_cons]
    refine .bind_of (hf x s hs) fun r hr => ?_
    cases r with
    | done s => exact .pure hr
    | yield s => exact ih hr

lemma expected (what : String) : (expected what : Reader α).Answers P :=
  fail _

lemma failAt (place : Mark) (cause : Cause) : (failAt place cause : Reader α).Answers P :=
  fun _ _ _ h => absurd h (failAt_ne_ok _ _ _ _)

lemma unexpected (ts : List Terminal) : (unexpected ts : Reader α).Answers P :=
  fun _ _ _ h => absurd h (unexpected_ne_ok _ _ _)

end Answers

/-! ### Looking -/

/-- The reader leaves everything as it was. -/
def Looks (p : Reader α) : Prop :=
  ∀ ⦃c a d⦄, p c = .ok (a, d) → d = c

lemma looks_pure (a : α) : (pure a : Reader α).Looks := by
  rintro c _ d ⟨⟩
  rfl

lemma looks_mark : mark.Looks := by
  rintro c a d ⟨⟩
  rfl

lemma looks_peek (t : Terminal) : (peek t).Looks := by
  rintro c a d ⟨⟩
  rfl

lemma looks_peekSecond (t : Terminal) : (peekSecond t).Looks := by
  rintro c a d ⟨⟩
  rfl

lemma looks_peekThird (t : Terminal) : (peekThird t).Looks := by
  rintro c a d ⟨⟩
  rfl

lemma looks_peekAny (ts : List Terminal) : (peekAny ts).Looks := by
  rintro c a d ⟨⟩
  rfl

lemma Looks.bind {p : Reader α} {f : α → Reader β} (hp : p.Looks) (hf : ∀ a, (f a).Looks) :
    (p >>= f).Looks := by
  intro c b d hrun
  obtain ⟨a, c', hfirst, hsecond⟩ := bind_eq_ok.mp hrun
  rw [hf a hsecond, hp hfirst]

lemma Looks.ite {b : Bool} {p q : Reader α} (hp : p.Looks) (hq : q.Looks) :
    (if b then p else q).Looks := by
  split
  · exact hp
  · exact hq

/-- A reader that only looked leaves the next one where it was. -/
lemma Looks.exists_of_bind {look : Reader β} (hlook : look.Looks) {f : β → Reader α} {c : Cursor}
    {r : α × Cursor} (h : (look >>= f) c = .ok r) : ∃ b, look c = .ok (b, c) ∧ f b c = .ok r := by
  obtain ⟨b, c', hlooked, hbehind⟩ := bind_eq_ok.mp h
  obtain rfl := hlook hlooked
  exact ⟨b, hlooked, hbehind⟩

/-- What was seen when the reader only looked is known to what comes next. -/
lemma AnswersOn.of_look {look : Reader β} {f : β → Reader α} {P : α → Prop} (hlook : look.Looks)
    {c : Cursor} (h : ∀ b, look c = .ok (b, c) → AnswersOn c (f b) P) :
    AnswersOn c (look >>= f) P := by
  intro a d hrun
  obtain ⟨b, hlooked, hbehind⟩ := hlook.exists_of_bind hrun
  exact h b hlooked hbehind

lemma looks_ahead (p : Reader α) : (ahead p).Looks := by
  intro c a d h
  simp only [ahead] at h
  cases hp : p c with
  | error fault =>
    rw [hp] at h
    cases h
  | ok r =>
    rw [hp] at h
    cases h
    rfl

/-! ### Taking tokens from the front -/

/-- The reader takes tokens from the front of the code. -/
def Forward (p : Reader α) : Prop :=
  ∀ ⦃c a d⦄, p c = .ok (a, d) → d.rest <:+ c.rest ∧ d.behind = c.behind

namespace Forward

variable {p : Reader α}

lemma of_looks (h : p.Looks) : p.Forward := by
  intro c a d hrun
  rw [h hrun]
  exact ⟨List.suffix_rfl, rfl⟩

lemma pure (a : α) : (pure a : Reader α).Forward := by
  rintro c _ d ⟨⟩
  exact ⟨List.suffix_rfl, rfl⟩

lemma bind {f : α → Reader β} (hp : p.Forward) (hf : ∀ a, (f a).Forward) :
    (p >>= f).Forward := by
  intro c b d hrun
  obtain ⟨a, c', hfirst, hsecond⟩ := bind_eq_ok.mp hrun
  obtain ⟨hrest, hbehind⟩ := hp hfirst
  obtain ⟨hrest', hbehind'⟩ := hf a hsecond
  exact ⟨hrest'.trans hrest, hbehind'.trans hbehind⟩

lemma ite {b : Bool} {q : Reader α} (hp : p.Forward) (hq : q.Forward) :
    (if b then p else q).Forward := by
  split
  · exact hp
  · exact hq

lemma get : (get : Reader Cursor).Forward := by
  rintro c _ d ⟨⟩
  exact ⟨List.suffix_rfl, rfl⟩

lemma mark : mark.Forward := by
  rintro c _ d ⟨⟩
  exact ⟨List.suffix_rfl, rfl⟩

lemma fail (cause : Cause) : (fail cause : Reader α).Forward :=
  fun _ _ _ h => absurd h (fail_ne_ok _ _ _)

lemma noIdentifier : (noIdentifier : Reader α).Forward :=
  fun _ _ _ h => absurd h (noIdentifier_ne_ok _ _)

lemma write (code : Code) : (write code).Forward := by
  rintro c _ d ⟨⟩
  exact ⟨List.suffix_rfl, rfl⟩

lemma advance (t : Terminal) : (advance t).Forward := by
  rintro c _ d ⟨⟩
  exact ⟨List.drop_suffix _ _, rfl⟩

lemma take (t : Terminal) : (take t).Forward := by
  intro c a d h
  exact advance t (take_eq_ok.mp h).2

lemma accept (t : Terminal) : (accept t).Forward :=
  .bind (.of_looks (looks_peek t)) fun _ => .ite (.bind (.advance t) fun _ => .pure _) (.pure _)

lemma anyIdentifier : anyIdentifier.Forward := by
  refine .bind .get fun c => ?_
  generalize c.rest = rest
  split
  · exact .bind (.advance _) fun _ => .pure _
  · exact .fail _

lemma closeGroup (d : Delimiter) : (closeGroup d).Forward := by
  rintro c _ e ⟨⟩
  exact ⟨(List.drop_suffix _ _).trans (Code.toClosing_suffix _ _), rfl⟩

lemma group (d : Delimiter) (hp : p.Forward) : (group d p).Forward :=
  .bind (.take _) fun _ => .bind hp fun _ => .bind (.closeGroup d) fun _ => .pure _

lemma capture (hp : p.Forward) : (capture p).Forward := by
  intro c r d h
  simp only [Reader.capture] at h
  cases hrun : p { c with written := [] } with
  | error fault =>
    rw [hrun] at h
    cases h
  | ok s =>
    obtain ⟨a, c'⟩ := s
    have hforward := hp hrun
    rw [hrun] at h
    cases h
    exact hforward

lemma rawContent : rawContent.Forward := by
  rintro c _ d ⟨⟩
  exact ⟨Code.toClosing_suffix _ _, rfl⟩

lemma rawGroup : rawGroup.Forward := by
  refine .bind .mark fun _ => .bind .get fun c => ?_
  generalize c.rest = rest
  split
  · exact .bind (.take _) fun _ => .bind .rawContent fun _ => .bind .mark fun _ =>
      .bind (.closeGroup _) fun _ => .pure _
  · exact .fail _

lemma inside (g : RawGroup) (shift : Nat → α → α) (p : Reader α) :
    (inside g shift p).Forward := by
  intro c a d h
  simp only [Reader.inside] at h
  split at h
  · cases h
    exact ⟨List.suffix_rfl, rfl⟩
  · cases h

end Forward

/-! ### Writing nothing down -/

/-- The reader writes nothing down. -/
def Silent (p : Reader α) : Prop :=
  ∀ ⦃c a d⦄, p c = .ok (a, d) → d.written = c.written

namespace Silent

lemma of_looks {p : Reader α} (h : p.Looks) : p.Silent := by
  intro c a d hrun
  rw [h hrun]

lemma pure (a : α) : (pure a : Reader α).Silent := by
  rintro c _ d ⟨⟩
  rfl

lemma bind {p : Reader α} {f : α → Reader β} (hp : p.Silent) (hf : ∀ a, (f a).Silent) :
    (p >>= f).Silent := by
  intro c b d hrun
  obtain ⟨a, c', hfirst, hsecond⟩ := bind_eq_ok.mp hrun
  rw [hf a hsecond, hp hfirst]

lemma ite {b : Bool} {p q : Reader α} (hp : p.Silent) (hq : q.Silent) :
    (if b then p else q).Silent := by
  split
  · exact hp
  · exact hq

/-- What a reader writes is handed over where it is captured. -/
lemma capture (p : Reader α) : (capture p).Silent := by
  intro c r d h
  simp only [Reader.capture] at h
  cases hrun : p { c with written := [] } with
  | error fault =>
    rw [hrun] at h
    cases h
  | ok s =>
    rw [hrun] at h
    cases h
    rfl

end Silent

/-! ### Groups that are read apart -/

/-- A group that is closed is taken up to its closing token. -/
lemma rawGroup_of_closed {c : Cursor} {opener closer : Delimiter} {inner rest : Code}
    (hrest : c.rest = .opening opener :: (inner ++ .closing closer :: rest))
    (hcloses : Code.Closes 0 inner) :
    ∃ written, rawGroup c = .ok
      ({ delimiter := opener, openAt := c.mark, inner, closeAt := rest.length + 1 + c.behind },
        { c with rest, written }) := by
  let c₁ : Cursor := { c with
    rest := inner ++ .closing closer :: rest, written := .opening opener :: c.written }
  let c₂ : Cursor := { c with
    rest := .closing closer :: rest, written := inner.reverse ++ c₁.written }
  have hfits : (Terminal.group opener).fits c.rest = true := by simp [hrest, Terminal.fits]
  have htake : take (.group opener) c = .ok ((), c₁) := by
    rw [take_of_fits hfits]
    show Except.ok _ = _
    simp [hrest, Terminal.width, Terminal.canonical, c₁]
  have hcontent : rawContent c₁ = .ok (inner, c₂) := by
    simp [rawContent, hcloses closer rest, c₁, c₂]
  have hclose : closeGroup opener c₂ =
      .ok ((), { c with rest, written := .closing opener :: c₂.written }) := by
    show Except.ok _ = _
    simp [Code.toClosing, Cursor.isEnded, c₂]
  refine ⟨.closing opener :: c₂.written, ?_⟩
  unfold rawGroup
  rw [bind_of_ok (mark_apply c), bind_of_ok (get_apply c)]
  simp only [hrest]
  rw [bind_of_ok htake, bind_of_ok hcontent, bind_of_ok (mark_apply c₂), bind_of_ok hclose]
  simp [Cursor.mark, c₂]

/-- If something is left behind a group that was taken, the group is closed. -/
lemma rawGroup_eq_ok {c d : Cursor} {g : RawGroup} (h : rawGroup c = .ok (g, d))
    (hne : d.rest ≠ []) :
    ∃ closer, c.rest = .opening g.delimiter :: (g.inner ++ .closing closer :: d.rest) ∧
      Code.Closes 0 g.inner ∧ g.closeAt = d.rest.length + 1 + c.behind ∧ d.behind = c.behind ∧
      d.leftover = c.leftover := by
  have hrun := h
  obtain ⟨_, _, ⟨⟩, h⟩ := bind_eq_ok.mp h
  obtain ⟨_, _, ⟨⟩, h⟩ := bind_eq_ok.mp h
  cases hrest : c.rest with
  | nil =>
    simp only [hrest] at h
    exact (expected_ne_ok _ _ _ h).elim
  | cons token code =>
    simp only [hrest] at h
    cases token with
    | opening opener =>
      by_cases hopen : Code.toClosing 0 code = []
      · -- a group that is never closed takes all that is left
        obtain ⟨_, c₁, htake, h⟩ := bind_eq_ok.mp h
        obtain ⟨-, htake⟩ := take_eq_ok.mp htake
        obtain ⟨_, c₂, hcontent, h⟩ := bind_eq_ok.mp h
        obtain ⟨_, _, ⟨⟩, h⟩ := bind_eq_ok.mp h
        obtain ⟨_, c₃, hclose, ⟨⟩⟩ := bind_eq_ok.mp h
        cases htake
        cases hcontent
        cases hclose
        simp [hrest, Terminal.width, hopen, Code.toClosing] at hne
      · obtain ⟨inner, closer, rest, rfl, hcloses⟩ := Code.exists_closes_of_toClosing hopen
        obtain ⟨written, hgroup⟩ := rawGroup_of_closed hrest hcloses
        rw [hgroup] at hrun
        cases hrun
        exact ⟨closer, rfl, hcloses, rfl, rfl, rfl⟩
    | ident text => exact (expected_ne_ok _ _ _ h).elim
    | punct mark spacing => exact (expected_ne_ok _ _ _ h).elim
    | literal text => exact (expected_ne_ok _ _ _ h).elim
    | closing d => exact (expected_ne_ok _ _ _ h).elim

/-- Reading inside a group leaves nothing over if its content is read to its end. -/
lemma inside_eq_ok_iff {g : RawGroup} {shift : Nat → α → α} {p : Reader α} {c d : Cursor} {a : α} :
    inside g shift p c = .ok (a, d) ∧ d.leftover = none ↔
      ∃ b e, p { rest := g.inner } = .ok (b, e) ∧ e.isEnded = true ∧ e.leftover = none ∧
        a = shift g.closeAt b ∧ d = c ∧ c.leftover = none := by
  simp only [inside]
  cases hp : p { rest := g.inner } with
  | error fault => simp
  | ok r =>
    obtain ⟨b, e⟩ := r
    simp only [Except.ok.injEq, Prod.mk.injEq]
    constructor
    · rintro ⟨⟨rfl, rfl⟩, hleft⟩
      obtain ⟨hc, he⟩ := Option.or_eq_none_iff.mp hleft
      obtain ⟨he, hended⟩ := Option.or_eq_none_iff.mp (Option.map_eq_none_iff.mp he)
      have hisEnded : e.isEnded = true := by simpa using hended
      refine ⟨b, e, ⟨rfl, rfl⟩, hisEnded, he, rfl, ?_, hc⟩
      simp [he, hisEnded]
    · rintro ⟨_, _, ⟨rfl, rfl⟩, hisEnded, he, rfl, rfl, hc⟩
      rw [if_pos hisEnded, he, hc]
      exact ⟨⟨rfl, by cases d; cases hc; rfl⟩, rfl⟩

/-! ### Repetition -/

/-- Some answers of a step, one after the other. -/
inductive Steps (step : Reader (Option α)) : Cursor → List α → Cursor → Prop
  | nil (c : Cursor) : Steps step c [] c
  | cons {c c' d : Cursor} {a : α} {as : List α} (first : step c = .ok (some a, c'))
      (rest : Steps step c' as d) : Steps step c (a :: as) d

/-- If there is no step where `E` holds, and every answer has the property `R` or is followed by
such a place, all answers but the last one have the property. -/
lemma Steps.pairwise {step : Reader (Option α)} {R : α → Prop} {E : Code → Prop}
    (hstep : ∀ ⦃c a d⦄, step c = .ok (some a, d) → ¬E c.rest ∧ (R a ∨ E d.rest)) {c d : Cursor}
    {as : List α} (h : Steps step c as d) : as.Pairwise fun a _ => R a := by
  induction h with
  | nil => exact .nil
  | cons first rest ih =>
    refine .cons (fun _ hmem => ?_) ih
    obtain ha | hend := (hstep first).2
    · exact ha
    cases rest with
    | nil => cases hmem
    | cons second rest => exact absurd hend (hstep second).1

/-- A repetition ends with the first step that has no answer, or at its bound. -/
lemma collect_go_eq_ok_iff {step : Reader (Option α)} {fuel : Nat} {c d : Cursor} {as : List α} :
    collect.go step fuel c = .ok (as, d) ↔ ∃ c', Steps step c as c' ∧
      (as.length < fuel ∧ step c' = .ok (none, d) ∨ as.length = fuel ∧ d = c') := by
  induction fuel generalizing c as with
  | zero =>
    simp only [collect.go, pure_apply, Except.ok.injEq, Prod.mk.injEq, Nat.not_lt_zero, false_and,
      false_or, List.length_eq_zero_iff]
    constructor
    · rintro ⟨rfl, rfl⟩
      exact ⟨c, .nil c, rfl, rfl⟩
    · rintro ⟨c', hsteps, rfl, rfl⟩
      cases hsteps
      exact ⟨rfl, rfl⟩
  | succ fuel ih =>
    simp only [collect.go, bind_eq_ok]
    constructor
    · rintro ⟨_ | a, c₁, hstep, hrun⟩
      · cases hrun
        exact ⟨c, .nil c, .inl ⟨Nat.succ_pos fuel, hstep⟩⟩
      · obtain ⟨as', c₂, hgo, hpure⟩ := bind_eq_ok.mp hrun
        cases hpure
        obtain ⟨c', hsteps, hend⟩ := ih.mp hgo
        refine ⟨c', .cons hstep hsteps, ?_⟩
        simpa only [List.length_cons, Nat.succ_lt_succ_iff, Nat.succ.injEq] using hend
    · rintro ⟨c', hsteps, hend⟩
      cases hsteps with
      | nil =>
        obtain ⟨-, hstep⟩ | ⟨h, -⟩ := hend
        · exact ⟨_, _, hstep, rfl⟩
        · cases h
      | cons first rest =>
        refine ⟨_, _, first, bind_eq_ok.mpr ⟨_, _, ih.mpr ⟨c', rest, ?_⟩, rfl⟩⟩
        simpa only [List.length_cons, Nat.succ_lt_succ_iff, Nat.succ.injEq] using hend

/-- A repetition without answers has a first step without one. -/
lemma step_of_collect_nil {step : Reader (Option α)} {c d : Cursor}
    (h : collect step c = .ok ([], d)) : step c = .ok (none, d) := by
  obtain ⟨_, ⟨⟩, hend⟩ := collect_go_eq_ok_iff.mp h
  obtain ⟨-, hstep⟩ | ⟨hlength, -⟩ := hend
  · exact hstep
  · cases hlength

/-- Everything up to the end of the group is one thing if reading that thing leads to the end. -/
lemma eq_ok_of_untilEnd {p : Reader α} {c d : Cursor} {a : α}
    (h : untilEnd p c = .ok ([a], d)) : p c = .ok (a, d) := by
  obtain ⟨_, hsteps, hend⟩ := collect_go_eq_ok_iff.mp h
  obtain _ | ⟨hfirst, ⟨⟩⟩ := hsteps
  obtain ⟨_, _, ⟨⟩, hfirst⟩ := bind_eq_ok.mp hfirst
  split at hfirst
  · cases hfirst
  · rename_i hended
    obtain ⟨_, _, hp, ⟨⟩⟩ := bind_eq_ok.mp hfirst
    obtain ⟨-, hlast⟩ | ⟨hlength, -⟩ := hend
    · obtain ⟨_, _, ⟨⟩, hlast⟩ := bind_eq_ok.mp hlast
      split at hlast
      · cases hlast
        exact hp
      · obtain ⟨_, _, -, ⟨⟩⟩ := bind_eq_ok.mp hlast
    · -- one answer reaches the bound only on empty code, where the first step has none
      have hrest : c.rest = [] := List.length_eq_zero_iff.mp (Nat.succ.inj hlength).symm
      rw [Cursor.isEnded, hrest] at hended
      exact absurd rfl hended

/-- A repetition of a reader that says less is one of the reader that says more. -/
lemma exists_collect_of {step : Reader (Option α)} {fuller : Reader (Option β)} {f : β → α}
    (hstep : ∀ ⦃c a d⦄, step c = .ok (a, d) → ∃ b, fuller c = .ok (b, d) ∧ b.map f = a)
    {c d : Cursor} {as : List α} (h : collect step c = .ok (as, d)) :
    ∃ bs, collect fuller c = .ok (bs, d) ∧ bs.map f = as := by
  have hgo : ∀ fuel {c d : Cursor} {as : List α}, collect.go step fuel c = .ok (as, d) →
      ∃ bs, collect.go fuller fuel c = .ok (bs, d) ∧ bs.map f = as := by
    intro fuel
    induction fuel with
    | zero =>
      rintro c d as ⟨⟩
      exact ⟨[], rfl, rfl⟩
    | succ fuel ih =>
      intro c d as h
      obtain ⟨a, c', ha, h⟩ := bind_eq_ok.mp h
      obtain ⟨b, hb, rfl⟩ := hstep ha
      unfold collect.go
      rw [bind_of_ok hb]
      cases b with
      | none =>
        cases h
        exact ⟨[], rfl, rfl⟩
      | some b =>
        obtain ⟨as', c'', has, ⟨⟩⟩ := bind_eq_ok.mp h
        obtain ⟨bs, hbs, rfl⟩ := ih has
        exact ⟨b :: bs, bind_eq_ok.mpr ⟨bs, _, hbs, rfl⟩, rfl⟩
  exact hgo _ h

lemma exists_untilEnd_of {p : Reader α} {fuller : Reader β} {f : β → α}
    (hp : ∀ ⦃c a d⦄, p c = .ok (a, d) → ∃ b, fuller c = .ok (b, d) ∧ f b = a)
    {c d : Cursor} {as : List α} (h : untilEnd p c = .ok (as, d)) :
    ∃ bs, untilEnd fuller c = .ok (bs, d) ∧ bs.map f = as := by
  refine exists_collect_of (fun c a d h => ?_) h
  obtain ⟨_, _, ⟨⟩, h⟩ := bind_eq_ok.mp h
  split at h
  · rename_i hended
    cases h
    refine ⟨none, bind_eq_ok.mpr ⟨_, _, rfl, ?_⟩, rfl⟩
    rw [if_pos hended]
    rfl
  · rename_i hended
    obtain ⟨a, d, ha, ⟨⟩⟩ := bind_eq_ok.mp h
    obtain ⟨b, hb, rfl⟩ := hp ha
    refine ⟨some b, bind_eq_ok.mpr ⟨_, _, rfl, ?_⟩, rfl⟩
    rw [if_neg hended]
    exact bind_eq_ok.mpr ⟨b, _, hb, rfl⟩

/-- What the steps take together is at the front of the code. -/
lemma Steps.forward {step : Reader (Option α)} (hstep : step.Forward) {c d : Cursor}
    {as : List α} (h : Steps step c as d) : d.rest <:+ c.rest ∧ d.behind = c.behind := by
  induction h with
  | nil c => exact ⟨List.suffix_rfl, rfl⟩
  | cons first _ ih =>
    obtain ⟨hrest, hbehind⟩ := hstep first
    exact ⟨ih.1.trans hrest, ih.2.trans hbehind⟩

lemma Forward.collect {step : Reader (Option α)} (hstep : step.Forward) :
    (collect step).Forward := by
  refine .bind .get fun c => ?_
  intro c as d h
  obtain ⟨c', hsteps, hend⟩ := collect_go_eq_ok_iff.mp h
  obtain ⟨hrest, hbehind⟩ := hsteps.forward hstep
  obtain ⟨-, hlast⟩ | ⟨-, rfl⟩ := hend
  · obtain ⟨hrest', hbehind'⟩ := hstep hlast
    exact ⟨hrest'.trans hrest, hbehind'.trans hbehind⟩
  · exact ⟨hrest, hbehind⟩

lemma Silent.collect {step : Reader (Option α)} (hstep : step.Silent) :
    (collect step).Silent := by
  intro c as d h
  obtain ⟨c', hsteps, hend⟩ := collect_go_eq_ok_iff.mp h
  have hmiddle : c'.written = c.written := by
    clear h hend
    induction hsteps with
    | nil => rfl
    | cons first _ ih => exact ih.trans (hstep first)
  obtain ⟨-, hlast⟩ | ⟨-, rfl⟩ := hend
  · exact (hstep hlast).trans hmiddle
  · exact hmiddle

/-- What every step answers holds of all answers together. -/
lemma Answers.collect {step : Reader (Option α)} {P : α → Prop}
    (hstep : step.Answers fun answer => ∀ a, answer = some a → P a) :
    (collect step).Answers fun as => ∀ a ∈ as, P a := by
  intro c as d h
  obtain ⟨c', hsteps, -⟩ := collect_go_eq_ok_iff.mp h
  clear h
  induction hsteps with
  | nil => exact fun a ha => absurd ha List.not_mem_nil
  | cons first _ ih => exact List.forall_mem_cons.mpr ⟨hstep first _ rfl, ih⟩

lemma Answers.untilEnd {p : Reader α} {P : α → Prop} (hp : p.Answers P) :
    (untilEnd p).Answers fun as => ∀ a ∈ as, P a := by
  refine .collect (.bind fun _ => .ite (.pure nofun) (.bind_of hp fun a ha => .pure ?_))
  rintro _ ⟨⟩
  exact ha

lemma Answers.separatedBy {p : Reader α} {P : α → Prop} (separator : String) (hp : p.Answers P) :
    (separatedBy separator p).Answers fun as => ∀ a ∈ as, P a := by
  refine .untilEnd (.bind_of hp fun a ha => .bind fun _ => ?_)
  exact .ite (.bind fun _ => .pure ha) (.pure ha)

lemma Answers.group {p : Reader α} {P : α → Prop} (d : Delimiter) (hp : p.Answers P) :
    (group d p).Answers P :=
  .bind fun _ => .bind_of hp fun _ ha => .bind fun _ => .pure ha

/-- If every answer takes a token, there are no more answers than tokens. -/
lemma Steps.length_le {step : Reader (Option α)}
    (hstep : ∀ ⦃c a d⦄, step c = .ok (some a, d) → d.rest.length < c.rest.length)
    {c d : Cursor} {as : List α} (h : Steps step c as d) :
    as.length + d.rest.length ≤ c.rest.length := by
  induction h with
  | nil c => simp
  | cons first _ ih =>
    have hlt := hstep first
    simp only [List.length_cons]
    omega

/-- If every answer takes a token, a repetition ends with a step that has no answer. -/
lemma collect_eq_ok_iff {step : Reader (Option α)}
    (hstep : ∀ ⦃c a d⦄, step c = .ok (some a, d) → d.rest.length < c.rest.length)
    {c d : Cursor} {as : List α} :
    collect step c = .ok (as, d) ↔ ∃ c', Steps step c as c' ∧ step c' = .ok (none, d) := by
  have hcollect : collect step c = collect.go step (c.rest.length + 1) c := rfl
  rw [hcollect, collect_go_eq_ok_iff]
  refine exists_congr fun c' => and_congr_right fun hsteps => ?_
  have hlt : as.length < c.rest.length + 1 := by
    have hle := hsteps.length_le hstep
    omega
  simp [hlt, Nat.ne_of_lt hlt]

/-! ### Reading apart and to the end -/

lemma run_eq_ok_iff {p : Reader α} {code : Code} {behind : Nat} {a : α} :
    run p code behind = .ok a ↔
      ∃ c, p { rest := code, behind } = .ok (a, c) ∧ c.leftover = none ∧ c.rest = [] := by
  unfold run
  constructor
  · intro h
    obtain ⟨⟨b, c⟩, hp, h⟩ := Except.bind_eq_ok_iff.mp h
    cases hleft : c.leftover with
    | some left => simp [hleft, throw, throwThe, MonadExceptOf.throw] at h
    | none =>
      cases hrest : c.rest with
      | cons token rest => simp [hleft, hrest, throw, throwThe, MonadExceptOf.throw] at h
      | nil =>
        obtain rfl : b = a := by simpa [hleft, hrest, Except.pure_eq_ok_iff] using h
        exact ⟨c, hp, hleft, hrest⟩
  · rintro ⟨c, hp, hleft, hrest⟩
    refine Except.bind_eq_ok_iff.mpr ⟨(a, c), hp, ?_⟩
    simp [hleft, hrest, Except.pure_eq_ok_iff]

/-- Reading afresh sees the code that is left and what stands behind it. -/
lemma afresh_eq_ok_iff {p : Reader α} {c d : Cursor} {a : α} :
    afresh p c = .ok (a, d) ↔ ∃ e, p { rest := c.rest, behind := c.behind } = .ok (a, e) ∧
      d = { e with written := e.written ++ c.written, leftover := c.leftover.or e.leftover } := by
  simp only [afresh]
  cases p { rest := c.rest, behind := c.behind } with
  | error fault => simp
  | ok s =>
    obtain ⟨b, e⟩ := s
    simp [eq_comm, and_assoc]

end UnionView.Reader
