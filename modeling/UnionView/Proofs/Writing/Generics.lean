import UnionView.Dispatch.Emission
import UnionView.Proofs.Grammar.Generics
import UnionView.Proofs.Writing.Path

/-!
# Generic parameters are written down as sound code

A colon or a `where` with nothing behind it is read but not printed, and the parts of a bound change
places. The parts of a parameter that are kept are pieces of code nevertheless
(`Parameter.IsSound`), and so are the predicates behind a `where`.
-/

namespace UnionView

open Text Lexer Reader

/-- The parts of the parameter are pieces of code. -/
structure Parameter.IsSound (p : Parameter) : Prop where
  attributes : p.attributes.IsSound
  name : p.nameCode.IsSound
  bounds : ∀ code, p.bounds = some code → code.IsPiece
  default : ∀ code, p.default = some code → code.IsPiece

namespace Read

variable (g : Grammar) [g.IsTidy]

/-! ### What is written down only if it is not empty -/

/-- Code is written down behind `front`, or not at all if there is none. -/
lemma yields_optional {p : Reader Unit} [p.Tidy] {front : Code} (hfront : front.IsSound) :
    (capture p >>= fun r =>
      if !r.2.isEmpty then write (front ++ r.2) >>= fun _ => pure (some r.2)
      else pure (some r.2)).YieldsBehind Code.IsClosed fun answer new =>
        ∃ code, answer = some code ∧ code.IsPiece ∧ (code ≠ [] → new = front ++ code) := by
  intro c answer e hrun hleft
  obtain ⟨⟨_, code⟩, d, hcapture, hrun⟩ := bind_eq_ok.mp hrun
  dsimp only at hrun
  split at hrun
  · obtain ⟨_, _, ⟨⟩, ⟨⟩⟩ := bind_eq_ok.mp hrun
    obtain ⟨hnone, hreaches, hwritten, hpasses⟩ :=
      capture_eq_ok (Tidy.yields (p := p)) hcapture hleft
    refine ⟨hnone, hreaches, fun hc => ?_⟩
    obtain ⟨hcode, -⟩ := hpasses hc
    obtain ⟨taken, hrest, hbalanced, hunquoted⟩ := hcode.taken
    have hpiece := hcode.isPiece hc
    refine ⟨front ++ code, .of_closed _ hrest hbalanced hunquoted (congrArg (_ ++ ·) hwritten)
      (hfront.append_piece hpiece) ?_, code, rfl, hpiece, fun _ => rfl⟩
    rw [List.append_assoc]
    exact hfront.glued.append (hcode.glued [] Code.isUnquoted_nil hc.glued)
  · rename_i hempty
    cases hrun
    obtain ⟨hnone, hreaches, hpasses⟩ := yields_capture (Tidy.yields (p := p)) hcapture hleft
    refine ⟨hnone, hreaches, fun hc => ?_⟩
    obtain ⟨new, hnew, rfl, -, hpiece⟩ := hpasses hc
    refine ⟨[], hnew, code, rfl, hpiece, fun hne => absurd ?_ hne⟩
    simpa using hempty

/-! ### Parameters -/

lemma yields_parameterDefault (value : Reader Unit) [value.Tidy] :
    (parameterDefault value).Yields fun answer _ => ∀ code, answer = some code → code.IsPiece := by
  refine .seq fun _ => .ite ?_ (.pure fun _ => nofun)
  refine .capture_write Tidy.yields fun _ code => .pure fun _ hpiece _ => ?_
  rintro _ ⟨⟩
  exact hpiece

lemma yields_parameterBounds (bounds : Reader Unit) [bounds.Tidy] :
    (parameterBounds bounds).YieldsBehind Code.IsClosed fun answer _ =>
      ∀ code, answer = some code → code.IsPiece := by
  refine .bind_quiet (yields_capture Tidy.yields) fun r => .ite ?_ (.pure fun _ => nofun)
  refine (yields_optional (Code.isSound_operator (by decide))).mono ?_
  rintro _ _ ⟨code, rfl, hpiece, -⟩ - _ ⟨⟩
  exact hpiece

instance (stop : Reader Bool) [stop.Tidy] : (lifetimeBounds stop).Tidy := by
  unfold lifetimeBounds
  infer_instance

/-- The name of a lifetime behind its quote is sound code. -/
lemma yields_lifetime {β : Type} {f : Cursor → Reader β} {Q : β → Code → Prop}
    (hf : ∀ c, (f c).YieldsBehind Code.IsClosed fun b more => ∀ new : Code,
      new = [.punct '\'' .joint, .ident (lifetimeName c.rest)] → new.IsSound → Q b (new ++ more)) :
    (get >>= fun c => lifetime >>= fun _ => f c).Yields Q := by
  intro c b e hrun hleft
  obtain ⟨_, _, ⟨⟩, hrun⟩ := bind_eq_ok.mp hrun
  obtain ⟨_, d, hlifetime, hrun⟩ := bind_eq_ok.mp hrun
  obtain ⟨hmiddle, hreaches, hpasses'⟩ := hf _ hrun hleft
  have htaken : c.Reaches d := Forward.take _ hlifetime
  obtain ⟨hfits, ⟨⟩⟩ := take_eq_ok.mp hlifetime
  refine ⟨hmiddle, htaken.trans hreaches, fun hc => ?_⟩
  obtain ⟨name, rest, hrest⟩ := Terminal.exists_of_fits_lifetime hfits
  obtain ⟨hnew, hends⟩ := passes_advance hfits hc
  obtain ⟨more, hmore, hb⟩ := hpasses' (hnew.isSoundEnd hc)
  have hcanonical : Terminal.lifetime.canonical c.rest =
      [.punct '\'' .joint, .ident (lifetimeName c.rest)] := by
    show c.rest.take 2 = _
    rw [hrest]
    rfl
  exact ⟨_, hnew.trans hmore fun front _ => (Code.Ends.append front hends).isClosed,
    hb _ hcanonical ((hnew.isPiece hc).isSound hends.isClosed)⟩

lemma yields_lifetimeParameter (attributes : Code) : (lifetimeParameter attributes).Yields
    fun p _ => attributes.IsSound → p.IsSound := by
  refine yields_lifetime fun c => ?_
  refine .bind_behind (L := Code.IsUnquoted) (yields_parameterBounds _)
    (fun _ _ _ hfront _ hnew => hfront.isUnquoted.append hnew) fun bounds => .pure ?_
  rintro _ hbounds _ rfl hname hattributes
  exact ⟨hattributes, hname, hbounds, nofun⟩

lemma yields_typeParameter (attributes : Code) : (typeParameter g attributes).Yields
    fun p _ => attributes.IsSound → p.IsSound := by
  refine .bind_behind (L := Code.IsClosed) yields_identifier ?_ fun name => ?_
  · rintro front _ _ - ⟨-, rfl⟩ -
    exact (Code.Ends.append front
      (Code.ends_single (show ¬(Token.ident _).IsJoint from not_false))).isClosed
  refine .bind_behind (L := Code.IsUnquoted) (yields_parameterBounds _)
    (fun _ _ _ hfront _ hnew => hfront.isUnquoted.append hnew) fun bounds => ?_
  refine .bind (yields_parameterDefault _) fun default => .pure ?_
  rintro _ hdefault _ hbounds _ ⟨hname, -⟩ hattributes
  exact ⟨hattributes, Code.isSound_word hname, hbounds, hdefault⟩

lemma yields_constantParameter (attributes : Code) : (constantParameter g attributes).Yields
    fun p _ => attributes.IsSound → p.IsSound := by
  refine .seq fun _ => .bind yields_identifier fun name => .seq fun _ => ?_
  refine .capture_write Tidy.yields fun _ type => ?_
  refine .bind (yields_parameterDefault _) fun default => .pure ?_
  rintro _ hdefault - htype _ _ ⟨hname, -⟩ _ hattributes
  refine ⟨hattributes, Code.isSound_word hname, ?_, hdefault⟩
  rintro _ ⟨⟩
  exact htype

instance (attributes : Code) : (lifetimeParameter attributes).Tidy :=
  (yields_lifetimeParameter attributes).tidy

instance (attributes : Code) : (typeParameter g attributes).Tidy :=
  (yields_typeParameter g attributes).tidy

instance (attributes : Code) : (constantParameter g attributes).Tidy :=
  (yields_constantParameter g attributes).tidy

lemma yields_parameter : (parameter g).Yields fun p _ => p.IsSound := by
  refine .capture_write (yields_outerAttributes g) fun _ attributes => ?_
  have hsound {p : Parameter} (h : attributes.IsSound → p.IsSound) (hclosed : attributes.IsClosed)
      (hpiece : attributes.IsPiece) : p.IsSound :=
    h (hpiece.isSound hclosed)
  refine .bind_look (looks_peek _) fun _ => .ite
    ((yields_lifetimeParameter attributes).mono fun _ _ => hsound) ?_
  refine .bind_look (looks_peek _) fun _ => .ite
    ((yields_typeParameter g attributes).mono fun _ _ => hsound) ?_
  refine .bind_look (looks_peek _) fun _ => .ite
    ((yields_constantParameter g attributes).mono fun _ _ => hsound) ?_
  refine .bind_look (looks_peek _) fun _ => .ite ?_ (.of_ne_ok (unexpected_ne_ok _))
  refine .bind yields_anyIdentifier fun name => .pure ?_
  rintro _ ⟨hname, -⟩
  exact hsound fun h => ⟨h, Code.isSound_word hname, nofun, nofun⟩

instance : (parameter g).Tidy := (yields_parameter g).tidy

lemma yields_parameters :
    (parameters g).Yields fun generics _ => ∀ p ∈ generics.parameters, p.IsSound := by
  refine .seq fun _ => .ite (.pure fun _ => nofun) ?_
  refine .bind (.collectAnswers (P := Parameter.IsSound) ?_) fun parameters =>
    .seq fun _ => .pure fun _ _ h _ => h
  refine .bind_look (looks_peek _) fun _ => .ite (.pure nofun) ?_
  refine .bind (yields_parameter g) fun p => .bind_look (looks_peek _) fun _ => .ite ?_ ?_
  · refine .pure fun _ hp => ?_
    rintro _ ⟨⟩
    exact hp
  · refine .seq fun _ => .pure fun _ _ hp => ?_
    rintro _ ⟨⟩
    exact ⟨hp.attributes, hp.name, hp.bounds, hp.default⟩

instance : (parameters g).Tidy := (yields_parameters g).tidy

instance : (binderParameter g).Tidy := by
  refine (YieldsBehind.capture_write (Q := fun _ _ => True) (yields_outerAttributes g)
    fun _ attributes => ?_).tidy
  exact (Tidy.yields (p := _)).mono fun _ _ _ _ _ => trivial

/-! ### Bounds -/

lemma yields_binder : (binder g).Yields fun _ new => new.Ends := by
  refine .seq fun _ => .seq fun _ => .seq fun _ =>
    (yields_take _).mono fun _ _ h before before' before'' => ?_
  exact Code.Ends.append _ (Code.Ends.append _ (Code.Ends.append _ h))

instance : (binder g).Tidy := (yields_binder g).tidy

lemma yields_binder? :
    (binder? g).Yields fun bound new => if bound then new.Ends else new = [] := by
  refine .bind_look (looks_peek _) fun _ =>
    .ite (.bind (yields_binder g) fun _ => .pure ?_) (.pure rfl)
  intro new h
  rw [List.append_nil]
  exact h

instance : (binder? g).Tidy := (yields_binder? g).tidy

omit [g.IsTidy] in
lemma capture_binder?_eq_ok {c d : Cursor} {bound : Bool} {lifetimes : Code}
    (h : capture (binder? g) c = .ok ((bound, lifetimes), d)) :
    bound = (Terminal.word "for").fits c.rest ∧ (bound = false → lifetimes = [] ∧ d = c) := by
  unfold binder? capture peekWord at h
  rw [bind_of_ok (peek_apply _ _)] at h
  dsimp only at h
  split at h
  · rename_i hrun
    split at hrun
    · rename_i hword
      obtain ⟨_, _, -, ⟨⟩⟩ := bind_eq_ok.mp hrun
      cases h
      exact ⟨hword.symm, by rintro ⟨⟩⟩
    · rename_i hword
      cases hrun
      cases h
      exact ⟨(eq_false_of_ne_true hword).symm, fun _ => ⟨rfl, rfl⟩⟩
  · cases h

/-- Lifetimes that a bound introduces can be written down further behind. -/
lemma yields_capturedBinder {β : Type} {f : Bool × Code → Reader β} {Q : β → Code → Prop}
    [∀ r, Lasting (f r)] (hnone : (f (false, [])).Yields Q)
    (hsome : ∀ lifetimes : Code, lifetimes.IsSound →
      (f (true, lifetimes)).YieldsBehind Code.IsClosed Q) :
    (capture (binder? g) >>= f).Yields Q := by
  intro c b e hrun hleft
  obtain ⟨⟨bound, lifetimes⟩, d, hcapture, hbehind⟩ := bind_eq_ok.mp hrun
  obtain ⟨hmiddle, hreaches'⟩ := Lasting.of_none hbehind hleft
  obtain ⟨hbound, hunbound⟩ := capture_binder?_eq_ok g hcapture
  obtain ⟨hc, hreaches, hwritten, hpasses⟩ := capture_eq_ok (yields_binder? g) hcapture hmiddle
  cases bound with
  | false =>
    obtain ⟨rfl, rfl⟩ := hunbound rfl
    exact hnone hbehind hleft
  | true =>
    refine ⟨hc, hreaches.trans hreaches', fun hsound => ?_⟩
    obtain ⟨hcode, hends⟩ := hpasses hsound
    obtain ⟨-, -, hpasses'⟩ := hsome lifetimes ((hcode.isPiece hsound).isSound hends.isClosed)
      hbehind hleft
    have hd : Code.IsSoundEnd d.rest := hcode.isSoundEnd hsound
    obtain ⟨more, hmore, hb⟩ := hpasses' hd
    obtain ⟨taken, hrest, hbalanced, hunquoted⟩ := hcode.taken
    obtain ⟨taken', hrest', hbalanced', hunquoted'⟩ := hmore.taken
    obtain ⟨rest, hword⟩ := fits_word_iff.mp hbound.symm
    refine ⟨more, .of_word ⟨⟨taken ++ taken', ?_, hbalanced.append hbalanced',
      hunquoted.append hunquoted'⟩, ?_, hmore.lexed, hmore.balanced, hmore.unquoted, ?_⟩
      hword hsound, hb⟩
    · rw [hrest, List.append_assoc, ← hrest']
    · rw [hmore.written, hwritten]
    · exact fun front hfront hglued =>
        hmore.glued front hfront ((hfront.isGlued hglued).append hd.glued)

/-- The path of a trait and the arguments in round brackets behind it. -/
def traitPath : Reader Unit := do
  let p ← path g false
  if p.last.arguments.isEmpty then
    if (← peek (.group .round)) ||
        ((← peekOperator "::") && (← peekThird (.group .round))) then
      let _ ← capture (acceptOperator "::")
      callArguments g

def traitModifier (allowModifier : Bool) : Reader Bool := do
  let start ← mark
  let square ← peek (.group .square)
  let const ← acceptWord "const"
  if square then
    group .square (word "const")
    if !allowModifier then failAt start (.boundNotAllowed "[const]")
    return true
  else if const then
    if !allowModifier then failAt start (.boundNotAllowed "const")
    return true
  else return false

lemma ite_bind {α β : Type} (b : Bool) (p q : Reader α) (f : α → Reader β) :
    (if b then p else q) >>= f = if b then p >>= f else q >>= f := by
  cases b <;> rfl

omit [g.IsTidy] in
lemma traitBound_eq (allowModifier : Bool) : traitBound g allowModifier =
    capture (binder? g) >>= fun r => traitModifier allowModifier >>= fun modified =>
      acceptOperator "?" >>= fun maybe =>
        if maybe && !r.1 then
          capture (binder? g) >>= fun r => write r.2 >>= fun _ => traitPath g >>= fun _ =>
            pure modified
        else write r.2 >>= fun _ => traitPath g >>= fun _ => pure modified := by
  unfold traitBound traitModifier traitPath
  congr
  funext ⟨bound, lifetimes⟩
  simp only [bind_assoc, pure_bind, ite_bind]

instance : (traitPath g).Tidy := by
  refine YieldsBehind.tidy (P := fun _ _ => True) ?_
  refine .bind_behind (L := Code.IsClosed) (yields_path g false)
    (fun front _ _ _ h _ => (Code.Ends.append front h.2).isClosed) fun p => ?_
  refine .ite ?_ (.pure fun _ _ => trivial)
  refine .bind_look (looks_peek _) fun _ => .bind_look (looks_peek _) fun _ =>
    .bind_look (looks_peekThird _) fun _ => .ite ?_ (.pure fun _ _ => trivial)
  refine .bind_quiet (yields_capture Tidy.yields) fun _ => ?_
  refine (Tidy.yields.weaken fun _ h => h.isUnquoted).mono fun _ _ _ _ _ _ => trivial

/-- Behind a modifier, code is as closed as it is in front of it. -/
lemma yields_traitModifier (allowModifier : Bool) :
    (traitModifier allowModifier).Yields fun _ new => new.IsClosed := by
  have hallowed (cause : Cause) (start : Mark) : (if !allowModifier then
      failAt start cause >>= fun (_ : Unit) => pure true else pure true).Yields
        fun _ new => new = [] := by
    refine .ite (.of_ne_ok fun c r hrun => ?_) (.pure rfl)
    obtain ⟨_, _, hfail, -⟩ := bind_eq_ok.mp hrun
    exact failAt_ne_ok _ _ _ _ hfail
  refine .bind_look looks_mark fun start => .bind_look (looks_peek _) fun _ => ?_
  refine .bind (P := fun _ new => new.IsClosed) ((yields_accept _).mono fun taken new h => ?_)
    fun _ => .ite ?_ (.ite ?_ ?_)
  · cases taken with
    | true => exact h.isClosed
    | false => exact h ▸ Code.isClosed_nil
  · refine .bind (yields_group _ Tidy.yields) fun _ => (hallowed _ start).mono ?_
    rintro _ _ rfl _ ⟨inner, rfl, -⟩ new hnew
    rw [List.append_nil]
    exact hnew.append (Code.ends_group _ inner).isClosed
  · refine (hallowed _ start).mono ?_
    rintro _ _ rfl new hnew
    rwa [List.append_nil]
  · refine .pure fun new hnew => ?_
    rwa [List.append_nil]

instance (allowModifier : Bool) : (traitModifier allowModifier).Tidy :=
  (yields_traitModifier allowModifier).tidy

lemma looks_write_nil : (write []).Looks := by
  rintro c _ d ⟨⟩
  rfl

instance (allowModifier : Bool) : (traitBound g allowModifier).Tidy := by
  rw [traitBound_eq]
  refine YieldsBehind.tidy (P := fun _ _ => True)
    (yields_capturedBinder g ?_ fun lifetimes hlifetimes => ?_)
  · refine .seq fun modified => .seq fun maybe => .ite ?_ ?_
    · refine .capture_write (yields_binder? g) fun _ lifetimes => ?_
      exact Tidy.yields.mono fun _ _ _ _ _ _ _ => trivial
    · refine .bind_look looks_write_nil fun _ => ?_
      exact Tidy.yields.mono fun _ _ _ _ _ => trivial
  · -- a question mark and a modifier may stand between the lifetimes and the path
    refine .bind_behind ((yields_traitModifier _).weaken fun _ h => h.isUnquoted)
      (fun _ _ _ hfront h _ => hfront.append h) fun modified => ?_
    refine .bind_behind ((yields_accept _).weaken fun _ h => h.isUnquoted)
      (L := Code.IsClosed) (fun front taken new hfront h _ => ?_) fun maybe => ?_
    · cases taken with
      | true => exact (Code.Ends.append front h).isClosed
      | false => rwa [h, List.append_nil]
    rw [Bool.not_true, Bool.and_false, if_neg Bool.false_ne_true]
    refine .bind_behind (yields_write hlifetimes) (fun _ _ _ hfront h _ =>
      hfront.append (h ▸ hlifetimes.isClosed)) fun _ => ?_
    exact (Tidy.yields.weaken fun _ h => h.isUnquoted).mono fun _ _ _ _ _ _ _ _ _ => trivial

/-! ### Other bounds -/

/-- No entry of a `use<..>` list begins with the bracket that closes the list. -/
lemma not_fits_of_closes {code : Code} (h : (Terminal.operator ">").fits code = true) :
    Terminal.lifetime.fits code = false ∧
      ([Terminal.identifier, .word "Self"].any fun t => t.fits code) = false := by
  cases code with
  | nil => exact ⟨rfl, rfl⟩
  | cons token rest =>
    cases token with
    | punct mark spacing =>
      obtain rfl : mark = '>' := beq_iff_eq.mp h
      exact ⟨rfl, rfl⟩
    | _ => cases h

/-- Behind an entry of a `use<..>` list stands a comma, unless it is the last one. -/
lemma comma_or_closed_of_listed (entry : Bool × Code) {c d : Cursor} {e : Bool × Code × Bool}
    (h : (do
      if ← peekOperator "," then
        let _ ← capture (operator ",")
        return some (entry.1, entry.2, true)
      else if ← peekOperator ">" then return some (entry.1, entry.2, false)
      else unexpected [.operator ",", .operator ">"] : Reader (Option (Bool × Code × Bool))) c =
        .ok (some e, d)) :
    e.2.2 = true ∨ (Terminal.operator ">").fits d.rest = true := by
  obtain ⟨_, _, ⟨⟩, h⟩ := bind_eq_ok.mp h
  split at h
  · obtain ⟨_, _, -, ⟨⟩⟩ := bind_eq_ok.mp h
    exact .inl rfl
  · obtain ⟨_, _, ⟨⟩, h⟩ := bind_eq_ok.mp h
    split at h
    · rename_i hclosed
      cases h
      exact .inr hclosed
    · exact absurd h (unexpected_ne_ok _ _ _)

instance : capturing.Tidy := by
  unfold capturing
  refine .seq fun _ => YieldsBehind.tidy (P := fun _ _ => True) ?_
  refine .bind_behind (yields_operator "<")
    (fun front _ _ _ h _ => (Code.Ends.append front h.2).isClosed) fun _ =>
    (yields_angled (yields_entries ?_ ?_)).mono fun _ _ _ _ _ => trivial
  · refine .bind_look (looks_peek _) fun _ => .bind_look (looks_peekAny _) fun _ =>
      .bind_look (looks_peek _) fun _ => ?_
    extract_lets behindEntry
    have hbehind (isLifetime : Bool) (code : Code) :
        (behindEntry (some (isLifetime, code))).YieldsBehind Code.IsClosed fun answer new =>
          code.IsPiece → new = [] ∧ ∀ e, answer = some e → e.2.1.IsPiece := by
      refine .bind_look (looks_peek _) fun _ => .ite ?_ ?_
      · refine .bind_quiet (yields_capture Tidy.yields) fun _ => .pure fun _ h => ⟨rfl, ?_⟩
        rintro _ ⟨⟩
        exact h
      · refine .bind_look (looks_peek _) fun _ =>
          .ite (.pure fun h => ⟨rfl, ?_⟩) (.of_ne_ok (unexpected_ne_ok _))
        rintro _ ⟨⟩
        exact h
    refine .ite (.bind_quiet (yields_capture Tidy.yields) fun r => ?_)
      (.ite (.bind_quiet (yields_capture Tidy.yields) fun r => ?_) (.ite ?_ ?_))
    · exact (hbehind true r.2).mono fun _ _ h hr => h hr.2
    · exact (hbehind false r.2).mono fun _ _ h hr => h hr.2
    · exact .pure ⟨rfl, nofun⟩
    · refine .of_ne_ok fun c r hrun => ?_
      obtain ⟨_, _, hfail, -⟩ := bind_eq_ok.mp hrun
      exact unexpected_ne_ok _ _ _ hfail
  · intro c e d hrun
    obtain ⟨_, _, ⟨⟩, hrun⟩ := bind_eq_ok.mp hrun
    obtain ⟨_, _, ⟨⟩, hrun⟩ := bind_eq_ok.mp hrun
    obtain ⟨_, _, ⟨⟩, hrun⟩ := bind_eq_ok.mp hrun
    split at hrun
    · rename_i hlifetime
      obtain ⟨⟨_, code⟩, c₁, -, hrun⟩ := bind_eq_ok.mp hrun
      refine ⟨fun h => ?_, comma_or_closed_of_listed (_, code) hrun⟩
      rw [(not_fits_of_closes h).1] at hlifetime
      cases hlifetime
    split at hrun
    · rename_i hname
      obtain ⟨⟨_, code⟩, c₁, -, hrun⟩ := bind_eq_ok.mp hrun
      refine ⟨fun h => ?_, comma_or_closed_of_listed (_, code) hrun⟩
      rw [(not_fits_of_closes h).2] at hname
      cases hname
    split at hrun
    · cases hrun
    · obtain ⟨_, _, hfail, -⟩ := bind_eq_ok.mp hrun
      exact absurd hfail (unexpected_ne_ok _ _ _)

set_option synthInstance.maxSize 1000 in
instance (allowCapturing allowModifier : Bool) : (bound g allowCapturing allowModifier).Tidy := by
  unfold bound
  infer_instance

instance (allowSum allowCapturing allowModifier : Bool) :
    (boundSum g allowSum allowCapturing allowModifier).Tidy := by
  unfold boundSum
  infer_instance

/-! ### Predicates -/

instance : predicateStop.Tidy := by
  unfold predicateStop
  infer_instance

set_option synthInstance.maxSize 1000 in
instance : (predicate g).Tidy := by
  unfold predicate
  infer_instance

lemma looks_startsParameters : startsParameters.Looks := by
  refine .bind (looks_peek _) fun _ => .ite (looks_pure _) ?_
  refine .bind (looks_peekSecond _) fun _ => .bind (looks_peekSecond _) fun _ =>
    .ite (looks_pure _) ?_
  refine .bind (looks_peekSecond _) fun _ => .ite (looks_pure _) ?_
  refine .bind (looks_peekSecond _) fun _ => .bind (looks_peekSecond _) fun _ =>
    .ite ?_ (looks_pure _)
  refine .bind (looks_peekThird _) fun _ => .bind (looks_peekThird _) fun _ => ?_
  exact .bind (looks_peekThird _) fun _ => .bind (looks_peekThird _) fun _ =>
    .bind (looks_peekThird _) fun _ => looks_pure _

/-- The `where` in front of predicates is not written down if there are none. -/
lemma yields_predicates : (predicates g).Yields fun answer new => ∀ code, answer = some code →
    code.IsPiece ∧ (code ≠ [] → new = .ident "where" :: code) := by
  refine .unless_word (.pure nofun)
    (.capture_word (.bind_look looks_startsParameters fun _ => .ite ?_ ?_))
  · refine .of_ne_ok fun c r hrun => ?_
    obtain ⟨_, _, hfail, -⟩ := bind_eq_ok.mp hrun
    exact fail_ne_ok _ _ _ hfail
  · have hwhere : Code.IsSound [.ident "where"] := Code.isSound_word (.plain (by decide))
    refine (yields_optional hwhere).mono ?_
    rintro _ new ⟨code, rfl, hcode⟩ _ ⟨⟩
    exact hcode

instance : (predicates g).Tidy := (yields_predicates g).tidy

end Read

end UnionView
