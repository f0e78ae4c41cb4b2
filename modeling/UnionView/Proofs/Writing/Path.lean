import UnionView.Grammar.File
import UnionView.Proofs.Grammar.WrittenPath
import UnionView.Proofs.Syntax.Writing

/-!
# Paths are written down as sound code

Lists in angle brackets are printed with lifetimes first, so that entries and commas change places.
What is printed is sound nevertheless (`isPiece_lifetimesFirst`), and the names and the generic
arguments of a path are sound code (`Path.IsSound`).
-/

namespace UnionView

open Text Lexer Reader

/-! ### Operators -/

section Operators

instance : (Terminal.operator "::").IsLeaf := ⟨by decide⟩
instance : (Terminal.operator "<").IsLeaf := ⟨by decide⟩
instance : (Terminal.operator ">").IsLeaf := ⟨by decide⟩
instance : (Terminal.operator ":").IsLeaf := ⟨by decide⟩
instance : (Terminal.operator ";").IsLeaf := ⟨by decide⟩
instance : (Terminal.operator "=").IsLeaf := ⟨by decide⟩
instance : (Terminal.operator "=>").IsLeaf := ⟨by decide⟩
instance : (Terminal.operator "->").IsLeaf := ⟨by decide⟩
instance : (Terminal.operator "+").IsLeaf := ⟨by decide⟩
instance : (Terminal.operator "*").IsLeaf := ⟨by decide⟩
instance : (Terminal.operator "&").IsLeaf := ⟨by decide⟩
instance : (Terminal.operator "|").IsLeaf := ⟨by decide⟩
instance : (Terminal.operator "!").IsLeaf := ⟨by decide⟩
instance : (Terminal.operator "?").IsLeaf := ⟨by decide⟩
instance : (Terminal.operator "#").IsLeaf := ⟨by decide⟩
instance : (Terminal.operator "@").IsLeaf := ⟨by decide⟩
instance : (Terminal.operator ".").IsLeaf := ⟨by decide⟩
instance : (Terminal.operator "..").IsLeaf := ⟨by decide⟩
instance : (Terminal.operator "...").IsLeaf := ⟨by decide⟩
instance : (Terminal.operator "..=").IsLeaf := ⟨by decide⟩

end Operators

/-! ### The grammar -/

/-- The readers of the grammar write down sound code. -/
class Grammar.IsTidy (g : Grammar) : Prop where
  type : ∀ allowSum, (g.type allowSum).Tidy
  bound : ∀ allowCapturing allowModifier, (g.bound allowCapturing allowModifier).Tidy
  expression : ∀ allowStruct, (g.expression allowStruct).Tidy
  operand : ∀ allowStruct, (g.operand allowStruct).Tidy
  operation : ∀ left allowStruct base, (g.operation left allowStruct base).Tidy
  leading : g.leading.Tidy
  pattern : g.pattern.Tidy
  statements : g.statements.Tidy
  item : ∀ start outer, (g.item start outer).Tidy
  useTree : ∀ allowRoot, (g.useTree allowRoot).Tidy

attribute [instance] Grammar.IsTidy.type Grammar.IsTidy.bound Grammar.IsTidy.expression
  Grammar.IsTidy.operand Grammar.IsTidy.operation Grammar.IsTidy.leading Grammar.IsTidy.pattern
  Grammar.IsTidy.statements Grammar.IsTidy.item Grammar.IsTidy.useTree

/-! ### Lists in angle brackets -/

/-- Entries with a comma behind every one but the last are a piece of code, and sound if there is a
comma behind the last one, too. -/
lemma Code.isPiece_entries {entries : List (Bool × Code × Bool)}
    (hpieces : ∀ e ∈ entries, e.2.1.IsPiece) (hcommas : entries.Pairwise fun e _ => e.2.2 = true) :
    IsPiece (entries.flatMap fun e => e.2.1 ++ if e.2.2 then operatorCode [','] else []) ∧
      (entries.getLast?.all (·.2.2) = true →
        IsSound (entries.flatMap fun e => e.2.1 ++ if e.2.2 then operatorCode [','] else [])) := by
  induction hcommas with
  | nil => exact ⟨isSound_nil.isPiece, fun _ => isSound_nil⟩
  | @cons e entries hcomma _ ih =>
    obtain ⟨he, hentries⟩ := List.forall_mem_cons.mp hpieces
    obtain ⟨hpiece, hsound⟩ := ih hentries
    have hlisted : IsSound (e.2.1 ++ operatorCode [',']) :=
      he.append_operator (List.cons_ne_nil ',' []) (by decide)
    rw [List.flatMap_cons]
    cases entries with
    | nil =>
      cases hlast : e.2.2 with
      | true => simpa [hlast] using ⟨hlisted.isPiece, hlisted⟩
      | false => simpa [hlast] using he
    | cons next entries =>
      rw [if_pos (hcomma next List.mem_cons_self), List.getLast?_cons_cons]
      exact ⟨hlisted.append_piece hpiece, fun hlast => hlisted.append (hsound hlast)⟩

/-- Lifetimes that are put first get the comma that the last of them may lack. -/
lemma isPiece_lifetimesFirst {entries : List (Bool × Code × Bool)}
    (hpieces : ∀ e ∈ entries, e.2.1.IsPiece) (hcommas : entries.Pairwise fun e _ => e.2.2 = true) :
    (lifetimesFirst entries).IsPiece := by
  have hmem {q : Bool × Code × Bool → Bool} : ∀ e ∈ entries.filter q, e.2.1.IsPiece :=
    fun e he => hpieces e (List.mem_filter.mp he).1
  obtain ⟨hlifetimes, hended⟩ := Code.isPiece_entries hmem (hcommas.filter (·.1))
  obtain ⟨hothers, -⟩ := Code.isPiece_entries hmem (hcommas.filter (!·.1))
  unfold lifetimesFirst
  dsimp only
  cases hlast : (entries.filter (·.1)).getLast?.all (·.2.2) with
  | true => simpa using (hended hlast).append_piece hothers
  | false =>
    cases hfilter : entries.filter (!·.1) with
    | nil => simpa using hlifetimes
    | cons other others =>
      rw [hfilter] at hothers
      exact (hlifetimes.append_operator (List.cons_ne_nil ',' []) (by decide)).append_piece hothers

namespace Read

/-- A list in angle brackets may stand behind the bracket that opens it. -/
lemma yields_angled {list : Reader (List (Bool × Code × Bool))}
    (hlist : list.YieldsBehind Code.IsClosed fun entries new =>
      new = [] ∧ (lifetimesFirst entries).IsPiece) :
    (list >>= fun entries => write (lifetimesFirst entries) >>= fun _ => operator ">").YieldsBehind
      Code.IsClosed fun _ new => new.Ends := by
  intro c _ e hrun hleft
  obtain ⟨entries, d, hentries, hrun⟩ := bind_eq_ok.mp hrun
  obtain ⟨_, d', ⟨⟩, hrun⟩ := bind_eq_ok.mp hrun
  obtain ⟨hmiddle, hreaches', hpasses'⟩ := yields_operator ">" hrun hleft
  obtain ⟨hnone, hreaches, hpasses⟩ := hlist hentries hmiddle
  refine ⟨hnone, hreaches.trans hreaches', fun hc => ?_⟩
  obtain ⟨_, hd, rfl, hpiece⟩ := hpasses hc
  obtain ⟨new, he, rfl, hends⟩ := hpasses' (hd.isSoundEnd hc)
  obtain ⟨taken, hrest, hbalanced, hunquoted⟩ := hd.taken
  obtain ⟨taken', hrest', hbalanced', hunquoted'⟩ := he.taken
  have hsound := hpiece.append_operator (List.cons_ne_nil '>' []) (by decide)
  refine ⟨lifetimesFirst entries ++ operatorCode ['>'], .of_closed (taken ++ taken') ?_
    (hbalanced.append hbalanced') (hunquoted.append hunquoted') ?_ hsound.isPiece ?_,
    Code.Ends.append _ hends⟩
  · rw [hrest, List.append_assoc, ← hrest']
  · rw [he.written, List.reverse_append, List.append_assoc]
    show _ ++ ((lifetimesFirst entries).reverse ++ d.written) = _
    rw [hd.written]
    rfl
  · exact hsound.glued.append (he.isSoundEnd (hd.isSoundEnd hc)).glued

/-- A repetition that writes nothing down collects entries of a list in angle brackets. -/
lemma yields_entries {step : Reader (Option (Bool × Code × Bool))}
    (hstep : step.YieldsBehind Code.IsClosed fun answer new =>
      new = [] ∧ ∀ e, answer = some e → e.2.1.IsPiece)
    (hcomma : ∀ ⦃c e d⦄, step c = .ok (some e, d) →
      ¬(Terminal.operator ">").fits c.rest = true ∧
        (e.2.2 = true ∨ (Terminal.operator ">").fits d.rest = true)) :
    (collect step).YieldsBehind Code.IsClosed fun entries new =>
      new = [] ∧ (lifetimesFirst entries).IsPiece := by
  have hcommas :
      (collect step).Answers fun entries => entries.Pairwise fun e _ => e.2.2 = true := by
    intro c entries d hrun
    obtain ⟨_, hsteps, -⟩ := collect_go_eq_ok_iff.mp hrun
    exact hsteps.pairwise (E := fun code => (Terminal.operator ">").fits code = true) hcomma
  have hall : (collect step).YieldsBehind Code.IsClosed fun entries new =>
      (∀ e ∈ entries, e.2.1.IsPiece) ∧ new = [] := by
    refine .collect rfl ?_ ?_ (hstep.mono fun _ _ h => h.symm)
    · rintro _ _ rfl rfl
      rfl
    · rintro front _ hfront rfl -
      rwa [List.append_nil]
  exact (hall.and_answers hcommas).mono fun _ _ h => ⟨h.1.2, isPiece_lifetimesFirst h.1.1 h.2⟩

/-- Every entry of a list in angle brackets is a piece of code. -/
lemma yields_angleList (element : Reader Bool) [element.Tidy] :
    (angleList element).YieldsBehind Code.IsClosed fun entries new =>
      new = [] ∧ (lifetimesFirst entries).IsPiece := by
  refine yields_entries ?_ ?_
  · refine .bind_look (looks_peek _) fun _ => .ite (.pure ⟨rfl, nofun⟩) ?_
    refine .bind_quiet (yields_capture Tidy.yields) fun entry => ?_
    refine .bind_look (looks_peek _) fun _ => .ite (.pure fun h => ⟨rfl, ?_⟩) ?_
    · rintro _ ⟨⟩
      exact h.2
    · refine .bind_quiet (yields_capture Tidy.yields) fun _ => .pure fun _ h => ⟨rfl, ?_⟩
      rintro _ ⟨⟩
      exact h.2
  · intro c e d hrun
    obtain ⟨_, _, ⟨⟩, hrun⟩ := bind_eq_ok.mp hrun
    split at hrun
    · cases hrun
    rename_i hopen
    refine ⟨hopen, ?_⟩
    obtain ⟨_, c₁, -, hrun⟩ := bind_eq_ok.mp hrun
    obtain ⟨_, _, ⟨⟩, hrun⟩ := bind_eq_ok.mp hrun
    split at hrun
    · rename_i hended
      cases hrun
      exact .inr hended
    · obtain ⟨_, _, -, ⟨⟩⟩ := bind_eq_ok.mp hrun
      exact .inl rfl

end Read

/-! ### Attributes and blocks -/

namespace Path

instance (fuel : Nat) : (plainSegments fuel).Tidy := by
  induction fuel with
  | zero =>
    unfold plainSegments
    infer_instance
  | succ fuel ih =>
    unfold plainSegments
    infer_instance

instance : plain.Tidy := by
  unfold plain
  infer_instance

end Path

namespace Read

instance : metaPath.Tidy := by
  unfold metaPath
  infer_instance

instance : markedPath.Tidy := by
  unfold markedPath
  infer_instance

variable (g : Grammar) [g.IsTidy]

instance : (metaValue g).Tidy := by
  unfold metaValue
  infer_instance

instance : (metaAssignment g).Tidy := by
  unfold metaAssignment
  infer_instance

instance : (meta? g).Tidy := by
  unfold meta?
  infer_instance

instance : (assignment g).Tidy := by
  unfold assignment
  infer_instance

lemma yields_outerAttribute : (outerAttribute g).Yields fun _ new => new.Ends := by
  refine .seq fun _ => .seq fun _ => .bind (yields_group .square Tidy.yields) fun _ => .pure ?_
  rintro _ ⟨inner, rfl, -⟩ before before'
  rw [List.append_nil]
  exact Code.Ends.append _ (Code.Ends.append _ (Code.ends_group _ _))

instance : (outerAttribute g).Tidy := (yields_outerAttribute g).tidy

instance : (innerAttribute g).Tidy := by
  unfold innerAttribute
  infer_instance

/-- Nothing at the end of attributes belongs together with what is behind them. -/
lemma yields_outerAttributes : (outerAttributes g).Yields fun _ new => new.IsClosed := by
  refine (YieldsBehind.collect (P := fun _ => True) Code.isClosed_nil Code.IsClosed.append
    (fun hfront _ hnew => hfront.append hnew) ?_).mono fun _ _ h => h.2
  refine .bind (P := fun _ new => new = []) (.of_looks (looks_peek _) fun _ => rfl) fun _ =>
    .ite ?_ (.pure ?_)
  · refine .bind (yields_outerAttribute g) fun _ => .pure ?_
    rintro new h _ rfl
    rw [List.append_nil]
    exact ⟨fun _ _ => trivial, h.isClosed⟩
  · rintro _ rfl
    exact ⟨fun _ _ => trivial, Code.isClosed_nil⟩

instance : (outerAttributes g).Tidy := (yields_outerAttributes g).tidy

instance : (innerAttributes g).Tidy := by
  unfold innerAttributes
  infer_instance

instance : (block g).Tidy := by
  unfold block
  infer_instance

instance : (plainBlock g).Tidy := by
  unfold plainBlock
  infer_instance

/-! ### Segments and paths -/

instance : (constantArgument g).Tidy := by
  unfold constantArgument
  infer_instance

instance (stop : Reader Bool) [stop.Tidy] : (boundsUntil g stop).Tidy := by
  unfold boundsUntil
  infer_instance

instance : (associated g).Tidy := by
  unfold associated
  infer_instance

instance : (argument g).Tidy := by
  unfold argument
  refine .seq fun _ => .seq fun _ => .branch inferInstance (.seq fun _ => .branch inferInstance ?_)
  refine .seq fun type => ?_
  extract_lets ended
  split <;> infer_instance

/-- Arguments in angle brackets end with their bracket. -/
lemma yields_arguments : (arguments g).Yields fun _ new => new.Ends := by
  refine .seq fun _ => .bind_behind (yields_operator "<")
    (fun _ _ _ _ h _ => (Code.Ends.append _ h.2).isClosed) fun _ => ?_
  refine (yields_angled (yields_angleList (argument g))).mono fun _ more h new _ before => ?_
  exact Code.Ends.append _ (Code.Ends.append _ h)

instance : (arguments g).Tidy := (yields_arguments g).tidy

lemma yields_segment (inExpression : Bool) :
    (segment g inExpression).Yields fun s new => s.IsSound ∧ new.Ends := by
  refine .bind_look (looks_peekAny _) fun _ => .ite ?_ (.bind_look (looks_peek _) fun _ => ?_)
  · refine .bind yields_anyIdentifier fun name => .pure ?_
    rintro _ ⟨hname, rfl⟩
    exact ⟨⟨hname, Code.isSound_nil⟩,
      Code.ends_single (show ¬(Token.ident name).IsJoint from not_false)⟩
  · extract_lets behindName
    have hbehind : ∀ name, (behindName name).Yields fun s more =>
        ∀ new : Code, IsName name.toList ∧ new = [.ident name] →
          s.IsSound ∧ (new ++ more).Ends := by
      intro name
      unfold behindName
      extract_lets behindDirect
      have hdirect : ∀ direct, (behindDirect direct).Yields fun s more =>
          ∀ new : Code, IsName name.toList ∧ new = [.ident name] →
            s.IsSound ∧ (new ++ more).Ends := by
        refine fun direct => .bind_look (looks_peek _) fun _ => .bind_look (looks_peekThird _)
          fun _ => .ite ?_ (.pure ?_)
        · refine .capture_write (yields_arguments g) fun _ code => .pure ?_
          rintro hends hpiece _ ⟨hname, rfl⟩
          rw [List.append_nil]
          exact ⟨⟨hname, hpiece.isSound hends.isClosed⟩, Code.Ends.append _ hends⟩
        · rintro _ ⟨hname, rfl⟩
          exact ⟨⟨hname, Code.isSound_nil⟩,
            Code.ends_single (show ¬(Token.ident name).IsJoint from not_false)⟩
      refine .ite (.bind_look (looks_pure _) hdirect) (.bind_look (looks_peek _) fun _ => ?_)
      exact .bind_look (looks_peekAny _) fun _ => .bind_look (looks_pure _) hdirect
    exact .ite (.bind yields_anyIdentifier hbehind) (.bind yields_identifier hbehind)

instance (inExpression : Bool) : (segment g inExpression).Tidy := (yields_segment g _).tidy

lemma yields_path (inExpression : Bool) :
    (path g inExpression).Yields fun p new => p.IsSound ∧ new.Ends := by
  refine .seq fun _ => .bind (yields_segment g _) fun first => ?_
  refine .bind (P := fun more new => (∀ s ∈ more, s.IsSound) ∧ new.IsClosed)
    (.collect Code.isClosed_nil Code.IsClosed.append (fun hfront _ hnew => hfront.append hnew) ?_)
    fun more => ?_
  · refine .bind_look (looks_peek _) fun _ => .bind_look (looks_peekThird _) fun _ =>
      .ite ?_ (.pure ⟨nofun, Code.isClosed_nil⟩)
    refine .seq fun _ => .bind (yields_segment g _) fun s => .pure ?_
    rintro new ⟨hs, hends⟩ before
    rw [List.append_nil]
    refine ⟨?_, (Code.Ends.append _ hends).isClosed⟩
    rintro _ ⟨⟩
    exact hs
  · refine .pure ?_
    rintro new ⟨hmore, hclosed⟩ new' ⟨hfirst, hends⟩ before
    rw [List.append_nil]
    exact ⟨List.forall_mem_cons.mpr ⟨hfirst, hmore⟩,
      Code.Ends.append _ (hends.append_of_isClosed hclosed)⟩

instance (inExpression : Bool) : (path g inExpression).Tidy := (yields_path g _).tidy

lemma yields_qualifiedPath (inExpression : Bool) :
    (qualifiedPath g inExpression).Yields fun answer _ => ∀ p, answer = some p → p.IsSound := by
  refine .seq fun _ => .ite ?_ ?_
  · refine .seq fun _ => .seq fun _ => ?_
    extract_lets behindTrait
    have hbehind : ∀ u, (behindTrait u).Yields fun answer _ => ∀ p, answer = some p → p.IsSound :=
      fun _ => .seq fun _ => .seq fun _ => .seq fun _ => .pure fun _ _ _ => nofun
    refine .ite (.seq fun _ => (hbehind ()).mono ?_) ((hbehind ()).mono ?_)
    · exact fun _ _ h _ _ _ _ => h
    · exact fun _ _ h _ _ _ => h
  · refine .bind (yields_path g _) fun p => .pure fun new h _ => ?_
    rintro _ ⟨⟩
    exact h.1

instance (inExpression : Bool) : (qualifiedPath g inExpression).Tidy :=
  (yields_qualifiedPath g _).tidy

-- many cases, each of which is a small reader
set_option synthInstance.maxSize 1000 in
instance : startsParameters.Tidy := by
  unfold startsParameters
  infer_instance

instance : startsParametersAfterWord.Tidy := by
  unfold startsParametersAfterWord
  infer_instance

instance (allowSum : Bool) : (returnType g allowSum).Tidy := by
  unfold returnType
  infer_instance

instance : (callArguments g).Tidy := by
  unfold callArguments
  infer_instance

end Read

end UnionView
