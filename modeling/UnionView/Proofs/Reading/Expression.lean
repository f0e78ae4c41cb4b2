import UnionView.Proofs.Reading.Path

/-!
# Reading expressions that begin with a path
-/

namespace UnionView

open Reader

/-- An operand ends here: at the end of a group or in front of a block. -/
inductive Code.EndsOperand : Code → Prop
  | closing (d : Delimiter) (behind : Code) : EndsOperand (.closing d :: behind)
  | block (behind : Code) : EndsOperand (.opening .curly :: behind)

/-! ### The front of a path of several names -/

/-- The code begins as a path of several names does. -/
inductive Code.StartsLongPath : Code → Prop
  | rooted (behind : Code) : StartsLongPath (Path.separator ++ behind)
  | name {name : String} (fits : Path.segmentStarts.any (·.fits [.ident name]) = true)
      (behind : Code) : StartsLongPath (.ident name :: (Path.separator ++ behind))

namespace Code.StartsLongPath

variable {code : Code}

lemma startsPath (h : StartsLongPath code) : code.StartsPath := by
  cases h with
  | rooted behind => exact .rooted behind
  | name fits => exact .name fits _

/-- Behind the first token tree of the path there is a colon. -/
lemma exists_skip (h : StartsLongPath code) :
    ∃ spacing behind, Cursor.skip { rest := code } 1 = .punct ':' spacing :: behind := by
  cases h with
  | rooted behind => exact ⟨_, behind, rfl⟩
  | name fits behind => exact ⟨_, _, rfl⟩

lemma fits_separator_or (h : StartsLongPath code) :
    (Terminal.word "crate").fits code = false ∨
      (Terminal.operator "::").fits (Cursor.skip { rest := code } 1) = true := by
  cases h with
  | rooted => exact .inl rfl
  | name => exact .inr rfl

end Code.StartsLongPath

/-- A plain path of two names or more. -/
structure Path.IsLong (p : Path) : Prop where
  plain : ∀ s ∈ p.segments, s.IsPlain
  more : p.more ≠ []

namespace Path.IsLong

variable {p : Path} {rest : Code}

/-- A plain path that goes on has two names or more. -/
lemma child (h : ∀ s ∈ p.segments, s.IsPlain) {name : String}
    (hname : Terminal.identifier.fits [.ident name] = true) : (p.child name).IsLong := by
  refine ⟨fun s hs => ?_, List.append_ne_nil_of_right_ne_nil _ (List.cons_ne_nil _ _)⟩
  rw [segments_child] at hs
  obtain hs | hs := List.mem_append.mp hs
  · exact h s hs
  · obtain rfl := List.mem_singleton.mp hs
    exact ⟨rfl, segmentStarts_of_identifier hname⟩

lemma startsLongPath (h : p.IsLong) (rest : Code) : (p.code ++ rest).StartsLongPath := by
  obtain ⟨rooted, first, more⟩ := p
  obtain ⟨hplain, hmore⟩ := h
  obtain ⟨next, more, rfl⟩ := List.exists_cons_of_ne_nil hmore
  have hfirst : first.IsPlain := hplain first List.mem_cons_self
  unfold code segments
  rw [segmentsCode_cons_cons, hfirst.code]
  cases rooted with
  | true => exact .rooted _
  | false => exact .name hfirst.fits _

lemma startsPath (h : p.IsLong) (rest : Code) : (p.code ++ rest).StartsPath :=
  (h.startsLongPath rest).startsPath

lemma takes_path (h : p.IsLong) (g : Grammar) (inExpression : Bool) (hends : rest.EndsPath) :
    Takes (Read.path g inExpression) p.code rest p.IsNamed :=
  Read.takes_path g
    (fun s hs => Read.isSegment_of_isPlain g inExpression (h.plain s hs)) hends.endsNames

end Path.IsLong

namespace Read

variable {rest code : Code}

/-! ### What does not begin with a path -/

section Front

variable (g : Grammar) (h : rest.StartsLongPath)

include h

lemma takes_startsParametersAfterWord : Takes startsParametersAfterWord [] rest (· = false) := by
  cases h <;> exact fun _ _ => ⟨_, _, rfl, rfl⟩

lemma takes_startsAsyncBlock : Takes startsAsyncBlock [] rest (· = false) :=
  .see (h.startsPath.fits_eq_false (by decide))
    (.seeSecond rfl (.seeSecond rfl (.seeThird rfl (.pure rfl))))

lemma takes_startsClosure : Takes startsClosure [] rest (· = false) := by
  have hstart := h.startsPath
  refine .seeAny (hstart.any_eq_false (by decide)) (.see (hstart.fits_eq_false (by decide)) ?_)
  refine .see (hstart.fits_eq_false (by decide)) (.see (hstart.fits_eq_false (by decide)) ?_)
  exact .seeSecond rfl (.seeSecond rfl (.pure rfl))

lemma takes_startsPath : Takes startsPath [] rest (· = true) :=
  .seeAny (h.startsPath.any_eq_true (by decide)) (.pure rfl)

lemma takes_blockLike?_false : Takes (blockLike? g) [] rest (· = false) := by
  have hstart := h.startsPath
  refine .see (hstart.fits_eq_false (by decide)) (.see (hstart.fits_eq_false (by decide)) ?_)
  refine .see (hstart.fits_eq_false (by decide)) (.look (takes_startsParametersAfterWord h) ?_)
  refine .see (hstart.fits_eq_false (by decide)) (.see (hstart.fits_eq_false (by decide)) ?_)
  refine .see (hstart.fits_eq_false (by decide)) (.seeSecond rfl ?_)
  refine .refuse (hstart.fits_eq_false (by decide)) (.see (hstart.fits_eq_false (by decide)) ?_)
  exact .seeSecond rfl (.see (hstart.fits_eq_false (by decide)) (.pure rfl))

/-- Behind the first token tree of a path of several names no other thing than a colon comes. -/
lemma fits_second_eq_false {t : Terminal}
    (ht : ∀ spacing behind, t.fits (.punct ':' spacing :: behind) = false) :
    t.fits (Cursor.skip { rest } 1) = false := by
  obtain ⟨spacing, behind, hskip⟩ := h.exists_skip
  rw [hskip]
  exact ht spacing behind

end Front

/-! ### Operands -/

/-- A path that no arguments follow is an operand that is a path. -/
lemma takes_atom (g : Grammar) (allowStruct : Bool) {p : Path} (hlong : p.IsLong)
    (hends : rest.EndsPath) (hbrace : (Terminal.group .curly).fits rest = false) :
    Takes (atom g allowStruct) p.code rest fun form => ∃ q, form = .path q := by
  have hstart := hlong.startsPath rest
  have hfront := hlong.startsLongPath rest
  unfold atom
  refine .see (hstart.fits_eq_false rfl) (.look (takes_startsAsyncBlock hfront) ?_)
  refine .look (takes_startsClosure hfront) (.see rfl (.seeSecond (b := false) ?_ ?_))
  · exact fits_second_eq_false hfront fun _ _ => rfl
  rw [Bool.and_false]
  refine .look (takes_startsPath hfront) ?_
  show Takes (pathOperand g allowStruct) _ _ _
  unfold pathOperand
  refine .last (takes_qualifiedPath g hstart (hlong.takes_path g true hends)) ?_
  rintro _ ⟨q, rfl, -⟩
  refine .see hends.exclamation (.see rfl (.see hbrace ?_))
  rw [Bool.and_false]
  exact .pure ⟨q, rfl⟩

section End

variable (g : Grammar)

/-- Nothing follows an operand where it ends. -/
lemma takes_trailersGo_nil (h : rest.EndsOperand) (fuel : Nat) (form : Form) :
    Takes (trailers.go g fuel form) [] rest (· = form) := by
  cases fuel with
  | zero => exact .pure rfl
  | succ fuel => cases h <;> cases form <;> exact fun _ _ => ⟨_, _, rfl, rfl⟩

lemma takes_trailers_nil (h : rest.EndsOperand) (form : Form) :
    Takes (trailers g form) [] rest (· = form) :=
  .get fun _ _ => takes_trailersGo_nil g h _ form

/-- An argument follows an operand, and nothing follows its group. -/
lemma takes_trailers_call {fuel : Nat} {form : Form} {argument : Code} (h : rest.EndsOperand)
    (hopen : Cursor.isEnded { rest := argument ++ .closing .round :: rest } = false)
    (hargument : Takes (expression (grammar fuel) true) argument (.closing .round :: rest)
      fun _ => True) :
    Takes (trailers (grammar (fuel + 1)) form) (groupCode .round argument) rest (· = .other) := by
  have hargument' : Takes ((grammar (fuel + 1)).expression true) argument _ _ := hargument
  refine .get fun c _ => ?_
  unfold trailers.go
  refine .see rfl (.last (.group (.separatedBy_single hopen hargument')) fun _ _ => ?_)
  exact takes_trailersGo_nil _ h _ .other

/-- No operator follows an expression where its operand ends. -/
lemma takes_operation_nil (h : rest.EndsOperand) (form : Form) (allowStruct : Bool)
    {base : Precedence} (hbase : base = .jump ∨ base = .compare) :
    Takes (operation g form allowStruct base) [] rest (· = form) := by
  obtain rfl | rfl := hbase <;> cases h <;> cases form <;> exact fun _ _ => ⟨_, _, rfl, rfl⟩

end End

/-- What an operand may begin with apart from what is read as its atom. -/
def prefixes : List Terminal :=
  ["#", "&", "*", "!", "-"].map Terminal.operator

/-- An operand without operators in front is an atom with what follows it. -/
lemma takes_operand {g : Grammar} {allowStruct : Bool} {trailer : Code} {P Q : Form → Prop}
    (hfront : prefixes.any (·.fits (code ++ trailer ++ rest)) = false)
    (hatom : Takes (atom g allowStruct) code (trailer ++ rest) P)
    (htrailers : ∀ form, P form → Takes (trailers g form) trailer rest Q) :
    Takes (operand g allowStruct) (code ++ trailer) rest Q := by
  simp only [prefixes, List.map_cons, List.map_nil, List.any_cons, List.any_nil, Bool.or_false,
    Bool.or_eq_false_iff] at hfront
  obtain ⟨hattribute, hreference, hsigns⟩ := hfront
  have hsigns' : [Terminal.operator "*", .operator "!", .operator "-"].any
      (·.fits (code ++ trailer ++ rest)) = false := by
    simp only [List.any_cons, List.any_nil, hsigns, Bool.or_false]
  unfold operand
  refine .look (takes_outerAttributes_nil g hattribute) (.refuse hreference (.seeAny hsigns' ?_))
  refine .quiet .mark fun start _ => .bind hatom fun form hform => ?_
  refine .last (htrailers form hform) fun form hform => ?_
  rw [List.isEmpty_nil, Bool.not_true, Bool.and_false]
  exact .pure hform

lemma takes_operand_atom {g : Grammar} {allowStruct : Bool} {P : Form → Prop}
    (hends : rest.EndsOperand) (hfront : prefixes.any (·.fits (code ++ rest)) = false)
    (hatom : Takes (atom g allowStruct) code rest P) :
    Takes (operand g allowStruct) code rest P := by
  have hoperand : Takes (operand g allowStruct) (code ++ []) rest P := by
    rw [← List.append_nil code] at hfront
    refine takes_operand hfront hatom fun form hform => ?_
    exact (takes_trailers_nil g hends form).mono fun _ h => h ▸ hform
  rwa [List.append_nil] at hoperand

lemma takes_operand_path (g : Grammar) (allowStruct : Bool) {p : Path} (hlong : p.IsLong)
    (d : Delimiter) (behind : Code) :
    Takes (operand g allowStruct) p.code (.closing d :: behind)
      fun form => ∃ q, form = .path q := by
  refine takes_operand_atom (.closing d behind) ((hlong.startsPath _).any_eq_false (by decide)) ?_
  exact takes_atom g allowStruct hlong ⟨rfl, rfl, rfl, rfl⟩ rfl

lemma takes_operand_call {fuel : Nat} (allowStruct : Bool) {p : Path} {argument : Code}
    (hlong : p.IsLong) (h : rest.EndsOperand)
    (hopen : Cursor.isEnded { rest := argument ++ .closing .round :: rest } = false)
    (hargument : Takes (expression (grammar fuel) true) argument (.closing .round :: rest)
      fun _ => True) :
    Takes (operand (grammar (fuel + 1)) allowStruct) (p.code ++ groupCode .round argument) rest
      (· = .other) := by
  have hfront := (hlong.startsPath (groupCode .round argument ++ rest)).any_eq_false
    (show prefixes.all Terminal.isForeignToPath = true by decide)
  rw [← List.append_assoc] at hfront
  refine takes_operand hfront (takes_atom _ allowStruct hlong ⟨rfl, rfl, rfl, rfl⟩ rfl) ?_
  exact fun form _ => takes_trailers_call h hopen hargument

lemma takes_reference {fuel : Nat} (allowStruct : Bool) (hfront : (code ++ rest).StartsLongPath)
    (h : Takes (operand (grammar fuel) allowStruct) code rest fun _ => True) :
    Takes (operand (grammar (fuel + 1)) allowStruct) (opCode "&" ++ code) rest (· = .other) := by
  have hoperand : Takes ((grammar (fuel + 1)).operand allowStruct) code rest _ := h
  unfold operand
  refine .look (takes_outerAttributes_nil _ rfl) (.accept ?_)
  refine .see rfl (.seeSecond (b := false) ?_ (.seeSecond (b := false) ?_ ?_))
  · exact fits_second_eq_false hfront fun _ _ => rfl
  · exact fits_second_eq_false hfront fun _ _ => rfl
  rw [Bool.or_false, Bool.and_false]
  exact .refuse (hfront.startsPath.fits_eq_false (by decide)) (.last hoperand fun _ _ => .pure rfl)

/-! ### Expressions -/

section Expressions

variable {fuel : Nat} {P : Form → Prop} (hends : rest.EndsOperand)

include hends

/-- An expression is an operand where it ends. -/
lemma takes_expression {allowStruct : Bool}
    (hoperand : Takes (operand (grammar fuel) allowStruct) code rest P) :
    Takes (expression (grammar (fuel + 1)) allowStruct) code rest P := by
  have hoperand' : Takes ((grammar (fuel + 1)).operand allowStruct) code rest P := hoperand
  refine .last hoperand' fun form hform => ?_
  exact (takes_operation_nil (grammar fuel) hends form allowStruct (.inl rfl)).mono
    fun _ h => h ▸ hform

/-- The same where a statement may begin. -/
lemma takes_leading (hfront : (code ++ rest).StartsLongPath)
    (hform : ∀ form, P form → form ≠ .blockLike)
    (hoperand : Takes (operand (grammar fuel) true) code rest P) :
    Takes (leading (grammar (fuel + 1))) code rest P := by
  have hstart := hfront.startsPath
  have hoperand' : Takes ((grammar (fuel + 1)).operand true) code rest P := hoperand
  unfold leading
  refine .look (takes_outerAttributes_nil _ (hstart.fits_eq_false (by decide))) ?_
  refine .look (takes_blockLike?_false _ hfront) (.see (hstart.fits_eq_false rfl) ?_)
  refine .last hoperand' fun form hP => .ite (fun _ => ?_) fun h => ?_
  · exact (takes_operation_nil (grammar fuel) hends form true (.inl rfl)).mono fun _ h => h ▸ hP
  · have hne : (form != .blockLike) = true := by simpa using hform form hP
    rw [hne] at h
    cases h

end Expressions

end Read

namespace Path

/-- The segments of a plain path, whatever follows them. -/
lemma takes_plainSegments {more : List PathSegment} {first : PathSegment} {rest : Code}
    (hplain : ∀ s ∈ first :: more, s.IsPlain)
    (hrest : (Terminal.operator "::").fits rest = false) {fuel : Nat} (hfuel : more.length < fuel) :
    Takes (plainSegments fuel) (segmentsCode (first :: more)) rest fun _ => True := by
  induction more generalizing first fuel with
  | nil =>
    obtain ⟨fuel, rfl⟩ := Nat.exists_eq_succ_of_ne_zero (Nat.ne_of_gt hfuel)
    rw [segmentsCode, (hplain first List.mem_cons_self).code]
    exact .last (.anyIdentifier first.name) fun _ _ => .refuse hrest (.pure trivial)
  | cons next more ih =>
    obtain ⟨fuel, rfl⟩ := Nat.exists_eq_succ_of_ne_zero (Nat.ne_of_gt (Nat.zero_lt_of_lt hfuel))
    have hnext := ih (fun s hs => hplain s (List.mem_cons_of_mem _ hs))
      (Nat.lt_of_succ_lt_succ hfuel)
    rw [segmentsCode_cons_cons, (hplain first List.mem_cons_self).code, List.append_assoc]
    refine .seq (.anyIdentifier first.name) fun _ => .accept ?_
    have hstart := fits_segmentsCode (hplain next (List.mem_cons_of_mem _ List.mem_cons_self)) more
    refine .seeAny (b := true) ?_ (.last hnext fun _ _ => .pure trivial)
    obtain ⟨behind, hbehind⟩ :=
      exists_segmentsCode (hplain next (List.mem_cons_of_mem _ List.mem_cons_self)) more
    rw [hbehind] at hstart ⊢
    exact hstart

/-- A plain path is read as one, whatever follows it. -/
lemma takes_plain {p : Path} {rest : Code} (hplain : ∀ s ∈ p.segments, s.IsPlain)
    (hrest : (Terminal.operator "::").fits rest = false) :
    Takes plain p.code rest fun _ => True := by
  have hfirst := hplain p.first List.mem_cons_self
  obtain ⟨behind, hbehind⟩ := exists_segmentsCode hfirst p.more
  have hroot : Takes (acceptOperator "::") (if p.rooted then separator else [])
      (segmentsCode p.segments ++ rest) (· = p.rooted) := by
    rw [segments, hbehind]
    exact Read.takes_root p.rooted p.first.name (behind ++ rest)
  unfold plain
  refine .seq hroot fun rooted => .seeAny (b := true) ?_ (.get fun c hc => ?_)
  · rw [segments, hbehind]
    exact hfirst.fits
  · have hfuel : p.more.length < c.rest.length + 1 := by
      have hlt := length_lt_segmentsCode p.more p.first
      have hlength := congrArg List.length hc
      rw [List.length_append] at hlength
      change _ = (segmentsCode (p.first :: p.more)).length + _ at hlength
      omega
    exact .last (takes_plainSegments hplain hrest hfuel) fun _ _ => .pure trivial

end Path

namespace Read

variable {rest code : Code}

/-! ### Statements -/

/-- What begins with a plain path is no invocation if no `!` follows the path. -/
lemma takes_invocationForm {p : Path} (hplain : ∀ s ∈ p.segments, s.IsPlain)
    (hends : rest.EndsPath) :
    Takes invocationForm [] (p.code ++ rest) (· = .expression) := by
  have hahead : Takes (ahead do
      let _ ← Path.plain
      if !(← peekOperator "!") then return .expression
      if (← peekSecond .identifier) || (← peekSecond (.word "try")) then return .item
      let continued := ((← peekThird (.operator ".")) && !(← peekThird (.operator ".."))) ||
        (← peekThird (.operator "?"))
      if (← peekSecond (.group .curly)) && !continued then return .statement
      return .expression) [] (p.code ++ rest) (· = InvocationForm.expression) :=
    .ahead (.last (Path.takes_plain hplain hends.separator) fun _ _ =>
      .see hends.exclamation (.pure rfl))
  have hattempt : Takes _ [] ([] ++ (p.code ++ rest)) _ := hahead.attempt
  refine .quiet hattempt ?_
  rintro _ ⟨_, rfl, rfl⟩
  exact .pure rfl

/-- No item begins with a path of several names. -/
lemma takes_startsItem (h : rest.StartsLongPath) : Takes startsItem [] rest (· = false) := by
  have hstart := h.startsPath
  have hstatic : Takes startsStatic [] rest (· = false) :=
    .see (hstart.fits_eq_false (by decide)) (.pure rfl)
  have hconstant : Takes startsConstant [] rest (· = false) :=
    .see (hstart.fits_eq_false (by decide)) (.pure rfl)
  unfold startsItem
  have hcrate : ((Terminal.word "crate").fits rest &&
      !(Terminal.operator "::").fits (Cursor.skip { rest } 1)) = false := by
    obtain hword | hseparator := h.fits_separator_or
    · rw [hword, Bool.false_and]
    · rw [hseparator, Bool.not_true, Bool.and_false]
  refine .seeAny (hstart.any_eq_false (by decide)) (.see rfl (.seeSecond rfl ?_))
  refine .ite (fun htrue => absurd htrue (by simpa using hcrate)) fun _ => ?_
  refine .look hstatic (.look hconstant ?_)
  refine .see (hstart.fits_eq_false (by decide)) (.seeSecond rfl ?_)
  refine .see (hstart.fits_eq_false (by decide))
    (.seeSecond rfl (.seeSecond rfl (.seeSecond rfl ?_)))
  refine .see rfl (.seeSecond (fits_second_eq_false h fun _ _ => rfl) ?_)
  rw [Bool.and_false]
  refine .see rfl (.seeSecond (fits_second_eq_false h fun _ _ => rfl) ?_)
  rw [Bool.and_false]
  refine .see rfl (.seeSecond (fits_second_eq_false h fun _ _ => rfl) ?_)
  refine .seeSecond (fits_second_eq_false h fun _ _ => rfl) (.pure ?_)
  exact Bool.and_false _

/-- The code is a statement at the end of a block, and it can be seen to be one from its front. -/
structure IsStatement (g : Grammar) (code : Code) (d : Delimiter) (rest : Code) : Prop where
  front : [Terminal.operator ";", .operator "#"].any (·.fits (code ++ .closing d :: rest)) = false
  goesOn : Cursor.isEnded { rest := code ++ .closing d :: rest } = false
  takes : Takes (statement g) code (.closing d :: rest) fun _ => True

namespace IsStatement

variable {g : Grammar} {d : Delimiter}

lemma fits_eq_false (h : IsStatement g code d rest) {t : Terminal}
    (ht : t ∈ [Terminal.operator ";", .operator "#"]) :
    t.fits (code ++ .closing d :: rest) = false :=
  Bool.eq_false_iff.mpr (List.any_eq_false.mp h.front t ht)

/-- The last statement of a block. -/
lemma takesEach (h : IsStatement g code d rest) :
    TakesEach (whileStep do
      repeatWhile (acceptOperator ";")
      if ← isEnded then return false
      let unfinished ← statement g
      if ← isEnded then return false
      if unfinished then fail .statementNotEnded
      return true) (.closing d :: rest) code (· = []) := by
  have hnone : Takes (repeatWhile (acceptOperator ";")) [] (code ++ .closing d :: rest)
      fun _ => True :=
    TakesEach.repeatWhile (.stop (.refused (h.fits_eq_false List.mem_cons_self)))
  refine .stop (.quiet hnone fun _ _ => .seeEnd h.goesOn (.last h.takes fun _ _ => ?_))
  exact .seeEnd rfl (.pure rfl)

lemma takes_statements (h : IsStatement g code d rest) :
    Takes (statements g) code (.closing d :: rest) fun _ => True :=
  TakesEach.repeatWhile h.takesEach

end IsStatement

/-- An expression that begins with a path is a statement. -/
lemma isStatement_path {fuel : Nat} {d : Delimiter} {p : Path} {trailer : Code}
    {P : Form → Prop} (hlong : p.IsLong) (hends : (trailer ++ .closing d :: rest).EndsPath)
    (hform : ∀ form, P form → form ≠ .blockLike)
    (h : Takes (operand (grammar fuel) true) (p.code ++ trailer) (.closing d :: rest) P) :
    IsStatement (grammar (fuel + 2)) (p.code ++ trailer) d rest := by
  have hfront := hlong.startsLongPath (trailer ++ .closing d :: rest)
  have hinvocation := takes_invocationForm hlong.plain hends
  rw [← List.append_assoc] at hfront hinvocation
  have hstart := hfront.startsPath
  refine ⟨hstart.any_eq_false (by decide), ?_, ?_⟩
  · generalize p.code ++ trailer ++ .closing d :: rest = front at hstart
    cases hstart <;> rfl
  · have hleading : Takes (grammar (fuel + 2)).leading (p.code ++ trailer) (.closing d :: rest) P :=
      takes_leading (.closing d rest) hfront hform h
    unfold statement
    refine .quiet .mark fun start _ => ?_
    refine .look (takes_outerAttributes_nil _ (hstart.fits_eq_false (by decide))) ?_
    refine .look hinvocation (.see (hstart.fits_eq_false (by decide)) ?_)
    refine .look (takes_startsItem hfront) ?_
    show Takes (expressionStatement _) _ _ _
    refine .last hleading fun form _ => .refuse rfl ?_
    obtain _ | _ | _ | _ | (_ | _ | _) | _ := form <;> exact .pure trivial

/-- A form that begins with one of these words is a statement. -/
lemma isStatement_blockLike {fuel : Nat} {keyword : String} {d : Delimiter}
    (hkeyword : keyword = "if" ∨ keyword = "match")
    (h : Takes (blockLike? (grammar fuel)) (wordCode keyword ++ code) (.closing d :: rest)
      (· = true)) :
    IsStatement (grammar (fuel + 1)) (wordCode keyword ++ code) d rest := by
  have hleading : Takes (grammar (fuel + 1)).leading (wordCode keyword ++ code) (.closing d :: rest)
      (· = .blockLike) := by
    show Takes (leading (grammar fuel)) _ _ _
    unfold leading
    refine .look (takes_outerAttributes_nil _ rfl) (.last h ?_)
    rintro _ rfl
    exact fun _ _ => ⟨_, _, rfl, rfl⟩
  have hinvocation : Takes invocationForm [] (wordCode keyword ++ code ++ .closing d :: rest)
      (· = .expression) := by
    obtain rfl | rfl := hkeyword <;> exact fun _ _ => ⟨_, _, rfl, rfl⟩
  have hitem : Takes startsItem [] (wordCode keyword ++ code ++ .closing d :: rest)
      (· = false) := by
    obtain rfl | rfl := hkeyword <;> exact fun _ _ => ⟨_, _, rfl, rfl⟩
  have hlet :
      (Terminal.word "let").fits (wordCode keyword ++ code ++ .closing d :: rest) = false := by
    obtain rfl | rfl := hkeyword <;> rfl
  refine ⟨rfl, rfl, ?_⟩
  unfold statement
  refine .quiet .mark fun start _ => .look (takes_outerAttributes_nil _ rfl) ?_
  refine .look hinvocation (.see hlet (.look hitem ?_))
  show Takes (expressionStatement _) _ _ _
  refine .last hleading ?_
  rintro _ rfl
  exact .refuse rfl (.pure trivial)

end Read

end UnionView
