import UnionView.Proofs.Reading.Expression
import UnionView.Proofs.Reading.Pattern

/-!
# Reading the body of a dispatcher

What is drawn is a path, a call, a chain of `if` and `else` or a `match`. Each of them is all that
a block contains.
-/

namespace UnionView

open Reader

/-! ### What is known of a body -/

namespace ArmBody

/-- The condition that binds the part of the state that a pattern binds. -/
def conditionCode (pattern : ArmPattern) : Code :=
  wordCode "let" ++ someCode ++ groupCode .round (wordCode "store") ++ opCode "=" ++
    (wordCode "self" ++ (opCode "." ++ wordCode "store" ++
      (opCode "." ++ (wordCode "scope" ++ groupCode .round pattern.narrowingCode))))

def viewCode (runtime renderer : Path) : Code :=
  ((runtime.child "View").child "body").code ++ groupCode .round
    (opCode "&" ++ ((renderer.child "from_store").code ++ groupCode .round (wordCode "store")))

lemma code_narrow (runtime : Path) (pattern : ArmPattern) (renderer : Path) :
    (narrow pattern renderer).code runtime = wordCode "if" ++ (conditionCode pattern ++
      (groupCode .curly (viewCode runtime renderer) ++
        (wordCode "else" ++ groupCode .curly (emptyElementCode runtime)))) := by
  simp only [code, conditionCode, viewCode, List.append_assoc]

/-- What an arm draws, if its names may stand where they are printed. -/
def IsKnown : ArmBody → Prop
  | empty => True
  | narrow pattern renderer => pattern.IsNamed ∧ ∀ s ∈ renderer.segments, s.IsPlain

end ArmBody

/-- An arm whose names may stand where they are printed. -/
structure Arm.IsKnown (arm : Arm) : Prop where
  pattern : arm.pattern.IsNamed
  body : arm.body.IsKnown

/-- A body of a dispatcher whose names may stand where they are printed. -/
def Body.IsKnown : Body → Prop
  | empty => True
  | select subject arms => subject = stateExpression ∧ ∀ arm ∈ arms, arm.IsKnown

namespace Read

variable {rest code : Code}

/-! ### Blocks -/

/-- Where no `#!` comes next there are no attributes of what is around. -/
lemma takes_innerAttributes_nil (g : Grammar) (h : ((Terminal.operator "#").fits rest &&
    (Terminal.operator "!").fits (Cursor.skip { rest } 1)) = false) :
    Takes (innerAttributes g) [] rest (· = []) := by
  refine TakesEach.collect (.last (.see rfl (.seeSecond rfl (.ite ?_ fun _ => .pure rfl))))
  intro htrue
  cases htrue.symm.trans h

/-- A block of statements without attributes of its own. -/
lemma takes_block {fuel : Nat}
    (hfront : ((Terminal.operator "#").fits (code ++ .closing .curly :: rest) &&
      (Terminal.operator "!").fits
        (Cursor.skip { rest := code ++ .closing .curly :: rest } 1)) = false)
    (h : Takes (statements (grammar fuel)) code (.closing .curly :: rest) fun _ => True) :
    Takes (block (grammar (fuel + 1))) (groupCode .curly code) rest fun _ => True := by
  have hstatements : Takes (grammar (fuel + 1)).statements code _ _ := h
  refine .group (.look (takes_innerAttributes_nil _ hfront) ?_)
  exact .last hstatements fun _ _ => .pure trivial

lemma IsStatement.takes_block {fuel : Nat} (h : IsStatement (grammar fuel) code .curly rest) :
    Takes (block (grammar (fuel + 1))) (groupCode .curly code) rest fun _ => True := by
  refine Read.takes_block ?_ h.takes_statements
  rw [h.fits_eq_false (List.mem_cons_of_mem _ List.mem_cons_self), Bool.false_and]

lemma IsStatement.takes_plainBlock {fuel : Nat} (h : IsStatement (grammar fuel) code .curly rest) :
    Takes (plainBlock (grammar (fuel + 1))) (groupCode .curly code) rest fun _ => True :=
  .group h.takes_statements

/-! ### Matches -/

/-- A pattern in front of its arrow. -/
lemma takes_alternatives {g : Grammar} {P : PatternForm → Prop}
    (hbar : (Terminal.operator "|").fits (code ++ (opCode "=>" ++ rest)) = false)
    (h : Takes g.pattern code (opCode "=>" ++ rest) P) :
    Takes (alternatives g) code (opCode "=>" ++ rest) P := by
  refine .refuse hbar (.last h fun form hform => ?_)
  exact .look (a := false) (fun _ _ => ⟨_, _, rfl, rfl⟩) (.pure hform)

lemma takes_matchArm {g : Grammar} {pattern body : Code}
    (hfront : (Terminal.operator "#").fits (pattern ++ (opCode "=>" ++ (body ++ rest))) = false)
    (hpattern : Takes (alternatives g) pattern (opCode "=>" ++ (body ++ rest)) fun _ => True)
    (hbody : Takes (do
      let form ← g.leading
      if form == .blockLike || (← isEnded) then
        let _ ← acceptOperator ","
      else operator ",") body rest fun _ => True) :
    Takes (matchArm g) (pattern ++ (opCode "=>" ++ body)) rest fun _ => True := by
  rw [← List.append_assoc (opCode "=>")] at hfront hpattern
  rw [← List.append_assoc] at hfront
  refine .look (takes_outerAttributes_nil g hfront) (.seq hpattern fun _ => .refuse rfl ?_)
  refine .seq (.operator _) fun _ => hbody

lemma takes_blockLike?_match {g : Grammar} {subject arms : Code}
    (hangle : (Terminal.operator "<").fits (subject ++ groupCode .curly arms ++ rest) = false)
    (hsubject : Takes (header g) subject (groupCode .curly arms ++ rest) fun _ => True)
    (hfront : (Terminal.operator "#").fits (arms ++ .closing .curly :: rest) = false)
    (harms : Takes (untilEnd (matchArm g)) arms (.closing .curly :: rest) fun _ => True) :
    Takes (blockLike? g) (wordCode "match" ++ (subject ++ groupCode .curly arms)) rest
      (· = true) := by
  have hmatch : Takes (matchExpression g)
      (wordCode "match" ++ (subject ++ groupCode .curly arms)) rest fun _ => True := by
    refine .seq (.word "match") fun _ => .seq hsubject fun _ => ?_
    have hnone := takes_innerAttributes_nil g (by rw [hfront, Bool.false_and])
    exact .last (.group (.look hnone harms)) fun _ _ => .pure trivial
  have hparameters : Takes (do let _ ← anyIdentifier; startsParameters) (wordCode "match")
      (subject ++ groupCode .curly arms ++ rest) (· = false) :=
    .last (.anyIdentifier "match") fun _ _ => .see hangle (.pure rfl)
  have hword : Takes startsParametersAfterWord []
      (wordCode "match" ++ (subject ++ groupCode .curly arms) ++ rest) (· = false) := by
    rw [List.append_assoc]
    exact hparameters.ahead
  unfold blockLike?
  refine .see rfl (.see rfl (.see rfl (.look hword ?_)))
  exact .see rfl (.see rfl (.last hmatch fun _ _ => .pure rfl))

/-! ### Chains of `if` and `else` -/

/-- A condition, a block, and a block for the case that the condition does not hold. -/
lemma takes_blockLike?_if {g : Grammar} {condition yes no : Code}
    (hcondition : Takes (header g) condition
      (groupCode .curly yes ++ (wordCode "else" ++ groupCode .curly no) ++ rest) fun _ => True)
    (hyes : Takes (plainBlock g) (groupCode .curly yes)
      (wordCode "else" ++ groupCode .curly no ++ rest)
      fun _ => True)
    (hno : Takes (plainBlock g) (groupCode .curly no) rest fun _ => True) :
    Takes (blockLike? g) (wordCode "if" ++ (condition ++
      (groupCode .curly yes ++ (wordCode "else" ++ groupCode .curly no)))) rest (· = true) := by
  unfold blockLike?
  refine .see rfl (.get fun c _ => ?_)
  have hchain : Takes (ifChain g (c.rest.length + 1)) (wordCode "if" ++ (condition ++
      (groupCode .curly yes ++ (wordCode "else" ++ groupCode .curly no)))) rest fun _ => True := by
    refine .seq (.word "if") fun _ => .seq hcondition fun _ => .seq hyes fun _ => ?_
    have helse : Takes (acceptWord "else") (wordCode "else") (groupCode .curly no ++ rest)
        (· = true) := fun _ _ => ⟨_, _, rfl, rfl⟩
    refine .bind helse ?_
    rintro _ rfl
    exact .see rfl (.see rfl hno)
  exact .last hchain fun _ _ => .pure rfl

/-! ### The state of a store -/

lemma takes_operand_match {g : Grammar} (hends : rest.EndsOperand)
    (hmatch : Takes (blockLike? g) (wordCode "match" ++ code) rest (· = true)) :
    Takes (operand g true) (wordCode "match" ++ code) rest fun _ => True := by
  refine takes_operand_atom hends rfl ?_
  unfold atom
  refine .see rfl (.look (a := false) (fun _ _ => ⟨_, _, rfl, rfl⟩) ?_)
  refine .look (a := false) (fun _ _ => ⟨_, _, rfl, rfl⟩) (.see rfl (.seeSecond rfl ?_))
  refine .look (a := false) (fun _ _ => ⟨_, _, rfl, rfl⟩) (.see rfl (.see rfl ?_))
  refine .look (a := false) (fun _ _ => ⟨_, _, rfl, rfl⟩) (.last hmatch ?_)
  rintro _ rfl
  exact .pure trivial

/-- A function of the state is an operand. -/
lemma takes_operand_closure {fuel : Nat} (hends : rest.EndsOperand)
    (hbody : Takes (expression (grammar (fuel + 1)) true) (wordCode "match" ++ code) rest
      fun _ => True) :
    Takes (operand (grammar (fuel + 1)) true)
      (opCode "|" ++ wordCode "state" ++ opCode "|" ++ (wordCode "match" ++ code)) rest
      fun _ => True := by
  have hclosure : Takes (closure (grammar (fuel + 1)) true)
      (opCode "|" ++ wordCode "state" ++ opCode "|" ++ (wordCode "match" ++ code)) rest
      fun _ => True :=
    .leads (fun _ _ => ⟨_, rfl⟩) (.last hbody fun _ _ => .pure trivial)
  refine takes_operand_atom hends rfl ?_
  unfold atom
  refine .see rfl (.look (a := false) (fun _ _ => ⟨_, _, rfl, rfl⟩) ?_)
  refine .look (a := true) (fun _ _ => ⟨_, _, rfl, rfl⟩) (.last hclosure fun _ _ => ?_)
  exact .pure trivial

/-- The front of a pattern whose names are known. -/
lemma startsPath_pattern {p : ArmPattern} (h : p.IsNamed) (behind : Code) :
    (p.code ++ behind).StartsPath :=
  .name (Path.segmentStarts_of_identifier h.owner) _

/-- The arms that narrow the state to what a pattern binds. -/
def narrowingArms (p : ArmPattern) : List Code :=
  [p.code ++ (opCode "=>" ++ (someCode ++ groupCode .round (wordCode FieldsPattern.boundName) ++
    opCode ",")), wordCode "_" ++ (opCode "=>" ++ (noneCode ++ opCode ","))]

lemma narrowingCode_eq (p : ArmPattern) :
    p.narrowingCode = opCode "|" ++ wordCode "state" ++ opCode "|" ++
      (wordCode "match" ++ (wordCode "state" ++ groupCode .curly (narrowingArms p).flatten)) := by
  simp only [ArmPattern.narrowingCode, narrowingArms, List.flatten_cons, List.flatten_nil,
    List.append_nil, List.append_assoc]

lemma takes_narrowingArms (fuel : Nat) {p : ArmPattern} (h : p.IsNamed) :
    Takes (untilEnd (matchArm (grammar (fuel + 6)))) (narrowingArms p).flatten
      (.closing .curly :: rest) fun _ => True := by
  have hfront (t : Terminal) (ht : t.isForeignToPath = true) (behind : Code) :
      t.fits (p.code ++ behind) = false := (startsPath_pattern h behind).fits_eq_false ht
  refine .untilEnd (R := fun _ => True) trivial rfl ?_ ?_
  · refine List.forall_mem_cons.mpr ⟨fun _ => ⟨rfl, trivial⟩, ?_⟩
    exact List.forall_mem_singleton.mpr fun _ => ⟨rfl, trivial⟩
  · refine List.forall_mem_cons.mpr
      ⟨fun behind _ => ?_, List.forall_mem_singleton.mpr fun _ _ => ?_⟩
    · refine takes_matchArm (hfront _ (by decide) _) ?_ fun _ _ => ⟨_, _, rfl, trivial⟩
      exact takes_alternatives (hfront _ (by decide) _) (takes_pattern (fuel + 4) h _)
    · exact fun _ _ => ⟨_, _, rfl, trivial⟩

/-- The function that narrows the state to what a pattern binds. -/
lemma takes_narrowingCode (fuel : Nat) {p : ArmPattern} (h : p.IsNamed) (hends : rest.EndsOperand) :
    Takes (expression (grammar (fuel + 8)) true) p.narrowingCode rest fun _ => True := by
  rw [narrowingCode_eq]
  refine takes_expression hends (takes_operand_closure hends ?_)
  refine takes_expression hends (takes_operand_match hends ?_)
  refine takes_blockLike?_match rfl (fun _ _ => ⟨_, _, rfl, trivial⟩) ?_
    (takes_narrowingArms fuel h)
  rw [narrowingArms, List.flatten_cons, List.append_assoc, List.append_assoc]
  exact (startsPath_pattern h _).fits_eq_false (by decide)

/-- A method with one argument behind its point. -/
lemma takes_access {fuel : Nat} {argument : Code}
    (hopen : Cursor.isEnded { rest := argument ++ .closing .round :: rest } = false)
    (hargument : Takes (expression (grammar fuel) true) argument (.closing .round :: rest)
      fun _ => True) :
    Takes (access (grammar (fuel + 1))) (wordCode "scope" ++ groupCode .round argument) rest
      fun _ => True := by
  have hargument' : Takes ((grammar (fuel + 1)).expression true) argument _ _ := hargument
  refine .leads (fun _ _ => ⟨_, rfl⟩) ?_ (q := do
    let _ ← group .round (separatedBy "," ((grammar (fuel + 1)).expression true)))
  exact .last (.group (.separatedBy_single hopen hargument')) fun _ _ => .pure trivial

lemma takes_operand_scope {fuel : Nat} {argument : Code} (hends : rest.EndsOperand)
    (hopen : Cursor.isEnded { rest := argument ++ .closing .round :: rest } = false)
    (hargument : Takes (expression (grammar fuel) true) argument (.closing .round :: rest)
      fun _ => True) :
    Takes (operand (grammar (fuel + 1)) false) (wordCode "self" ++
      (opCode "." ++ wordCode "store" ++
        (opCode "." ++ (wordCode "scope" ++ groupCode .round argument))))
      rest fun _ => True := by
  have hatom : Takes (atom (grammar (fuel + 1)) false) (wordCode "self")
      (opCode "." ++ wordCode "store" ++
        (opCode "." ++ (wordCode "scope" ++ groupCode .round argument)) ++ rest)
      fun form => ∃ q, form = .path q := fun _ _ => ⟨_, _, rfl, _, rfl⟩
  refine takes_operand rfl hatom ?_
  rintro _ ⟨q, rfl⟩
  refine .get fun c hc => ?_
  obtain ⟨n, hn⟩ : ∃ n, c.rest.length + 1 = n + 2 := by
    rw [hc]
    exact ⟨_, rfl⟩
  rw [hn]
  refine .leads (fun _ _ => ⟨_, rfl⟩) ?_ (q := trailers.go (grammar (fuel + 1)) (n + 1) .other)
  unfold trailers.go
  refine .see rfl (.see rfl (.see rfl ?_))
  refine .seq (.operator _) fun _ => ?_
  refine .last (takes_access hopen hargument) fun _ _ => ?_
  exact (takes_trailersGo_nil _ hends n .other).mono fun _ _ => trivial

/-- A condition that binds the store of a part of the state. -/
lemma takes_operand_let {fuel : Nat} (hends : rest.EndsOperand)
    (hvalue : Takes (operand (grammar (fuel + 3)) false) (wordCode "self" ++ code) rest
      fun _ => True) :
    Takes (operand (grammar (fuel + 4)) false) (wordCode "let" ++ someCode ++
      groupCode .round (wordCode "store") ++ opCode "=" ++ (wordCode "self" ++ code)) rest
      fun _ => True := by
  have hvalue' : Takes ((grammar (fuel + 4)).operand false) (wordCode "self" ++ code) rest _ :=
    hvalue
  have hkeyword : Takes (keywordExpression? (grammar (fuel + 4)) false)
    (wordCode "let" ++ someCode ++
      groupCode .round (wordCode "store") ++ opCode "=" ++ (wordCode "self" ++ code)) rest
      (· = true) := by
    refine .leads (fun _ _ => ⟨_, rfl⟩) ?_ (q := do
      let left ← (grammar (fuel + 4)).operand false
      let _ ← (grammar (fuel + 4)).operation left false .compare
      return true)
    refine .last hvalue' fun left _ => ?_
    have hoperation := takes_operation_nil (grammar (fuel + 3)) hends left false (.inr rfl)
    exact .look hoperation (.pure rfl)
  refine takes_operand_atom hends rfl ?_
  unfold atom
  refine .see rfl (.look (a := false) (fun _ _ => ⟨_, _, rfl, rfl⟩) ?_)
  refine .look (a := false) (fun _ _ => ⟨_, _, rfl, rfl⟩) (.see rfl (.seeSecond rfl ?_))
  refine .look (a := false) (fun _ _ => ⟨_, _, rfl, rfl⟩) (.see rfl (.see rfl ?_))
  refine .last hkeyword ?_
  rintro _ rfl
  exact .pure trivial

/-! ### What is drawn -/

lemma takes_header_condition (fuel : Nat) {pattern : ArmPattern} (h : pattern.IsNamed)
    (hends : rest.EndsOperand) :
    Takes (header (grammar (fuel + 11))) (ArmBody.conditionCode pattern) rest fun _ => True := by
  have hstate := takes_operand_scope hends rfl (takes_narrowingCode fuel h (.closing .round rest))
  exact .last (takes_expression hends (takes_operand_let hends hstate)) fun _ _ => .pure trivial

section Draw

variable {runtime : Path} (hruntime : ∀ s ∈ runtime.segments, s.IsPlain)

include hruntime

lemma isStatement_emptyElement (fuel : Nat) :
    IsStatement (grammar (fuel + 2)) (emptyElementCode runtime) .curly rest := by
  have hlong : ((runtime.child "Element").child "Empty").IsLong :=
    .child (Path.IsLong.child hruntime (by decide)).plain (by decide)
  have hoperand := takes_operand_path (grammar fuel) true hlong .curly rest
  unfold emptyElementCode
  rw [← List.append_nil (Path.code _)] at hoperand ⊢
  refine isStatement_path hlong ⟨rfl, rfl, rfl, rfl⟩ ?_ hoperand
  rintro _ ⟨q, rfl⟩
  exact nofun

lemma isStatement_view (fuel : Nat) {renderer : Path}
    (hrenderer : ∀ s ∈ renderer.segments, s.IsPlain) :
    IsStatement (grammar (fuel + 8)) (ArmBody.viewCode runtime renderer) .curly rest := by
  have hlong : ((runtime.child "View").child "body").IsLong :=
    .child (Path.IsLong.child hruntime (by decide)).plain (by decide)
  have hview : (renderer.child "from_store").IsLong := .child hrenderer (by decide)
  have hstore : Takes (expression (grammar (fuel + 2)) true) (wordCode "store")
      (.closing .round :: .closing .round :: .closing .curly :: rest) fun _ => True :=
    fun _ _ => ⟨_, _, rfl, trivial⟩
  have hcall := takes_operand_call true hview (.closing .round _) rfl hstore
  have hfront := hview.startsLongPath (groupCode .round (wordCode "store") ++
    .closing .round :: .closing .curly :: rest)
  rw [← List.append_assoc] at hfront
  have hreference := takes_reference true hfront (hcall.mono fun _ _ => trivial)
  have hargument := takes_expression (.closing .round _) hreference
  refine isStatement_path hlong ⟨rfl, rfl, rfl, rfl⟩ ?_
    (takes_operand_call true hlong (.closing .curly rest) rfl (hargument.mono fun _ _ => trivial))
  rintro _ rfl
  exact nofun

/-- What an arm draws is drawn. -/
lemma isStatement_armBody (fuel : Nat) {body : ArmBody} (h : body.IsKnown) :
    IsStatement (grammar (fuel + 12)) (body.code runtime) .curly rest := by
  cases body with
  | empty => exact isStatement_emptyElement hruntime (fuel + 10)
  | narrow pattern renderer =>
    obtain ⟨hpattern, hrenderer⟩ := h
    rw [ArmBody.code_narrow]
    refine isStatement_blockLike (.inl rfl) (takes_blockLike?_if ?_ ?_ ?_)
    · exact takes_header_condition fuel hpattern (.block _)
    · exact (isStatement_view hruntime (fuel + 2) hrenderer).takes_plainBlock
    · exact (isStatement_emptyElement hruntime (fuel + 8)).takes_plainBlock

/-! ### The whole body -/

/-- Nothing that could go on with the block of an arm. -/
def armEnds : List Terminal :=
  [.operator ".", .operator "?", .operator ","]

/-- An arm is read if what is behind it does not go on with its block. -/
lemma takes_arm (fuel : Nat) {arm : Arm} (h : arm.IsKnown)
    (hends : armEnds.any (·.fits rest) = false) :
    Takes (matchArm (grammar (fuel + 14))) (arm.code runtime) rest fun _ => True := by
  simp only [armEnds, List.any_cons, List.any_nil, Bool.or_false, Bool.or_eq_false_iff] at hends
  obtain ⟨hpoint, hquestion, hcomma⟩ := hends
  have hfront (t : Terminal) (ht : t.isForeignToPath = true) (behind : Code) :
      t.fits (arm.pattern.code ++ behind) = false :=
    (startsPath_pattern h.pattern behind).fits_eq_false ht
  have hblock : Takes _ _ rest _ := (isStatement_armBody hruntime fuel h.body).takes_block
  have hlike : Takes (blockLike? (grammar (fuel + 13))) (groupCode .curly (arm.body.code runtime))
      rest (· = true) := by
    unfold blockLike?
    refine .see rfl (.see rfl (.see rfl (.look (a := false) (fun _ _ => ⟨_, _, rfl, rfl⟩) ?_)))
    refine .see rfl (.see rfl (.see rfl (.seeSecond rfl ?_)))
    refine .refuse rfl (.see rfl (.seeSecond rfl (.see rfl ?_)))
    exact .last hblock fun _ _ => .pure rfl
  have hleading : Takes (grammar (fuel + 14)).leading (groupCode .curly (arm.body.code runtime))
      rest (· = .blockLike) := by
    show Takes (leading (grammar (fuel + 13))) _ _ _
    unfold leading
    refine .look (takes_outerAttributes_nil _ rfl) (.last hlike ?_)
    rintro _ rfl
    have hbehind : Takes (do
        if ((← peekOperator ".") && !(← peekOperator "..")) || (← peekOperator "?") then
          (grammar (fuel + 13)).operation (← trailers (grammar (fuel + 13)) .blockLike) true .jump
        else return .blockLike) [] rest (· = .blockLike) :=
      .see hpoint (.see rfl (.see hquestion (.pure rfl)))
    exact .see rfl hbehind
  unfold Arm.code
  rw [List.append_assoc]
  refine takes_matchArm (hfront _ (by decide) _) ?_ (.last hleading ?_)
  · exact takes_alternatives (hfront _ (by decide) _) (takes_pattern (fuel + 12) h.pattern _)
  · rintro _ rfl
    exact .seeEnd rfl (.refuse hcomma (.pure trivial))

lemma isStatement_body (fuel : Nat) {body : Body} (h : body.IsKnown) :
    IsStatement (grammar (fuel + 15)) (body.code runtime) .curly rest := by
  cases body with
  | empty => exact isStatement_emptyElement hruntime (fuel + 13)
  | select subject arms =>
    obtain ⟨rfl, harms⟩ := h
    have hstart : ∀ arm ∈ arms, ∀ behind, (arm.code runtime ++ behind).StartsPath := by
      intro arm harm behind
      unfold Arm.code
      rw [List.append_assoc, List.append_assoc]
      exact startsPath_pattern (harms arm harm).pattern _
    have hcontent : Takes (untilEnd (matchArm (grammar (fuel + 14))))
        (arms.flatMap (Arm.code runtime)) (.closing .curly :: .closing .curly :: rest)
        fun _ => True := by
      refine .untilEnd (R := fun behind => armEnds.any (·.fits behind) = false) rfl rfl ?_ ?_
      · refine List.forall_mem_map.mpr fun arm harm behind => ⟨rfl, ?_⟩
        exact (hstart arm harm behind).any_eq_false (by decide)
      · exact List.forall_mem_map.mpr fun arm harm behind =>
          takes_arm hruntime fuel (harms arm harm)
    have hcode : (Body.select stateExpression arms).code runtime = wordCode "match" ++
        (stateExpression ++ groupCode .curly (arms.flatMap (Arm.code runtime))) :=
      List.append_assoc _ _ _
    rw [hcode]
    refine isStatement_blockLike (.inr rfl) (takes_blockLike?_match rfl ?_ ?_ hcontent)
    · exact fun _ _ => ⟨_, _, rfl, trivial⟩
    · cases arms with
      | nil => rfl
      | cons arm arms =>
        rw [List.flatMap_cons, List.append_assoc]
        exact (hstart arm List.mem_cons_self _).fits_eq_false (by decide)

end Draw

end Read

end UnionView
