import UnionView.Proofs.Writing.Generics

/-!
# The grammar writes down sound code

Every reader of the grammar is `Reader.Tidy`, and so is the knot they are tied in
(`Grammar.IsTidy`).
-/

namespace UnionView

open Text Lexer Reader

namespace Read

-- readers of many cases
set_option synthInstance.maxSize 20000

variable (g : Grammar) [g.IsTidy]

/-! ### Types -/

instance : convention.Tidy := by
  unfold convention
  infer_instance

instance : variadicArgument.Tidy := by
  unfold variadicArgument
  infer_instance

instance : startsVariadic.Tidy := by
  unfold startsVariadic
  infer_instance

instance (allowReceiver : Bool) : (typeArgument g allowReceiver).Tidy := by
  unfold typeArgument
  infer_instance

instance (fuel : Nat) (first : Bool) : (typeArguments g fuel first).Tidy := by
  induction fuel generalizing first with
  | zero =>
    unfold typeArguments
    infer_instance
  | succ fuel ih =>
    unfold typeArguments
    infer_instance

instance : (functionType g).Tidy := by
  unfold functionType
  infer_instance

instance : (furtherBounds g).Tidy := by
  unfold furtherBounds
  infer_instance

instance (start : Mark) (allowSum : Bool) : (objectBounds g start allowSum).Tidy := by
  unfold objectBounds
  infer_instance

instance : (lifetimeObject g).Tidy := by
  unfold lifetimeObject
  infer_instance

instance (allowSum : Bool) : (implType g allowSum).Tidy := by
  unfold implType
  infer_instance

instance : (roundContent g).Tidy := by
  unfold roundContent
  infer_instance

instance (allowSum : Bool) : (roundType g allowSum).Tidy := by
  unfold roundType
  refine .seq fun content => ?_
  cases content <;> infer_instance

instance : (squareType g).Tidy := by
  unfold squareType
  infer_instance

instance : (boundsAfterPath g).Tidy := by
  unfold boundsAfterPath
  infer_instance

instance (allowSum bound : Bool) : (pathType g allowSum bound).Tidy := by
  unfold pathType
  refine .seq fun p => ?_
  cases p <;> infer_instance

instance (allowSum bound : Bool) : (typeAfterBinder g allowSum bound).Tidy := by
  unfold typeAfterBinder
  infer_instance

instance (allowSum : Bool) : (type g allowSum).Tidy := by
  unfold type
  infer_instance

/-! ### Patterns -/

instance : (alternatives g).Tidy := by
  unfold alternatives
  infer_instance

instance (allowThree : Bool) : (rangeDots allowThree).Tidy := by
  unfold rangeDots
  infer_instance

instance : (rangeBound g).Tidy := by
  unfold rangeBound
  infer_instance

instance (lower allowThree : Bool) : (rangeTail g lower allowThree).Tidy := by
  unfold rangeTail
  infer_instance

instance : (patternList g).Tidy := by
  unfold patternList
  infer_instance

instance : member.Tidy := by
  unfold member
  refine .seq fun _ => .branch inferInstance (.seq fun c => ?_)
  generalize c.rest = code
  split <;> infer_instance

instance : (fieldPattern g).Tidy := by
  unfold fieldPattern
  infer_instance

instance : (fieldPatterns g).Tidy := by
  unfold fieldPatterns
  infer_instance

instance : (pathPattern g).Tidy := by
  unfold pathPattern
  infer_instance

instance : (binding g).Tidy := by
  unfold binding
  infer_instance

instance : (sliceElement g).Tidy := by
  unfold sliceElement
  refine .seq fun form => ?_
  cases form <;> infer_instance

instance : startsPathPattern.Tidy := by
  unfold startsPathPattern
  infer_instance

instance : (pattern g).Tidy := by
  unfold pattern
  infer_instance

/-! ### Expressions -/

instance : nextOperator.Tidy := by
  unfold nextOperator
  infer_instance

instance : startsAssignment.Tidy := by
  unfold startsAssignment
  infer_instance

instance : nextPrecedence.Tidy := by
  unfold nextPrecedence
  refine .seq fun next => ?_
  cases next <;> infer_instance

instance (allowStruct : Bool) (precedence : Precedence) (fuel : Nat) (left : Form) :
    (rightSide.go g allowStruct precedence fuel left).Tidy := by
  induction fuel generalizing left with
  | zero =>
    unfold rightSide.go
    infer_instance
  | succ fuel ih =>
    unfold rightSide.go
    infer_instance

instance (allowStruct : Bool) (precedence : Precedence) :
    (rightSide g allowStruct precedence).Tidy := by
  unfold rightSide
  infer_instance

instance (allowStruct : Bool) : (rangeEnds allowStruct).Tidy := by
  unfold rangeEnds
  infer_instance

instance (allowStruct : Bool) : (range g allowStruct).Tidy := by
  unfold range
  infer_instance

instance : checkCast.Tidy := by
  unfold checkCast
  infer_instance

lemma isLeaf_of_mem_binaryOperators {o : String × Precedence} (h : o ∈ binaryOperators) :
    (Terminal.operator o.1).IsLeaf :=
  have hall : binaryOperators.all (fun o => (Terminal.operator o.1).isLeaf) = true := by decide
  ⟨List.all_eq_true.mp hall o h⟩

/-- The operator that comes next is a leaf. -/
lemma answers_nextOperator : nextOperator.Answers fun answer =>
    ∀ o, answer = some o → (Terminal.operator o.1).IsLeaf := by
  rintro c _ d ⟨⟩ o ho
  exact isLeaf_of_mem_binaryOperators (List.mem_of_find?_eq_some ho)

instance (left : Form) (allowStruct : Bool) (base : Precedence) :
    (operationStep g left allowStruct base).Tidy := by
  unfold operationStep
  refine .branch inferInstance (.bind_of_answers answers_nextOperator fun next hnext => ?_)
  cases next with
  | none => infer_instance
  | some o =>
    have := hnext o rfl
    infer_instance

instance (allowStruct : Bool) (base : Precedence) (fuel : Nat) (left : Form) :
    (operation.go g allowStruct base fuel left).Tidy := by
  induction fuel generalizing left with
  | zero =>
    unfold operation.go
    infer_instance
  | succ fuel ih =>
    unfold operation.go
    refine .seq fun next => ?_
    cases next <;> infer_instance

instance (left : Form) (allowStruct : Bool) (base : Precedence) :
    (operation g left allowStruct base).Tidy := by
  unfold operation
  infer_instance

instance (allowStruct : Bool) : (expression g allowStruct).Tidy := by
  unfold expression
  infer_instance

/-! ### Operands -/

/-- Indices with points between them are sound code. -/
lemma isSound_indices {parts : List String}
    (h : ∀ part ∈ parts, Literal.integerRest part.toList = some []) :
    Code.IsSound ((parts.map fun part => [Token.literal part]).intersperse
      (operatorCode ['.'])).flatten := by
  induction parts with
  | nil => exact Code.isSound_nil
  | cons part parts ih =>
    obtain ⟨hpart, hparts⟩ := List.forall_mem_cons.mp h
    have hfirst := Code.isSound_literal (Literal.isLiteral_of_integerRest hpart)
    cases parts with
    | nil => exact hfirst
    | cons next parts =>
      exact hfirst.append ((Code.isSound_operator (by decide)).append (ih hparts))

/-- Indices that are written together are printed apart. -/
lemma passes_jointIndices {c d : Cursor} {trailing : Bool} {text : String} {rest : Code}
    (hrest : c.rest = .literal text :: rest) (hnumber : Literal.isNumber text = true)
    (h : jointIndices c = .ok (trailing, d)) : d.leftover = c.leftover ∧ c.Reaches d ∧
      (c.rest.IsSoundEnd → ∃ new, c.Passes Code.IsUnquoted d new) := by
  obtain ⟨code, behind, written, leftover⟩ := c
  dsimp only at hrest
  subst hrest
  obtain ⟨_, _, ⟨⟩, h⟩ := bind_eq_ok.mp h
  dsimp only at h
  generalize ((splitText '.' text).getLast? == some "") = ended at h
  generalize (if ended = true then (splitText '.' text).dropLast else splitText '.' text) =
    parts at h
  split at h
  · rename_i hparts
    obtain ⟨_, _, ⟨⟩, h⟩ := bind_eq_ok.mp h
    obtain ⟨_, _, ⟨⟩, ⟨⟩⟩ := bind_eq_ok.mp h
    have hindices := isSound_indices fun part hpart =>
      beq_iff_eq.mp (List.all_eq_true.mp hparts part hpart)
    have htrailing : Code.IsSound (if trailing then operatorCode ['.'] else []) := by
      cases trailing with
      | true => exact Code.isSound_operator (by decide)
      | false => exact Code.isSound_nil
    refine ⟨rfl, ⟨List.suffix_cons _ _, rfl⟩, fun hc => ?_⟩
    have hnew := hindices.append htrailing
    have htext : Code.Ends [.literal text] := Code.ends_single not_false
    exact ⟨_, .of_not_continues (.of_closed [.literal text] rfl rfl
      htext.isClosed.isUnquoted rfl hnew.isPiece (hnew.glued.append hc.glued.2))
      fun mark => Code.not_continues_number hnumber mark rest⟩
  · obtain ⟨_, _, -, hfail⟩ := bind_eq_ok.mp h
    exact absurd hfail (failAt_ne_ok _ _ _ _)

/-- Indices may be read where a number comes next. -/
lemma tidy_jointIndices {α : Type} {k : Bool → Reader α} {numbered : Cursor → Bool}
    (hk : ∀ more, (k more).Tidy) (hnumbered : ∀ c, numbered c = true →
      ∃ text rest, c.rest = .literal text :: rest ∧ Literal.isNumber text = true) :
    (get >>= fun c => if numbered c then jointIndices >>= k else pure true >>= k).Tidy := by
  refine ⟨fun c a e hrun hleft => ?_⟩
  obtain ⟨_, _, ⟨⟩, hrun⟩ := bind_eq_ok.mp hrun
  split at hrun
  · rename_i h
    obtain ⟨text, rest, hrest, hnumber⟩ := hnumbered c h
    obtain ⟨more, d, hindices, hrun⟩ := bind_eq_ok.mp hrun
    obtain ⟨hmiddle, hreaches', hpasses'⟩ := (hk more).yields hrun hleft
    obtain ⟨hnone, hreaches, hpasses⟩ := passes_jointIndices hrest hnumber hindices
    refine ⟨hnone ▸ hmiddle, hreaches.trans hreaches', fun hc => ?_⟩
    obtain ⟨new, hnew⟩ := hpasses hc
    obtain ⟨new', hnew', -⟩ := hpasses' (hnew.isSoundEnd hc)
    exact ⟨new ++ new', hnew.trans hnew' fun _ hfront => hfront.append hnew.unquoted, trivial⟩
  · exact (hk true).yields hrun hleft

instance : (access g).Tidy := by
  unfold access
  refine tidy_jointIndices (fun more => ?_) fun c h => ?_
  · infer_instance
  · split at h
    · rename_i text rest hrest
      exact ⟨text, rest, hrest, (Bool.and_eq_true_iff.mp h).1⟩
    · cases h

instance (fuel : Nat) (form : Form) : (trailers.go g fuel form).Tidy := by
  induction fuel generalizing form with
  | zero =>
    unfold trailers.go
    infer_instance
  | succ fuel ih =>
    unfold trailers.go
    infer_instance

instance (first : Form) : (trailers g first).Tidy := by
  unfold trailers
  infer_instance

instance : (fieldValue g).Tidy := by
  unfold fieldValue
  infer_instance

instance : (fieldValues g).Tidy := by
  unfold fieldValues
  infer_instance

instance (allowStruct : Bool) : (pathOperand g allowStruct).Tidy := by
  unfold pathOperand
  refine .seq fun p => ?_
  cases p <;> infer_instance

instance : (closureArgument g).Tidy := by
  unfold closureArgument
  infer_instance

instance (allowStruct : Bool) : (closure g allowStruct).Tidy := by
  unfold closure
  infer_instance

instance : (arrayContent g).Tidy := by
  unfold arrayContent
  infer_instance

instance : startsExpression.Tidy := by
  unfold startsExpression
  infer_instance

instance : (optionalExpression g).Tidy := by
  unfold optionalExpression
  infer_instance

instance (allowStruct : Bool) : (breakExpression g allowStruct).Tidy := by
  unfold breakExpression
  infer_instance

instance : (header g).Tidy := by
  unfold header
  infer_instance

instance (fuel : Nat) : (ifChain g fuel).Tidy := by
  induction fuel with
  | zero =>
    unfold ifChain
    infer_instance
  | succ fuel ih =>
    unfold ifChain
    infer_instance

instance : (whileLoop g).Tidy := by
  unfold whileLoop
  infer_instance

instance : (forLoop g).Tidy := by
  unfold forLoop
  infer_instance

instance : (bareLoop g).Tidy := by
  unfold bareLoop
  infer_instance

instance : (labelled g).Tidy := by
  unfold labelled
  infer_instance

instance : (matchArm g).Tidy := by
  unfold matchArm
  infer_instance

instance : (matchExpression g).Tidy := by
  unfold matchExpression
  infer_instance

instance : (blockLike? g).Tidy := by
  unfold blockLike?
  infer_instance

instance : startsAsyncBlock.Tidy := by
  unfold startsAsyncBlock
  infer_instance

instance : startsClosure.Tidy := by
  unfold startsClosure
  infer_instance

instance : startsPath.Tidy := by
  unfold startsPath
  infer_instance

instance (allowStruct : Bool) : (keywordExpression? g allowStruct).Tidy := by
  unfold keywordExpression?
  infer_instance

instance (allowStruct : Bool) : (atom g allowStruct).Tidy := by
  unfold atom
  refine .seq fun _ => .branch inferInstance ?_
  infer_instance

instance (allowStruct : Bool) : Tidy (do
    for sign in ["*", "!", "-"] do
      if ← acceptOperator sign then
        let _ ← g.operand allowStruct
        return Form.other
    return Form.other) := by
  have hsigns : ∀ sign ∈ ["*", "!", "-"], (Terminal.operator sign).IsLeaf :=
    fun sign hsign => ⟨List.all_eq_true.mp (by decide : ["*", "!", "-"].all
      fun sign => (Terminal.operator sign).isLeaf) sign hsign⟩
  refine @Tidy.bind _ _ _ _ (Tidy.forIn_of_mem _ fun sign hsign _ => ?_) fun r => ?_
  · have := hsigns sign hsign
    infer_instance
  · obtain ⟨_ | form, _⟩ := r <;> infer_instance

instance (allowStruct : Bool) : (operand g allowStruct).Tidy := by
  unfold operand
  refine .seq fun attributes => .seq fun reference => .branch inferInstance ?_
  exact .seq fun signed => .branch inferInstance inferInstance

instance : (leading g).Tidy := by
  unfold leading
  infer_instance

/-! ### Statements -/

instance : startsStatic.Tidy := by
  unfold startsStatic
  infer_instance

instance : startsConstant.Tidy := by
  unfold startsConstant
  infer_instance

instance : startsItem.Tidy := by
  unfold startsItem
  infer_instance

instance : invocationForm.Tidy := by
  unfold invocationForm
  infer_instance

instance : (letBinding g).Tidy := by
  unfold letBinding
  infer_instance

instance : (expressionStatement g).Tidy := by
  unfold expressionStatement
  refine .seq fun form => .seq fun _ => .branch inferInstance ?_
  split <;> infer_instance

instance : (statement g).Tidy := by
  unfold statement
  infer_instance

instance : (statements g).Tidy := by
  unfold statements
  infer_instance

/-! ### Signatures -/

instance : visibility.Tidy := by
  unfold visibility
  refine .capture_write (.seq fun _ => .branch (.seq fun c => ?_) inferInstance)
    fun _ _ => inferInstance
  generalize c.rest = code
  split <;> infer_instance

instance : (receiver g).Tidy := by
  unfold receiver
  infer_instance

instance : (functionArgument g).Tidy := by
  unfold functionArgument
  refine .seq fun place => ?_
  cases place <;> infer_instance

instance (fuel : Nat) (received first : Bool) :
    (functionArguments g fuel received first).Tidy := by
  induction fuel generalizing received first with
  | zero =>
    unfold functionArguments
    infer_instance
  | succ fuel ih =>
    unfold functionArguments
    refine .seq fun _ => .branch inferInstance ?_
    refine .seq fun _ => .seq fun _ => .branch inferInstance ?_
    refine .seq fun argument => ?_
    cases argument <;> infer_instance

instance (allowSafe : Bool) : (signature g allowSafe).Tidy := by
  unfold signature
  infer_instance

instance (allowSafe : Bool) : (startsSignature allowSafe).Tidy := by
  unfold startsSignature
  infer_instance

instance (ends : List Terminal) : (boundsUpTo g ends).Tidy := by
  unfold boundsUpTo
  infer_instance

instance (place : PredicatePlace) : (typeAlias g place).Tidy := by
  unfold typeAlias
  infer_instance

instance : (constantRest g).Tidy := by
  unfold constantRest
  infer_instance

instance : invocationItem.Tidy := by
  unfold invocationItem
  infer_instance

/-! ### Items -/

instance (fuel : Nat) : (namedFieldType g fuel).Tidy := by
  induction fuel with
  | zero =>
    unfold namedFieldType
    infer_instance
  | succ fuel ih =>
    unfold namedFieldType
    infer_instance

instance : (namedField g).Tidy := by
  unfold namedField
  infer_instance

instance : (tupleField g).Tidy := by
  unfold tupleField
  infer_instance

instance : (namedFields g).Tidy := by
  unfold namedFields
  infer_instance

instance : (tupleFields g).Tidy := by
  unfold tupleFields
  infer_instance

lemma yields_variant : (variant g).Yields fun v _ => IsName v.name.toList := by
  refine .seq fun _ => .seq fun _ => .bind yields_identifier fun name => ?_
  refine .bind_look (looks_peek _) fun _ => .bind_look (looks_peek _) fun _ => ?_
  extract_lets behindFields
  have hbehind (fields : Fields) : (behindFields fields).Yields fun v _ =>
      ∀ new : Code, IsName name.toList ∧ new = [.ident name] →
        ∀ (_ _ : Code), IsName v.name.toList := by
    refine .seq fun _ => .ite ?_ (.pure fun _ _ h _ _ => h.1)
    exact .capture_write Tidy.yields fun _ _ => .pure fun _ _ _ _ h _ _ => h.1
  refine .ite ?_ (.ite ?_ (hbehind _))
  · exact .seq fun _ => (hbehind _).mono fun _ _ h _ => h
  · exact .seq fun _ => (hbehind _).mono fun _ _ h _ => h

instance : (variant g).Tidy := (yields_variant g).tidy

instance (attributes : List Attribute) (visibility : Code) :
    (enumeration g attributes visibility).Tidy := by
  unfold enumeration
  infer_instance

instance : (structBody g).Tidy := by
  unfold structBody
  infer_instance

instance (attributes : List Attribute) : (struct g attributes).Tidy := by
  unfold struct
  infer_instance

instance (attributes : List Attribute) : (union g attributes).Tidy := by
  unfold union
  infer_instance

instance (allowRoot : Bool) : (useTree g allowRoot).Tidy := by
  unfold useTree
  infer_instance

instance (start : Mark) (attributes : List Attribute) :
    (useDeclaration g start attributes).Tidy := by
  unfold useDeclaration
  infer_instance

instance (start : Mark) (attributes : List Attribute) : (staticItem g start attributes).Tidy := by
  unfold staticItem
  infer_instance

instance (start : Mark) (attributes : List Attribute) : (constant g start attributes).Tidy := by
  unfold constant
  infer_instance

instance (start : Mark) (attributes : List Attribute) : (typeItem g start attributes).Tidy := by
  unfold typeItem
  infer_instance

instance (attributes : List Attribute) : (externCrate attributes).Tidy := by
  unfold externCrate
  infer_instance

instance (start : Mark) (attributes : List Attribute) : (function g start attributes).Tidy := by
  unfold function
  infer_instance

instance (attributes : List Attribute) : (module g attributes).Tidy := by
  unfold module
  infer_instance

instance (start : Mark) : (definition start).Tidy := by
  unfold definition
  infer_instance

instance : (traitItem g).Tidy := by
  unfold traitItem
  refine .seq fun _ => .seq fun visible => .seq fun defaulted => ?_
  extract_lets plain method
  have hmethod : method.Tidy := by
    infer_instance
  refine .seq fun _ => .branch inferInstance <|
    .seq fun _ => .branch (.seq fun second => ?_) inferInstance
  obtain _ | _ | _ := second <;> infer_instance

instance (attributes : List Attribute) (keyword : Mark) (name : String) :
    (traitRest g attributes keyword name).Tidy := by
  unfold traitRest
  infer_instance

instance (attributes : List Attribute) : (modifiedTrait g attributes).Tidy := by
  unfold modifiedTrait
  infer_instance

instance (attributes : List Attribute) : (trait g attributes).Tidy := by
  unfold trait
  infer_instance

instance : (implItem g).Tidy := by
  unfold implItem
  infer_instance

instance (start : Mark) (attributes : List Attribute) (visible : Bool) :
    (implementation g start attributes visible).Tidy := by
  unfold implementation
  refine .seq fun _ => .seq fun _ => .seq fun keyword => .seq fun _ => .seq fun declared => ?_
  extract_lets behindParameters
  have hbehind (u : Unit) : (behindParameters u).Tidy := by
    refine .seq fun _ => .seq fun _ => .seq fun _ => ?_
    extract_lets constant behindConst
    have hbehind (u : Unit) : (behindConst u).Tidy := by
      refine .seq fun negation => .seq fun _ => .seq fun _ => ?_
      infer_instance
    exact .branch (.seq fun _ => .seq fun _ => hbehind ()) (hbehind ())
  exact .branch (.seq fun _ => hbehind ()) (hbehind ())

instance : (foreignItem g).Tidy := by
  unfold foreignItem
  refine .seq fun _ => .seq fun visible => .seq fun function => .branch inferInstance ?_
  infer_instance

instance (start : Mark) (attributes : List Attribute) : (externBlock g start attributes).Tidy := by
  unfold externBlock
  infer_instance

instance (start : Mark) (attributes : List Attribute) (visible : Option Mark) :
    (externItem g start attributes visible).Tidy := by
  unfold externItem
  extract_lets block
  have hblock : block.Tidy := by
    cases visible <;> infer_instance
  refine .seq fun second => ?_
  obtain _ | _ | _ := second <;> infer_instance

instance (start : Mark) (attributes : List Attribute) (visible : Option Mark) :
    (unsafeItem g start attributes visible).Tidy := by
  unfold unsafeItem
  cases visible <;> infer_instance

instance (start : Mark) (attributes : List Attribute) : (item g start attributes).Tidy := by
  unfold item
  refine .seq fun place => .seq fun written => ?_
  extract_lets visible
  refine .seq fun _ => .branch inferInstance ?_
  refine .seq fun _ => .branch inferInstance ?_
  refine .seq fun _ => .branch inferInstance ?_
  refine .seq fun _ => .branch inferInstance ?_
  refine .seq fun _ => .branch inferInstance ?_
  refine .seq fun _ => .branch inferInstance ?_
  refine .seq fun _ => .branch inferInstance ?_
  infer_instance

end Read

/-! ### The knot -/

instance (fuel : Nat) : (grammar fuel).IsTidy := by
  induction fuel with
  | zero =>
    have hnone {α : Type} : (unexpected [] : Reader α).Tidy := inferInstance
    exact ⟨fun _ => hnone, fun _ _ => hnone, fun _ => hnone, fun _ => hnone, fun _ _ _ => hnone,
      hnone, hnone, hnone, fun _ _ => hnone, fun _ => hnone⟩
  | succ fuel ih =>
    let g := grammar fuel
    exact {
      type := fun allowSum => (inferInstance : (Read.type g allowSum).Tidy)
      bound := fun allowCapturing allowModifier =>
        (inferInstance : (Read.bound g allowCapturing allowModifier).Tidy)
      expression := fun allowStruct => (inferInstance : (Read.expression g allowStruct).Tidy)
      operand := fun allowStruct => (inferInstance : (Read.operand g allowStruct).Tidy)
      operation := fun left allowStruct base =>
        (inferInstance : (Read.operation g left allowStruct base).Tidy)
      leading := (inferInstance : (Read.leading g).Tidy)
      pattern := (inferInstance : (Read.pattern g).Tidy)
      statements := (inferInstance : (Read.statements g).Tidy)
      item := fun start outer => (inferInstance : (Read.item g start outer).Tidy)
      useTree := fun allowRoot => (inferInstance : (Read.useTree g allowRoot).Tidy) }

instance (code : Code) : code.grammar.IsTidy := by
  unfold Code.grammar
  infer_instance

end UnionView
