import UnionView.Grammar.Pattern

/-!
# Expressions

Expressions are read by precedence. Only what decides how the code goes on is kept of them: a
path, a range, a comparison, a block, an invocation, or anything else (`Form`).

Where a block follows an expression, as behind `if`, the flag `allowStruct` is off and a brace
does not begin a struct literal.
-/

namespace UnionView.Read

open Reader

variable (g : Grammar)

/-! ### Operators -/

/-- The binary operators, those that others begin with behind these. -/
def binaryOperators : List (String × Precedence) :=
  [("+=", .assign), ("-=", .assign), ("*=", .assign), ("/=", .assign), ("%=", .assign),
    ("^=", .assign), ("&=", .assign), ("|=", .assign), ("<<=", .assign), (">>=", .assign),
    ("&&", .and), ("||", .or), ("<<", .shift), (">>", .shift), ("==", .compare), ("<=", .compare),
    ("!=", .compare), (">=", .compare), ("+", .sum), ("-", .sum), ("*", .product), ("/", .product),
    ("%", .product), ("^", .bitXor), ("&", .bitAnd), ("|", .bitOr), ("<", .compare),
    (">", .compare)]

def nextOperator : Reader (Option (String × Precedence)) := do
  let rest := (← get).rest
  return binaryOperators.find? fun o => (Terminal.operator o.1).fits rest

def startsAssignment : Reader Bool := do
  return (← peekOperator "=") && !(← peekOperator "=>")

/-- How tightly what comes next binds. -/
def nextPrecedence : Reader Precedence := do
  match ← nextOperator with
  | some (_, precedence) => return precedence
  | none =>
    if ← startsAssignment then return .assign
    else if ← peekOperator ".." then return .range
    else if ← peekWord "as" then return .cast
    else return .jump

/-- The right side of an operator: what binds more tightly belongs to it. -/
def rightSide (allowStruct : Bool) (precedence : Precedence) : Reader Form := do
  let first ← g.operand allowStruct
  go ((← get).rest.length + 1) first
where
  /-- The same behind a part of the right side, with a bound on the number of further parts. -/
  go : Nat → Form → Reader Form
    | 0, left => return left
    | fuel + 1, left => do
      let next ← nextPrecedence
      if next.rank > precedence.rank || (next == precedence && precedence == .assign) then
        let before := (← get).rest.length
        let right ← g.operation left allowStruct next
        if (← get).rest.length = before then return right else go fuel right
      else return left

/-- Whether a range ends with its dots. -/
def rangeEnds (allowStruct : Bool) : Reader Bool := do
  if ← isEnded then return true
  if (← peekOperator ".") && !(← peekOperator "..") then return true
  if !allowStruct && (← peek (.group .curly)) then return true
  peekAny [.operator ",", .operator ";", .operator "?", .operator "=>", .operator "=",
    .operator "+", .operator "/", .operator "%", .operator "^", .operator ">", .operator "<=",
    .operator "!=", .operator "-=", .operator "*=", .operator "&=", .operator "|=",
    .operator "<<=", .word "as"]

/-- A range from its dots on. -/
def range (allowStruct : Bool) : Reader Form := do
  let needsBound ← rangeDots false
  if needsBound || !(← rangeEnds allowStruct) then
    let _ ← rightSide g allowStruct .range
  return .range

/-- What may not follow a cast. -/
def checkCast : Reader Unit := do
  if (← peekOperator ".") && !(← peekOperator "..") then
    if ← peekSecond (.word "await") then fail (.castFollowedBy "`.await`")
    else if (← peekSecond .identifier) &&
        ((← peekThird (.group .round)) || (← peekThird (.operator "::"))) then
      fail (.castFollowedBy "a method call")
    else fail (.castFollowedBy "a field access")
  else if ← peekOperator "?" then fail (.castFollowedBy "`?`")
  else if ← peek (.group .square) then fail (.castFollowedBy "indexing")
  else if ← peek (.group .round) then fail (.castFollowedBy "a function call")

/-- One operator behind `left` and its right side, if it binds at least as tightly as `base`. A
range may not be the left side of anything. -/
def operationStep (left : Form) (allowStruct : Bool) (base : Precedence) :
    Reader (Option Form) := do
  if left == .range then return none
  match ← nextOperator with
  | some (text, precedence) =>
    if precedence.rank < base.rank then return none
    if precedence == .compare && left == .comparison then fail .chainedComparison
    operator text
    let _ ← rightSide g allowStruct precedence
    return some (if precedence == .compare then .comparison else .other)
  | none =>
    if base.rank ≤ Precedence.assign.rank && (← startsAssignment) then
      operator "="
      let _ ← rightSide g allowStruct .assign
      return some .other
    else if base.rank ≤ Precedence.range.rank && (← peekOperator "..") then
      return some (← range g allowStruct)
    else if base.rank ≤ Precedence.cast.rank && (← peekWord "as") then
      word "as"
      let _ ← g.type false
      checkCast
      return some .other
    else return none

/-- All operators behind `left` that bind at least as tightly as `base`. -/
def operation (left : Form) (allowStruct : Bool) (base : Precedence) : Reader Form := do
  go ((← get).rest.length + 1) left
where
  /-- The same with a bound on the number of operators. -/
  go : Nat → Form → Reader Form
    | 0, left => return left
    | fuel + 1, left => do
      match ← operationStep g left allowStruct base with
      | some next => go fuel next
      | none => return left

def expression (allowStruct : Bool) : Reader Form := do
  let left ← g.operand allowStruct
  g.operation left allowStruct .jump

/-! ### What follows an operand -/

/-- An index that is written together with the next one, as in `x.0.1`. The answer says whether
the text ends with a point, which then belongs to what follows. -/
def jointIndices : Reader Bool := do
  match (← get).rest with
  | .literal text :: _ =>
    let parts := Text.splitText '.' text
    let trailing := parts.getLast? == some ""
    let parts := if trailing then parts.dropLast else parts
    if parts.all fun part => Literal.integerRest part.toList == some [] then
      let (_, _) ← capture (advance .literal)
      let code := (parts.map fun part => [Token.literal part]).intersperse (operatorCode ['.'])
      write (code.flatten ++ if trailing then operatorCode ['.'] else [])
      return trailing
    else failAt (← mark) .indexWithSuffix
  | _ => return true

/-- Behind a point: `await`, a field, an index or a method with its arguments. -/
def access : Reader Unit := do
  let fractional :=
    match (← get).rest with
    | .literal text :: _ => Literal.isNumber text && Literal.isFraction text
    | _ => false
  let more ← if fractional then jointIndices else pure true
  if !more then return
  if ← acceptWord "await" then return
  let named ← member
  let turbofish := named && (← peekOperator "::")
  if turbofish then arguments g
  if named && (turbofish || (← peek (.group .round))) then
    let _ ← group .round (separatedBy "," (g.expression true))

/-- What may follow an operand: arguments, an index, a field, a method or `?`. -/
def trailers (first : Form) : Reader Form := do
  go ((← get).rest.length + 1) first
where
  /-- The same with a bound on the number of trailers. -/
  go : Nat → Form → Reader Form
    | 0, form => return form
    | fuel + 1, form => do
      if ← peek (.group .round) then
        let _ ← group .round (separatedBy "," (g.expression true))
        go fuel .other
      else if (← peekOperator ".") && !(← peekOperator "..") && form != .range then
        operator "."
        access g
        go fuel .other
      else if ← peek (.group .square) then
        let _ ← group .square (g.expression true)
        go fuel .other
      else if (← peekOperator "?") && form != .range then
        operator "?"
        go fuel .other
      else return form

/-! ### Operands -/

def fieldValue : Reader Unit := do
  let _ ← outerAttributes g
  let named ← member
  if !named || (← peekOperator ":") then
    operator ":"
    let _ ← g.expression true

/-- The fields of a struct literal, which a base may end. -/
def fieldValues : Reader Unit :=
  repeatWhile do
    if ← isEnded then return false
    if ← acceptOperator ".." then
      if !(← isEnded) then
        let _ ← g.expression true
      return false
    fieldValue g
    if ← isEnded then return false
    operator ","
    return true

/-- An operand that begins with a path: the path, an invocation or a struct literal. -/
def pathOperand (allowStruct : Bool) : Reader Form := do
  let p ← qualifiedPath g true
  if (← peekOperator "!") && !(← peekOperator "!=") && p.any Path.isPlain then
    operator "!"
    return .invocation (← rawGroup).delimiter
  if allowStruct && (← peek (.group .curly)) then
    group .curly (fieldValues g)
    return .other
  match p with
  | some p => return .path p
  | none => return .other

def closureArgument : Reader Unit := do
  let _ ← outerAttributes g
  let _ ← g.pattern
  if ← acceptOperator ":" then
    let _ ← g.type true

/-- A closure. Its body is a block if its result type is written. -/
def closure (allowStruct : Bool) : Reader Unit := do
  let _ ← binder? g
  for keyword in ["const", "static", "async", "move"] do
    let _ ← acceptWord keyword
  operator "|"
  repeatWhile do
    if ← peekOperator "|" then return false
    closureArgument g
    if ← peekOperator "|" then return false
    operator ","
    return true
  operator "|"
  if ← acceptOperator "->" then
    let _ ← g.type true
    plainBlock g
  else
    let _ ← expression g allowStruct

/-- The elements of an array, or one element and how often it is repeated. -/
def arrayContent : Reader Unit := do
  if ← isEnded then return
  let _ ← g.expression true
  if ← acceptOperator ";" then
    let _ ← g.expression true
  else if (← isEnded) || (← peekOperator ",") then
    if ← acceptOperator "," then
      let _ ← separatedBy "," (g.expression true)
  else expected "`,` or `;`"

/-- Whether an expression may begin here. -/
def startsExpression : Reader Bool := do
  if ← peekAnyWord then return true
  if ← peekAny [.group .round, .group .square, .group .curly, .literal, .operator "..",
      .operator "::", .lifetime, .operator "#"] then return true
  return ((← peekOperator "!") && !(← peekOperator "!=")) ||
    ((← peekOperator "-") && !(← peekAny [.operator "-=", .operator "->"])) ||
    ((← peekOperator "*") && !(← peekOperator "*=")) ||
    ((← peekOperator "|") && !(← peekOperator "|=")) ||
    ((← peekOperator "&") && !(← peekOperator "&=")) ||
    ((← peekOperator "<") && !(← peekAny [.operator "<=", .operator "<<="]))

/-- An expression, if one may begin here. -/
def optionalExpression : Reader Unit := do
  if ← startsExpression then
    let _ ← g.expression true

/-- A `break` with its label and its value. A label that belongs to a loop behind it needs round
brackets around the loop. -/
def breakExpression (allowStruct : Bool) : Reader Unit := do
  word "break"
  let start ← mark
  let label ← peek .lifetime
  if label && (← peekSecond (.operator ":")) then
    let _ ← g.expression true
    failAt start .labelNeedsParentheses
  if label then lifetime
  if (← startsExpression) && (allowStruct || !(← peek (.group .curly))) then
    let _ ← g.expression true

/-- A condition or another expression that a block follows. -/
def header : Reader Unit := do
  let _ ← expression g false

def ifChain : Nat → Reader Unit
  | 0 => unexpected [.word "if"]
  | fuel + 1 => do
    word "if"
    header g
    plainBlock g
    if ← acceptWord "else" then
      if ← peekWord "if" then ifChain fuel
      else if ← peek (.group .curly) then plainBlock g
      else unexpected [.word "if", .group .curly]

def whileLoop : Reader Unit := do
  word "while"
  header g
  let _ ← block g

def forLoop : Reader Unit := do
  word "for"
  let _ ← alternatives g
  word "in"
  header g
  let _ ← block g

def bareLoop : Reader Unit := do
  word "loop"
  let _ ← block g

/-- A loop or a block behind its label. -/
def labelled : Reader Unit := do
  lifetime
  operator ":"
  if ← peekWord "while" then whileLoop g
  else if ← peekWord "for" then forLoop g
  else if ← peekWord "loop" then bareLoop g
  else if ← peek (.group .curly) then
    let _ ← block g
  else expected "loop or block expression"

/-- An arm of a `match`. A comma must follow unless its body is a block. -/
def matchArm : Reader Unit := do
  let _ ← outerAttributes g
  let _ ← alternatives g
  if ← acceptWord "if" then
    let _ ← g.expression true
  operator "=>"
  let body ← g.leading
  if body == .blockLike || (← isEnded) then
    let _ ← acceptOperator ","
  else operator ","

def matchExpression : Reader Unit := do
  word "match"
  header g
  let _ ← group .curly do
    let _ ← innerAttributes g
    untilEnd (matchArm g)

/-- An expression that ends with a block and has no label, if one begins here. -/
def blockLike? : Reader Bool := do
  if ← peekWord "if" then ifChain g ((← get).rest.length + 1)
  else if ← peekWord "while" then whileLoop g
  else if (← peekWord "for") && !(← startsParametersAfterWord) then forLoop g
  else if ← peekWord "loop" then bareLoop g
  else if ← peekWord "match" then matchExpression g
  else if (← peekWord "try") && (← peekSecond (.group .curly)) then
    word "try"
    plainBlock g
  else if ← acceptWord "unsafe" then
    let _ ← block g
  else if (← peekWord "const") && (← peekSecond (.group .curly)) then
    word "const"
    let _ ← block g
  else if ← peek (.group .curly) then
    let _ ← block g
  else return false
  return true

/-- Whether an asynchronous block begins here. -/
def startsAsyncBlock : Reader Bool := do
  return (← peekWord "async") && ((← peekSecond (.group .curly)) ||
    ((← peekSecond (.word "move")) && (← peekThird (.group .curly))))

def startsClosure : Reader Bool := do
  if ← peekAny [.operator "|", .word "move", .word "static"] then return true
  if ← peekWord "for" then return ← startsParametersAfterWord
  if ← peekWord "const" then return !(← peekSecond (.group .curly))
  return (← peekWord "async") &&
    ((← peekSecond (.operator "|")) || (← peekSecond (.word "move")))

/-- Whether an expression that begins with a path begins here. -/
def startsPath : Reader Bool := do
  if ← peekAny [.identifier, .operator "::", .operator "<", .word "self", .word "Self",
      .word "super", .word "crate"] then return true
  return (← peekWord "try") &&
    ((← peekSecond (.operator "!")) || (← peekSecond (.operator "::")))

/-- The forms that begin with a keyword and are none of the forms above, if one begins here. -/
def keywordExpression? (allowStruct : Bool) : Reader Bool := do
  if ← peekWord "break" then breakExpression g allowStruct
  else if ← acceptWord "continue" then
    let _ ← accept .lifetime
  else if ← acceptWord "return" then optionalExpression g
  else if ← acceptWord "yield" then optionalExpression g
  else if ← acceptWord "become" then
    let _ ← g.expression true
  else if ← acceptWord "let" then
    let _ ← alternatives g
    operator "="
    let left ← g.operand allowStruct
    let _ ← g.operation left allowStruct .compare
  else return false
  return true

/-- An operand without operators in front and trailers behind. -/
def atom (allowStruct : Bool) : Reader Form := do
  if ← peek .literal then
    literal
    return .other
  else if ← startsAsyncBlock then
    word "async"
    let _ ← acceptWord "move"
    plainBlock g
    return .other
  else if ← startsClosure then
    closure g allowStruct
    return .other
  else if (← peekWord "builtin") && (← peekSecond (.operator "#")) then
    word "builtin"
    operator "#"
    let _ ← identifier
    group .round do
      let _ ← rawContent
    return .other
  else if ← startsPath then pathOperand g allowStruct
  else if ← peek (.group .round) then
    let _ ← group .round (separatedBy "," (g.expression true))
    return .other
  else if ← peek (.group .square) then
    group .square (arrayContent g)
    return .other
  else if ← keywordExpression? g allowStruct then return .other
  else if ← blockLike? g then return .blockLike
  else if ← peekOperator ".." then range g allowStruct
  else if ← acceptWord "_" then return .other
  else if ← peek .lifetime then
    labelled g
    return .blockLike
  else expected "an expression"

/-- An operand of a binary operator, with the operators in front of it and what follows it. -/
def operand (allowStruct : Bool) : Reader Form := do
  let attributes ← outerAttributes g
  if ← acceptOperator "&" then
    if (← peekWord "raw") && ((← peekSecond (.word "mut")) || (← peekSecond (.word "const"))) then
      word "raw"
      let _ ← anyIdentifier
    else
      let _ ← acceptWord "mut"
    let _ ← g.operand allowStruct
    return .other
  else if ← peekAny [.operator "*", .operator "!", .operator "-"] then
    for sign in ["*", "!", "-"] do
      if ← acceptOperator sign then
        let _ ← g.operand allowStruct
        return .other
    return .other
  else
    let start ← mark
    let form ← trailers g (← atom g allowStruct)
    if form == .range && !attributes.isEmpty then failAt start .attributeOnRange
    return form

/-- An expression where a statement may begin. -/
def leading : Reader Form := do
  let _ ← outerAttributes g
  let form ←
    if ← blockLike? g then pure .blockLike
    else if ← peek .lifetime then do
      labelled g
      pure .blockLike
    else g.operand true
  if form != .blockLike then g.operation form true .jump
  else if ((← peekOperator ".") && !(← peekOperator "..")) || (← peekOperator "?") then
    g.operation (← trailers g form) true .jump
  else return form

end UnionView.Read
