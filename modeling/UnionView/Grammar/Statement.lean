import UnionView.Grammar.Expression

/-!
# Statements

`Read.statements` reads the content of a block: items, `let` bindings, invocations and
expressions. An expression that does not end with a block needs a semicolon, unless it is last.
-/

namespace UnionView.Read

open Reader

variable (g : Grammar)

/-! ### Items among statements -/

/-- Whether a static item, and not a static closure, begins here. -/
def startsStatic : Reader Bool := do
  if !(← peekWord "static") then return false
  if ← peekSecond (.word "mut") then return true
  let closure := (← peekSecond (.word "async")) &&
    ((← peekThird (.word "move")) || (← peekThird (.operator "|")))
  return (← peekSecond .identifier) && !closure

/-- Whether a constant or a constant function, and not a block or a closure, begins here. -/
def startsConstant : Reader Bool := do
  if !(← peekWord "const") then return false
  if (← peekSecond (.group .curly)) || (← peekSecond (.word "static")) ||
      (← peekSecond (.word "move")) || (← peekSecond (.operator "|")) then return false
  if ← peekSecond (.word "async") then
    return (← peekThird (.word "unsafe")) || (← peekThird (.word "extern")) ||
      (← peekThird (.word "fn"))
  return true

/-- Whether an item, invocations apart, begins here. -/
def startsItem : Reader Bool := do
  if ← peekAny [.word "pub", .word "extern", .word "use", .word "fn", .word "mod", .word "type",
      .word "struct", .word "enum", .word "trait", .word "impl", .word "macro"] then return true
  if (← peekWord "crate") && !(← peekSecond (.operator "::")) then return true
  if (← startsStatic) || (← startsConstant) then return true
  if (← peekWord "unsafe") && !(← peekSecond (.group .curly)) then return true
  if (← peekWord "async") && ((← peekSecond (.word "unsafe")) ||
      (← peekSecond (.word "extern")) || (← peekSecond (.word "fn"))) then return true
  if (← peekWord "union") && (← peekSecond .identifier) then return true
  if (← peekWord "auto") && (← peekSecond (.word "trait")) then return true
  return (← peekWord "default") &&
    ((← peekSecond (.word "unsafe")) || (← peekSecond (.word "impl")))

inductive InvocationForm
  /-- It has a name behind the `!`. -/
  | item
  /-- It has braces and is a statement of its own. -/
  | statement
  /-- It begins an expression, or is none. -/
  | expression
deriving DecidableEq

/-- What an invocation at the front is, told by what comes behind its path. -/
def invocationForm : Reader InvocationForm := do
  let form ← attempt <| ahead do
    let _ ← Path.plain
    if !(← peekOperator "!") then return .expression
    if (← peekSecond .identifier) || (← peekSecond (.word "try")) then return .item
    let continued := ((← peekThird (.operator ".")) && !(← peekThird (.operator ".."))) ||
      (← peekThird (.operator "?"))
    if (← peekSecond (.group .curly)) && !continued then return .statement
    return .expression
  return form.getD .expression

/-! ### Statements -/

/-- A `let` binding, with a block for the case that the pattern does not match unless the value
ends with a block itself. -/
def letBinding : Reader Unit := do
  word "let"
  let _ ← g.pattern
  if ← acceptOperator ":" then
    let _ ← g.type true
  if ← acceptOperator "=" then
    let _ ← g.expression true
    let braced := (← get).written.head? == some (.closing .curly)
    if !braced then
      if ← acceptWord "else" then plainBlock g
  operator ";"

/-- An expression as a statement; the answer says whether a semicolon is missing behind it. -/
def expressionStatement : Reader Bool := do
  let form ← g.leading
  if ← acceptOperator ";" then return false
  match form with
  | .blockLike => return false
  | .invocation .curly => return false
  | _ => return true

/-- A statement; the answer says whether a semicolon is missing behind it. -/
def statement : Reader Bool := do
  let start ← mark
  let attributes ← outerAttributes g
  let invocation ← invocationForm
  if invocation = .statement then
    let _ ← Path.plain
    operator "!"
    let _ ← rawGroup
    let _ ← acceptOperator ";"
    return false
  else if ← peekWord "let" then
    letBinding g
    return false
  else if (← startsItem) || invocation = .item then
    let _ ← g.item start attributes
    return false
  else expressionStatement g

/-- All statements up to the end of a block. -/
def statements : Reader Unit :=
  repeatWhile do
    repeatWhile (acceptOperator ";")
    if ← isEnded then return false
    let unfinished ← statement g
    if ← isEnded then return false
    if unfinished then fail .statementNotEnded
    return true

end UnionView.Read
