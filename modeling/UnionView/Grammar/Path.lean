import UnionView.Grammar.Attribute

/-!
# Paths with generic arguments

In types, generic arguments follow a name directly; in expressions they need `::` in front. They
are printed with lifetimes first.
-/

namespace UnionView.Read

open Reader

variable (g : Grammar)

/-- An argument that stands for a constant: a literal, a name or a block. -/
def constantArgument : Reader Unit := do
  if ← peek .literal then literal
  else if ← peek .identifier then
    let _ ← identifier
  else if ← peek (.group .curly) then
    let _ ← block g
  else unexpected []

/-- Bounds with `+` between them, until something else follows or `stop` holds. -/
def boundsUntil (stop : Reader Bool) : Reader Unit :=
  repeatWhile do
    if ← stop then return false
    let _ ← g.bound false true
    acceptOperator "+"

/-- What a path that is an argument may be followed by: the value or the bounds of an associated
item of that name. -/
def associated : Reader Unit := do
  if ← acceptOperator "=" then
    if ← peekAny [.literal, .group .curly] then constantArgument g
    else
      let _ ← g.type true
  else if ← acceptOperator ":" then
    boundsUntil g (peekAny [.operator ",", .operator ">"])

/-- A generic argument; the answer says whether it is a lifetime. -/
def argument : Reader Bool := do
  if (← peek .lifetime) && !(← peekSecond (.operator "+")) then
    lifetime
    return true
  else if ← peekAny [.literal, .group .curly] then
    constantArgument g
    return false
  else
    match ← g.type true with
    | .path path => if !path.rooted && path.more.isEmpty then associated g
    | _ => pure ()
    return false

/-- Elements up to a closing angle bracket, each with its text and whether a comma follows. -/
def angleList (element : Reader Bool) : Reader (List (Bool × Code × Bool)) :=
  collect do
    if ← peekOperator ">" then return none
    let (isLifetime, code) ← capture element
    if ← peekOperator ">" then return some (isLifetime, code, false)
    let _ ← capture (operator ",")
    return some (isLifetime, code, true)

/-- Generic arguments in angle brackets, with `::` in front or not. -/
def arguments : Reader Unit := do
  let _ ← acceptOperator "::"
  operator "<"
  write (lifetimesFirst (← angleList (argument g)))
  operator ">"

/-- A name of a path with its generic arguments. -/
def segment (inExpression : Bool) : Reader PathSegment := do
  if ← peekAny [.word "super", .word "self", .word "crate", .word "try"] then
    return { name := ← anyIdentifier }
  let name ← if ← peekWord "Self" then anyIdentifier else identifier
  let direct ←
    if inExpression then pure false
    else do
      pure ((← peekOperator "<") && !(← peekAny [.operator "<=", .operator "<<="]))
  if direct || ((← peekOperator "::") && (← peekThird (.operator "<"))) then
    let (_, code) ← capture (arguments g)
    write code
    return { name, arguments := code }
  else return { name }

/-- A path. `::` in front of round brackets does not belong to it. -/
def path (inExpression : Bool) : Reader Path := do
  let rooted ← acceptOperator "::"
  let first ← segment g inExpression
  let more ← collect do
    if (← peekOperator "::") && !(← peekThird (.group .round)) then
      operator "::"
      return some (← segment g inExpression)
    else return none
  return { rooted, first, more }

/-- A path that may be qualified by a type in angle brackets, in which case there is no answer. -/
def qualifiedPath (inExpression : Bool) : Reader (Option Path) := do
  if ← acceptOperator "<" then
    let _ ← g.type true
    if ← acceptWord "as" then
      let _ ← path g false
    operator ">"
    operator "::"
    repeatWhile do
      let _ ← segment g inExpression
      acceptOperator "::"
    return none
  else return some (← path g inExpression)

/-- Whether generic parameters, and not a qualified path, begin here. -/
def startsParameters : Reader Bool := do
  if !(← peekOperator "<") then return false
  if (← peekSecond (.operator ">")) || (← peekSecond (.operator "#")) then return true
  if ← peekSecond (.word "const") then return true
  if (← peekSecond .lifetime) || (← peekSecond .identifier) then
    return (← peekThird (.operator ">")) || (← peekThird (.operator ",")) ||
      ((← peekThird (.operator ":")) && !(← peekThird (.operator "::"))) ||
      (← peekThird (.operator "="))
  return false

/-- The same behind the next word. -/
def startsParametersAfterWord : Reader Bool :=
  ahead do
    if ← peekAnyWord then
      let _ ← anyIdentifier
      startsParameters
    else return false

def returnType (allowSum : Bool) : Reader Unit := do
  if ← acceptOperator "->" then
    let _ ← g.type allowSum

/-- The types of arguments in round brackets and of a result. -/
def callArguments : Reader Unit := do
  let _ ← group .round (separatedBy "," (g.type true))
  returnType g false

end UnionView.Read
