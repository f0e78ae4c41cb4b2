import UnionView.Grammar.Type

/-!
# Patterns

`Read.pattern` reads a pattern without alternatives, `Read.alternatives` one with them. The answer
tells ranges that lack a bound from the rest, because a slice may not hold one.
-/

namespace UnionView.Read

open Reader

variable (g : Grammar)

/-- What a pattern may begin with. The constant block comes twice, because it is tried twice. -/
def patternStarts : List Terminal :=
  [.identifier, .operator "::", .operator "<", .word "_", .literal, .word "const", .word "ref",
    .word "mut", .operator "&", .group .round, .group .square, .operator "..", .word "const"]

/-- What a bound of a range may begin with. -/
def rangeBoundStarts : List Terminal :=
  [.literal, .identifier, .operator "::", .operator "<", .word "self", .word "Self",
    .word "super", .word "crate", .word "const"]

/-- Alternatives with `|` between them and allowed in front. -/
def alternatives : Reader PatternForm := do
  let bar : Reader Bool := do
    return (← peekOperator "|") && !(← peekAny [.operator "||", .operator "|="])
  let leading ← acceptOperator "|"
  let first ← g.pattern
  if !leading && !(← bar) then return first
  repeatWhile do
    if !(← bar) then return false
    operator "|"
    let _ ← g.pattern
    return true
  return .other

/-- The dots of a range; the answer says whether an upper bound must follow. -/
def rangeDots (allowThree : Bool) : Reader Bool := do
  if ← acceptOperator "..=" then return true
  else if ← peekOperator "..." then
    if allowThree then
      operator "..."
      return true
    else unexpected [.operator "..="]
  else if ← acceptOperator ".." then return false
  else unexpected [.operator ".."]

def rangeBound : Reader Bool := do
  if (← isEnded) || (← peekAny [.operator "|", .operator "=", .operator ",", .operator ";",
      .word "if"]) then return false
  if (← peekOperator ":") && !(← peekOperator "::") then return false
  if ← peek .literal then
    literal
    return true
  else if ← peekAny [.identifier, .operator "::", .operator "<", .word "self", .word "Self",
      .word "super", .word "crate"] then
    let _ ← qualifiedPath g true
    return true
  else if ← acceptWord "const" then
    let _ ← block g
    return true
  else unexpected rangeBoundStarts

/-- The dots and the upper bound behind the lower bound of a range, if there is one. -/
def rangeTail (lower allowThree : Bool) : Reader PatternForm := do
  let dots ← mark
  let needsBound ← rangeDots allowThree
  let upper ← rangeBound g
  if needsBound && !upper then expected "range upper bound"
  else if lower then return if upper then .other else .openRange dots
  else return if upper then .openRange dots else .other

/-- Patterns with commas between them. -/
def patternList : Reader Unit := do
  let _ ← separatedBy "," (alternatives g)

/-- The name or the index of a field; the answer says whether it is a name. -/
def member : Reader Bool := do
  if ← peek .identifier then
    let _ ← identifier
    return true
  else
    match (← get).rest with
    | .literal text :: _ =>
      if !Literal.isNumber text || Literal.isFraction text then
        expected "identifier or integer"
      else if Literal.integerRest text.toList = some [] then
        literal
        return false
      else failAt (← mark) .indexWithSuffix
    | _ => expected "identifier or integer"

def fieldPattern : Reader Unit := do
  let boxed ← acceptWord "box"
  let byReference ← acceptWord "ref"
  let mutable ← acceptWord "mut"
  if boxed || byReference || mutable then
    let _ ← identifier
  else
    let named ← member
    if !named || (← peekOperator ":") then
      operator ":"
      let _ ← alternatives g

/-- The fields of a struct pattern, which dots may end. -/
def fieldPatterns : Reader Unit :=
  repeatWhile do
    if ← isEnded then return false
    let _ ← outerAttributes g
    if ← acceptOperator ".." then return false
    fieldPattern g
    if ← isEnded then return false
    operator ","
    return true

def pathPattern : Reader PatternForm := do
  let p ← qualifiedPath g true
  if (← peekOperator "!") && !(← peekOperator "!=") && p.any Path.isPlain then
    operator "!"
    let _ ← rawGroup
    return .other
  else if ← peek (.group .curly) then
    group .curly (fieldPatterns g)
    return .other
  else if ← peek (.group .round) then
    group .round (patternList g)
    return .other
  else if ← peekOperator ".." then rangeTail g true true
  else return .other

/-- A name that is bound, and the pattern behind its `@`. -/
def binding : Reader Unit := do
  let _ ← acceptWord "ref"
  let _ ← acceptWord "mut"
  if ← peekWord "self" then word "self"
  else
    let _ ← identifier
  if ← acceptOperator "@" then
    let _ ← g.pattern

/-- The elements of a slice pattern, none of which may be a range without one of its bounds. -/
def sliceElement : Reader Unit := do
  match ← alternatives g with
  | .openRange dots => failAt dots .openRangeInSlice
  | .other => pure ()

/-- Whether a pattern that begins with a path comes next. -/
def startsPathPattern : Reader Bool := do
  if ← peekAny [.operator "::", .operator "<", .word "Self", .word "super", .word "crate"] then
    return true
  if (← peekWord "self") && (← peekSecond (.operator "::")) then return true
  return (← peek .identifier) &&
    ((← peekSecond (.operator "::")) || (← peekSecond (.operator "!")) ||
      (← peekSecond (.group .curly)) || (← peekSecond (.group .round)) ||
      (← peekSecond (.operator "..")))

/-- A pattern without alternatives. -/
def pattern : Reader PatternForm := do
  if ← startsPathPattern then pathPattern g
  else if ← acceptWord "_" then return .other
  else if ← acceptWord "box" then
    let _ ← g.pattern
    return .other
  else if ← peekAny [.operator "-", .literal, .word "const"] then
    if ← rangeBound g then
      if ← peekOperator ".." then rangeTail g true true else return .other
    else unexpected rangeBoundStarts
  else if ← peekAny [.word "ref", .word "mut", .word "self", .identifier] then
    binding g
    return .other
  else if ← acceptOperator "&" then
    let _ ← acceptWord "mut"
    let _ ← g.pattern
    return .other
  else if ← peek (.group .round) then
    group .round (patternList g)
    return .other
  else if ← peek (.group .square) then
    let _ ← group .square (separatedBy "," (sliceElement g))
    return .other
  else if (← peekOperator "..") && !(← peekOperator "...") then rangeTail g false false
  else unexpected patternStarts

end UnionView.Read
