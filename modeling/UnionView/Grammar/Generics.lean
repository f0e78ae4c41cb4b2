import UnionView.Grammar.Path

/-!
# Bounds, generic parameters and predicates

A colon without bounds behind it is read but not printed, and neither is a `where` without
predicates. A question mark is printed in front of the lifetimes that a bound introduces.
-/

namespace UnionView.Read

open Reader

variable (g : Grammar)

/-! ### Parameters -/

/-- The default of a parameter behind its equals sign. -/
def parameterDefault (value : Reader Unit) : Reader (Option Code) := do
  if ← acceptOperator "=" then
    let (_, code) ← capture value
    write code
    return some code
  else return none

def parameterBounds (bounds : Reader Unit) : Reader (Option Code) := do
  let (colon, _) ← capture (acceptOperator ":")
  if colon then
    let (_, code) ← capture bounds
    if !code.isEmpty then write (operatorCode [':'] ++ code)
    return some code
  else return none

def lifetimeName : Code → String
  | .punct _ _ :: .ident name :: _ => name
  | _ => ""

/-- Lifetimes with `+` between them, until something else follows or `stop` holds. -/
def lifetimeBounds (stop : Reader Bool) : Reader Unit :=
  repeatWhile do
    if ← stop then return false
    lifetime
    acceptOperator "+"

def lifetimeParameter (attributes : Code) : Reader Parameter := do
  let name := lifetimeName (← get).rest
  lifetime
  let bounds ← parameterBounds <| lifetimeBounds do
    return (← isEnded) || (← peekAny [.operator ",", .operator ">"])
  return { attributes, kind := .lifetime, name, bounds }

def typeParameter (attributes : Code) : Reader Parameter := do
  let name ← identifier
  let bounds ← parameterBounds <| boundsUntil g do
    return (← isEnded) || (← peekAny [.operator ",", .operator ">", .operator "="])
  let default ← parameterDefault do
    let _ ← g.type true
  return { attributes, kind := .type, name, bounds, default }

def constantParameter (attributes : Code) : Reader Parameter := do
  word "const"
  let name ← identifier
  operator ":"
  let (_, type) ← capture (g.type true)
  write type
  let default ← parameterDefault (constantArgument g)
  return { attributes, kind := .constant, name, bounds := some type, default }

def binderParameter : Reader Bool := do
  let (_, attributes) ← capture (outerAttributes g)
  write attributes
  if ← peek .identifier then
    let _ ← typeParameter g attributes
    return false
  else if ← peek .lifetime then
    let _ ← lifetimeParameter attributes
    return true
  else if ← peekWord "const" then
    let _ ← constantParameter g attributes
    return false
  else unexpected [.identifier, .lifetime, .word "const"]

/-- The lifetimes that a bound or a function type introduces. -/
def binder : Reader Unit := do
  word "for"
  operator "<"
  repeatWhile do
    if ← peekOperator ">" then return false
    let _ ← binderParameter g
    if ← peekOperator ">" then return false
    operator ","
    return true
  operator ">"

/-- The lifetimes that something introduces, if it does; the answer says so. -/
def binder? : Reader Bool := do
  if ← peekWord "for" then
    binder g
    return true
  else return false

/-! ### Bounds -/

/-- A trait as a bound; the answer says whether it has a modifier and is kept as it is written. -/
def traitBound (allowModifier : Bool) : Reader Bool := do
  let (bound, lifetimes) ← capture (binder? g)
  let start ← mark
  let modified ←
    if ← peek (.group .square) then do
      group .square (word "const")
      if !allowModifier then failAt start (.boundNotAllowed "[const]")
      pure true
    else if ← acceptWord "const" then do
      if !allowModifier then failAt start (.boundNotAllowed "const")
      pure true
    else pure false
  let lifetimes ←
    if (← acceptOperator "?") && !bound then do
      let (_, lifetimes) ← capture (binder? g)
      pure lifetimes
    else pure lifetimes
  write lifetimes
  let p ← path g false
  if p.last.arguments.isEmpty then
    if (← peek (.group .round)) ||
        ((← peekOperator "::") && (← peekThird (.group .round))) then
      let _ ← capture (acceptOperator "::")
      callArguments g
  return modified

def capturing : Reader Unit := do
  word "use"
  operator "<"
  let entries ← collect do
    let entry : Option (Bool × Code) ←
      if ← peek .lifetime then do
        let (_, code) ← capture lifetime
        pure (some (true, code))
      else if ← peekAny [.identifier, .word "Self"] then do
        let (_, code) ← capture anyIdentifier
        pure (some (false, code))
      else if ← peekOperator ">" then pure none
      else unexpected [.lifetime, .identifier, .operator ">"]
    match entry with
    | none => return none
    | some (isLifetime, code) =>
      if ← peekOperator "," then
        let _ ← capture (operator ",")
        return some (isLifetime, code, true)
      else if ← peekOperator ">" then return some (isLifetime, code, false)
      else unexpected [.operator ",", .operator ">"]
  write (lifetimesFirst entries)
  operator ">"

/-- A bound: a lifetime, a `use<..>` list or a trait, which may stand in round brackets. -/
def bound (allowCapturing allowModifier : Bool) : Reader BoundForm := do
  if ← peek .lifetime then
    lifetime
    return .lifetime
  if ← peekWord "use" then
    let start ← mark
    capturing
    if allowCapturing then return .capturing else failAt start .captureNotAllowed
  let modified ← verbatimIf id do
    if ← peek (.group .round) then group .round (traitBound g allowModifier)
    else traitBound g allowModifier
  return if modified then .modified else .trait

/-- Bounds with `+` between them where a type is expected. A `+` may end them. -/
def boundSum (allowSum allowCapturing allowModifier : Bool) : Reader (List BoundForm) := do
  let first ← g.bound allowCapturing allowModifier
  if !allowSum then return [first]
  let rest ← collect do
    if !(← acceptOperator "+") then return none
    if (← peekAnyWord) || (← peekAny [.operator "::", .operator "?", .lifetime, .group .round,
        .group .square]) then
      return some (← g.bound allowCapturing allowModifier)
    else return none
  return first :: rest

/-! ### Parameter lists -/

def parameter : Reader Parameter := do
  let (_, attributes) ← capture (outerAttributes g)
  write attributes
  if ← peek .lifetime then lifetimeParameter attributes
  else if ← peek .identifier then typeParameter g attributes
  else if ← peekWord "const" then constantParameter g attributes
  else if ← peekWord "_" then return { attributes, kind := .type, name := ← anyIdentifier }
  else unexpected [.lifetime, .identifier, .word "const"]

def parameters : Reader Generics := do
  if !(← acceptOperator "<") then return {}
  let parameters ← collect do
    if ← peekOperator ">" then return none
    let p ← parameter g
    if ← peekOperator ">" then return some p
    operator ","
    return some { p with comma := true }
  operator ">"
  return { bracketed := true, parameters }

/-! ### Predicates -/

/-- What may follow the bounds of a predicate. -/
def predicateStop : Reader Bool := do
  return (← isEnded) ||
    (← peekAny [.group .curly, .operator ",", .operator ";", .operator "="]) ||
    ((← peekOperator ":") && !(← peekOperator "::"))

def predicate : Reader Unit := do
  if (← peek .lifetime) && (← peekSecond (.operator ":")) then
    lifetime
    operator ":"
    lifetimeBounds do
      return (← isEnded) ||
        (← peekAny [.group .curly, .operator ",", .operator ";", .operator ":", .operator "="])
  else
    let _ ← binder? g
    let _ ← g.type true
    operator ":"
    boundsUntil g predicateStop

def predicates : Reader (Option Code) := do
  if !(← peekWord "where") then return none
  let (_, keyword) ← capture (word "where")
  if ← startsParameters then fail .parametersOnWhere
  let (_, code) ← capture <| repeatWhile do
    if ← predicateStop then return false
    predicate g
    acceptOperator ","
  if !code.isEmpty then write (keyword ++ code)
  return some code

end UnionView.Read
