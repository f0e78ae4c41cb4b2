import UnionView.Grammar.Generics

/-!
# Types

`Read.type` reads any type. The answer says whether the type is a path, possibly in brackets,
because only such a type has a name.
-/

namespace UnionView.Read

open Reader

variable (g : Grammar)

/-- What a type may begin with. -/
def typeStarts : List Terminal :=
  [.word "for", .group .round, .word "fn", .word "unsafe", .word "extern", .identifier,
    .operator "::", .operator "<", .word "dyn", .group .square, .operator "*", .operator "&",
    .operator "!", .word "impl", .word "_", .lifetime]

/-- What may follow the lifetimes that a type introduces. -/
def boundTypeStarts : List Terminal :=
  [.identifier, .word "fn", .word "unsafe", .word "extern", .word "super", .word "self",
    .word "Self", .word "crate"]

/-! ### Function types -/

/-- The calling convention of a function, if one is written. -/
def convention : Reader Unit := do
  if ← acceptWord "extern" then
    let _ ← accept .string

/-- Dots in place of further arguments, possibly named. -/
def variadicArgument : Reader Unit := do
  if ← peekAny [.identifier, .word "_"] then
    let _ ← anyIdentifier
    operator ":"
  operator "..."
  let _ ← acceptOperator ","

/-- Whether dots in place of further arguments come next. -/
def startsVariadic : Reader Bool := do
  return (← peekOperator "...") ||
    ((← peekAny [.identifier, .word "_"]) && (← peekSecond (.operator ":")) &&
      (← peekThird (.operator "...")))

/-- An argument of a function type, which may have a name. The receiver may be the first; with
`mut` it is kept as it is written. -/
def typeArgument (allowReceiver : Bool) : Reader Unit := do
  let _ ← verbatimIf id do
    let mutable := allowReceiver && (← peekWord "mut") && (← peekSecond (.word "self"))
    if mutable then word "mut"
    let receiver := allowReceiver && (← peekWord "self")
    let named := ((← peekAny [.identifier, .word "_"]) || receiver) &&
      (← peekSecond (.operator ":")) && !(← peekSecond (.operator "::"))
    if named then
      let _ ← anyIdentifier
      operator ":"
    if allowReceiver && !(named && receiver) && (← peekWord "mut") &&
        (← peekSecond (.word "self")) then
      word "mut"
      word "self"
      return true
    else if mutable && !named then
      word "self"
      return true
    else
      let _ ← g.type true
      return mutable

def typeArguments : Nat → (first : Bool) → Reader Unit
  | 0, _ => pure ()
  | fuel + 1, first => do
    if ← isEnded then return
    let _ ← outerAttributes g
    if ← startsVariadic then variadicArgument
    else
      typeArgument g first
      if ← isEnded then return
      operator ","
      typeArguments fuel false

def functionType : Reader Unit := do
  let _ ← acceptWord "unsafe"
  convention
  word "fn"
  group .round do typeArguments g ((← get).rest.length + 1) true
  returnType g false

/-! ### Bounds as types -/

/-- Bounds behind the first one of a type that is a sum of them. -/
def furtherBounds : Reader Unit :=
  repeatWhile do
    if !(← acceptOperator "+") then return false
    let _ ← g.bound false false
    return true

/-- Bounds of which one at least is a trait. A fault points at `start`. -/
def objectBounds (start : Mark) (allowSum : Bool) : Reader (List BoundForm) := do
  let bounds ← boundSum g allowSum false false
  if bounds.any (· == .trait) then return bounds
  else failAt start .noTraitInObject

/-- A sum of bounds that begins with a lifetime. It is never a single bound, because one of its
bounds is a trait. -/
def lifetimeObject : Reader Ty := do
  let start ← mark
  let _ ← objectBounds g start true
  return .object false

/-- A type that is known only by its bounds. -/
def implType (allowSum : Bool) : Reader Unit := do
  let start ← mark
  word "impl"
  let bounds ← boundSum g allowSum true true
  if !bounds.any (fun b => b == .trait || b == .modified) then failAt start .noTraitInImpl

/-! ### Brackets -/

/-- What was found inside round brackets. -/
inductive RoundContent
  | tuple
  | object (type : Ty)
  /-- A trait bound with a question mark. -/
  | maybeBound
  | type (type : Ty)

def roundContent : Reader RoundContent := do
  if ← isEnded then return .tuple
  if ← peek .lifetime then return .object (← lifetimeObject g)
  if ← peekOperator "?" then
    let _ ← traitBound g false
    return .maybeBound
  let first ← g.type true
  if ← acceptOperator "," then
    let _ ← separatedBy "," (g.type true)
    return .tuple
  return .type first

/-- A type that begins with round brackets. -/
def roundType (allowSum : Bool) : Reader Ty := do
  match ← group .round (roundContent g) with
  | .tuple => return .other
  | .object inner => return .paren inner
  | .maybeBound =>
    let more ← peekOperator "+"
    furtherBounds g
    return .object (!more)
  | .type first =>
    let isBound :=
      match first with
      | .path _ => true
      | .object single => single
      | _ => false
    if allowSum && isBound && (← peekOperator "+") then
      furtherBounds g
      return .object false
    else return .paren first

/-- A slice, or an array with its length. -/
def squareType : Reader Unit :=
  group .square do
    let _ ← g.type true
    if ← acceptOperator ";" then
      let _ ← g.expression true

/-! ### Paths -/

/-- Bounds behind the path that a type begins with. A `+` may end them. -/
def boundsAfterPath : Reader Bool := do
  let bounds ← collect do
    if !(← acceptOperator "+") then return none
    if (← peekAnyWord) || (← peekAny [.operator "::", .operator "?", .lifetime, .group .round]) then
      let _ ← g.bound false false
      return some ()
    else return none
  return !bounds.isEmpty

/-- A type that begins with a path: the path, an invocation or a sum of bounds. -/
def pathType (allowSum bound : Bool) : Reader Ty := do
  match ← qualifiedPath g false with
  | none => return .other
  | some p =>
    if (← peekOperator "!") && !(← peekOperator "!=") && p.isPlain then
      operator "!"
      let _ ← rawGroup
      return .other
    let sum := allowSum && (← peekOperator "+")
    if sum then
      let _ ← boundsAfterPath g
      return .object false
    else if bound then return .object true
    else return .path p

/-! ### All types -/

/-- A type behind the lifetimes it introduces, if it does (`bound`). -/
def typeAfterBinder (allowSum bound : Bool) : Reader Ty := do
  if ← peek (.group .round) then roundType g allowSum
  else if ← peekAny [.word "fn", .word "unsafe", .word "extern"] then
    functionType g
    return .other
  else if ← peekAny [.identifier, .word "super", .word "self", .word "Self", .word "crate",
      .operator "::", .operator "<"] then
    pathType g allowSum bound
  else if ← peekWord "dyn" then
    let start ← mark
    let _ ← verbatimIf id do
      word "dyn"
      let starred ← acceptOperator "*"
      let _ ← objectBounds g start allowSum
      return starred
    return .other
  else if ← peek (.group .square) then
    squareType g
    return .other
  else if ← acceptOperator "*" then
    if ← peekAny [.word "const", .word "mut"] then
      let _ ← anyIdentifier
      let _ ← g.type false
      return .other
    else unexpected [.word "const", .word "mut"]
  else if ← acceptOperator "&" then
    let _ ← accept .lifetime
    let _ ← acceptWord "mut"
    let _ ← g.type false
    return .other
  else if ← acceptOperator "!" then return .other
  else if ← peekWord "impl" then
    implType g allowSum
    return .other
  else if ← acceptWord "_" then return .other
  else if ← peek .lifetime then lifetimeObject g
  else unexpected typeStarts

def type (allowSum : Bool) : Reader Ty := do
  if ← binder? g then
    if ← peekAny boundTypeStarts then typeAfterBinder g allowSum true
    else unexpected boundTypeStarts
  else typeAfterBinder g allowSum false

end UnionView.Read
