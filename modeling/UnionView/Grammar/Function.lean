import UnionView.Grammar.Statement

/-!
# Visibility and function signatures

What functions have in common wherever they are declared: at the top of a file, in a trait, in an
implementation or in a block of foreign declarations.
-/

namespace UnionView.Read

open Reader

variable (g : Grammar)

/-- The visibility in front of a declaration, as it is printed. Round brackets behind `pub`
belong to it only if they hold nothing but a place. -/
def visibility : Reader Code := do
  let (_, code) ← capture do
    if ← acceptWord "pub" then
      match (← get).rest with
      | .opening .round :: .ident "in" :: _ =>
        group .round do
          word "in"
          let _ ← Path.plain
      | .opening .round :: .ident place :: .closing .round :: _ =>
        if ["crate", "self", "super"].contains place then
          group .round do
            let _ ← anyIdentifier
      | _ => pure ()
  write code
  return code

/-- A receiver; the answer is the place of its `self`. -/
def receiver : Reader Mark := do
  let reference ← acceptOperator "&"
  if reference then
    let _ ← accept .lifetime
  let _ ← acceptWord "mut"
  let place ← mark
  word "self"
  if !reference then
    if ← acceptOperator ":" then
      let _ ← g.type true
  return place

inductive FunctionArgument
  | receiver (mark : Mark)
  | typed
  | variadic

def functionArgument : Reader FunctionArgument := do
  match ← attempt (receiver g) with
  | some place => return .receiver place
  | none =>
    if (← peek .identifier) && (← peekSecond (.operator "<")) then
      let _ ← g.type true
      return .typed
    let _ ← g.pattern
    operator ":"
    if ← acceptOperator "..." then return .variadic
    let _ ← g.type true
    return .typed

/-- The arguments of a function. The receiver may only be the first, dots only the last. -/
def functionArguments : Nat → (received first : Bool) → Reader Unit
  | 0, _, _ => pure ()
  | fuel + 1, received, first => do
    if ← isEnded then return
    let _ ← outerAttributes g
    if ← acceptOperator "..." then
      if !(← isEnded) then operator ","
    else
      match ← functionArgument g with
      | .variadic => if !(← isEnded) then operator ","
      | .receiver place =>
        if received then failAt place .secondReceiver
        if !first then failAt place .lateReceiver
        if !(← isEnded) then
          operator ","
          functionArguments fuel true false
      | .typed =>
        if !(← isEnded) then
          operator ","
          functionArguments fuel received false

/-- The signature of a function; the answer is the place of its keyword and its name. -/
def signature (allowSafe : Bool) : Reader (Mark × String) := do
  let _ ← acceptWord "const"
  let _ ← acceptWord "async"
  if !(← acceptWord "unsafe") && allowSafe then
    let _ ← acceptWord "safe"
  convention
  let keyword ← mark
  word "fn"
  let name ← identifier
  let _ ← parameters g
  group .round do functionArguments g ((← get).rest.length + 1) false true
  returnType g true
  let _ ← predicates g
  return (keyword, name)

/-- Whether the signature of a function begins here. -/
def startsSignature (allowSafe : Bool) : Reader Bool :=
  ahead do
    let _ ← acceptWord "const"
    let _ ← acceptWord "async"
    let safe ← if allowSafe then acceptWord "safe" else pure false
    if !safe then
      let _ ← acceptWord "unsafe"
    convention
    peekWord "fn"

/-- Where an alias of a type may have its predicates. -/
inductive PredicatePlace
  | beforeDefinition
  | afterDefinition
  | either
deriving DecidableEq

/-- What was read of an alias of a type. -/
structure TypeAlias where
  mark : Mark
  name : String
  /-- Whether a colon follows the name. -/
  bounded : Bool
  defined : Bool

/-- Bounds with `+` between them up to one of `ends`. -/
def boundsUpTo (ends : List Terminal) : Reader Unit :=
  repeatWhile do
    if ← peekAny ends then return false
    let _ ← g.bound false true
    if ← peekAny ends then return false
    operator "+"
    return true

def typeAlias (place : PredicatePlace) : Reader TypeAlias := do
  let keyword ← mark
  word "type"
  let name ← identifier
  let _ ← parameters g
  let bounded ← acceptOperator ":"
  if bounded then boundsUpTo g [.word "where", .operator "=", .operator ";"]
  let early ← if place != .afterDefinition then predicates g else pure none
  let defined ← acceptOperator "="
  if defined then
    let _ ← g.type true
  if place != .beforeDefinition && early.isNone then
    let _ ← predicates g
  operator ";"
  return { mark := keyword, name, bounded, defined }

/-- A constant behind its keyword, which may have no value where it is declared. The answer says
whether it has a value and nothing that a plain constant may not have. -/
def constantRest : Reader (String × Bool) := do
  let name ←
    if ← peekAny [.identifier, .word "_"] then anyIdentifier
    else unexpected [.identifier, .word "_"]
  let generics ← parameters g
  operator ":"
  let _ ← g.type true
  let valued ← acceptOperator "="
  if valued then
    let _ ← g.expression true
  let predicates ← predicates g
  operator ";"
  return (name, valued && !generics.bracketed && predicates.isNone)

/-- What an invocation that is an item may begin with. -/
def invocationStarts : List Terminal :=
  [.identifier, .word "self", .word "super", .word "crate", .operator "::"]

def invocationItem : Reader Unit := do
  let _ ← Path.plain
  operator "!"
  if ← peekWord "try" then word "try"
  else if ← peek .identifier then
    let _ ← identifier
  let arguments ← rawGroup
  if arguments.delimiter != .curly then operator ";"

end UnionView.Read
