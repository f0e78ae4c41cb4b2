import UnionView.Grammar.Function

/-!
# Items

`Read.item` reads an item behind its outer attributes. Enumerations and modules are kept with
their content. Forms of items that are not understood are read and kept as `unclassified`, with
the place where they begin.
-/

namespace UnionView.Read

open Reader

variable (g : Grammar)

/-! ### Fields and variants -/

/-- A named field, or one that is written `_`, whose type may then be a list of fields. -/
def namedFieldType : Nat → Reader Ty
  | 0 => g.type true
  | fuel + 1 => do
    let _ ← anyIdentifier
    let _ ← verbatimIf (fun _ => true) <| group .curly <| separatedBy "," do
      let _ ← outerAttributes g
      let _ ← visibility
      let anonymous ← peekWord "_"
      let _ ← if anonymous then anyIdentifier else identifier
      operator ":"
      if anonymous && ((← peekWord "struct") ||
          ((← peekWord "union") && (← peekSecond (.group .curly)))) then
        namedFieldType fuel
      else g.type true
    return .other

def namedField : Reader NamedField := do
  let attributes ← outerAttributes g
  let visibility ← visibility
  let anonymous ← peekWord "_"
  let name ← if anonymous then anyIdentifier else identifier
  operator ":"
  let type ←
    if anonymous && ((← peekWord "struct") ||
        ((← peekWord "union") && (← peekSecond (.group .curly)))) then
      namedFieldType g ((← get).rest.length + 1)
    else g.type true
  return { attributes, visibility, name, type }

/-- A field without a name. -/
def tupleField : Reader Field := do
  let attributes ← outerAttributes g
  let visibility ← visibility
  return { attributes, visibility, type := ← g.type true }

def namedFields : Reader (List NamedField) :=
  group .curly (separatedBy "," (namedField g))

def tupleFields : Reader (List Field) :=
  group .round (separatedBy "," (tupleField g))

def variant : Reader Variant := do
  let attributes ← outerAttributes g
  let visibility ← visibility
  let name ← identifier
  let fields : Fields ←
    if ← peek (.group .curly) then do pure (.named (← namedFields g))
    else if ← peek (.group .round) then do pure (.tuple (← tupleFields g))
    else pure .unit
  let discriminant ←
    if ← acceptOperator "=" then do
      let (_, code) ← capture (g.expression true)
      write code
      pure (some code)
    else pure none
  return { attributes, visibility, name, fields, discriminant }

def enumeration (attributes : List Attribute) (visibility : Code) : Reader Item := do
  let keyword ← mark
  word "enum"
  let nameMark ← mark
  let name ← identifier
  let generics ← parameters g
  let predicates ← predicates g
  let variants ← group .curly (separatedBy "," (variant g))
  return .enumeration
    { attributes, visibility, keyword, name, nameMark
      generics := { generics with predicates }
      variants }

/-! ### Structs and unions -/

def structBody : Reader Unit := do
  let restricted ← predicates g
  if restricted.isNone && (← peek (.group .round)) then
    let _ ← tupleFields g
    let after ← predicates g
    if ← acceptOperator ";" then return
    if after.isNone then unexpected [.word "where", .operator ";"]
    else unexpected [.operator ";"]
  else if ← peek (.group .curly) then
    let _ ← namedFields g
  else if ← acceptOperator ";" then return
  else if restricted.isNone then
    unexpected [.word "where", .group .round, .group .curly, .operator ";"]
  else unexpected [.group .curly, .operator ";"]

def struct (attributes : List Attribute) : Reader Item := do
  let keyword ← mark
  word "struct"
  let name ← identifier
  let _ ← parameters g
  structBody g
  return .named .struct attributes keyword name

def union (attributes : List Attribute) : Reader Item := do
  let keyword ← mark
  word "union"
  let name ← identifier
  let _ ← parameters g
  let _ ← predicates g
  let _ ← namedFields g
  return .named .union attributes keyword name

/-! ### Small items -/

/-- A tree of a `use` declaration. A `::` in braces is read but makes the tree one that is not
understood. -/
def useTree (allowRoot : Bool) : Reader Bool := do
  let names : List Terminal :=
    [.identifier, .word "self", .word "super", .word "crate", .word "try"]
  if ← peekAny names then
    let _ ← anyIdentifier
    if ← acceptOperator "::" then g.useTree false
    else if ← acceptWord "as" then
      if ← peek .identifier then
        let _ ← identifier
        return true
      else if ← acceptWord "_" then return true
      else expected "identifier or underscore"
    else return true
  else if ← acceptOperator "*" then return true
  else if ← peek (.group .curly) then
    let trees ← group .curly <| separatedBy "," do
      let root ← if allowRoot then acceptOperator "::" else pure false
      let understood ← g.useTree (allowRoot && !root)
      return understood && !root
    return trees.all id
  else unexpected (names ++ [.operator "*", .group .curly])

def useDeclaration (start : Mark) (attributes : List Attribute) : Reader Item := do
  let keyword ← mark
  word "use"
  let root ← acceptOperator "::"
  let understood ← g.useTree (!root)
  operator ";"
  return if understood then .unnamed .useDeclaration attributes keyword else .unclassified start

def staticItem (start : Mark) (attributes : List Attribute) : Reader Item := do
  let keyword ← mark
  word "static"
  let _ ← acceptWord "mut"
  let name ← identifier
  if ← acceptOperator "=" then
    let _ ← g.expression true
    operator ";"
    return .unclassified start
  operator ":"
  let _ ← g.type true
  if ← acceptOperator ";" then return .unclassified start
  operator "="
  let _ ← g.expression true
  operator ";"
  return .named .static attributes keyword name

def constant (start : Mark) (attributes : List Attribute) : Reader Item := do
  let keyword ← mark
  word "const"
  let (name, understood) ← constantRest g
  return if understood then .named .constant attributes keyword name else .unclassified start

/-- An alias of a type from its keyword on. -/
def typeItem (start : Mark) (attributes : List Attribute) : Reader Item := do
  let declared ← typeAlias g .beforeDefinition
  if declared.defined && !declared.bounded then
    return .named .typeAlias attributes declared.mark declared.name
  else return .unclassified start

def externCrate (attributes : List Attribute) : Reader Item := do
  word "extern"
  let keyword ← mark
  word "crate"
  let name ← if ← peekWord "self" then anyIdentifier else identifier
  if ← acceptWord "as" then
    if ← peekWord "_" then word "_"
    else
      let _ ← identifier
  operator ";"
  return .named .externCrate attributes keyword name

/-- A function from its signature on. Without a body it is not understood. -/
def function (start : Mark) (attributes : List Attribute) : Reader Item := do
  let (keyword, name) ← signature g false
  if ← acceptOperator ";" then return .unclassified start
  let inner ← block g
  return .named .function (attributes ++ inner) keyword name

def module (attributes : List Attribute) : Reader Item := do
  let _ ← acceptWord "unsafe"
  let keyword ← mark
  word "mod"
  let name ← if ← peekWord "try" then anyIdentifier else identifier
  if ← acceptOperator ";" then return .module attributes keyword name none
  else if ← peek (.group .curly) then
    let (inner, contents) ← group .curly do
      let inner ← innerAttributes g
      let contents ← untilEnd do
        let start ← mark
        let attributes ← outerAttributes g
        g.item start attributes
      return (inner, contents)
    return .module (attributes ++ inner) keyword name (some contents)
  else unexpected [.operator ";", .group .curly]

/-- A definition by `macro`, which is not understood. -/
def definition (start : Mark) : Reader Item := do
  word "macro"
  let _ ← identifier
  let arguments ← peek (.group .round)
  if arguments then
    group .round do
      let _ ← rawContent
  if ← peek (.group .curly) then
    group .curly do
      let _ ← rawContent
    return .unclassified start
  else if arguments then unexpected [.group .curly]
  else unexpected [.group .round, .group .curly]

/-! ### Traits -/

def traitItem : Reader Unit := do
  let _ ← outerAttributes g
  let visible ← visibility
  let defaulted ← acceptWord "default"
  let plain := visible.isEmpty && !defaulted
  let method : Reader Unit := do
    let _ ← signature g false
    if ← peek (.group .curly) then
      let _ ← block g
    else if ← acceptOperator ";" then return
    else unexpected [.group .curly, .operator ";"]
  if ← startsSignature false then method
  else if ← peekWord "const" then
    let starts : List Terminal :=
      [.identifier, .word "_", .word "async", .word "unsafe", .word "extern", .word "fn"]
    let second ← ahead do
      word "const"
      if ← peekAny [.identifier, .word "_"] then return some true
      else if ← peekAny starts then return some false
      else return none
    match second with
    | some true =>
      word "const"
      let _ ← constantRest g
    | some false => method
    | none =>
      word "const"
      unexpected starts
  else if ← peekWord "type" then
    let _ ← typeAlias g .afterDefinition
  else if plain && (← peekAny invocationStarts) then invocationItem
  else
    unexpected ([.word "fn", .word "const", .word "type"] ++
      if plain then invocationStarts else [])

/-- A trait behind its name and parameters. -/
def traitRest (attributes : List Attribute) (keyword : Mark) (name : String) : Reader Item := do
  if ← acceptOperator ":" then boundsUpTo g [.word "where", .group .curly]
  let _ ← predicates g
  let inner ← group .curly do
    let inner ← innerAttributes g
    let _ ← untilEnd (traitItem g)
    return inner
  return .named .trait (attributes ++ inner) keyword name

def modifiedTrait (attributes : List Attribute) : Reader Item := do
  let _ ← acceptWord "unsafe"
  let _ ← acceptWord "auto"
  let keyword ← mark
  word "trait"
  let name ← identifier
  let _ ← parameters g
  traitRest g attributes keyword name

/-- A trait or an alias of a trait from its keyword on. -/
def trait (attributes : List Attribute) : Reader Item := do
  let keyword ← mark
  word "trait"
  let name ← identifier
  let _ ← parameters g
  if ← peekAny [.group .curly, .operator ":", .word "where"] then
    traitRest g attributes keyword name
  else if ← acceptOperator "=" then
    boundsUpTo g [.word "where", .operator ";"]
    let _ ← predicates g
    operator ";"
    return .named .traitAlias attributes keyword name
  else unexpected [.group .curly, .operator ":", .word "where", .operator "="]

/-! ### Implementations -/

/-- Something declared in an implementation. -/
def implItem : Reader Unit := do
  let _ ← outerAttributes g
  let visible ← visibility
  let defaulted ← if ← peekSecond (.operator "!") then pure false else acceptWord "default"
  let plain := visible.isEmpty && !defaulted
  if ← startsSignature false then
    let _ ← signature g false
    if !(← acceptOperator ";") then
      let _ ← block g
  else if ← acceptWord "const" then
    let _ ← constantRest g
  else if ← peekWord "type" then
    let _ ← typeAlias g .afterDefinition
  else if plain && (← peekAny invocationStarts) then invocationItem
  else
    unexpected ((if defaulted then [] else [.word "default"]) ++
      [.word "fn", .word "const", .word "type"] ++ if plain then invocationStarts else [])

def implementation (start : Mark) (attributes : List Attribute) (visible : Bool) :
    Reader Item := do
  let _ ← acceptWord "default"
  let _ ← acceptWord "unsafe"
  let keyword ← mark
  word "impl"
  if ← startsParameters then
    let _ ← parameters g
  let constant := (← peekWord "const") ||
    ((← peekOperator "?") && (← peekSecond (.word "const")))
  if constant then
    let _ ← acceptOperator "?"
    word "const"
  let negation ← mark
  let negative ←
    if (← peekOperator "!") && !(← peekSecond (.group .curly)) then acceptOperator "!"
    else pure false
  let first ← g.type true
  let forType ← acceptWord "for"
  if forType then
    let _ ← g.type true
  else if negative then failAt negation .negativeInherentImpl
  let isTrait :=
    match first with
    | .path _ => true
    | _ => false
  let _ ← predicates g
  let inner ← group .curly do
    let inner ← innerAttributes g
    let _ ← untilEnd (implItem g)
    return inner
  return if visible || constant || (forType && !isTrait) then .unclassified start
    else .unnamed .implBlock (attributes ++ inner) keyword

/-! ### Foreign declarations -/

/-- Something declared in a block of foreign declarations. -/
def foreignItem : Reader Unit := do
  let _ ← outerAttributes g
  let plain := (← visibility).isEmpty
  if ← startsSignature true then
    let _ ← signature g true
    if ← peek (.group .curly) then
      let _ ← block g
    else operator ";"
  else if (← peekWord "static") ||
      ((← peekAny [.word "unsafe", .word "safe"]) && (← peekSecond (.word "static"))) then
    if !(← acceptWord "unsafe") then
      let _ ← acceptWord "safe"
    word "static"
    let _ ← acceptWord "mut"
    let _ ← identifier
    operator ":"
    let _ ← g.type true
    if ← acceptOperator "=" then
      let _ ← g.expression true
    operator ";"
  else if ← peekWord "type" then
    let _ ← typeAlias g .either
  else if plain && (← peekAny invocationStarts) then invocationItem
  else
    unexpected ([.word "fn", .word "static", .word "type"] ++
      if plain then invocationStarts else [])

def externBlock (start : Mark) (attributes : List Attribute) : Reader Item := do
  let _ ← acceptWord "unsafe"
  if !(← peekWord "extern") then word "extern"
  convention
  let inner ← group .curly do
    let inner ← innerAttributes g
    let _ ← untilEnd (foreignItem g)
    return inner
  return .unnamed .externBlock (attributes ++ inner) start

/-! ### All items -/

/-- The keywords that an item may begin with, in the order in which they are tried. -/
def itemStarts : List Terminal :=
  ["fn", "extern", "use", "static", "const", "unsafe", "mod", "type", "struct", "enum", "union",
    "trait", "auto", "impl", "default", "macro"].map Terminal.word

/-- An item that begins with `extern`. A block of foreign declarations has no visibility. -/
def externItem (start : Mark) (attributes : List Attribute) (visible : Option Mark) :
    Reader Item := do
  let block : Reader Item := do
    match visible with
    | some place => failAt place (.expected [(Terminal.word "extern").description])
    | none => externBlock g start attributes
  let second ← ahead do
    word "extern"
    if ← peekWord "crate" then return some true
    if ← peek (.group .curly) then return some false
    if ← peek .string then
      take .string
      if ← peek (.group .curly) then return some false
    return none
  match second with
  | some true => externCrate attributes
  | some false => block
  | none =>
    word "extern"
    if ← accept .string then unexpected [.group .curly]
    else unexpected [.word "crate", .group .curly, .string]

/-- An item that begins with `unsafe` and is no function. -/
def unsafeItem (start : Mark) (attributes : List Attribute) (visible : Option Mark) :
    Reader Item := do
  if (← peekSecond (.word "trait")) ||
      ((← peekSecond (.word "auto")) && (← peekThird (.word "trait"))) then
    modifiedTrait g attributes
  else if ← peekSecond (.word "impl") then implementation g start attributes visible.isSome
  else if ← peekSecond (.word "extern") then
    match visible with
    | some place => failAt place (.expected [(Terminal.word "extern").description])
    | none => externBlock g start attributes
  else if ← peekSecond (.word "mod") then module g attributes
  else
    word "unsafe"
    unexpected [.word "trait", .word "auto", .word "impl", .word "extern", .word "mod"]

/-- An item behind its outer attributes. `start` is where the attributes begin. -/
def item (start : Mark) (attributes : List Attribute) : Reader Item := do
  let place ← mark
  let written ← visibility
  let visible := if written.isEmpty then none else some place
  if ← startsSignature false then function g start attributes
  else if ← peekWord "extern" then externItem g start attributes visible
  else if ← peekWord "use" then useDeclaration g start attributes
  else if ← peekWord "static" then staticItem g start attributes
  else if ← peekWord "const" then constant g start attributes
  else if ← peekWord "unsafe" then unsafeItem g start attributes visible
  else if ← peekWord "mod" then module g attributes
  else if ← peekWord "type" then typeItem g start attributes
  else if ← peekWord "struct" then struct g attributes
  else if ← peekWord "enum" then enumeration g attributes written
  else if (← peekWord "union") && (← peekSecond .identifier) then union g attributes
  else if ← peekWord "trait" then trait g attributes
  else if (← peekWord "auto") && (← peekSecond (.word "trait")) then modifiedTrait g attributes
  else if (← peekWord "impl") ||
      ((← peekWord "default") && !(← peekSecond (.operator "!"))) then
    implementation g start attributes visible.isSome
  else if ← peekWord "macro" then definition start
  else if visible.isNone && (← peekAny invocationStarts) then
    invocationItem
    return .unnamed .invocation attributes start
  else unexpected (itemStarts ++ if visible.isNone then invocationStarts else [])

end UnionView.Read
