import UnionView.Grammar.Basic

/-!
# Attributes

An attribute is `#[..]` in front of what it belongs to, or `#![..]` at the beginning of it. Inside
stands a path, alone, with a delimited list of tokens or with `=` and an expression.
-/

namespace UnionView.Read

open Reader

variable (g : Grammar)

/-- The path of an attribute: a plain path, or one keyword that may also stand there. -/
def metaPath : Reader Path := do
  if ← acceptWord "unsafe" then return Path.ofName "unsafe" else Path.plain

/-- The value behind the equals sign of an attribute: a lone literal or an expression. -/
def metaValue : Reader Form := do
  let lone ← ahead do
    if ← accept .literal then isEnded else return false
  if lone then
    literal
    return .other
  else if (← peekOperator "#") && (← peekSecond (.group .square)) then fail .attributeInAttribute
  else g.expression true

/-- The equals sign and the value of an attribute. -/
def metaAssignment : Reader MetaForm := do
  let equals ← mark
  operator "="
  let value ← mark
  return .value equals value (← metaValue g)

/-- The place of a path and of its first name, and the path. -/
def markedPath : Reader (Mark × Mark × Path) := do
  let start ← mark
  let nameMark ← ahead do
    let _ ← acceptOperator "::"
    mark
  return (start, nameMark, ← metaPath)

def meta? : Reader Meta := do
  let (start, nameMark, path) ← markedPath
  let form ←
    if ← peekAny [.group .round, .group .square, .group .curly] then
      pure (.list (← rawGroup))
    else if (← peekOperator "=") && !(← peekAny [.operator "==", .operator "=>"]) then
      metaAssignment g
    else pure .bare
  return { mark := start, nameMark, path, form }

/-- A path with a value, the only form that some lists allow. -/
def assignment : Reader Meta := do
  let (start, nameMark, path) ← markedPath
  return { mark := start, nameMark, path, form := ← metaAssignment g }

/-- An attribute in front of what it belongs to. -/
def outerAttribute : Reader Attribute := do
  let start ← mark
  operator "#"
  return { mark := start, content := ← group .square (meta? g) }

/-- An attribute at the beginning of what it belongs to. -/
def innerAttribute : Reader Attribute := do
  let start ← mark
  operator "#"
  operator "!"
  return { mark := start, content := ← group .square (meta? g) }

/-- All attributes in front of something. -/
def outerAttributes : Reader (List Attribute) :=
  collect do
    if ← peekOperator "#" then return some (← outerAttribute g) else return none

/-- All attributes at the beginning of something. -/
def innerAttributes : Reader (List Attribute) :=
  collect do
    if (← peekOperator "#") && (← peekSecond (.operator "!")) then
      return some (← innerAttribute g)
    else return none

/-- A block, with attributes at its beginning, which are the answer. -/
def block : Reader (List Attribute) :=
  group .curly do
    let attributes ← innerAttributes g
    g.statements
    return attributes

/-- A block without attributes at its beginning. -/
def plainBlock : Reader Unit :=
  group .curly g.statements

end UnionView.Read
