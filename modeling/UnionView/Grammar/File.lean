import UnionView.Grammar.Item
import UnionView.Token.Lexer

/-!
# The grammar

`grammar fuel` ties the readers of all forms together, nested at most `fuel` deep. A form can be
nested no deeper than there are tokens, a few readers per token, so the entry points at the end
of this file choose the fuel and never show it.
-/

namespace UnionView

/-- The grammar for forms that are nested at most `fuel` deep. -/
def grammar : Nat → Grammar
  | 0 =>
    { type := fun _ => Reader.unexpected []
      bound := fun _ _ => Reader.unexpected []
      expression := fun _ => Reader.unexpected []
      operand := fun _ => Reader.unexpected []
      operation := fun _ _ _ => Reader.unexpected []
      leading := Reader.unexpected []
      pattern := Reader.unexpected []
      statements := Reader.unexpected []
      item := fun _ _ => Reader.unexpected []
      useTree := fun _ => Reader.unexpected [] }
  | fuel + 1 =>
    { type := fun allowSum c => Read.type (grammar fuel) allowSum c
      bound := fun allowCapturing allowModifier c =>
        Read.bound (grammar fuel) allowCapturing allowModifier c
      expression := fun allowStruct c => Read.expression (grammar fuel) allowStruct c
      operand := fun allowStruct c => Read.operand (grammar fuel) allowStruct c
      operation := fun left allowStruct base c =>
        Read.operation (grammar fuel) left allowStruct base c
      leading := fun c => Read.leading (grammar fuel) c
      pattern := fun c => Read.pattern (grammar fuel) c
      statements := fun c => Read.statements (grammar fuel) c
      item := fun start attributes c => Read.item (grammar fuel) start attributes c
      useTree := fun allowRoot c => Read.useTree (grammar fuel) allowRoot c }

/-- The grammar for everything that `code` may contain. -/
def Code.grammar (code : Code) : Grammar :=
  UnionView.grammar (8 * code.length + 64)

/-- What is around the items of a file: attributes at its beginning, and its items. -/
structure File where
  attributes : List Attribute
  items : List Item
deriving Repr

/-! ### Declarations of a file -/

namespace Read

open Reader

/-- The content of an attribute of a declaration. It is read apart, so that nothing behind the
attribute has a say in it. -/
def declaredContent : Reader Meta := do
  if ← peek (.group .square) then
    let group ← rawGroup
    inside group Meta.shift (meta? group.inner.grammar)
  else expected (Terminal.group .square).description

def declaredAttribute : Reader Attribute := do
  let start ← mark
  operator "#"
  return { mark := start, content := ← declaredContent }

def declaredAttribute? : Reader (Option Attribute) := do
  if ← peekOperator "#" then return some (← declaredAttribute) else return none

/-- A declaration with its attributes. What is behind the attributes is read apart from them. -/
def declaration : Reader Item := do
  let start ← mark
  let attributes ← collect declaredAttribute?
  afresh fun c => c.rest.grammar.item start attributes c

end Read

/-! ### Whole codes -/

namespace Code

def item? (code : Code) : Except Fault Item :=
  Reader.run Read.declaration code

def file? (code : Code) : Except Fault File :=
  Reader.run (do
    let attributes ← Read.innerAttributes code.grammar
    let items ← Reader.untilEnd Read.declaration
    return { attributes, items }) code

def type? (code : Code) : Except Fault Ty :=
  Reader.run (code.grammar.type true) code

/-- The path that the code is, generic arguments included. -/
def path? (code : Code) : Except Fault Path :=
  Reader.run (Read.path code.grammar false) code

def plainPath? (code : Code) : Except Fault Path :=
  Reader.run Path.plain code

def identifier? (code : Code) : Except Fault String :=
  Reader.run Reader.identifier code

end Code

/-! ### Reading texts -/

/-- A fault in a text with its position. -/
structure TextFault where
  message : String
  position : Position
deriving DecidableEq, Repr

/-- The fault of a text that cannot be split into tokens. -/
def TextFault.unreadable (position : Position) : TextFault :=
  { message := Cause.unreadable.wording, position }

def Fault.placedIn (fault : Fault) (listing : Listing) : TextFault :=
  { message := fault.message, position := listing.positionAt fault.mark }

/-- Splits a text into tokens and reads them. -/
def readText {α : Type} (read : Code → Except Fault α) (text : String) :
    Except TextFault (Listing × α) :=
  match Listing.ofText text with
  | .error position => .error (.unreadable position)
  | .ok listing =>
    match read listing.code with
    | .error fault => .error (fault.placedIn listing)
    | .ok a => .ok (listing, a)

/-- A source file without the mark and the first line that do not belong to its code. The line
begins with `#!` and is none of its attributes. -/
def sourceText (text : String) : String :=
  let cs := text.toList
  let cs := if cs.head? = some byteOrderMark then cs.drop 1 else cs
  match cs with
  | '#' :: '!' :: rest =>
    if (Lexer.afterBlanks rest).head? = some '[' then String.ofList cs
    else String.ofList (Lexer.lineRest cs)
  | _ => String.ofList cs

def File.ofText (text : String) : Except TextFault (Listing × File) :=
  readText Code.file? (sourceText text)

end UnionView
