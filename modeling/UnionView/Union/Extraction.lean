import UnionView.Diagnostic
import UnionView.Grammar.File
import UnionView.Union.Basic

/-!
# Extraction

The union that an item, or some code, declares. Only enumerations are unions; for anything else
the error says what was found instead.
-/

namespace UnionView

/-- Why there is no union: what was found instead, the declaration and the place it points at. -/
structure NotAUnion where
  found : String
  declaration : String
  mark : Mark
deriving DecidableEq, Repr

namespace NotAUnion

def message (e : NotAUnion) : String :=
  s!"switch-case views can only be generated for enum declarations, found {e.found}"

def finding (e : NotAUnion) : Finding :=
  { severity := .error, message := e.message, declaration := e.declaration, mark := e.mark }

/-- The error for an item that is named. -/
def named (kind name : String) (mark : Mark) : NotAUnion :=
  { found := s!"{kind} `{name}`", declaration := name, mark }

/-- The error for an item without a name: what it is stands in for the name. -/
def unnamed (kind : String) (mark : Mark) : NotAUnion :=
  { found := kind, declaration := kind, mark }

/-- The error for code that is no item. -/
def ofFault (fault : Fault) : NotAUnion :=
  { found := s!"tokens that do not form an item ({fault.message})"
    declaration := "<unparsed>"
    mark := fault.mark }

end NotAUnion

/-- What a message calls an item of this kind. -/
def NamedKind.text : NamedKind → String
  | struct => "struct"
  | union => "untagged union"
  | function => "function"
  | trait => "trait"
  | traitAlias => "trait alias"
  | typeAlias => "type alias"
  | constant => "constant"
  | static => "static"
  | externCrate => "extern crate"

/-- What a message calls an item of this kind. -/
def UnnamedKind.text : UnnamedKind → String
  | implBlock => "impl block"
  | useDeclaration => "use declaration"
  | externBlock => "extern block"
  | invocation => "macro invocation"

namespace TaggedUnion

/-- Where a union is declared: the place of its name. -/
def location (u : TaggedUnion) (listing : Listing) : Location :=
  { declaration := u.name, position := listing.positionAt u.nameMark }

/-- Where the declaration of a union begins behind its visibility: the place of its keyword. -/
def keywordLocation (u : TaggedUnion) (listing : Listing) : Location :=
  { declaration := u.name, position := listing.positionAt u.keyword }

def unmarked (u : TaggedUnion) : TaggedUnion :=
  { u with nameMark := 0, keyword := 0 }

end TaggedUnion

def Item.extract : Item → Except NotAUnion TaggedUnion
  | .enumeration e => .ok e.toUnion
  | .module _ mark name _ => .error (.named "module" name mark)
  | .named kind _ mark name => .error (.named kind.text name mark)
  | .unnamed kind _ mark => .error (.unnamed kind.text mark)
  | .unclassified mark => .error (.unnamed "item" mark)

def Code.extract (code : Code) : Except NotAUnion TaggedUnion :=
  match code.item? with
  | .ok item => item.extract
  | .error fault => .error (.ofFault fault)

end UnionView
