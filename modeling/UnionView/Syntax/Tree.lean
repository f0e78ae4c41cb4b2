import UnionView.Syntax.Path

/-!
# Declarations

The shape of a source file as far as unions are concerned. Enumerations are kept in full; of any
other item only its kind, its name, its attributes and the place a message points at are kept.
Places are marks, so that a declaration does not depend on the layout of its source.
-/

namespace UnionView

/-! ### Types and expressions -/

/-- What matters of a type: whether it is a path, possibly in brackets. -/
inductive Ty
  /-- A path without a qualified self type. -/
  | path (path : Path)
  | paren (inner : Ty)
  /-- A type that stands in brackets that are not written. -/
  | invisible (inner : Ty)
  /-- A sum of bounds without a keyword; `single` if it is only one. -/
  | object (single : Bool)
  | other
deriving DecidableEq, Repr

/-- What matters of an expression to what may follow it. -/
inductive Form
  /-- A path without a qualified self type. -/
  | path (path : Path)
  | range
  /-- A comparison, which no second one may follow. -/
  | comparison
  /-- An expression that ends with a block and is a statement without a semicolon. -/
  | blockLike
  /-- An invocation with `!`. -/
  | invocation (delimiter : Delimiter)
  | other
deriving DecidableEq, Repr

/-- What matters of a pattern to what is around it. -/
inductive PatternForm
  /-- A range without one of its bounds, and the place of its dots. -/
  | openRange (dots : Mark)
  | other
deriving DecidableEq, Repr

inductive BoundForm
  | lifetime
  | trait
  /-- A `use<..>` list. -/
  | capturing
  /-- A trait bound with a modifier that is kept as it is written. -/
  | modified
deriving DecidableEq, Repr

/-! ### Attributes -/

/-- What follows the path of an attribute. -/
inductive MetaForm
  | bare
  | list (group : Reader.RawGroup)
  /-- An equals sign and an expression, of which it matters whether it is a path. -/
  | value (equals : Mark) (value : Mark) (form : Form)
deriving DecidableEq, Repr

/-- The content of an attribute or one of its arguments. `mark` is the place of its path and
`nameMark` that of the first name of the path. -/
structure Meta where
  mark : Mark
  nameMark : Mark
  path : Path
  form : MetaForm
deriving DecidableEq, Repr

/-- The form with more tokens behind the code it was read from. -/
def MetaForm.shift (behind : Nat) : MetaForm → MetaForm
  | bare => bare
  | list group =>
    .list { group with openAt := group.openAt + behind, closeAt := group.closeAt + behind }
  | value equals start form => .value (equals + behind) (start + behind) form

/-- The content with more tokens behind the code it was read from. -/
def Meta.shift (behind : Nat) (m : Meta) : Meta :=
  { m with
    mark := m.mark + behind
    nameMark := m.nameMark + behind
    form := m.form.shift behind }

/-- An attribute and the place of its `#`. -/
structure Attribute where
  mark : Mark
  content : Meta
deriving DecidableEq, Repr

/-! ### Generic parameters -/

inductive ParameterKind
  | lifetime
  | type
  | constant
deriving DecidableEq, Repr

/-- A generic parameter. Its bounds are those of a lifetime or type behind the colon, or the type
of a constant; no bounds behind a colon are not the same as no colon. -/
structure Parameter where
  attributes : Code := []
  kind : ParameterKind
  name : String
  bounds : Option Code := none
  default : Option Code := none
  /-- Whether a comma follows. -/
  comma : Bool := false
deriving DecidableEq, Repr

/-- Generic parameters with the predicates that a `where` adds. -/
structure Generics where
  /-- Whether angle brackets are written, even if they are empty. -/
  bracketed : Bool := false
  parameters : List Parameter := []
  /-- The predicates behind a `where`, which may be none. -/
  predicates : Option Code := none
deriving DecidableEq, Repr

/-! ### Items -/

structure Field where
  attributes : List Attribute := []
  visibility : Code := []
  type : Ty
deriving DecidableEq, Repr

structure NamedField extends Field where
  name : String
deriving DecidableEq, Repr

/-- The fields of a variant in the form in which they are declared. -/
inductive Fields
  | unit
  | tuple (fields : List Field)
  | named (fields : List NamedField)
deriving DecidableEq, Repr

structure Variant where
  attributes : List Attribute := []
  visibility : Code := []
  name : String
  fields : Fields
  discriminant : Option Code := none
deriving DecidableEq, Repr

/-- A declared enumeration with the places of its keyword and its name. -/
structure Enumeration where
  attributes : List Attribute := []
  visibility : Code := []
  keyword : Mark
  name : String
  nameMark : Mark
  generics : Generics := {}
  variants : List Variant
deriving DecidableEq, Repr

/-- The kinds of items that have a name and are neither enumerations nor modules. -/
inductive NamedKind
  | struct
  | union
  | function
  | trait
  | traitAlias
  | typeAlias
  | constant
  | static
  | externCrate
deriving DecidableEq, Repr

/-- The kinds of items that have attributes but no name. -/
inductive UnnamedKind
  | implBlock
  | useDeclaration
  | externBlock
  | invocation
deriving DecidableEq, Repr

/-- An item of a source file. The mark of an item is the place a message about it points at. -/
inductive Item
  | enumeration (enumeration : Enumeration)
  | module (attributes : List Attribute) (mark : Mark) (name : String)
      (contents : Option (List Item))
  | named (kind : NamedKind) (attributes : List Attribute) (mark : Mark) (name : String)
  | unnamed (kind : UnnamedKind) (attributes : List Attribute) (mark : Mark)
  /-- An item that is read but not understood. Its attributes are not kept. -/
  | unclassified (mark : Mark)
deriving Repr

/-- Puts elements that are lifetimes in front of the others. The last element may be without a
comma; if it is moved to the front it gets one, and a comma behind the others stays. -/
def lifetimesFirst (entries : List (Bool × Code × Bool)) : Code :=
  let comma (c : Bool) : Code := if c then operatorCode [','] else []
  let lifetimes := entries.filter (·.1)
  let others := entries.filter (!·.1)
  let ended := lifetimes.getLast?.all (·.2.2)
  let written (entries : List (Bool × Code × Bool)) : Code :=
    entries.flatMap fun e => e.2.1 ++ comma e.2.2
  written lifetimes ++ comma (!ended && !others.isEmpty) ++ written others

namespace Item

def attributes : Item → List Attribute
  | enumeration e => e.attributes
  | module attributes _ _ _ => attributes
  | named _ attributes _ _ => attributes
  | unnamed _ attributes _ => attributes
  | unclassified _ => []

/-- The name by which an item can be asked for. -/
def name? : Item → Option String
  | enumeration e => some e.name
  | module _ _ name _ => some name
  | named .externCrate _ _ _ => none
  | named _ _ _ name => some name
  | unnamed _ _ _ => none
  | unclassified _ => none

end Item

end UnionView
