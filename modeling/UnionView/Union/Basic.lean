import UnionView.Syntax.Tree

/-!
# Tagged unions

What the generator needs to know of an enumeration: its name, its generic parameters and, for
each variant, the form in which its fields are declared and the name of the type of the first
field. That field is the *payload*; the others are not looked at.
-/

namespace UnionView

/-- The form in which the fields of a variant are declared, with the name of the first field if
fields have names and there is one. -/
inductive VariantForm
  | unit
  | tuple
  | named (firstField : Option String)
deriving DecidableEq, Repr

/-- A variant as the generator sees it. -/
structure UnionVariant where
  name : String
  /-- The last name of the payload's type, if it is a path. -/
  payload : Option String
  form : VariantForm
deriving DecidableEq, Repr

/-- A tagged union as the generator sees it, with the places of its name and of its keyword. -/
structure TaggedUnion where
  name : String
  generics : Generics
  variants : List UnionVariant
  nameMark : Mark
  keyword : Mark
deriving DecidableEq, Repr

/-- The name of a type that is a path, possibly in brackets: its last one. Types of other shapes,
and paths that are qualified by a type, have no name. -/
def Ty.name? : Ty → Option String
  | path p => some p.lastName
  | paren inner => inner.name?
  | invisible inner => inner.name?
  | object _ => none
  | other => none

namespace Fields

/-- The fields in the order in which they are declared. -/
def toList : Fields → List Field
  | unit => []
  | tuple fields => fields
  | named fields => fields.map (·.toField)

def form : Fields → VariantForm
  | unit => .unit
  | tuple _ => .tuple
  | named fields => .named (fields.head?.map (·.name))

/-- The name of the type of the first field. -/
def payload? (fields : Fields) : Option String :=
  fields.toList.head?.bind (·.type.name?)

end Fields

/-- A declared variant as the generator sees it. -/
def Variant.toUnionVariant (v : Variant) : UnionVariant :=
  { name := v.name, payload := v.fields.payload?, form := v.fields.form }

/-- An enumeration as the generator sees it. -/
def Enumeration.toUnion (e : Enumeration) : TaggedUnion :=
  { name := e.name
    generics := e.generics
    variants := e.variants.map Variant.toUnionVariant
    nameMark := e.nameMark
    keyword := e.keyword }

end UnionView
