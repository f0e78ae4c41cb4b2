import UnionView.Dispatch.Match
import UnionView.View.Element
import UnionView.View.Store

/-!
# Evaluating a dispatcher

What the generated `match` draws for a value of its union. Arms are tried in order; the first one
whose pattern fits is taken. Its body narrows the store of the value to what the second pattern
binds and lets the renderer draw it.
-/

namespace UnionView

/-- The fields of a value, in the form in which they are declared. -/
inductive FieldValues (α : Type)
  | unit
  | tuple (values : List α)
  | named (values : List (String × α))
deriving Repr

/-- A value of a union: its active variant and the values of the fields. -/
structure UnionValue (α : Type) where
  variant : String
  fields : FieldValues α
deriving Repr

variable {α : Type}

namespace FieldsPattern

def fits : FieldsPattern → FieldValues α → Bool
  | unit, .unit => true
  | anyTuple, .tuple _ => true
  | anyNamed, _ => true
  | firstOfTuple, .tuple (_ :: _) => true
  | field name, .named values => (values.lookup name).isSome
  | _, _ => false

/-- What a pattern binds in fields that fit it. -/
def bound? : FieldsPattern → FieldValues α → Option α
  | firstOfTuple, .tuple (value :: _) => some value
  | field name, .named values => values.lookup name
  | _, _ => none

end FieldsPattern

namespace ArmPattern

def fits (p : ArmPattern) (v : UnionValue α) : Bool :=
  p.variant = v.variant && p.fields.fits v.fields

/-- What a pattern binds in a value that fits it. -/
def bound? (p : ArmPattern) (v : UnionValue α) : Option α :=
  if p.variant = v.variant then p.fields.bound? v.fields else none

end ArmPattern

/-- What an arm draws, given how renderers draw stores of payloads. -/
def ArmBody.draw (renderers : Path → Store α → Element) (store : Store (UnionValue α)) :
    ArmBody → Element
  | .empty => .empty
  | .narrow pattern renderer =>
    match store.scope pattern.bound? with
    | some payload => renderers renderer payload
    | none => .empty

/-- What a dispatcher draws. There is no answer if no arm fits. -/
def Body.draw? (renderers : Path → Store α → Element) (store : Store (UnionValue α)) :
    Body → Option Element
  | .empty => some .empty
  | .select _ arms =>
    (arms.find? (·.pattern.fits store.state)).map (·.body.draw renderers store)

end UnionView
