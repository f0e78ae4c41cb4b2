import UnionView.NameMap
import UnionView.Syntax.Path

/-!
# Renderers of payloads

The type that draws a payload is found by its name: `Info` is drawn by `InfoView`, unless another
renderer is registered for `Info`.
-/

namespace UnionView

/-- A name without the mark of a raw identifier. -/
def plainName (name : String) : String :=
  match name.toList with
  | 'r' :: '#' :: rest => String.ofList rest
  | _ => name

/-- The name by convention of what draws a type. -/
def viewName (typeName : String) : String :=
  plainName typeName ++ "View"

/-- Registered renderers by the name of the payload's type, as it is spelled. -/
abbrev Renderers := NameMap Path

/-- The renderer of a payload: the registered one, or the one that has the name by convention. -/
def Renderers.resolve (renderers : Renderers) (payload : String) : Path :=
  (renderers.get? payload).getD (Path.ofName (viewName payload))

end UnionView
