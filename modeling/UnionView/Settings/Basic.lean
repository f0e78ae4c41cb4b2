import UnionView.Renderer

/-!
# Settings

What can be chosen about the generated code: the path of the runtime, which provides `Store`,
`View`, `FromStore`, `HasView` and `Element`, and the renderers of payloads.
-/

namespace UnionView

/-- The runtime unless another one is chosen. -/
def defaultRuntime : Path :=
  { rooted := true, first := { name := "caseview" } }

/-- The choices for the generated code. -/
structure Settings where
  runtime : Path := defaultRuntime
  renderers : Renderers := .empty
deriving DecidableEq, Repr

namespace Settings

def withRuntime (s : Settings) (runtime : Path) : Settings :=
  { s with runtime }

/-- Registers a renderer, instead of an earlier one for the same payload. -/
def withRenderer (s : Settings) (payload : String) (renderer : Path) : Settings :=
  { s with renderers := s.renderers.insert payload renderer }

/-- Registers several renderers at once. -/
def withRenderers (s : Settings) (renderers : Renderers) : Settings :=
  { s with renderers := s.renderers.merge renderers }

end Settings

end UnionView
