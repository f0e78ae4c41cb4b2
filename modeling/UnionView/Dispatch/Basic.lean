import UnionView.Renderer
import UnionView.Union.Basic

/-!
# Dispatch

How a union is drawn, apart from any notation: nothing at all if it has no variants, otherwise
one branch per variant, which hands the payload to its renderer or draws nothing.
-/

namespace UnionView

/-- What is drawn for one variant. -/
inductive Branch
  /-- Nothing. -/
  | empty
  /-- The payload of the variant, by its renderer. -/
  | delegate (variant : String) (renderer : Path)
deriving DecidableEq, Repr

/-- What is drawn for a union. -/
inductive Dispatch
  /-- Nothing. -/
  | empty
  /-- What the branch of the active variant of `subject` draws. -/
  | switch (subject : Code) (branches : List (UnionVariant × Branch))
deriving DecidableEq, Repr

/-- The expression for the value of the union inside its dispatcher. -/
def stateExpression : Code :=
  [.ident "self"] ++ operatorCode ['.'] ++ [.ident "store"] ++ operatorCode ['.'] ++
    [.ident "state"] ++ groupCode .round []

/-- The branch of a variant: it delegates if the payload has a name. -/
def UnionVariant.branch (renderers : Renderers) (v : UnionVariant) : Branch :=
  match v.payload with
  | some payload => .delegate v.name (renderers.resolve payload)
  | none => .empty

/-- How a union is drawn: one branch per variant, in the order of the variants. -/
def TaggedUnion.dispatch (u : TaggedUnion) (renderers : Renderers) : Dispatch :=
  if u.variants.isEmpty then .empty
  else .switch stateExpression (u.variants.map fun v => (v, v.branch renderers))

/-- The branches of a dispatch, of which there are none if it is empty. -/
def Dispatch.branches : Dispatch → List (UnionVariant × Branch)
  | empty => []
  | switch _ branches => branches

/-- Every variant has its branch, whether there are variants or not. -/
theorem TaggedUnion.branches_dispatch (u : TaggedUnion) (renderers : Renderers) :
    (u.dispatch renderers).branches = u.variants.map fun v => (v, v.branch renderers) := by
  unfold TaggedUnion.dispatch
  split
  · rename_i h
    simp [Dispatch.branches, List.isEmpty_iff.mp h]
  · rfl

end UnionView
