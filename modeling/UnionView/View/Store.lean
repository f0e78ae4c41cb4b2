/-!
# Stores

A view does not own what it draws. It holds a store of some state and narrows it to a part of the
state for the views inside it.
-/

namespace UnionView

/-- A handle on a piece of state. -/
structure Store (σ : Type) where
  state : σ
deriving Repr, DecidableEq

namespace Store

variable {σ τ : Type}

/-- The store of a part of the state, if the state has that part. -/
def scope (s : Store σ) (narrow : σ → Option τ) : Option (Store τ) :=
  (narrow s.state).map Store.mk

def text (stateText : σ → String) (s : Store σ) : String :=
  s!"Store \x7b state: {stateText s.state} \x7d"

/-- A store can be narrowed exactly if the state has the part. -/
theorem scope_eq_some_iff {s : Store σ} {narrow : σ → Option τ} {t : Store τ} :
    s.scope narrow = some t ↔ narrow s.state = some t.state := by
  rw [scope, Option.map_eq_some_iff]
  constructor
  · rintro ⟨state, h, rfl⟩
    exact h
  · intro h
    exact ⟨t.state, h, rfl⟩

end Store

end UnionView
