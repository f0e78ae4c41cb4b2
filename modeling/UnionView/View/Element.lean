/-!
# Elements

What a view draws: nothing, a run of text, or several elements in order. An element that draws
nothing takes no line in a group.
-/

namespace UnionView

/-- The output of a view. -/
inductive Element where
  | empty
  | text (text : String)
  | group (children : List Element)
deriving Repr, Inhabited, BEq

namespace Element

mutual

/-- Whether an element draws nothing at all. An empty text is drawn. -/
def isEmpty : Element → Bool
  | empty => true
  | text _ => false
  | group children => allEmpty children

/-- Whether several elements draw nothing at all. -/
def allEmpty : List Element → Bool
  | [] => true
  | e :: rest => e.isEmpty && allEmpty rest

end

def grouped (children : List Element) : Element :=
  group (children.filter (!·.isEmpty))

mutual

/-- The text of an element, every child of a group on a line of its own. -/
def toText : Element → String
  | empty => ""
  | text s => s
  | group children => String.intercalate "\n" (linesOf children)

/-- The texts of those elements that draw something. -/
def linesOf : List Element → List String
  | [] => []
  | e :: rest => if e.isEmpty then linesOf rest else e.toText :: linesOf rest

end

/-- Leaving out what draws nothing does not change whether a group draws anything. -/
@[simp] theorem isEmpty_grouped (children : List Element) :
    (grouped children).isEmpty = (group children).isEmpty := by
  rw [grouped, isEmpty, isEmpty]
  induction children with
  | nil => rfl
  | cons e rest ih => cases h : e.isEmpty <;> simp [allEmpty, h, ih]

end Element

end UnionView
