import UnionView.Attribute.Arguments

/-!
# Selection

The items of a file that a dispatcher is wanted for: those with the attribute, and those that are
asked for by name. A module comes before the items inside it, and these are looked at whether or
not the module itself is selected.
-/

namespace UnionView

/-- A selected item. It has no arguments if it was only asked for by name. -/
structure Selected where
  item : Item
  arguments : Option (Except Fault AttributeArguments)

/-- The arguments of the attribute on an item. A second attribute is a fault, whatever the
arguments of the first one are. -/
def Item.arguments? (item : Item) : Option (Except Fault AttributeArguments) :=
  match item.requests with
  | [] => none
  | [a] => some a.arguments
  | _ :: again :: _ => some (.error again.repeatedFault)

/-- Whether an item is asked for by its name. -/
def Item.isNamedIn (item : Item) (names : List String) : Bool :=
  item.name?.any (names.contains ·)

def Item.selected? (item : Item) (names : List String) : Option Selected :=
  let arguments := item.arguments?
  if arguments.isSome || item.isNamedIn names then some { item, arguments } else none

mutual

def Item.selection (names : List String) : Item → List Selected
  | .module attributes mark name (some contents) =>
    ((Item.module attributes mark name (some contents)).selected? names).toList ++
      selectAll names contents
  | item => (item.selected? names).toList

/-- What is selected of several items, in order. -/
def selectAll (names : List String) : List Item → List Selected
  | [] => []
  | item :: rest => item.selection names ++ selectAll names rest

end

/-- The selection of a list of items is made of those of its parts. -/
@[simp] theorem selectAll_append (names : List String) (a b : List Item) :
    selectAll names (a ++ b) = selectAll names a ++ selectAll names b := by
  induction a with
  | nil => simp [selectAll]
  | cons item rest ih => simp [selectAll, ih]

end UnionView
