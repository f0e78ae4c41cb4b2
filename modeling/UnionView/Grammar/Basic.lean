import UnionView.Syntax.Tree

/-!
# The grammar as a record

Types, expressions, patterns and items contain each other. The readers of the grammar therefore
take the readers of what they contain from a record, and `UnionView.Grammar.File` ties the knot.
-/

namespace UnionView

/-- How tightly an operator binds, loosest first. -/
inductive Precedence
  | jump
  | assign
  | range
  | or
  | and
  | letBinding
  | compare
  | bitOr
  | bitXor
  | bitAnd
  | shift
  | sum
  | product
  | cast
deriving DecidableEq, Repr

/-- The rank of a precedence; a higher rank binds more tightly. -/
def Precedence.rank : Precedence → Nat
  | jump => 0
  | assign => 1
  | range => 2
  | or => 3
  | and => 4
  | letBinding => 5
  | compare => 6
  | bitOr => 7
  | bitXor => 8
  | bitAnd => 9
  | shift => 10
  | sum => 11
  | product => 12
  | cast => 13

/-- The readers that other readers of the grammar are built from. -/
structure Grammar where
  /-- A type. The flag says whether it may be a sum of bounds. -/
  type : (allowSum : Bool) → Reader Ty
  /-- A bound. The flags allow a `use<..>` list and a modifier. -/
  bound : (allowCapturing allowModifier : Bool) → Reader BoundForm
  /-- An expression. The flag says whether a struct literal may be written. -/
  expression : (allowStruct : Bool) → Reader Form
  /-- An operand of a binary operator. -/
  operand : (allowStruct : Bool) → Reader Form
  /-- The operators behind an operand, down to a precedence. -/
  operation : (left : Form) → (allowStruct : Bool) → (base : Precedence) → Reader Form
  /-- An expression where a statement may begin: a block there is not the left side of anything
  but a field access. -/
  leading : Reader Form
  /-- A pattern without alternatives. -/
  pattern : Reader PatternForm
  /-- The statements up to the end of a block. -/
  statements : Reader Unit
  /-- An item behind its outer attributes, which are given with the place of the item. -/
  item : (start : Mark) → (outer : List Attribute) → Reader Item
  /-- A tree of a `use` declaration; the answer says whether it is understood. -/
  useTree : (allowRoot : Bool) → Reader Bool

end UnionView
