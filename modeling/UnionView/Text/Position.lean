/-!
# Positions in a text

A position is a line and a column, both counted from one. Only the line feed ends a line, and a
column counts characters.
-/

namespace UnionView

/-- Where a character stands in a text: line and column, both counted from one. -/
structure Position where
  line : Nat := 1
  column : Nat := 1
deriving DecidableEq, Repr, Inhabited

namespace Position

def start : Position := {}

/-- The position after the character `c` that stands at `p`. -/
def step (p : Position) (c : Char) : Position :=
  if c = '\n' then { line := p.line + 1, column := 1 } else { p with column := p.column + 1 }

/-- The position after all of `cs`, the first of which stands at `p`. -/
def advance (p : Position) (cs : List Char) : Position :=
  cs.foldl step p

/-- `line:column`, as it stands in every message. -/
def text (p : Position) : String :=
  s!"{p.line}:{p.column}"

@[simp] theorem advance_nil (p : Position) : p.advance [] = p := rfl

@[simp] theorem advance_cons (p : Position) (c : Char) (cs : List Char) :
    p.advance (c :: cs) = (p.step c).advance cs := rfl

end Position

end UnionView
