import UnionView.Token.Basic

/-!
# Printing tokens

Tokens are written one after the other with one space between them, except after a joint
punctuation character and at the ends of a round or square group. A curly group has a space
inside each brace, an empty one has a single space.
-/

namespace UnionView

/-- What was written in front of the next token. -/
inductive Preceding
  /-- The beginning of the text or of a group. -/
  | boundary
  /-- A joint punctuation character. -/
  | jointMark
  /-- Any other token. -/
  | token
deriving DecidableEq, Repr

namespace Preceding

/-- The space, if any, in front of a token. -/
def gap : Preceding → List Char
  | token => [' ']
  | _ => []

/-- The space, if any, in front of a closing token: only a brace keeps its distance. -/
def gapBeforeCloser : Preceding → Delimiter → List Char
  | boundary, _ => []
  | _, .curly => [' ']
  | _, _ => []

/-- What a punctuation character is to the token behind it. -/
def ofSpacing : Spacing → Preceding
  | .joint => jointMark
  | .alone => token

end Preceding

namespace Code

/-- The text of an opening token: a brace brings its space along. -/
def openerText (d : Delimiter) : List Char :=
  d.opener :: (if d = .curly then [' '] else [])

/-- The characters of `code`, given what was written in front of it. -/
def spell : Preceding → Code → List Char
  | _, [] => []
  | p, .ident text :: rest => p.gap ++ (text.toList ++ spell .token rest)
  | p, .literal text :: rest => p.gap ++ (text.toList ++ spell .token rest)
  | p, .punct mark spacing :: rest => p.gap ++ (mark :: spell (.ofSpacing spacing) rest)
  | p, .opening d :: rest => p.gap ++ (openerText d ++ spell .boundary rest)
  | p, .closing d :: rest => p.gapBeforeCloser d ++ (d.closer :: spell .token rest)

def text (code : Code) : String :=
  String.ofList (spell .boundary code)

/-- The empty code has the empty text. -/
@[simp] theorem text_nil : text [] = "" := rfl

end Code

end UnionView
