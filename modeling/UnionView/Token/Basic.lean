import UnionView.Text.Position

/-!
# Tokens

Source code is read as a flat list of tokens. A delimited group is an opening token, the tokens
of its content and a closing token. A punctuation character is one token; it is *joint* when it
belongs together with the punctuation after it, as the first character of `::` does.

A `Listing` is a list of tokens together with the place of each. Tokens alone (`Code`) carry no
place, so that whatever is computed from `Code` cannot depend on how the source is laid out.
-/

namespace UnionView

/-- The three kinds of brackets that form groups. -/
inductive Delimiter
  | round
  | square
  | curly
deriving DecidableEq, Repr, Inhabited

/-- Whether a punctuation character is taken together with the one after it. -/
inductive Spacing
  | alone
  | joint
deriving DecidableEq, Repr, Inhabited

/-- One token of source code. Identifiers keep `r#`, literals keep their spelling. -/
inductive Token
  | ident (text : String)
  | punct (mark : Char) (spacing : Spacing)
  | literal (text : String)
  | opening (delimiter : Delimiter)
  | closing (delimiter : Delimiter)
deriving DecidableEq, Repr, Inhabited

/-- A piece of source code: tokens without their places. -/
abbrev Code := List Token

/-- A token and the place of its first character. -/
structure Placed where
  token : Token
  place : Position
deriving DecidableEq, Repr, Inhabited

/-- Source code as it was read: its tokens, each with its place. -/
abbrev Listing := List Placed

/-- A place in a listing that survives a change of layout: how many tokens stand from there to
the end. Zero is the end. -/
abbrev Mark := Nat

namespace Listing

def code (listing : Listing) : Code :=
  listing.map Placed.token

/-- The position that a mark stands for. The end of a text is reported at its first position. -/
def positionAt (listing : Listing) (mark : Mark) : Position :=
  match listing.drop (listing.length - mark) with
  | [] => Position.start
  | placed :: _ => placed.place

@[simp] theorem code_append (a b : Listing) : code (a ++ b) = code a ++ code b := by
  simp [code]

/-- The end of a listing has the first position. -/
@[simp] theorem positionAt_zero (listing : Listing) : listing.positionAt 0 = Position.start := by
  simp [positionAt]

/-- A mark inside the end of a listing does not see what stands before. -/
theorem positionAt_append (a b : Listing) {mark : Nat} (h : mark ≤ b.length) :
    positionAt (a ++ b) mark = positionAt b mark := by
  have hlen : (a ++ b).length - mark = a.length + (b.length - mark) := by
    rw [List.length_append]; omega
  have hdrop : (a ++ b).drop (a.length + (b.length - mark)) = b.drop (b.length - mark) := by
    simp [List.drop_append]
  simp only [positionAt, hlen, hdrop]

end Listing

namespace Delimiter

/-- The character that opens a group. -/
def opener : Delimiter → Char
  | round => '('
  | square => '['
  | curly => '{'

/-- The character that closes a group. -/
def closer : Delimiter → Char
  | round => ')'
  | square => ']'
  | curly => '}'

/-- The kind of group that a character opens. -/
def ofOpener? : Char → Option Delimiter
  | '(' => some round
  | '[' => some square
  | '{' => some curly
  | _ => none

/-- The kind of group that a character closes. -/
def ofCloser? : Char → Option Delimiter
  | ')' => some round
  | ']' => some square
  | '}' => some curly
  | _ => none

@[simp] theorem ofOpener?_opener (d : Delimiter) : ofOpener? d.opener = some d := by
  cases d <;> rfl

@[simp] theorem ofCloser?_closer (d : Delimiter) : ofCloser? d.closer = some d := by
  cases d <;> rfl

end Delimiter

/-- Operators are written as one word here, `Code` has one token for each of their characters:
all are joint but the last. -/
def operatorCode : List Char → Code
  | [] => []
  | [c] => [.punct c .alone]
  | c :: rest => .punct c .joint :: operatorCode rest

/-- A delimited group around `inner`. -/
def groupCode (d : Delimiter) (inner : Code) : Code :=
  .opening d :: inner ++ [.closing d]

namespace Code

/-- The part of `code` behind the closing token of the group that is open at `depth` levels, and
the closing token itself in front of it. -/
def toClosing : Nat → Code → Code
  | _, [] => []
  | depth, .opening _ :: rest => toClosing (depth + 1) rest
  | 0, .closing d :: rest => .closing d :: rest
  | depth + 1, .closing _ :: rest => toClosing depth rest
  | depth, _ :: rest => toClosing depth rest

/-- What is left behind the first token tree: a group counts as one, and so does a lifetime. -/
def dropTree : Code → Code
  | [] => []
  | .opening _ :: rest => (toClosing 0 rest).drop 1
  | .punct '\'' .joint :: .ident _ :: rest => rest
  | _ :: rest => rest

/-- The tokens of `code` in front of its end `rest`. -/
def before (code rest : Code) : Code :=
  code.take (code.length - rest.length)

/-- What is behind the content of a group is an end of the code. -/
theorem toClosing_suffix (depth : Nat) (code : Code) : toClosing depth code <:+ code := by
  fun_induction toClosing depth code with
  | case1 => exact List.suffix_rfl
  | case2 depth d rest ih => exact ih.trans (List.suffix_cons _ _)
  | case3 => exact List.suffix_rfl
  | case4 depth d rest ih => exact ih.trans (List.suffix_cons _ _)
  | case5 depth token rest _ _ _ ih => exact ih.trans (List.suffix_cons _ _)

/-- Whether the code ends `depth` groups and the group around them ends behind it, whatever the
closing token is and whatever follows. -/
def Closes (depth : Nat) (code : Code) : Prop :=
  ∀ d rest, toClosing depth (code ++ .closing d :: rest) = .closing d :: rest

/-- A group that is closed has its content in front of its closing token. -/
theorem exists_closes_of_toClosing {depth : Nat} {code : Code} (h : toClosing depth code ≠ []) :
    ∃ inner d rest, code = inner ++ .closing d :: rest ∧ Closes depth inner := by
  fun_induction toClosing depth code with
  | case1 => exact absurd rfl h
  | case2 depth d rest ih =>
    obtain ⟨inner, d', rest', rfl, hcloses⟩ := ih h
    exact ⟨.opening d :: inner, d', rest', rfl, fun _ _ => by simpa [toClosing] using hcloses _ _⟩
  | case3 d rest => exact ⟨[], d, rest, rfl, fun _ _ => rfl⟩
  | case4 depth d rest ih =>
    obtain ⟨inner, d', rest', rfl, hcloses⟩ := ih h
    exact ⟨.closing d :: inner, d', rest', rfl, fun _ _ => by simpa [toClosing] using hcloses _ _⟩
  | case5 depth token rest hopening hzero hsucc ih =>
    obtain ⟨inner, d', rest', rfl, hcloses⟩ := ih h
    refine ⟨token :: inner, d', rest', rfl, fun d'' rest'' => ?_⟩
    rw [List.cons_append, toClosing, hcloses d'' rest'']
    · exact hopening
    · exact hzero
    · exact hsucc

@[simp] theorem before_append (inner rest : Code) : before (inner ++ rest) rest = inner := by
  simp [before]

end Code

end UnionView
