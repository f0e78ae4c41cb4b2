import UnionView.Syntax.Reader
import UnionView.Token.Printer

/-!
# Paths

A path is a list of names between `::`, with generic arguments behind some of them. A *plain*
path has no generic arguments; runtimes and renderers are given as plain paths.
-/

namespace UnionView

/-- One name of a path with its generic arguments as they are printed. -/
structure PathSegment where
  name : String
  arguments : Code := []
deriving DecidableEq, Repr

/-- Names between `::`, with or without a leading `::`. There is at least one name. -/
structure Path where
  rooted : Bool := false
  first : PathSegment
  more : List PathSegment := []
deriving DecidableEq, Repr

namespace PathSegment

def code (s : PathSegment) : Code :=
  .ident s.name :: s.arguments

end PathSegment

namespace Path

def segments (p : Path) : List PathSegment :=
  p.first :: p.more

def separator : Code :=
  operatorCode [':', ':']

def segmentsCode : List PathSegment → Code
  | [] => []
  | [s] => s.code
  | s :: rest => s.code ++ separator ++ segmentsCode rest

def code (p : Path) : Code :=
  (if p.rooted then separator else []) ++ segmentsCode p.segments

def text (p : Path) : String :=
  p.code.text

def ofName (name : String) : Path :=
  { first := { name } }

def child (p : Path) (name : String) : Path :=
  { p with more := p.more ++ [{ name }] }

/-- The last of the names of a path, with its arguments. -/
def last (p : Path) : PathSegment :=
  p.more.getLastD p.first

def lastName (p : Path) : String :=
  p.last.name

/-- The name, if the path is one name without generic arguments. -/
def name? (p : Path) : Option String :=
  match p with
  | { rooted := false, first := { name, arguments := [] }, more := [] } => some name
  | _ => none

/-- Whether no segment has generic arguments. -/
def isPlain (p : Path) : Bool :=
  p.segments.all (·.arguments.isEmpty)

@[simp] theorem isPlain_ofName (name : String) : (ofName name).isPlain = true := rfl

@[simp] theorem lastName_ofName (name : String) : (ofName name).lastName = name := rfl

@[simp] theorem segments_child (p : Path) (name : String) :
    (p.child name).segments = p.segments ++ [{ name := name }] := rfl

/-- A path that goes on ends with the name it goes on with. -/
@[simp] theorem lastName_child (p : Path) (name : String) : (p.child name).lastName = name := by
  simp [child, lastName, last, List.getLastD_eq_getLast?]

/-! ### Reading plain paths -/

/-- What a segment of a path may begin with. -/
def segmentStarts : List Terminal :=
  [.identifier, .word "super", .word "self", .word "Self", .word "crate"]

open Reader in
/-- Reads the segments of a plain path: the first one and those behind it. -/
def plainSegments : Nat → Reader (PathSegment × List PathSegment)
  | 0 => noIdentifier
  | fuel + 1 => do
    let name ← anyIdentifier
    if ← acceptOperator "::" then
      if ← peekAny segmentStarts then
        let (next, more) ← plainSegments fuel
        return ({ name }, next :: more)
      else expected "path segment after `::`"
    else return ({ name }, [])

open Reader in
def plain : Reader Path := do
  let rooted ← acceptOperator "::"
  if ← peekAny segmentStarts then
    let (first, more) ← plainSegments ((← get).rest.length + 1)
    return { rooted, first, more }
  else noIdentifier

end Path

end UnionView
