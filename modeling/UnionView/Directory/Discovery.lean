import UnionView.Directory.Basic

/-!
# Discovery

The files that a list of inputs stands for: an input that is a directory stands for the source
files below it, in the order of their names level by level; any other input stands for itself.
A file that was found before is left out, whatever the spelling of its name.

Every name below a directory is taken to be short enough for the system to open. A walk would leave
out a file whose name, spelled from the input on, is beyond `Workplace.longestFileName`, and would
fail at such a directory.
-/

namespace UnionView

/-! ### File names -/

/-- A part of a file name by which file names are compared. -/
inductive FileNamePart
  | root
  /-- The directory in use, written out at the beginning. -/
  | here
  | parent
  | name (text : String)
deriving DecidableEq, Repr

namespace FileNamePart

/-- The part that a piece of a file name between slashes is. -/
def ofText (text : String) : FileNamePart :=
  if text = ".." then parent else name text

/-- The parts of a file name. Slashes in a row count as one, and a dot counts only at the
beginning. -/
def list (fileName : String) : List FileNamePart :=
  let pieces := Workplace.parts fileName
  let rest := (pieces.filter (· ≠ ".")).map ofText
  if Workplace.isAbsolute fileName then root :: rest
  else if pieces.head? = some "." then here :: rest
  else rest

end FileNamePart

/-- The file name of what a directory holds under a name. -/
def joinNames (fileName name : String) : String :=
  if fileName = "" || Workplace.endsWithSlash fileName then fileName ++ name
  else fileName ++ "/" ++ name

/-- What follows the last dot of a name, unless the name begins with that dot. -/
def extension? (name : String) : Option String :=
  let reversed := name.toList.reverse
  match reversed.dropWhile (· ≠ '.') with
  | _ :: _ :: _ => some (String.ofList (reversed.takeWhile (· ≠ '.')).reverse)
  | _ => none

def isSource (fileName : String) : Bool :=
  match (FileNamePart.list fileName).getLast? with
  | some (.name text) => extension? text = some "rs"
  | _ => false

/-! ### Discovery -/

/-- The file names of the source files below a directory. -/
def Entry.sources (fileName : String) (e : Entry) : List String :=
  (e.files.map fun f => f.1.foldl joinNames fileName).filter isSource

/-- Leaves out file names that stand for an earlier one as well. -/
def distinctFileNames (earlier : List (List FileNamePart)) : List String → List String
  | [] => []
  | fileName :: rest =>
    let parts := FileNamePart.list fileName
    if parts ∈ earlier then distinctFileNames earlier rest
    else fileName :: distinctFileNames (parts :: earlier) rest

/-- The files that one input stands for. What is below a directory is listed whatever the length of
its name. -/
def Workplace.expandInput (w : Workplace) (input : String) : List String :=
  match w.directory? input with
  | some e => e.sources input
  | none => [input]

def Workplace.discover (w : Workplace) (inputs : List String) : List String :=
  distinctFileNames [] (inputs.flatMap w.expandInput)

end UnionView
