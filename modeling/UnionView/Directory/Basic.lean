import UnionView.NameMap
import UnionView.Text.Quoted

/-!
# Directories

A directory holds files and directories under names, in increasing order of the names. Where the
program works is a `Workplace`: everything there is, from the root on, and the directory that
relative file names start from. A file name is a text with `/` between its parts, as it is given
by the user. Reading and writing follow it part by part and fail for a stated reason.
-/

namespace UnionView

/-- Why a file cannot be read or written. -/
inductive FileFailure
  | notFound
  | notADirectory
  | isADirectory
  | nameTooLong
  /-- A file name contains the character that ends names. -/
  | nameHasNul
  /-- The bytes of the file are no text. -/
  | notText
deriving DecidableEq, Repr

namespace FileFailure

/-- The number, the kind and the wording of a failure that the system reports. -/
def reported? : FileFailure → Option (Nat × String × String)
  | notFound => some (2, "NotFound", "No such file or directory")
  | notADirectory => some (20, "NotADirectory", "Not a directory")
  | isADirectory => some (21, "IsADirectory", "Is a directory")
  | nameTooLong => some (36, "InvalidFilename", "File name too long")
  | nameHasNul => none
  | notText => none

/-- The kind and the wording of a failure that the program finds by itself. -/
def found : FileFailure → String × String
  | nameHasNul => ("InvalidInput", "file name contained an unexpected NUL byte")
  | _ => ("InvalidData", "stream did not contain valid UTF-8")

def message (f : FileFailure) : String :=
  match f.reported? with
  | some (code, _, wording) => s!"{wording} (os error {code})"
  | none => f.found.2

/-- A failure with everything that is known of it. -/
def details (f : FileFailure) : String :=
  match f.reported? with
  | some (code, kind, wording) =>
    s!"Os \x7b code: {code}, kind: {kind}, message: {Text.quote wording} \x7d"
  | none => s!"Error \x7b kind: {f.found.1}, message: {Text.quote f.found.2} \x7d"

end FileFailure

/-- A file or a directory. -/
inductive Entry where
  | file (contents : ByteArray)
  | directory (entries : List (String × Entry))
deriving Inhabited

namespace Entry

def isDirectory : Entry → Bool
  | file _ => false
  | directory _ => true

/-- What a directory holds; a file holds nothing. -/
def children : Entry → List (String × Entry)
  | file _ => []
  | directory entries => entries

def at? : Entry → List String → Option Entry
  | e, [] => some e
  | e, name :: names => (e.children.lookup name).bind (at? · names)

/-- The entry with another one in the place that a list of names leads to. What is missing on the
way is made. -/
def put (new : Entry) : List String → Entry → Entry
  | [], _ => new
  | name :: names, e =>
    let old := (e.children.lookup name).getD (directory [])
    directory (NameMap.insertInto name (put new names old) e.children)

mutual

/-- The files of an entry, each with the names that lead to it. -/
def files : Entry → List (List String × ByteArray)
  | file contents => [([], contents)]
  | directory entries => filesOf entries

/-- The files of several entries. -/
def filesOf : List (String × Entry) → List (List String × ByteArray)
  | [] => []
  | (name, e) :: rest => (e.files.map fun f => (name :: f.1, f.2)) ++ filesOf rest

end

/-- The files that another state of the entry has and this one has not, or not with the same
contents. -/
def changes (before after : Entry) : List (List String × ByteArray) :=
  after.files.filter fun f =>
    match before.at? f.1 with
    | some (file contents) => contents.data ≠ f.2.data
    | _ => true

end Entry

/-- Everything there is, and the names that lead from the root to the directory in use. -/
structure Workplace where
  root : Entry
  here : List String := []
deriving Inhabited

namespace Workplace

/-! ### Following file names -/

/-- The longest name of a file in bytes. -/
def longestName : Nat := 255

/-- The longest file name, with all its parts, in bytes. -/
def longestFileName : Nat := 4095

/-- The parts of a file name, none of them empty. -/
def parts (fileName : String) : List String :=
  (Text.splitText '/' fileName).filter (· ≠ "")

/-- Whether a file name can only be that of a directory. -/
def endsWithSlash (fileName : String) : Bool :=
  fileName.toList.getLast? = some '/'

def isAbsolute (fileName : String) : Bool :=
  fileName.toList.head? = some '/'

/-- The names from the root behind one more part of a file name. Each part needs a directory. -/
def step (root : Entry) (names : List String) (part : String) : Except FileFailure (List String) :=
  match root.at? names with
  | none => .error .notFound
  | some (.file _) => .error .notADirectory
  | some (.directory entries) =>
    if part = "." then .ok names
    else if part = ".." then .ok names.dropLast
    else if longestName < part.utf8ByteSize then .error .nameTooLong
    else if (entries.lookup part).isSome then .ok (names ++ [part])
    else .error .notFound

/-- The names from the root to where a file name starts. -/
def origin (w : Workplace) (fileName : String) : Except FileFailure (List String) :=
  if fileName.toList.contains '\x00' then .error .nameHasNul
  else if fileName = "" then .error .notFound
  else if longestFileName < fileName.utf8ByteSize then .error .nameTooLong
  else .ok (if isAbsolute fileName then [] else w.here)

def find (w : Workplace) (fileName : String) : Except FileFailure Entry := do
  let start ← w.origin fileName
  let parts := parts fileName ++ (if endsWithSlash fileName then ["."] else [])
  let names ← parts.foldlM (step w.root) start
  match w.root.at? names with
  | some e => return e
  | none => throw .notFound

def directory? (w : Workplace) (fileName : String) : Option Entry :=
  match w.find fileName with
  | .ok (.directory entries) => some (.directory entries)
  | _ => none

/-! ### Reading and writing -/

def read (w : Workplace) (fileName : String) : Except FileFailure String := do
  match ← w.find fileName with
  | .directory _ => throw .isADirectory
  | .file contents =>
    match String.fromUTF8? contents with
    | some text => return text
    | none => throw .notText

/-- Writes the text of a file, which is made if there is none. -/
def write (w : Workplace) (fileName text : String) : Except FileFailure Workplace := do
  let start ← w.origin fileName
  let parts := parts fileName
  let names ← parts.dropLast.foldlM (step w.root) start
  match w.root.at? names with
  | none => throw .notFound
  | some (.file _) => throw .notADirectory
  | some (.directory entries) =>
    match parts.getLast? with
    | none => throw .isADirectory
    | some last =>
      if endsWithSlash fileName || last = "." || last = ".." then throw .isADirectory
      else if longestName < last.utf8ByteSize then throw .nameTooLong
      else if (entries.lookup last).any Entry.isDirectory then throw .isADirectory
      else return { w with root := .put (.file text.toUTF8) (names ++ [last]) w.root }

/-- The files below the directory in use that another state of the workplace has and this one has
not, or not with the same contents. -/
def changes (before after : Workplace) : List (List String × ByteArray) :=
  ((before.root.at? before.here).getD (.directory [])).changes
    ((after.root.at? after.here).getD (.directory []))

end Workplace

end UnionView
