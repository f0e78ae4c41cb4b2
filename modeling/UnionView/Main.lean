import UnionView.Command.Run

/-!
# The command

The outer layer of the command: it looks at the files that the arguments name, lets the command
run on what it saw, prints what there is to print and writes what there is to write.
-/

namespace UnionView

def rootedName (names : List String) : String :=
  "/" ++ String.intercalate "/" names

/-- What stands under a file name, a directory with everything below it if `deep`. -/
partial def lookAt (deep : Bool) (fileName : String) : IO (Option Entry) := do
  try
    let place ← IO.FS.realPath fileName
    if ← place.isDir then
      let mut entries : List (String × Entry) := []
      if deep then
        for child in ← place.readDir do
          if let some e ← lookAt deep (joinNames fileName child.fileName) then
            entries := NameMap.insertInto child.fileName e entries
      return some (.directory entries)
    else return some (.file (← IO.FS.readBinFile fileName))
  catch _ => return none

/-- The workplace with what stands on the way of a file name and under it. -/
def addFile (deep : Bool) (w : Workplace) (fileName : String) : IO Workplace := do
  let parts := if (Workplace.parts fileName).isEmpty then ["."] else Workplace.parts fileName
  let mut names := if Workplace.isAbsolute fileName then [] else w.here
  let mut root := w.root
  let mut left := parts.length
  for part in parts do
    left := left - 1
    if part = ".." then names := names.dropLast
    else if part ≠ "." then
      names := names ++ [part]
    if (root.at? names).isNone || left = 0 then
      if let some e ← lookAt (deep && left = 0) (rootedName names) then
        if deep && left = 0 || (root.at? names).isNone then root := Entry.put e names root
  return { w with root }

end UnionView

open UnionView in
/-- Runs the command. -/
def main (words : List String) : IO UInt32 := do
  let here := Workplace.parts (toString (← IO.currentDir))
  let start : Workplace := { root := Entry.put (.directory []) here (.directory []), here }
  let w ←
    match Command.Arguments.ofWords words with
    | .error _ => pure start
    | .ok a => do
      let w ← (a.settingsFile.toList ++ a.output.toList).foldlM (addFile false) start
      a.inputs.foldlM (addFile true) w
  let outcome := Command.run words none w
  IO.print outcome.output
  IO.eprint outcome.errors
  for (names, contents) in w.root.changes outcome.workplace.root do
    IO.FS.writeBinFile (rootedName names) contents
  return outcome.exitCode.toUInt32
