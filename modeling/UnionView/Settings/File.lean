import UnionView.Grammar.File
import UnionView.Settings.Basic
import UnionView.Text.CharClass

/-!
# Settings as they are written down

A settings file holds texts. They are read as paths and names only when the settings are built,
so a file can be edited and passed on without being valid; an edit, however, only accepts texts
that are.
-/

namespace UnionView

/-- Settings as they are written down, with renderers by the name of the payload's type. -/
structure SettingsFile where
  runtime : Option String := none
  renderers : NameMap String := .empty
deriving DecidableEq, Repr

/-- Why settings are not valid. The reasons are the messages of the reader of paths. -/
inductive InvalidSettings
  | runtimePath (path reason : String)
  | typeName (name : String)
  | rendererPath (payload path reason : String)
  | assignment (text : String)
deriving DecidableEq, Repr

def InvalidSettings.message : InvalidSettings → String
  | runtimePath path reason => s!"invalid runtime path `{path}`: {reason}"
  | typeName name => s!"invalid payload type name `{name}`: expected a plain identifier"
  | rendererPath payload path reason =>
    s!"invalid renderer path `{path}` for `{payload}`: {reason}"
  | assignment text =>
    s!"invalid renderer assignment `{text}`: expected `TypeName=path::to::Renderer`"

/-- Reads a plain path; the error is a reason without a position. -/
def Path.ofText (text : String) : Except String Path :=
  match readText Code.plainPath? text with
  | .ok (_, path) => .ok path
  | .error fault => .error fault.message

def readRuntime (text : String) : Except InvalidSettings Path :=
  match Path.ofText text with
  | .ok path => .ok path
  | .error reason => .error (.runtimePath text reason)

/-- Reads the name of a payload's type and the path of its renderer, the name first. -/
def readRenderer (payload renderer : String) : Except InvalidSettings (String × Path) :=
  match readText Code.identifier? payload with
  | .error _ => .error (.typeName payload)
  | .ok (_, name) =>
    match Path.ofText renderer with
    | .ok path => .ok (name, path)
    | .error reason => .error (.rendererPath payload renderer reason)

/-- The two sides of the first equals sign. -/
def splitAssignment? (text : String) : Option (String × String) :=
  let cs := text.toList
  match cs.dropWhile (· ≠ '=') with
  | [] => none
  | _ :: right => some (String.ofList (cs.takeWhile (· ≠ '=')), String.ofList right)

/-- Reads a renderer that is written `Type=path`. -/
def readAssignment (text : String) : Except InvalidSettings (String × Path) :=
  match splitAssignment? text with
  | none => .error (.assignment text)
  | some (payload, renderer) => readRenderer (Text.trimText payload) (Text.trimText renderer)

def Settings.withRuntimeText (s : Settings) (runtime : String) :
    Except InvalidSettings Settings := do
  return s.withRuntime (← readRuntime runtime)

namespace SettingsFile

/-- Writes down another runtime, which has to be a plain path. -/
def setRuntime (file : SettingsFile) (runtime : String) : Except InvalidSettings SettingsFile := do
  let _ ← readRuntime runtime
  return { file with runtime := some runtime }

/-- Writes down a renderer that is given as `Type=path`. -/
def setRenderer (file : SettingsFile) (assignment : String) :
    Except InvalidSettings SettingsFile := do
  let (payload, renderer) ← readAssignment assignment
  return { file with renderers := file.renderers.insert payload renderer.text }

/-- The settings that are written down: the runtime first, then the renderers in the order of
their names. -/
def settings? (file : SettingsFile) : Except InvalidSettings Settings := do
  let base : Settings ←
    match file.runtime with
    | some runtime => ({} : Settings).withRuntimeText runtime
    | none => pure {}
  file.renderers.entries.foldlM
    (fun settings entry => do
      let (payload, renderer) ← readRenderer entry.1 entry.2
      return settings.withRenderer payload renderer)
    base

end SettingsFile

/-! ### Edits -/

/-- What a text chooses when it is read. -/
inductive Choice
  | runtime (path : Path)
  | renderer (payload : String) (path : Path)
deriving DecidableEq, Repr

def Choice.applyTo : Choice → Settings → Settings
  | runtime path, s => s.withRuntime path
  | renderer payload path, s => s.withRenderer payload path

/-- An edit of a settings file, with the text that it is given. -/
inductive Edit
  | runtime (text : String)
  | renderer (assignment : String)
deriving DecidableEq, Repr

namespace Edit

/-- What an edit chooses, whatever file it is for. -/
def read : Edit → Except InvalidSettings Choice
  | runtime text => (readRuntime text).map .runtime
  | renderer text => (readAssignment text).map fun assigned => .renderer assigned.1 assigned.2

/-- The file with the edit, unless the edit is refused. -/
def applyTo : Edit → SettingsFile → Except InvalidSettings SettingsFile
  | runtime text, file => file.setRuntime text
  | renderer text, file => file.setRenderer text

/-- Edits a file in place. The text is read first; the file that is there when it cannot be read
is the file that is left behind. -/
def run : Edit → EStateM InvalidSettings SettingsFile Unit
  | runtime text => do
    let _ ← ofExcept (readRuntime text)
    modify fun file => { file with runtime := some text }
  | renderer text => do
    let (payload, path) ← ofExcept (readAssignment text)
    modify fun file => { file with renderers := file.renderers.insert payload path.text }

end Edit

namespace SettingsFile

/-- The file that an edit leaves behind, accepted or refused. -/
def edited (file : SettingsFile) (e : Edit) : SettingsFile :=
  match e.run file with
  | .ok _ after => after
  | .error _ after => after

/-- The file that several edits leave behind. -/
def editedBy (file : SettingsFile) (edits : List Edit) : SettingsFile :=
  edits.foldl edited file

end SettingsFile

end UnionView
