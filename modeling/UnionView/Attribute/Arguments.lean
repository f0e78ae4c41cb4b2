import UnionView.Grammar.File
import UnionView.Settings.Basic

/-!
# Arguments of the attribute

A declaration asks for a dispatcher with an attribute that may have arguments:
`runtime = path` and `renderers(Type = path, ...)`. All arguments are read before any of them is
looked at; then they are looked at in order, and the first fault is the answer. That a payload has
two renderers is found last.
-/

namespace UnionView

/-- A renderer as it is written in the arguments, with the place of the payload's name. -/
structure WrittenRenderer where
  payload : String
  mark : Mark
  renderer : Path
deriving DecidableEq, Repr

/-- What the arguments say while they are looked at. -/
structure WrittenArguments where
  runtime : Option Path := none
  renderers : List WrittenRenderer := []
deriving DecidableEq, Repr

/-- The arguments of an attribute, with the renderers in the order in which they are written. -/
structure AttributeArguments where
  runtime : Option Path := none
  renderers : List (String × Path) := []
deriving DecidableEq, Repr

/-! ### The arguments one by one -/

/-- The fault of something else being found in the middle of the code. -/
def Fault.expecting (what : String) (mark : Mark) : Fault :=
  { cause := .expected [what], mark }

def Form.pathAt (value : Mark) : Form → Except Fault Path
  | .path p => .ok p
  | _ => .error (.expecting "a path" value)

/-- The first renderer for a payload that has one already. -/
def firstRepeated? (earlier : List String) : List WrittenRenderer → Option WrittenRenderer
  | [] => none
  | r :: rest =>
    if r.payload ∈ earlier then some r else firstRepeated? (r.payload :: earlier) rest

namespace Meta

def value? (m : Meta) (name : String) : Except Fault (Mark × Form) :=
  match m.form with
  | .bare => .error { cause := .noValue name, mark := m.mark }
  | .list group => .error (.expecting "`=`" group.openAt)
  | .value _ value form => .ok (value, form)

/-- The group that follows the argument. -/
def group? (m : Meta) (name : String) : Except Fault Reader.RawGroup :=
  match m.form with
  | .bare => .error { cause := .noArgumentsInParentheses name, mark := m.mark }
  | .list group => .ok group
  | .value equals _ _ => .error (.expecting "`(`" equals)

/-- The renderer that an entry `Type = path` gives. -/
def renderer? (m : Meta) : Except Fault WrittenRenderer := do
  match m.path.name? with
  | none => .error { cause := .notAnIdentifierPath, mark := m.nameMark }
  | some payload =>
    let (value, form) ← m.value? payload
    return { payload, mark := m.nameMark, renderer := ← form.pathAt value }

/-- The renderers that the argument `renderers(..)` gives. The end of its list is where the group
closes. -/
def renderers? (g : Grammar) (m : Meta) : Except Fault (List WrittenRenderer) := do
  let group ← m.group? "renderers"
  let entries ← Reader.run (Reader.separatedBy "," (Read.assignment g)) group.inner group.closeAt
  entries.mapM renderer?

end Meta

namespace WrittenArguments

/-- Adds what an argument says to what earlier arguments said. -/
def add (g : Grammar) (a : WrittenArguments) (m : Meta) : Except Fault WrittenArguments := do
  if m.path.name? = some "runtime" then
    let (value, form) ← m.value? "runtime"
    if a.runtime.isSome then .error { cause := .repeatedRuntime, mark := m.mark }
    else return { a with runtime := some (← form.pathAt value) }
  else if m.path.name? = some "renderers" then
    return { a with renderers := a.renderers ++ (← m.renderers? g) }
  else .error { cause := .unknownArgument, mark := m.mark }

/-- The arguments, if no payload has two renderers. -/
def checked (a : WrittenArguments) : Except Fault AttributeArguments :=
  match firstRepeated? [] a.renderers with
  | some r => .error { cause := .repeatedRenderer r.payload, mark := r.mark }
  | none =>
    .ok { runtime := a.runtime, renderers := a.renderers.map fun r => (r.payload, r.renderer) }

end WrittenArguments

namespace AttributeArguments

def reader (g : Grammar) : Reader AttributeArguments := do
  let metas ← Reader.separatedBy "," (Read.meta? g)
  fun c => do
    let written ← metas.foldlM (WrittenArguments.add g) {}
    return (← written.checked, c)

/-- The arguments that some code is, with `behind` more tokens behind it in the whole. -/
def ofCode (code : Code) (behind : Nat := 0) : Except Fault AttributeArguments :=
  (Reader.run (reader code.grammar) code).mapError (Fault.shift behind)

/-- The settings with the arguments laid over them: what is written with a declaration wins. -/
def applyTo (a : AttributeArguments) (settings : Settings) : Settings :=
  a.renderers.foldl (fun s entry => s.withRenderer entry.1 entry.2)
    (a.runtime.elim settings settings.withRuntime)

/-- No arguments change nothing. -/
@[simp] theorem applyTo_default (settings : Settings) :
    ({} : AttributeArguments).applyTo settings = settings := rfl

end AttributeArguments

/-! ### The attribute itself -/

namespace Attribute

/-- The name of the attribute that asks for a dispatcher. -/
def requestName : String := "with_switch_case_view"

/-- Whether the attribute asks for a dispatcher, by its own name or through a path. -/
def isRequest (a : Attribute) : Bool :=
  a.content.path.lastName = requestName

def arguments (a : Attribute) : Except Fault AttributeArguments :=
  match a.content.form with
  | .bare => .ok {}
  | .list group => AttributeArguments.ofCode group.inner group.closeAt
  | .value _ _ _ => .error { cause := .valueOfAttribute, mark := a.content.mark }

/-- The fault of an attribute that asks for a dispatcher again. -/
def repeatedFault (a : Attribute) : Fault :=
  { cause := .repeatedAttribute, mark := a.mark }

end Attribute

/-- The attributes of an item that ask for a dispatcher. -/
def Item.requests (item : Item) : List Attribute :=
  item.attributes.filter Attribute.isRequest

end UnionView
