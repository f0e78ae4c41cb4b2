import UnionView.Attribute.Arguments
import UnionView.Dispatch.Expansion

/-!
# Attaching a dispatcher to a declaration

While code is compiled, the attribute is taken from a declaration and what comes back stands in
the declaration's place: the declaration as it was written and, behind it, the dispatcher. With
faulty arguments nothing comes back. An attribute that is still on the declaration would ask for
the dispatcher a second time, so there is none then.
-/

namespace UnionView

/-- What a compiler is told about a declaration. -/
structure Notice where
  severity : Severity
  message : String
  mark : Mark
deriving DecidableEq, Repr

namespace Notice

def ofFault (fault : Fault) : Notice :=
  { severity := .error, message := fault.message, mark := fault.mark }

/-- A finding without the declaration that it is about. -/
def ofFinding (f : Finding) : Notice :=
  { severity := f.severity, message := f.message, mark := f.mark }

end Notice

/-- What stands in the place of a declaration, and what there is to say. -/
structure Attachment where
  code : Code
  notices : List Notice
deriving DecidableEq, Repr

/-- The first attribute on a declaration that asks for a dispatcher, if the code is one. -/
def Code.request? (code : Code) : Option Attribute :=
  match code.item? with
  | .ok item => item.requests.head?
  | .error _ => none

/-- Attaches the dispatcher to a declaration. An error is a fault of the arguments, which has its
place there; all notices have theirs in the declaration. -/
def Code.attach (arguments declaration : Code) : Except Fault Attachment := do
  let settings := (← AttributeArguments.ofCode arguments).applyTo {}
  match declaration.request? with
  | some again => return { code := declaration, notices := [.ofFault again.repeatedFault] }
  | none =>
    let expansion := declaration.expand settings
    return { code := declaration ++ expansion.code
             notices := expansion.findings.map .ofFinding }

end UnionView
