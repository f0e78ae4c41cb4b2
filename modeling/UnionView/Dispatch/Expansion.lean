import UnionView.Dispatch.Emission
import UnionView.Union.Extraction
import UnionView.Union.Validation

/-!
# Expansion

The way from a declaration to its dispatcher: extract the union, validate it, build the dispatch
and emit the code. It ends with a dispatcher or, if there is no union, with one error.
-/

namespace UnionView

/-- Where an expansion ended. -/
inductive Stage
  | emitted
  | extractionFailed
deriving DecidableEq, Repr

def Stage.text : Stage → String
  | emitted => "emitted"
  | extractionFailed => "extraction-failed"

/-- What came of a declaration: a dispatcher, if there is one, and what there is to say. -/
structure Expansion where
  artifact : Option Artifact
  findings : List Finding
  stage : Stage
deriving DecidableEq, Repr

namespace Expansion

def hasErrors (e : Expansion) : Bool :=
  e.findings.any Finding.isError

/-- The generated code, of which there is none without a dispatcher. -/
def code (e : Expansion) : Code :=
  match e.artifact with
  | some artifact => artifact.code
  | none => []

/-- The expansion of what is not a union. -/
def failed (e : NotAUnion) : Expansion :=
  { artifact := none, findings := [e.finding], stage := .extractionFailed }

def diagnostics (e : Expansion) (listing : Listing) : List Diagnostic :=
  e.findings.map (Finding.placedIn listing)

end Expansion

def TaggedUnion.expand (u : TaggedUnion) (settings : Settings) : Expansion :=
  let validated := u.validate
  let dispatch := validated.union.dispatch settings.renderers
  { artifact := some (validated.union.emit dispatch settings)
    findings := validated.warning?.toList
    stage := .emitted }

def Item.expand (item : Item) (settings : Settings) : Expansion :=
  match item.extract with
  | .ok union => union.expand settings
  | .error e => .failed e

/-- The expansion of some code, which has to be an item. -/
def Code.expand (code : Code) (settings : Settings) : Expansion :=
  match code.item? with
  | .ok item => item.expand settings
  | .error fault => .failed (.ofFault fault)

end UnionView
