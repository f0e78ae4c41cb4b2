import UnionView.Dispatch.Basic
import UnionView.Settings.Basic

/-!
# The generated match

The body of a dispatcher is a `match` with one arm per variant. An arm that delegates narrows the
store to the payload with a second pattern, which binds the first field, and hands the narrowed
store to the renderer. Here the `match` is a value; `Body.code` prints it.
-/

namespace UnionView

inductive FieldsPattern
  /-- Nothing is written behind the name. -/
  | unit
  /-- Any fields in round brackets. -/
  | anyTuple
  /-- Any fields in braces. -/
  | anyNamed
  /-- The first field in round brackets is bound. -/
  | firstOfTuple
  /-- The field of this name in braces is bound. -/
  | field (name : String)
deriving DecidableEq, Repr

structure ArmPattern where
  owner : String
  variant : String
  fields : FieldsPattern
deriving DecidableEq, Repr

inductive ArmBody
  | empty
  /-- The renderer draws what the pattern binds; nothing is drawn if it does not match. -/
  | narrow (pattern : ArmPattern) (renderer : Path)
deriving DecidableEq, Repr

structure Arm where
  pattern : ArmPattern
  body : ArmBody
deriving DecidableEq, Repr

inductive Body
  | empty
  | select (subject : Code) (arms : List Arm)
deriving DecidableEq, Repr

/-! ### From a dispatch -/

/-- The pattern for a variant whatever its fields are. -/
def UnionVariant.armPattern (owner : String) (v : UnionVariant) : ArmPattern :=
  { owner, variant := v.name
    fields :=
      match v.form with
      | .unit => .unit
      | .tuple => .anyTuple
      | .named _ => .anyNamed }

/-- The pattern that binds the first field of a variant, if it can have one. -/
def VariantForm.narrowPattern? (owner variant : String) : VariantForm → Option ArmPattern
  | .unit => none
  | .tuple => some { owner, variant, fields := .firstOfTuple }
  | .named first => first.map fun name => { owner, variant, fields := .field name }

def Branch.armBody (owner : String) (form : VariantForm) : Branch → ArmBody
  | .empty => .empty
  | .delegate variant renderer =>
    match form.narrowPattern? owner variant with
    | some pattern => .narrow pattern renderer
    | none => .empty

/-- The body of the dispatcher of the union that is called `owner`. -/
def Dispatch.body (owner : String) : Dispatch → Body
  | .empty => .empty
  | .switch subject branches =>
    .select subject (branches.map fun b =>
      { pattern := b.1.armPattern owner, body := b.2.armBody owner b.1.form })

/-! ### Printing -/

def wordCode (text : String) : Code :=
  [.ident text]

/-- An operator of one or more characters. -/
def opCode (text : String) : Code :=
  operatorCode text.toList

/-- Words between `::`, rooted. -/
def rootedCode (first : String) (more : List String) : Code :=
  ({ rooted := true, first := { name := first }
     more := more.map fun name => { name } } : Path).code

namespace FieldsPattern

def boundName : String := "inner"

/-- The tokens behind the name of the variant. -/
def code : FieldsPattern → Code
  | unit => []
  | anyTuple => groupCode .round (opCode "..")
  | anyNamed => groupCode .curly (opCode "..")
  | firstOfTuple => groupCode .round (wordCode boundName ++ opCode "," ++ opCode "..")
  | field name =>
    groupCode .curly
      (wordCode name ++ opCode ":" ++ wordCode boundName ++ opCode "," ++ opCode "..")

end FieldsPattern

def ArmPattern.code (p : ArmPattern) : Code :=
  wordCode p.owner ++ opCode "::" ++ wordCode p.variant ++ p.fields.code

def emptyElementCode (runtime : Path) : Code :=
  ((runtime.child "Element").child "Empty").code

/-- `some` of the standard library, as generated code spells it. -/
def someCode : Code := rootedCode "core" ["option", "Option", "Some"]

/-- `none` of the standard library, as generated code spells it. -/
def noneCode : Code := rootedCode "core" ["option", "Option", "None"]

/-- The function that narrows the state to the field that a pattern binds. -/
def ArmPattern.narrowingCode (p : ArmPattern) : Code :=
  opCode "|" ++ wordCode "state" ++ opCode "|" ++ wordCode "match" ++ wordCode "state" ++
    groupCode .curly
      (p.code ++ opCode "=>" ++ someCode ++ groupCode .round (wordCode FieldsPattern.boundName) ++
        opCode "," ++
        wordCode "_" ++ opCode "=>" ++ noneCode ++ opCode ",")

def ArmBody.code (runtime : Path) : ArmBody → Code
  | .empty => emptyElementCode runtime
  | .narrow pattern renderer =>
    wordCode "if" ++ wordCode "let" ++ someCode ++ groupCode .round (wordCode "store") ++
      opCode "=" ++
      wordCode "self" ++ opCode "." ++ wordCode "store" ++ opCode "." ++ wordCode "scope" ++
      groupCode .round pattern.narrowingCode ++
      groupCode .curly
        (((runtime.child "View").child "body").code ++
          groupCode .round
            (opCode "&" ++ (renderer.child "from_store").code ++
              groupCode .round (wordCode "store"))) ++
      wordCode "else" ++ groupCode .curly (emptyElementCode runtime)

def Arm.code (runtime : Path) (arm : Arm) : Code :=
  arm.pattern.code ++ opCode "=>" ++ groupCode .curly (arm.body.code runtime)

def Body.code (runtime : Path) : Body → Code
  | .empty => emptyElementCode runtime
  | .select subject arms =>
    wordCode "match" ++ subject ++ groupCode .curly (arms.flatMap (Arm.code runtime))

end UnionView
