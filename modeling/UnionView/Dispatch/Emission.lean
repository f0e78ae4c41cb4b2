import UnionView.Dispatch.Match
import UnionView.Text.Quoted

/-!
# Emission

The generated items: the dispatcher, which holds a store of the union, and its implementations of
the traits of the runtime. The dispatcher has the parameters of the union behind a lifetime for
the store.
-/

namespace UnionView

/-! ### Parameters in the places where they stand -/

namespace Parameter

/-- The name of a parameter as a token or two. -/
def nameCode (p : Parameter) : Code :=
  match p.kind with
  | .lifetime => [.punct '\'' .joint, .ident p.name]
  | _ => wordCode p.name

/-- A parameter without its default. Bounds are left out together with their colon. -/
def boundedCode (p : Parameter) : Code :=
  p.attributes ++ (if p.kind = .constant then wordCode "const" else []) ++ p.nameCode ++
    match p.bounds with
    | none => []
    | some [] => []
    | some bounds => opCode ":" ++ bounds

def declaredCode (p : Parameter) : Code :=
  p.boundedCode ++
    match p.default with
    | none => []
    | some default => opCode "=" ++ default

def commaCode (p : Parameter) : Code :=
  if p.comma then opCode "," else []

/-- A parameter as an entry of a list in angle brackets. -/
def entry (code : Parameter → Code) (p : Parameter) : Bool × Code × Bool :=
  (decide (p.kind = .lifetime), code p, p.comma)

end Parameter

namespace Generics

/-- The parameters as they are written. -/
def declaredCode (g : Generics) : Code :=
  g.parameters.flatMap fun p => p.declaredCode ++ p.commaCode

/-- A list in angle brackets, unless there are no parameters. -/
def angled (g : Generics) (code : Parameter → Code) : Code :=
  if g.parameters.isEmpty then []
  else opCode "<" ++ lifetimesFirst (g.parameters.map (Parameter.entry code)) ++ opCode ">"

def implCode (g : Generics) : Code :=
  g.angled Parameter.boundedCode

/-- The parameters as arguments of the type that declares them. -/
def argumentCode (g : Generics) : Code :=
  g.angled Parameter.nameCode

/-- The predicates with their keyword, unless there are none. -/
def whereCode (g : Generics) : Code :=
  match g.predicates with
  | none => []
  | some [] => []
  | some predicates => wordCode "where" ++ predicates

def storeLifetime : Parameter :=
  { kind := .lifetime, name := "store" }

/-- The parameters of a dispatcher: those of the union behind the lifetime of the store. -/
def withStore (g : Generics) : Generics :=
  { g with
    parameters := { storeLifetime with comma := !g.parameters.isEmpty } :: g.parameters }

end Generics

/-! ### Generated items -/

/-- A generated dispatcher: the union it belongs to, its own name, what it draws and its code. -/
structure Artifact where
  owner : String
  view : String
  body : Dispatch
  code : Code
deriving DecidableEq, Repr

def Artifact.source (a : Artifact) : String :=
  a.code.text

/-- Whether two dispatchers are the same: they have the same names, draw the same and read the
same. -/
def Artifact.isSameAs (a b : Artifact) : Bool :=
  a.owner = b.owner && a.view = b.view && a.body = b.body && a.source = b.source

def attributeCode (content : Code) : Code :=
  opCode "#" ++ groupCode .square content

/-- The attribute that allows what a lint would report. -/
def allowCode (lint : String) : Code :=
  attributeCode (wordCode "allow" ++ groupCode .round (wordCode lint))

/-- The documentation of a generated dispatcher. -/
def documentationCode (owner : String) : Code :=
  attributeCode (wordCode "doc" ++ opCode "=" ++
    [.literal (Text.quoteLiteral
      s!"Renders the active variant of [`{owner}`] by delegating to its child view.".toList)])

/-- What the items of a dispatcher are made of. -/
structure Emission where
  runtime : Path
  union : TaggedUnion
  dispatch : Dispatch

namespace Emission

variable (e : Emission)

def view : String := viewName e.union.name

def generics : Generics := e.union.generics.withStore

def ownerType : Code := wordCode e.union.name ++ e.union.generics.argumentCode

def viewType : Code := wordCode e.view ++ e.generics.argumentCode

def lifetime : Code := Generics.storeLifetime.nameCode

/-- The lifetime of the store and the union, in angle brackets. -/
def storeArguments : Code :=
  opCode "<" ++ lifetime ++ opCode "," ++ e.ownerType ++ opCode ">"

def storeType : Code := (e.runtime.child "Store").code ++ e.storeArguments

/-- The struct. Nothing reads the store if nothing is drawn. -/
def structCode : Code :=
  documentationCode e.union.name ++ wordCode "pub" ++ wordCode "struct" ++ wordCode e.view ++
    opCode "<" ++ e.generics.declaredCode ++ opCode ">" ++ e.generics.whereCode ++
    groupCode .curly
      ((if e.dispatch = .empty then allowCode "dead_code" else []) ++ wordCode "store" ++
        opCode ":" ++ e.storeType ++ opCode ",")

def fromStoreCode : Code :=
  wordCode "impl" ++ e.generics.implCode ++ (e.runtime.child "FromStore").code ++
    e.storeArguments ++ wordCode "for" ++ e.viewType ++ e.generics.whereCode ++
    groupCode .curly
      (wordCode "fn" ++ wordCode "from_store" ++
        groupCode .round (wordCode "store" ++ opCode ":" ++ e.storeType) ++
        opCode "->" ++ wordCode "Self" ++
        groupCode .curly (wordCode "Self" ++ groupCode .curly (wordCode "store")))

/-- The dispatcher draws the active variant. -/
def viewCode : Code :=
  wordCode "impl" ++ e.generics.implCode ++ (e.runtime.child "View").code ++ wordCode "for" ++
    e.viewType ++ e.generics.whereCode ++
    groupCode .curly
      (allowCode "unreachable_patterns" ++ wordCode "fn" ++ wordCode "body" ++
        groupCode .round (opCode "&" ++ wordCode "self") ++ opCode "->" ++
        (e.runtime.child "Element").code ++
        groupCode .curly
          (allowCode "unused_imports" ++ wordCode "use" ++ (e.runtime.child "FromStore").code ++
            wordCode "as" ++ wordCode "_" ++ opCode ";" ++
            (e.dispatch.body e.union.name).code e.runtime))

def hasViewCode : Code :=
  wordCode "impl" ++ e.union.generics.implCode ++ (e.runtime.child "HasView").code ++
    wordCode "for" ++ e.ownerType ++ e.union.generics.whereCode ++
    groupCode .curly
      (wordCode "type" ++ wordCode "View" ++ opCode "<" ++ lifetime ++ opCode ">" ++
        opCode "=" ++ e.viewType ++ wordCode "where" ++ wordCode "Self" ++ opCode ":" ++
        lifetime ++ opCode ";")

/-- All generated items. -/
def code : Code :=
  e.structCode ++ e.fromStoreCode ++ e.viewCode ++ e.hasViewCode

end Emission

def TaggedUnion.emit (u : TaggedUnion) (dispatch : Dispatch) (settings : Settings) : Artifact :=
  let e : Emission := { runtime := settings.runtime, union := u, dispatch }
  { owner := u.name, view := e.view, body := dispatch, code := e.code }

end UnionView
