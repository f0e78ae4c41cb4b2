import UnionView.Proofs.Reading.Body
import UnionView.Proofs.Reading.Generics
import UnionView.Proofs.Reading.Outline
import UnionView.Proofs.Settings.Runtime

/-!
# Reading the generated items

Each of the items of an emission is read as what it is meant to be (`Emission.takes_outline`).
-/

namespace UnionView

open Reader

/-! ### What is known of an emission -/

/-- What an emission is made of may stand where it is printed. -/
structure Emission.IsKnown (e : Emission) : Prop where
  runtime : ∀ s ∈ e.runtime.segments, s.IsPlain
  importable : e.runtime.IsImportable
  owner : Terminal.identifier.fits [.ident e.union.name] = true
  view : Terminal.identifier.fits [.ident e.view] = true
  generics : e.union.generics.IsKnown
  lead : e.union.generics.MayLead
  body : (e.dispatch.body e.union.name).IsKnown

namespace Generics

lemma readsBack_storeLifetime (comma : Bool) :
    Parameter.ReadsBack { storeLifetime with comma } where
  attributes _ _ _ h := (Read.takes_outerAttributes_nil _ h).mono fun _ _ => trivial
  bounds := nofun
  default := nofun

lemma IsKnown.withStore {g : Generics} (h : g.IsKnown) : g.withStore.IsKnown where
  declared := List.forall_mem_cons.mpr ⟨rfl, h.declared⟩
  punctuated := h.punctuated.withStore
  readsBack :=
    { parameters := List.forall_mem_cons.mpr ⟨readsBack_storeLifetime _, h.readsBack.parameters⟩
      predicates := h.readsBack.predicates }

/-- The lifetime of the store is the first of the parameters of a dispatcher. -/
lemma mayLead_withStore (g : Generics) : g.withStore.MayLead := by
  rintro _ ⟨⟩ hname
  exact absurd hname (show "store" ≠ "_" by decide)

end Generics

lemma Emission.storeArguments_eq (e : Emission) : e.storeArguments =
    opCode "<" ++ ([.punct '\'' .joint, .ident "store"] ++ opCode "," ++ e.ownerType) ++
      opCode ">" := by
  unfold storeArguments
  simp only [List.append_assoc]
  rfl

/-- Paths with the same names are the same without arguments. -/
lemma Path.IsNamed.bare_eq {p q : Path} (h : p.IsNamed q) : q.bare = p.bare := by
  obtain ⟨hrooted, hnames⟩ := h
  obtain ⟨hfirst, hmore⟩ := List.cons.inj hnames
  have hmore' : q.more.map (fun s => ({ name := s.name } : PathSegment)) =
      p.more.map fun s => { name := s.name } := by
    have hcongr := congrArg (List.map fun name => ({ name } : PathSegment)) hmore
    rwa [List.map_map, List.map_map] at hcongr
  unfold bare
  rw [hrooted, hmore', show q.first.name = p.first.name from hfirst]

namespace Path

/-- A path has more tokens than names behind the first one. -/
lemma length_lt_code (p : Path) : p.more.length < p.code.length := by
  have hlt := length_lt_segmentsCode p.more p.first
  unfold code segments
  rw [List.length_append]
  omega

/-- A path without arguments is what it is without arguments. -/
lemma bare_eq_self {p : Path} (h : ∀ s ∈ p.segments, s.IsPlain) : p.bare = p := by
  obtain ⟨rooted, first, more⟩ := p
  have hfirst := (h first List.mem_cons_self).eq_name
  have hmore : more.map (fun s => ({ name := s.name } : PathSegment)) = more := by
    refine (List.map_congr_left fun s hs => ?_).trans (List.map_id more)
    exact (h s (List.mem_cons_of_mem _ hs)).eq_name.symm
  unfold bare
  rw [hmore, ← hfirst]

end Path

namespace Read

variable {rest code : Code}

/-! ### Functions -/

/-- The signature of a function with a result and without anything that may be left out. -/
lemma takes_signature {g : Grammar} {name : String} {args result : Code}
    (hname : Terminal.identifier.fits [.ident name] = true)
    (hargs : ∀ fuel, Takes (functionArguments g (fuel + 1) false true) args
      (.closing .round :: (opCode "->" ++ result ++ .opening .curly :: rest)) fun _ => True)
    (hresult : Takes (g.type true) result (.opening .curly :: rest) fun _ => True) :
    Takes (signature g false)
      (wordCode "fn" ++ (wordCode name ++ (groupCode .round args ++ (opCode "->" ++ result))))
      (.opening .curly :: rest) fun _ => True := by
  unfold signature
  refine .refuse rfl (.refuse rfl (.refuse rfl ?_))
  refine .look (a := ()) (fun _ _ => ⟨_, _, rfl, rfl⟩) (.quiet .mark fun keyword _ => ?_)
  refine .seq (.word "fn") fun _ => .bind (.identifier hname) ?_
  rintro _ rfl
  refine .quiet (takes_parameters_nil g rfl) fun _ _ => ?_
  refine .seq (.group (.get fun c hc => hargs _)) fun _ => ?_
  have hreturn : Takes (returnType g true) (opCode "->" ++ result) (.opening .curly :: rest)
      fun _ => True := .accept (.last hresult fun _ _ => .pure trivial)
  refine .last hreturn fun _ _ => ?_
  exact fun _ _ => ⟨_, _, rfl, trivial⟩

/-- A function in an implementation, with an attribute or without. -/
lemma takes_implItem_function {g : Grammar} {name : String} {attributes signed body : Code}
    (hattributes : attributes = [] ∨ attributes = allowCode "unreachable_patterns")
    (hsigned : Takes (signature g false) (wordCode "fn" ++ (wordCode name ++ signed))
      (groupCode .curly body ++ rest) fun _ => True)
    (hbody : Takes (block g) (groupCode .curly body) rest fun _ => True) :
    Takes (implItem g)
      (attributes ++ (wordCode "fn" ++ (wordCode name ++ signed) ++ groupCode .curly body)) rest
      fun _ => True := by
  have hmethod : Takes (do
      let _ ← signature g false
      if !(← acceptOperator ";") then
        let _ ← block g) (wordCode "fn" ++ (wordCode name ++ signed) ++ groupCode .curly body) rest
      fun _ => True :=
    .seq hsigned fun _ => .refuse rfl (.last hbody fun _ _ => .pure trivial)
  refine .leads (fun _ _ => ?_) hmethod
  obtain rfl | rfl := hattributes <;> exact ⟨_, rfl⟩

/-! ### Imports -/

/-- The path of an import with the underscore that it is imported as. -/
lemma takes_useTree {fuel : Nat} (allowRoot : Bool) {first : PathSegment} {more : List PathSegment}
    (hfuel : more.length ≤ fuel)
    (himport : ∀ s ∈ first :: more, s.arguments = [] ∧ Path.isImportName s.name = true) :
    Takes (useTree (grammar fuel) allowRoot)
      (Path.segmentsCode (first :: more) ++ (wordCode "as" ++ wordCode "_")) rest
      fun _ => True := by
  intro behind written
  obtain ⟨written', htree⟩ := useTree_of_importable allowRoot
    (c := { rest := Path.segmentsCode (first :: more) ++ (wordCode "as" ++ wordCode "_") ++ rest
            behind, written }) hfuel himport (List.append_assoc _ _ _)
  exact ⟨true, written', htree, trivial⟩

/-- An import with an underscore from its keyword on. -/
lemma takes_useDeclaration {fuel : Nat} (start : Mark) (attributes : List Attribute) {p : Path}
    (hfuel : p.more.length ≤ fuel) (hplain : ∀ s ∈ p.segments, s.IsPlain)
    (himport : p.IsImportable) :
    Takes (useDeclaration (grammar (fuel + 1)) start attributes)
      (wordCode "use" ++ (p.code ++ (wordCode "as" ++ wordCode "_") ++ opCode ";")) rest
      fun _ => True := by
  obtain ⟨behind, hbehind⟩ := Path.exists_segmentsCode (hplain p.first List.mem_cons_self) p.more
  have hroot : Takes (acceptOperator "::") (if p.rooted then Path.separator else [])
      (Path.segmentsCode p.segments ++ (wordCode "as" ++ wordCode "_") ++ opCode ";" ++ rest)
      (· = p.rooted) := by
    rw [Path.segments, hbehind]
    exact takes_root p.rooted p.first.name _
  have htree (allowRoot : Bool) : Takes ((grammar (fuel + 1)).useTree allowRoot)
      (Path.segmentsCode p.segments ++ (wordCode "as" ++ wordCode "_")) (opCode ";" ++ rest)
      fun _ => True := takes_useTree allowRoot hfuel himport
  unfold Path.code
  rw [List.append_assoc (if p.rooted then Path.separator else []),
    List.append_assoc (if p.rooted then Path.separator else [])]
  refine .quiet .mark fun keyword _ => .seq (.word "use") fun _ => .seq hroot fun root => ?_
  refine .seq (htree _) fun understood => ?_
  exact .last (.operator ";") fun _ _ => .pure trivial

/-- An import with an attribute in front of another statement. -/
lemma takes_statements_import {fuel : Nat} {p : Path} {d : Delimiter} (hfuel : p.more.length ≤ fuel)
    (hplain : ∀ s ∈ p.segments, s.IsPlain) (himport : p.IsImportable)
    (hcode : IsStatement (grammar (fuel + 3)) code d rest) :
    Takes (statements (grammar (fuel + 3)))
      (allowCode "unused_imports" ++
        (wordCode "use" ++ (p.code ++ (wordCode "as" ++ wordCode "_") ++
        opCode ";")) ++ code) (.closing d :: rest) fun _ => True := by
  refine TakesEach.repeatWhile (.goOn nofun ?_ hcode.takesEach)
  have hnone : Takes (repeatWhile (acceptOperator ";")) [] (allowCode "unused_imports" ++
      (wordCode "use" ++ (p.code ++ (wordCode "as" ++ wordCode "_") ++ opCode ";")) ++
        (code ++ .closing d :: rest)) fun _ => True :=
    TakesEach.repeatWhile (.stop (.refused rfl))
  have hitem (start : Mark) (attributes : List Attribute) :
      Takes ((grammar (fuel + 3)).item start attributes)
        (wordCode "use" ++ (p.code ++ (wordCode "as" ++ wordCode "_") ++ opCode ";"))
        (code ++ .closing d :: rest) fun _ => True := by
    show Takes (item (grammar (fuel + 2)) start attributes) _ _ _
    refine .of_eq (fun c hc => ?_)
      (takes_useDeclaration start attributes (Nat.le_succ_of_le hfuel) hplain himport)
    obtain ⟨_, behind, written, leftover⟩ := c
    subst hc
    rfl
  have hstatement : Takes (statement (grammar (fuel + 3))) (allowCode "unused_imports" ++
      (wordCode "use" ++ (p.code ++ (wordCode "as" ++ wordCode "_") ++ opCode ";")))
        (code ++ .closing d :: rest) (· = false) := by
    refine .quiet .mark fun start _ => ?_
    refine .bind (P := fun _ => True) (fun _ _ => ⟨_, _, rfl, trivial⟩) fun attributes _ => ?_
    refine .look (a := .expression) (fun _ _ => ⟨_, _, rfl, rfl⟩) (.see rfl ?_)
    refine .look (a := true) (fun _ _ => ⟨_, _, rfl, rfl⟩) ?_
    exact .last (hitem start attributes) fun _ _ => .pure rfl
  refine .quiet hnone fun _ _ => .seeEnd rfl (.last hstatement ?_)
  rintro _ rfl
  exact .seeEnd hcode.goesOn (.pure rfl)

/-! ### Aliases -/

/-- The alias of the view of a store, with the predicate that its lifetime needs. -/
lemma takes_implItem_alias {fuel : Nat} {type : Code}
    (htype : Takes ((grammar (fuel + 2)).type true) type
      (wordCode "where" ++ wordCode "Self" ++ opCode ":" ++ Generics.storeLifetime.nameCode ++
        opCode ";" ++ rest) fun _ => True) :
    Takes (implItem (grammar (fuel + 2)))
      (wordCode "type" ++ (wordCode "View" ++ ((opCode "<" ++ Generics.storeLifetime.nameCode ++
        opCode ">") ++ (opCode "=" ++ (type ++ (wordCode "where" ++ wordCode "Self" ++ opCode ":" ++
          Generics.storeLifetime.nameCode ++ opCode ";")))))) rest fun _ => True := by
  have halias : Takes (typeAlias (grammar (fuel + 2)) .afterDefinition)
      (wordCode "type" ++ (wordCode "View" ++ ((opCode "<" ++ Generics.storeLifetime.nameCode ++
        opCode ">") ++ (opCode "=" ++ (type ++ (wordCode "where" ++ wordCode "Self" ++ opCode ":" ++
          Generics.storeLifetime.nameCode ++ opCode ";")))))) rest fun _ => True := by
    unfold typeAlias
    refine .quiet .mark fun keyword _ => .seq (.word "type") fun _ => ?_
    refine .seq (.identifier rfl) fun name => ?_
    refine .seq (P := fun _ => True) (fun _ _ => ⟨_, _, rfl, trivial⟩) fun _ => .refuse rfl ?_
    refine .look (a := none) (.pure rfl) (.accept (.seq htype fun _ => ?_))
    exact fun _ _ => ⟨_, _, rfl, trivial⟩
  refine .of_eq (fun c hc => ?_) halias.dropped
  obtain ⟨_, behind, written, leftover⟩ := c
  subst hc
  rfl

/-! ### Implementations -/

lemma takes_typePath {g : Grammar} {p : Path}
    (h : Takes (g.type true) code rest fun t => ∃ q, t = .path q ∧ p.IsNamed q) :
    Takes (typePath g) code rest (· = p.bare) := by
  refine .last h ?_
  rintro _ ⟨q, rfl, hq⟩
  exact .pure hq.bare_eq

/-- One thing in the braces of an implementation. -/
lemma takes_implContents {g : Grammar}
    (hfront : ((Terminal.operator "#").fits (code ++ .closing .curly :: rest) &&
      (Terminal.operator "!").fits
        (Cursor.skip { rest := code ++ .closing .curly :: rest } 1)) = false)
    (hopen : Cursor.isEnded { rest := code ++ .closing .curly :: rest } = false)
    (h : Takes (implItem g) code (.closing .curly :: rest) fun _ => True) :
    Takes (implContents g) (groupCode .curly code) rest (· = []) := by
  refine .group (.look (takes_innerAttributes_nil g hfront) ?_)
  exact .last (.untilEnd_single hopen h) fun _ _ => .pure rfl

/-- What the code of an implementation consists of. -/
structure IsImplementation (g : Grammar) (rest parameters trait type restricted content : Code)
    (p q : Path) : Prop where
  parameters : ∀ rest, parameters = [] ∨ Takes startsParameters [] (parameters ++ rest) (· = true) ∧
    Takes (Read.parameters g) parameters rest fun _ => True
  start : ∀ rest, (trait ++ rest).StartsPath
  trait : ∀ rest, Takes (g.type true) trait (wordCode "for" ++ rest)
    fun t => ∃ path, t = .path path ∧ p.IsNamed path
  type : Takes (g.type true) type (restricted ++ (groupCode .curly content ++ rest))
    fun t => ∃ path, t = .path path ∧ q.IsNamed path
  predicates : Takes (Read.predicates g) restricted (groupCode .curly content ++ rest) fun _ => True
  contents : Takes (implContents g) (groupCode .curly content) rest (· = [])

/-- An implementation of a trait is read with the trait and the type. -/
lemma IsImplementation.takes_implOutline {g : Grammar}
    {parameters trait type restricted content : Code}
    {p q : Path} (h : IsImplementation g rest parameters trait type restricted content p q) :
    Takes (implOutline g []) (wordCode "impl" ++ (parameters ++ (trait ++ (wordCode "for" ++
      (type ++ (restricted ++ groupCode .curly content)))))) rest
      (· = .implementation [] p.bare q.bare) := by
  have hrest : Takes (implOutlineRest g [])
      (trait ++ (wordCode "for" ++ (type ++ (restricted ++ groupCode .curly content)))) rest
      (· = .implementation [] p.bare q.bare) := by
    have hstart :=
      h.start (wordCode "for" ++ (type ++ (restricted ++ groupCode .curly content)) ++ rest)
    rw [← List.append_assoc] at hstart
    refine .seeAny (hstart.any_eq_false (by decide)) ?_
    refine .bind (takes_typePath (h.trait _)) ?_
    rintro _ rfl
    refine .seq (.word "for") fun _ => ?_
    have htype := takes_typePath h.type
    rw [← List.append_assoc] at htype
    refine .bind htype ?_
    rintro _ rfl
    refine .seq h.predicates fun _ => .last h.contents ?_
    rintro _ rfl
    exact .pure rfl
  refine .seq (.word "impl") fun _ => ?_
  obtain rfl | ⟨hstarts, hparameters⟩ := h.parameters
    (trait ++ (wordCode "for" ++ (type ++ (restricted ++ groupCode .curly content))) ++ rest)
  · have hstart :=
      h.start (wordCode "for" ++ (type ++ (restricted ++ groupCode .curly content)) ++ rest)
    rw [← List.append_assoc] at hstart
    have hnone : Takes startsParameters [] _ (· = false) :=
      .see (hstart.fits_eq_false (by decide)) (.pure rfl)
    exact .look hnone hrest
  · rw [← List.append_assoc] at hstarts
    exact .look hstarts (.seq hparameters fun _ => hrest)

/-! ### Structs -/

/-- A public struct with one field. -/
lemma takes_structOutline {g : Grammar} (attributes : List Path)
    {name field : String} {parameters restricted front type : Code}
    (hname : Terminal.identifier.fits [.ident name] = true)
    (hparameters : ∀ rest, Takes (Read.parameters g) parameters rest fun _ => True)
    (hpredicates : Takes (Read.predicates g) restricted
      (groupCode .curly (front ++ (wordCode field ++ (opCode ":" ++ type)) ++ opCode ",") ++ rest)
      fun _ => True)
    (hopen : ∀ behind, Cursor.isEnded { rest := front ++ (wordCode field ++ behind) } = false)
    (hfield : Takes (namedField g) (front ++ (wordCode field ++ (opCode ":" ++ type)))
      (opCode "," ++ .closing .curly :: rest) (·.name = field)) :
    Takes (structOutline g attributes)
      (wordCode "struct" ++ (wordCode name ++ (parameters ++ (restricted ++
      groupCode .curly (front ++ (wordCode field ++ (opCode ":" ++ type)) ++ opCode ",")))))
      rest (· = .struct attributes name [field]) := by
  refine .seq (.word "struct") fun _ => .bind (.identifier hname) ?_
  rintro _ rfl
  refine .seq (hparameters _) fun _ => .seq hpredicates fun _ => ?_
  refine .last (.group (.separatedBy_comma ?_ hfield)) ?_
  · simpa only [List.append_assoc] using hopen _
  rintro _ ⟨found, rfl, rfl⟩
  exact .pure rfl

end Read

/-! ### The codes of the items -/

namespace Emission

variable (e : Emission)

/-- The attribute of the field if nothing reads it. -/
def fieldAttributes : Code :=
  if e.dispatch = .empty then allowCode "dead_code" else []

/-- The struct behind its documentation. -/
def structItem : Code :=
  wordCode "pub" ++ (wordCode "struct" ++ (wordCode e.view ++
    ((opCode "<" ++ e.generics.declaredCode ++ opCode ">") ++ (e.generics.whereCode ++
      groupCode .curly (e.fieldAttributes ++ (wordCode "store" ++ (opCode ":" ++ e.storeType)) ++
        opCode ",")))))

lemma structCode_eq : e.structCode = documentationCode e.union.name ++ e.structItem := by
  simp only [structCode, structItem, fieldAttributes, List.append_assoc]

/-- An implementation behind its keyword. -/
def implementationCode (parameters trait type restricted content : Code) : Code :=
  wordCode "impl" ++ (parameters ++ (trait ++ (wordCode "for" ++ (type ++ (restricted ++
    groupCode .curly content)))))

/-- What makes a dispatcher from a store. -/
def fromStoreContent : Code :=
  [] ++ (wordCode "fn" ++ (wordCode "from_store" ++
    (groupCode .round (wordCode "store" ++ (opCode ":" ++ e.storeType)) ++
      (opCode "->" ++ wordCode "Self"))) ++
    groupCode .curly (wordCode "Self" ++ groupCode .curly (wordCode "store")))

lemma fromStoreCode_eq : e.fromStoreCode = implementationCode e.generics.implCode
    ((e.runtime.child "FromStore").code ++ e.storeArguments) e.viewType e.generics.whereCode
    e.fromStoreContent := by
  simp only [fromStoreCode, implementationCode, fromStoreContent, List.append_assoc,
    List.nil_append]

/-- What draws the active variant. -/
def viewContent : Code :=
  allowCode "unreachable_patterns" ++ (wordCode "fn" ++ (wordCode "body" ++
    (groupCode .round (opCode "&" ++ wordCode "self") ++
      (opCode "->" ++ (e.runtime.child "Element").code))) ++
    groupCode .curly (allowCode "unused_imports" ++ (wordCode "use" ++
      ((e.runtime.child "FromStore").code ++ (wordCode "as" ++ wordCode "_") ++ opCode ";")) ++
        (e.dispatch.body e.union.name).code e.runtime))

lemma viewCode_eq : e.viewCode = implementationCode e.generics.implCode
    (e.runtime.child "View").code e.viewType e.generics.whereCode e.viewContent := by
  simp only [viewCode, implementationCode, viewContent, List.append_assoc]

/-- What makes the dispatcher the view of the union. -/
def hasViewContent : Code :=
  wordCode "type" ++ (wordCode "View" ++ ((opCode "<" ++ lifetime ++ opCode ">") ++ (opCode "=" ++
    (e.viewType ++ (wordCode "where" ++ wordCode "Self" ++ opCode ":" ++ lifetime ++ opCode ";")))))

lemma hasViewCode_eq : e.hasViewCode = implementationCode e.union.generics.implCode
    (e.runtime.child "HasView").code e.ownerType e.union.generics.whereCode e.hasViewContent := by
  simp only [hasViewCode, implementationCode, hasViewContent, List.append_assoc]

end Emission

namespace Read

variable {rest : Code}

/-- No path goes on with predicates or with braces. -/
lemma endsPath_whereCode (g : Generics) (content : Code) :
    (g.whereCode ++ (groupCode .curly content ++ rest)).EndsPath := by
  obtain ⟨_, _, _ | _ | _⟩ := g <;> exact ⟨rfl, rfl, rfl, rfl⟩

/-- An implementation with the parameters and the predicates of an enumeration. -/
lemma takes_implementationCode {fuel : Nat} {generics : Generics} {trait type content : Code}
    {p q : Path}
    (hgenerics : generics.IsKnown) (hlead : generics.MayLead)
    (hfuel : 8 * (Emission.implementationCode generics.implCode trait type generics.whereCode
      content).length + 63 ≤ fuel)
    (hstart : ∀ rest, (trait ++ rest).StartsPath)
    (htrait : ∀ rest, Takes ((grammar fuel).type true) trait (wordCode "for" ++ rest)
      fun t => ∃ path, t = .path path ∧ p.IsNamed path)
    (htype : ∀ rest, rest.EndsPath → Takes ((grammar fuel).type true) type rest
      fun t => ∃ path, t = .path path ∧ q.IsNamed path)
    (hcontents : Takes (implContents (grammar fuel)) (groupCode .curly content) rest (· = [])) :
    Takes (itemOutline (grammar fuel) []) (Emission.implementationCode generics.implCode trait type
      generics.whereCode content) rest (· = .implementation [] p.bare q.bare) := by
  obtain ⟨k, rfl⟩ : ∃ k, fuel = k + 1 := ⟨fuel - 1, by omega⟩
  have hlength : generics.implCode.length + generics.whereCode.length <
      (Emission.implementationCode generics.implCode trait type generics.whereCode
        content).length := by
    simp only [Emission.implementationCode, List.length_append, wordCode, List.length_cons]
    omega
  have himpl : generics.implCode.IsCoveredBy (k + 1) := by
    unfold Code.IsCoveredBy
    omega
  have hwhere : generics.whereCode.IsCoveredBy (k + 1) := by
    unfold Code.IsCoveredBy
    omega
  have himplementation : IsImplementation (grammar (k + 1)) rest generics.implCode trait type
      generics.whereCode content p q :=
    { parameters := fun rest => hgenerics.takes_implCode hlead himpl rest
      start := hstart
      trait := htrait
      type := htype _ (endsPath_whereCode generics content)
      predicates := hgenerics.readsBack.predicates _ _ hwhere
      contents := hcontents }
  exact .see rfl himplementation.takes_implOutline

end Read

namespace Emission.IsKnown

variable {e : Emission} (h : e.IsKnown) {rest : Code}

include h

/-! ### Types -/

lemma takes_ownerType (fuel : Nat) (hends : rest.EndsPath) :
    Takes ((grammar (fuel + 2)).type true) e.ownerType rest
      fun t => ∃ q, t = .path q ∧ (Path.ofName e.union.name).IsNamed q :=
  Read.takes_type_declared fuel true h.owner h.generics.declared h.generics.punctuated hends

lemma takes_viewType (fuel : Nat) (hends : rest.EndsPath) :
    Takes ((grammar (fuel + 2)).type true) e.viewType rest
      fun t => ∃ q, t = .path q ∧ (Path.ofName e.view).IsNamed q :=
  have hgenerics := h.generics.withStore
  Read.takes_type_declared fuel true h.view hgenerics.declared hgenerics.punctuated hends

/-- A name of the runtime with the arguments of a store. -/
lemma takes_storeOf (fuel : Nat) {name : String}
    (hname : Terminal.identifier.fits [.ident name] = true) (hends : rest.EndsPath) :
    Takes ((grammar (fuel + 3)).type true) ((e.runtime.child name).code ++ e.storeArguments) rest
      fun t => ∃ q, t = .path q ∧ (e.runtime.child name).IsNamed q := by
  refine Read.takes_type_childWith (fuel + 2) true h.runtime hname ?_ hends
  rw [e.storeArguments_eq, List.append_assoc]
  refine .inr ⟨_, rfl, fun rest => ?_⟩
  rw [← List.append_assoc]
  exact Read.takes_arguments_store fuel "store" h.owner h.generics.declared
    h.generics.punctuated rest

lemma takes_runtimeName (fuel : Nat) {name : String}
    (hname : Terminal.identifier.fits [.ident name] = true) (hends : rest.EndsPath) :
    Takes ((grammar (fuel + 1)).type true) (e.runtime.child name).code rest
      fun t => ∃ q, t = .path q ∧ (e.runtime.child name).IsNamed q := by
  have htype := Read.takes_type_childWith fuel true h.runtime hname (.inl rfl) hends
  rwa [List.append_nil] at htype

/-! ### Functions -/

lemma takes_storeArgument (fuel count : Nat) :
    Takes (Read.functionArguments (grammar (fuel + 3)) (count + 1) false true)
      (wordCode "store" ++ (opCode ":" ++ e.storeType)) (.closing .round :: rest)
      fun _ => True := by
  have hstart : (e.storeType ++ .closing .round :: rest).StartsPath := by
    have hlong : (e.runtime.child "Store").IsLong := .child h.runtime (by decide)
    have hstart' := hlong.startsPath (e.storeArguments ++ .closing .round :: rest)
    rwa [← List.append_assoc] at hstart'
  have htype : Takes _ e.storeType (.closing .round :: rest) _ :=
    h.takes_storeOf fuel (by decide) ⟨rfl, rfl, rfl, rfl⟩
  have hargument : Takes (Read.functionArgument (grammar (fuel + 3)))
      (wordCode "store" ++ (opCode ":" ++ e.storeType)) (.closing .round :: rest) (· = .typed) := by
    unfold Read.functionArgument
    refine .look (a := none) (fun _ _ => ⟨_, _, rfl, rfl⟩) (.see rfl (.seeSecond rfl ?_))
    refine .seq (P := fun _ => True) (fun _ _ => ⟨_, _, rfl, trivial⟩) fun _ => ?_
    refine .seq (.operator _) fun _ => ?_
    exact .refuse (hstart.fits_eq_false (by decide)) (.last htype fun _ _ => .pure rfl)
  unfold Read.functionArguments
  refine .seeEnd rfl (.look (Read.takes_outerAttributes_nil _ rfl) (.refuse rfl ?_))
  refine .last hargument ?_
  rintro _ rfl
  exact .seeEnd rfl (.pure trivial)

/-! ### The struct -/

lemma takes_namedField (fuel : Nat) {d : Delimiter} :
    Takes (Read.namedField (grammar (fuel + 3)))
      (e.fieldAttributes ++ (wordCode "store" ++ (opCode ":" ++ e.storeType)))
      (opCode "," ++ .closing d :: rest) (·.name = "store") := by
  have hattributes : Takes (Read.outerAttributes (grammar (fuel + 3))) e.fieldAttributes
      (wordCode "store" ++ (opCode ":" ++ e.storeType) ++ (opCode "," ++ .closing d :: rest))
      fun _ => True := by
    unfold fieldAttributes
    split
    · exact fun _ _ => ⟨_, _, rfl, trivial⟩
    · exact fun _ _ => ⟨_, _, rfl, trivial⟩
  have htype : Takes _ e.storeType (opCode "," ++ .closing d :: rest) _ :=
    h.takes_storeOf fuel (by decide) ⟨rfl, rfl, rfl, rfl⟩
  unfold Read.namedField
  refine .seq hattributes fun attributes => .look (a := []) (fun _ _ => ⟨_, _, rfl, rfl⟩) ?_
  refine .see rfl (.bind (.identifier rfl) ?_)
  rintro _ rfl
  refine .seq (.operator _) fun _ => ?_
  refine .see rfl (.see rfl (.seeSecond rfl ?_))
  exact .last htype fun type _ => .pure rfl

lemma takes_structItem {fuel : Nat} (attributes : List Path)
    (hfuel : 8 * e.structItem.length + 63 ≤ fuel) :
    Takes (Read.itemOutline (grammar fuel) attributes) e.structItem rest
      (· = .struct attributes e.view ["store"]) := by
  obtain ⟨k, rfl⟩ : ∃ k, fuel = k + 3 := ⟨fuel - 3, by omega⟩
  have hlength :
      e.generics.declaredCode.length + e.generics.whereCode.length < e.structItem.length := by
    simp only [structItem, List.length_append, wordCode, List.length_cons]
    omega
  have hdeclared : e.generics.declaredCode.IsCoveredBy (k + 3) := by
    unfold Code.IsCoveredBy
    omega
  have hwhere : e.generics.whereCode.IsCoveredBy (k + 3) := by
    unfold Code.IsCoveredBy
    omega
  have hgenerics := h.generics.withStore
  refine .leads (fun _ _ => ⟨_, rfl⟩) ?_ (q := Read.structOutline (grammar (k + 3)) attributes)
  refine Read.takes_structOutline attributes h.view
    (fun rest => hgenerics.takes_declaredCode hdeclared rest)
    (hgenerics.readsBack.predicates _ _ hwhere) ?_ (h.takes_namedField k)
  intro behind
  unfold fieldAttributes
  split <;> rfl

/-! ### The implementations -/

/-- The dispatcher is made from a store. -/
lemma takes_fromStoreContent (fuel : Nat) :
    Takes (Read.implContents (grammar (fuel + 10))) (groupCode .curly e.fromStoreContent) rest
      (· = []) := by
  refine Read.takes_implContents rfl rfl (Read.takes_implItem_function (.inl rfl) ?_ ?_)
  · refine Read.takes_signature (by decide) (fun count => ?_) fun _ _ => ⟨_, _, rfl, trivial⟩
    exact h.takes_storeArgument (fuel + 7) count
  · exact fun _ _ => ⟨_, _, rfl, trivial⟩

/-- The dispatcher draws the active variant. -/
lemma takes_viewContent {fuel : Nat} (hfuel : e.runtime.more.length ≤ fuel) :
    Takes (Read.implContents (grammar (fuel + 17))) (groupCode .curly e.viewContent) rest
      (· = []) := by
  have hname : Terminal.identifier.fits [.ident "FromStore"] = true := by decide
  have hlong : (e.runtime.child "FromStore").IsLong := .child h.runtime hname
  have himport : (e.runtime.child "FromStore").IsImportable := by
    intro s hs
    rw [Path.segments_child] at hs
    obtain hs | hs := List.mem_append.mp hs
    · exact h.importable s hs
    · obtain rfl := List.mem_singleton.mp hs
      exact ⟨rfl, by decide⟩
  have hmore : (e.runtime.child "FromStore").more.length ≤ fuel + 13 := by
    simp only [Path.child, List.length_append, List.length_singleton]
    omega
  refine Read.takes_implContents rfl rfl (Read.takes_implItem_function (.inr rfl) ?_ ?_)
  · refine Read.takes_signature (by decide) (fun count => fun _ _ => ⟨_, _, rfl, trivial⟩) ?_
    exact (h.takes_runtimeName (fuel + 16) (by decide) ⟨rfl, rfl, rfl, rfl⟩).mono fun _ _ => trivial
  · refine Read.takes_block rfl ?_
    exact Read.takes_statements_import hmore hlong.plain himport
      (Read.isStatement_body h.runtime (fuel + 1) h.body)

/-- The dispatcher is the view of the union. -/
lemma takes_hasViewContent (fuel : Nat) :
    Takes (Read.implContents (grammar (fuel + 2))) (groupCode .curly e.hasViewContent) rest
      (· = []) := by
  refine Read.takes_implContents rfl rfl (Read.takes_implItem_alias ?_)
  exact (h.takes_viewType fuel ⟨rfl, rfl, rfl, rfl⟩).mono fun _ _ => trivial

/-! ### The items -/

section Items

variable {fuel : Nat}

lemma takes_fromStoreCode (hfuel : 8 * e.fromStoreCode.length + 63 ≤ fuel) :
    Takes (Read.itemOutline (grammar fuel) []) e.fromStoreCode rest
      (· = .implementation [] (e.runtime.child "FromStore") (.ofName e.view)) := by
  rw [e.fromStoreCode_eq] at hfuel ⊢
  obtain ⟨k, rfl⟩ : ∃ k, fuel = k + 10 := ⟨fuel - 10, by omega⟩
  have hname : Terminal.identifier.fits [.ident "FromStore"] = true := by decide
  have hlong : (e.runtime.child "FromStore").IsLong := .child h.runtime hname
  have hitem : Takes _ _ rest _ := Read.takes_implementationCode h.generics.withStore
    (Generics.mayLead_withStore _) hfuel
    (fun rest => by rw [List.append_assoc]; exact hlong.startsPath _)
    (fun rest => h.takes_storeOf (k + 7) hname ⟨rfl, rfl, rfl, rfl⟩)
    (fun rest => h.takes_viewType (k + 8)) (h.takes_fromStoreContent k)
  rwa [Path.bare_eq_self hlong.plain] at hitem

lemma takes_viewCode (hfuel : 8 * e.viewCode.length + 63 ≤ fuel) :
    Takes (Read.itemOutline (grammar fuel) []) e.viewCode rest
      (· = .implementation [] (e.runtime.child "View") (.ofName e.view)) := by
  rw [e.viewCode_eq] at hfuel ⊢
  obtain ⟨k, rfl⟩ : ∃ k, fuel = k + 17 := ⟨fuel - 17, by omega⟩
  have hname : Terminal.identifier.fits [.ident "View"] = true := by decide
  have hlong : (e.runtime.child "View").IsLong := .child h.runtime hname
  have hmore : e.runtime.more.length ≤ k := by
    have hlt := Path.length_lt_code (e.runtime.child "View")
    simp only [Emission.implementationCode, List.length_append, Path.child, List.length_singleton]
      at hfuel hlt
    omega
  have hitem : Takes _ _ rest _ := Read.takes_implementationCode h.generics.withStore
    (Generics.mayLead_withStore _) hfuel
    (fun rest => hlong.startsPath rest)
    (fun rest => h.takes_runtimeName (k + 16) hname ⟨rfl, rfl, rfl, rfl⟩)
    (fun rest => h.takes_viewType (k + 15)) (h.takes_viewContent hmore)
  rwa [Path.bare_eq_self hlong.plain] at hitem

lemma takes_hasViewCode (hfuel : 8 * e.hasViewCode.length + 63 ≤ fuel) :
    Takes (Read.itemOutline (grammar fuel) []) e.hasViewCode rest
      (· = .implementation [] (e.runtime.child "HasView") (.ofName e.union.name)) := by
  rw [e.hasViewCode_eq] at hfuel ⊢
  obtain ⟨k, rfl⟩ : ∃ k, fuel = k + 2 := ⟨fuel - 2, by omega⟩
  have hname : Terminal.identifier.fits [.ident "HasView"] = true := by decide
  have hlong : (e.runtime.child "HasView").IsLong := .child h.runtime hname
  have hitem : Takes _ _ rest _ := Read.takes_implementationCode h.generics h.lead hfuel
    (fun rest => hlong.startsPath rest)
    (fun rest => h.takes_runtimeName (k + 1) hname ⟨rfl, rfl, rfl, rfl⟩)
    (fun rest => h.takes_ownerType k) (h.takes_hasViewContent k)
  rwa [Path.bare_eq_self hlong.plain] at hitem

end Items

end Emission.IsKnown

end UnionView
