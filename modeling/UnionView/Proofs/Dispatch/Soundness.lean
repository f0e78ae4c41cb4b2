import UnionView.Proofs.Dispatch.Parameters
import UnionView.Proofs.Settings.Soundness
import UnionView.Proofs.Token.Quotation

/-!
# The code of a dispatcher is sound

A dispatcher is put together from fixed words and operators, from the names of a union and from
code that was captured when the union was read. If the union and the paths of the settings are
sound, the code is (`TaggedUnion.isSound_emit`), and so it is read again from its text.
-/

namespace UnionView

open Text Lexer

/-! ### Words and operators -/

namespace Code

lemma isSound_wordCode (text : String) (h : IsWord text.toList := by decide) :
    (wordCode text).IsSound :=
  isSound_word (.plain h)

lemma isSound_opCode (text : String) (h : text.toList.all isPlainMark = true := by decide) :
    (opCode text).IsSound :=
  isSound_operator h

end Code

/-! ### Paths -/

namespace Path

lemma isSound_ofName {name : String} (h : IsName name.toList) : (ofName name).IsSound :=
  List.forall_mem_singleton.mpr ⟨h, Code.isSound_nil⟩

lemma IsSound.child {p : Path} (h : p.IsSound) (name : String)
    (hname : IsWord name.toList := by decide) : (p.child name).IsSound := by
  unfold IsSound
  rw [segments_child]
  refine List.forall_mem_append.mpr ⟨h, List.forall_mem_singleton.mpr ?_⟩
  exact ⟨.plain hname, Code.isSound_nil⟩

end Path

/-! ### Names of views -/

lemma isWord_append {word tail : List Char} (h : IsWord word)
    (htail : ∀ c ∈ tail, isIdentContinue c = true) : IsWord (word ++ tail) := by
  obtain ⟨c, rest, rfl, hc, hrest⟩ := h
  exact ⟨c, rest ++ tail, rfl, hc, List.forall_mem_append.mpr ⟨hrest, htail⟩⟩

/-- Without the mark of a raw identifier a name is a word. -/
lemma isWord_plainName {name : String} (h : IsName name.toList) :
    IsWord (plainName name).toList := by
  generalize hname : name.toList = cs at h
  unfold plainName
  rw [hname]
  cases h with
  | plain word =>
    split
    · obtain ⟨_, _, ⟨⟩, -, hrest⟩ := word
      exact absurd (hrest '#' List.mem_cons_self) (by decide)
    · rwa [hname]
  | @raw cs word =>
    show IsWord (String.ofList cs).toList
    rwa [String.toList_ofList]

lemma isWord_viewName {name : String} (h : IsName name.toList) :
    IsWord (viewName name).toList := by
  unfold viewName
  rw [String.toList_append]
  exact isWord_append (isWord_plainName h)
    (List.all_eq_true.mp (by decide : "View".toList.all isIdentContinue = true))

/-! ### Parameters -/

namespace Parameter.IsSound

variable {p : Parameter}

lemma boundedCode (h : p.IsSound) : p.boundedCode.IsPiece := by
  have hconst : Code.IsSound (if p.kind = .constant then wordCode "const" else []) := by
    split
    · exact Code.isSound_wordCode "const"
    · exact Code.isSound_nil
  refine ((h.attributes.append hconst).append h.name).append_piece ?_
  cases hbounds : p.bounds with
  | none => exact Code.isSound_nil.isPiece
  | some bounds =>
    cases bounds with
    | nil => exact Code.isSound_nil.isPiece
    | cons token bounds => exact (Code.isSound_opCode ":").append_piece (h.bounds _ hbounds)

lemma declaredCode (h : p.IsSound) : p.declaredCode.IsPiece := by
  unfold Parameter.declaredCode
  cases hdefault : p.default with
  | none =>
    rw [List.append_nil]
    exact h.boundedCode
  | some default =>
    rw [← List.append_assoc]
    exact (h.boundedCode.append_operator (List.cons_ne_nil '=' []) (by decide)).append_piece
      (h.default _ hdefault)

end Parameter.IsSound

namespace Generics

lemma isSound_storeLifetime : storeLifetime.IsSound where
  attributes := Code.isSound_nil
  name := by
    refine ⟨?_, ⟨?_, nofun, trivial⟩, rfl⟩
    · exact List.forall_mem_cons.mpr ⟨⟨by decide, fun _ => rfl⟩,
        List.forall_mem_singleton.mpr (.plain (by decide))⟩
    · rintro mark ⟨⟩
      exact ⟨_, rfl, show startsLifetime "store".toList = true by decide⟩
  bounds := nofun
  default := nofun

variable {g : Generics}

lemma IsSound.withStore (h : g.IsSound) : g.withStore.IsSound where
  parameters := by
    have hstore := isSound_storeLifetime
    exact List.forall_mem_cons.mpr
      ⟨⟨hstore.attributes, hstore.name, hstore.bounds, hstore.default⟩, h.parameters⟩
  punctuated := h.punctuated.withStore
  predicates := h.predicates

lemma pairwise_entries (h : g.IsPunctuated) (code : Parameter → Code) :
    (g.parameters.map (Parameter.entry code)).Pairwise fun e _ => e.2.2 = true :=
  List.pairwise_map.mpr h

/-- A list in angle brackets is sound if its entries are pieces of code. -/
lemma isSound_angled (h : g.IsPunctuated) {code : Parameter → Code}
    (hcode : ∀ p ∈ g.parameters, (code p).IsPiece) : (g.angled code).IsSound := by
  unfold angled
  split
  · exact Code.isSound_nil
  · have hentries : ∀ e ∈ g.parameters.map (Parameter.entry code), e.2.1.IsPiece :=
      List.forall_mem_map.mpr hcode
    have hlist := isPiece_lifetimesFirst hentries (pairwise_entries h code)
    exact ((Code.isSound_opCode "<").append_piece hlist).append_operator
      (List.cons_ne_nil '>' []) (by decide)

namespace IsSound

lemma declaredCode (h : g.IsSound) : g.declaredCode.IsPiece := by
  have hentries : ∀ e ∈ g.parameters.map (Parameter.entry Parameter.declaredCode), e.2.1.IsPiece :=
    List.forall_mem_map.mpr fun p hp => (h.parameters p hp).declaredCode
  have hlist := (Code.isPiece_entries hentries (pairwise_entries h.punctuated _)).1
  rwa [List.flatMap_map] at hlist

lemma implCode (h : g.IsSound) : g.implCode.IsSound :=
  isSound_angled h.punctuated fun p hp => (h.parameters p hp).boundedCode

lemma argumentCode (h : g.IsSound) : g.argumentCode.IsSound :=
  isSound_angled h.punctuated fun p hp => (h.parameters p hp).name.isPiece

lemma whereCode (h : g.IsSound) : g.whereCode.IsSound := by
  unfold Generics.whereCode
  cases hpredicates : g.predicates with
  | none => exact Code.isSound_nil
  | some predicates =>
    cases predicates with
    | nil => exact Code.isSound_nil
    | cons token predicates =>
      exact (Code.isSound_wordCode "where").append (h.predicates _ hpredicates)

end IsSound

end Generics

/-! ### What is drawn -/

/-- The names of the pattern are names. -/
structure ArmPattern.IsSound (p : ArmPattern) : Prop where
  owner : IsName p.owner.toList
  variant : IsName p.variant.toList
  field : ∀ name, p.fields = .field name → IsName name.toList

/-- The names of an arm are names, and its renderer is sound. -/
def ArmBody.IsSound : ArmBody → Prop
  | empty => True
  | narrow pattern renderer => pattern.IsSound ∧ renderer.IsSound

/-- What the arm is matched with and what it draws is sound. -/
structure Arm.IsSound (arm : Arm) : Prop where
  pattern : arm.pattern.IsSound
  body : arm.body.IsSound

/-- The subject of the `match` and its arms are sound. -/
def Body.IsSound : Body → Prop
  | empty => True
  | select subject arms => subject.IsSound ∧ ∀ arm ∈ arms, arm.IsSound

lemma ArmPattern.IsSound.code {p : ArmPattern} (h : p.IsSound) : p.code.IsSound := by
  have hfields : p.fields.code.IsSound := by
    cases hfields : p.fields with
    | unit => exact Code.isSound_nil
    | anyTuple => exact (Code.isSound_opCode "..").group .round
    | anyNamed => exact (Code.isSound_opCode "..").group .curly
    | firstOfTuple =>
      have hbound : (wordCode FieldsPattern.boundName).IsSound := Code.isSound_wordCode "inner"
      exact ((hbound.append (Code.isSound_opCode ",")).append (Code.isSound_opCode "..")).group _
    | field name =>
      have hname : (wordCode name).IsSound := Code.isSound_word (h.field name hfields)
      have hbound : (wordCode FieldsPattern.boundName).IsSound := Code.isSound_wordCode "inner"
      exact ((((hname.append (Code.isSound_opCode ":")).append hbound).append
        (Code.isSound_opCode ",")).append (Code.isSound_opCode "..")).group _
  exact (((Code.isSound_word h.owner).append (Code.isSound_opCode "::")).append
    (Code.isSound_word h.variant)).append hfields

lemma isSound_rootedCode (first : String) (more : List String)
    (h : IsWord first.toList := by decide)
    (hmore : ∀ name ∈ more, IsWord name.toList := by decide) : (rootedCode first more).IsSound := by
  refine Path.IsSound.code (List.forall_mem_cons.mpr ⟨⟨.plain h, Code.isSound_nil⟩, ?_⟩)
  exact List.forall_mem_map.mpr fun name hname => ⟨.plain (hmore name hname), Code.isSound_nil⟩

lemma isSound_emptyElementCode {runtime : Path} (h : runtime.IsSound) :
    (emptyElementCode runtime).IsSound :=
  ((h.child "Element").child "Empty").code

lemma ArmPattern.IsSound.narrowingCode {p : ArmPattern} (h : p.IsSound) :
    p.narrowingCode.IsSound := by
  have hpattern := h.code
  have hsome : someCode.IsSound := isSound_rootedCode "core" ["option", "Option", "Some"]
  have hnone : noneCode.IsSound := isSound_rootedCode "core" ["option", "Option", "None"]
  unfold ArmPattern.narrowingCode
  apply_rules [@Code.isSound_wordCode, @Code.isSound_opCode, Code.IsSound.group,
    Code.IsSound.append] <;> decide

lemma ArmBody.IsSound.code {body : ArmBody} {runtime : Path} (h : body.IsSound)
    (hruntime : runtime.IsSound) : (body.code runtime).IsSound := by
  cases body with
  | empty => exact isSound_emptyElementCode hruntime
  | narrow pattern renderer =>
    have hempty := isSound_emptyElementCode hruntime
    have hnarrowing := h.1.narrowingCode
    have hsome : someCode.IsSound := isSound_rootedCode "core" ["option", "Option", "Some"]
    have hview : Code.IsSound (((runtime.child "View").child "body").code ++
        groupCode .round (opCode "&" ++ (renderer.child "from_store").code ++
          groupCode .round (wordCode "store"))) := by
      have hbody := ((hruntime.child "View").child "body").code
      have hstore := (h.2.child "from_store").code
      exact hbody.append ((((Code.isSound_opCode "&").append hstore).append
        ((Code.isSound_wordCode "store").group .round)).group .round)
    unfold ArmBody.code
    apply_rules [@Code.isSound_wordCode, @Code.isSound_opCode, Code.IsSound.group,
      Code.IsSound.append] <;> decide

lemma Code.isSound_flatMap {α : Type} {as : List α} {code : α → Code}
    (h : ∀ a ∈ as, (code a).IsSound) : IsSound (as.flatMap code) := by
  induction as with
  | nil => exact isSound_nil
  | cons a as ih =>
    obtain ⟨ha, has⟩ := List.forall_mem_cons.mp h
    exact ha.append (ih has)

lemma Arm.IsSound.code {arm : Arm} {runtime : Path} (h : arm.IsSound)
    (hruntime : runtime.IsSound) : (arm.code runtime).IsSound :=
  (h.pattern.code.append (Code.isSound_opCode "=>")).append ((h.body.code hruntime).group .curly)

lemma Body.IsSound.code {body : Body} {runtime : Path} (h : body.IsSound)
    (hruntime : runtime.IsSound) : (body.code runtime).IsSound := by
  cases body with
  | empty => exact isSound_emptyElementCode hruntime
  | select subject arms =>
    obtain ⟨hsubject, harms⟩ := h
    have hall := Code.isSound_flatMap fun arm harm => (harms arm harm).code hruntime
    exact ((Code.isSound_wordCode "match").append hsubject).append (hall.group .curly)

lemma isSound_stateExpression : stateExpression.IsSound :=
  (((((Code.isSound_wordCode "self").append (Code.isSound_opCode ".")).append
    (Code.isSound_wordCode "store")).append (Code.isSound_opCode ".")).append
      (Code.isSound_wordCode "state")).append (Code.isSound_nil.group .round)

/-! ### Generated items -/

/-- What the items are made of is sound. -/
structure Emission.IsSound (e : Emission) : Prop where
  runtime : e.runtime.IsSound
  union : e.union.IsSound
  body : (e.dispatch.body e.union.name).IsSound

lemma isSound_attributeCode {content : Code} (h : content.IsSound) :
    (attributeCode content).IsSound :=
  (Code.isSound_opCode "#").append (h.group .square)

lemma isSound_allowCode (lint : String) (h : IsWord lint.toList := by decide) :
    (allowCode lint).IsSound :=
  isSound_attributeCode ((Code.isSound_wordCode "allow").append
    ((Code.isSound_wordCode lint h).group .round))

lemma isSound_documentationCode (owner : String) : (documentationCode owner).IsSound := by
  have hname := (Code.isSound_wordCode "doc").append (Code.isSound_opCode "=")
  exact isSound_attributeCode
    (hname.append (Code.isSound_literal (Literal.isLiteral_quoteLiteral _)))

namespace Emission.IsSound

variable {e : Emission}

lemma generics (h : e.IsSound) : e.generics.IsSound := h.union.generics.withStore

lemma viewName (h : e.IsSound) : (wordCode e.view).IsSound :=
  Code.isSound_word (.plain (isWord_viewName h.union.name))

lemma ownerType (h : e.IsSound) : e.ownerType.IsSound :=
  (Code.isSound_word h.union.name).append h.union.generics.argumentCode

lemma viewType (h : e.IsSound) : e.viewType.IsSound :=
  h.viewName.append h.generics.argumentCode

lemma storeArguments (h : e.IsSound) : e.storeArguments.IsSound :=
  ((((Code.isSound_opCode "<").append Generics.isSound_storeLifetime.name).append
    (Code.isSound_opCode ",")).append h.ownerType).append (Code.isSound_opCode ">")

lemma storeType (h : e.IsSound) : e.storeType.IsSound :=
  (h.runtime.child "Store").code.append h.storeArguments

lemma structCode (h : e.IsSound) : e.structCode.IsSound := by
  have hdocumentation := isSound_documentationCode e.union.name
  have hfront : Code.IsSound (documentationCode e.union.name ++ wordCode "pub" ++
      wordCode "struct" ++ wordCode e.view ++ opCode "<") :=
    (((hdocumentation.append (Code.isSound_wordCode "pub")).append
      (Code.isSound_wordCode "struct")).append h.viewName).append (Code.isSound_opCode "<")
  have hallow : Code.IsSound (if e.dispatch = .empty then allowCode "dead_code" else []) := by
    split
    · exact isSound_allowCode "dead_code"
    · exact Code.isSound_nil
  have hfield := ((hallow.append (Code.isSound_wordCode "store")).append
    (Code.isSound_opCode ":")).append h.storeType
  have hparameters := (hfront.append_piece h.generics.declaredCode).append_operator
    (List.cons_ne_nil '>' []) (by decide)
  exact (hparameters.append h.generics.whereCode).append
    ((hfield.append (Code.isSound_opCode ",")).group .curly)

lemma fromStoreCode (h : e.IsSound) : e.fromStoreCode.IsSound := by
  have himpl := h.generics.implCode
  have htrait := (h.runtime.child "FromStore").code
  have harguments := h.storeArguments
  have hview := h.viewType
  have hwhere := h.generics.whereCode
  have hstore := h.storeType
  unfold Emission.fromStoreCode
  apply_rules [@Code.isSound_wordCode, @Code.isSound_opCode, Code.IsSound.group,
    Code.IsSound.append] <;> decide

lemma viewCode (h : e.IsSound) : e.viewCode.IsSound := by
  have himpl := h.generics.implCode
  have htrait := (h.runtime.child "View").code
  have hview := h.viewType
  have hwhere := h.generics.whereCode
  have hmethod : Code.IsSound (groupCode .curly
      (allowCode "unreachable_patterns" ++ wordCode "fn" ++ wordCode "body" ++
        groupCode .round (opCode "&" ++ wordCode "self") ++ opCode "->" ++
        (e.runtime.child "Element").code ++
        groupCode .curly
          (allowCode "unused_imports" ++ wordCode "use" ++ (e.runtime.child "FromStore").code ++
            wordCode "as" ++ wordCode "_" ++ opCode ";" ++
            (e.dispatch.body e.union.name).code e.runtime))) := by
    have hpatterns := isSound_allowCode "unreachable_patterns"
    have himports := isSound_allowCode "unused_imports"
    have helement := (h.runtime.child "Element").code
    have huse := (h.runtime.child "FromStore").code
    have hbody := h.body.code h.runtime
    apply_rules [@Code.isSound_wordCode, @Code.isSound_opCode, Code.IsSound.group,
      Code.IsSound.append] <;> decide
  unfold Emission.viewCode
  apply_rules [@Code.isSound_wordCode, @Code.isSound_opCode, Code.IsSound.append] <;> decide

lemma hasViewCode (h : e.IsSound) : e.hasViewCode.IsSound := by
  have himpl := h.union.generics.implCode
  have htrait := (h.runtime.child "HasView").code
  have howner := h.ownerType
  have hview := h.viewType
  have hwhere := h.union.generics.whereCode
  have hlifetime : Emission.lifetime.IsSound := Generics.isSound_storeLifetime.name
  unfold Emission.hasViewCode
  apply_rules [@Code.isSound_wordCode, @Code.isSound_opCode, Code.IsSound.group,
    Code.IsSound.append] <;> decide

lemma code (h : e.IsSound) : e.code.IsSound :=
  ((h.structCode.append h.fromStoreCode).append h.viewCode).append h.hasViewCode

end Emission.IsSound

/-! ### Unions with settings -/

namespace Settings.IsSound

variable {s : Settings}

lemma resolve (h : s.IsSound) {payload : String} (hpayload : IsName payload.toList) :
    (s.renderers.resolve payload).IsSound := by
  unfold Renderers.resolve
  cases hrenderer : s.renderers.get? payload with
  | none => exact Path.isSound_ofName (.plain (isWord_viewName hpayload))
  | some p => exact h.renderers payload p hrenderer

end Settings.IsSound

lemma UnionVariant.IsSound.armPattern {v : UnionVariant} (h : v.IsSound) {owner : String}
    (howner : IsName owner.toList) : (v.armPattern owner).IsSound where
  owner := howner
  variant := h.name
  field name hname := by
    simp only [UnionVariant.armPattern] at hname
    cases hform : v.form <;> rw [hform] at hname <;> cases hname

lemma UnionVariant.IsSound.armBody {v : UnionVariant} (h : v.IsSound) {owner : String}
    (howner : IsName owner.toList) {s : Settings} (hs : s.IsSound) :
    ((v.branch s.renderers).armBody owner v.form).IsSound := by
  unfold UnionVariant.branch
  cases hpayload : v.payload with
  | none => trivial
  | some payload =>
    have hrenderer := hs.resolve (h.payload payload hpayload)
    simp only [Branch.armBody]
    cases hform : v.form with
    | unit => trivial
    | tuple => exact ⟨⟨howner, h.name, by rintro _ ⟨⟩⟩, hrenderer⟩
    | named field =>
      cases field with
      | none => trivial
      | some field =>
        refine ⟨⟨howner, h.name, ?_⟩, hrenderer⟩
        rintro _ ⟨⟩
        exact h.field field hform

/-- The code of the dispatcher of a sound union with sound settings is sound. -/
theorem TaggedUnion.isSound_emit {u : TaggedUnion} (h : u.IsSound) {settings : Settings}
    (hsettings : settings.IsSound) :
    (u.emit (u.dispatch settings.renderers) settings).code.IsSound := by
  refine Emission.IsSound.code ⟨hsettings.runtime, h, ?_⟩
  show ((u.dispatch settings.renderers).body u.name).IsSound
  unfold TaggedUnion.dispatch
  split
  · trivial
  · refine ⟨?_, List.forall_mem_map.mpr fun b hb => ?_⟩
    · exact isSound_stateExpression
    · obtain ⟨v, hv, rfl⟩ := List.mem_map.mp hb
      have hsound := h.variants v hv
      exact ⟨hsound.armPattern h.name, hsound.armBody h.name hsettings⟩

end UnionView
