import UnionView.Proofs.Dispatch.Outcome
import UnionView.Proofs.Grammar.Generics

/-!
# The parameters of the generated items

Every generated item declares parameters: the dispatcher and its two implementations those of the
union behind the lifetime of the store, the implementation for the union only those of the union,
and the type inside of it the lifetime of the store (`Generics.scopes`). The name of that lifetime
is fixed, so no parameter is declared twice exactly if the union has no lifetime of this name
(`hygiene_of_dispatcher`).
-/

namespace UnionView

/-! ### Lists of parameters -/

/-- The code is these entries with commas between them, and maybe one behind the last one. -/
inductive Code.Lists : List Code → Code → Prop
  | nil : Lists [] []
  | last (entry : Code) : Lists [entry] entry
  | cons {entries : List Code} {list : Code} (entry : Code) (others : Lists entries list) :
      Lists (entry :: entries) (entry ++ opCode "," ++ list)

/-- The code of an item that declares these entries behind `front`, in angle brackets if there are
any. -/
inductive Code.Declares (front : Code) : List Code → Code → Prop
  | none {rest : Code} (plain : (Terminal.operator "<").fits rest = false) :
      Declares front [] (front ++ rest)
  | some {entries : List Code} {list : Code} (rest : Code) (listed : Lists entries list) :
      Declares front entries (front ++ opCode "<" ++ list ++ opCode ">" ++ rest)

namespace Parameter

def isLifetime (p : Parameter) : Bool :=
  decide (p.kind = .lifetime)

/-- What tells a parameter from the others around it: its name, and whether it is a lifetime. A raw
name is the same as the plain one. -/
def identity (p : Parameter) : Bool × String :=
  (p.isLifetime, plainName p.name)

variable (code : Parameter → Code)

/-- Parameters that are printed with their own commas are a list of parameters. -/
lemma lists_of_punctuated {ps : List Parameter} (h : ps.Pairwise fun p _ => p.comma = true) :
    Code.Lists (ps.map code) (ps.flatMap fun p => code p ++ p.commaCode) := by
  induction h with
  | nil => exact .nil
  | @cons p ps hcomma _ ih =>
    rw [List.flatMap_cons]
    by_cases hp : p.comma = true
    · rw [commaCode, if_pos hp]
      exact .cons (code p) ih
    · -- nothing can follow a parameter without a comma
      cases ps with
      | nil =>
        rw [commaCode, if_neg hp]
        simpa using Code.Lists.last (code p)
      | cons q ps => exact absurd (hcomma q List.mem_cons_self) hp

/-- Parameters with a comma behind each of them may stand in front of a list. -/
lemma lists_append {ps : List Parameter} {list : Code} (h : Code.Lists (ps.map code) list)
    (qs : List Parameter) :
    Code.Lists ((qs ++ ps).map code) ((qs.flatMap fun q => code q ++ opCode ",") ++ list) := by
  induction qs with
  | nil => exact h
  | cons q qs ih =>
    rw [List.flatMap_cons, List.append_assoc]
    exact .cons (code q) ih

/-- A comma that is added to the last parameter, if it has none, makes one for each of them. -/
lemma flatMap_append_comma {ps : List Parameter} (h : ps.Pairwise fun p _ => p.comma = true) :
    (ps.flatMap fun p => code p ++ p.commaCode) ++
        (if ps.getLast?.all (·.comma) then [] else opCode ",") =
      ps.flatMap fun p => code p ++ opCode "," := by
  induction h with
  | nil => rfl
  | @cons p ps hcomma _ ih =>
    rw [List.flatMap_cons, List.flatMap_cons, List.append_assoc]
    cases ps with
    | nil => cases hp : p.comma <;> simp [commaCode, hp]
    | cons q ps =>
      rw [commaCode, if_pos (hcomma q List.mem_cons_self), ← ih, List.getLast?_cons_cons]

end Parameter

namespace Generics

/-- The parameters in the order in which an implementation has them: lifetimes come first. -/
def ordered (ps : List Parameter) : List Parameter :=
  ps.filter Parameter.isLifetime ++ ps.filter fun p => !p.isLifetime

/-- Parameters are in order where no lifetime stands behind another parameter. -/
lemma ordered_eq_self {ps : List Parameter}
    (h : ps.Pairwise fun p q => q.isLifetime = true → p.isLifetime = true) : ordered ps = ps := by
  induction h with
  | nil => rfl
  | @cons p ps hp _ ih =>
    unfold ordered at ih ⊢
    cases hlifetime : p.isLifetime with
    | true => simpa [hlifetime] using ih
    | false =>
      have hnone : ps.filter Parameter.isLifetime = [] := by
        refine List.filter_eq_nil_iff.mpr fun q hq hq' => ?_
        rw [hp q hq hq'] at hlifetime
        cases hlifetime
      rw [hnone] at ih
      simpa [hlifetime, hnone] using ih

lemma perm_ordered (ps : List Parameter) : (ordered ps).Perm ps :=
  List.filter_append_perm Parameter.isLifetime ps

/-- Putting the lifetimes first changes the order and nothing but the commas. -/
lemma lifetimesFirst_entries (code : Parameter → Code) (ps : List Parameter) :
    lifetimesFirst (ps.map (Parameter.entry code)) =
      ((ps.filter Parameter.isLifetime).flatMap fun p => code p ++ p.commaCode) ++
        (if !(ps.filter Parameter.isLifetime).getLast?.all (·.comma) &&
            !(ps.filter fun p => !p.isLifetime).isEmpty then opCode "," else []) ++
        ((ps.filter fun p => !p.isLifetime).flatMap fun p => code p ++ p.commaCode) := by
  unfold lifetimesFirst
  simp only [List.filter_map, List.flatMap_map, List.getLast?_map, List.isEmpty_map, Option.all_map]
  rfl

/-- What is printed with the lifetimes first is a list of the parameters in this order. -/
lemma lists_lifetimesFirst (code : Parameter → Code) {ps : List Parameter}
    (h : ps.Pairwise fun p _ => p.comma = true) :
    Code.Lists ((ordered ps).map code) (lifetimesFirst (ps.map (Parameter.entry code))) := by
  rw [lifetimesFirst_entries]
  unfold ordered
  have hlifetimes := h.filter Parameter.isLifetime
  have hothers := h.filter fun p => !p.isLifetime
  generalize ps.filter Parameter.isLifetime = lifetimes at hlifetimes ⊢
  generalize (ps.filter fun p => !p.isLifetime) = others at hothers ⊢
  cases others with
  | nil => simpa using Parameter.lists_of_punctuated code hlifetimes
  | cons other others =>
    have hclosed := Parameter.flatMap_append_comma code hlifetimes
    have hcomma : (if !lifetimes.getLast?.all (·.comma) && !(other :: others).isEmpty
        then opCode "," else []) = if lifetimes.getLast?.all (·.comma) then [] else opCode "," := by
      cases lifetimes.getLast?.all (·.comma) <;> rfl
    rw [hcomma, hclosed]
    exact Parameter.lists_append code (Parameter.lists_of_punctuated code hothers) lifetimes

lemma IsPunctuated.withStore {g : Generics} (h : g.IsPunctuated) : g.withStore.IsPunctuated := by
  refine .cons (fun p hp => ?_) h
  have hne : g.parameters.isEmpty = false := List.isEmpty_eq_false_iff.mpr (List.ne_nil_of_mem hp)
  simp [hne]

end Generics

/-! ### What the items declare -/

/-- The parameters that are declared by the items of a dispatcher. -/
structure Scopes where
  /-- By the dispatcher itself. -/
  struct : List Parameter
  /-- By each of its implementations. -/
  implementation : List Parameter
  /-- By the implementation for the union. -/
  union : List Parameter
  /-- By the type inside the implementation for the union. -/
  inner : List Parameter

/-- No parameter is declared twice where it can be seen. The type inside the implementation for the
union sees the parameters around it. -/
structure Scopes.IsHygienic (s : Scopes) : Prop where
  struct : (s.struct.map Parameter.identity).Nodup
  implementation : (s.implementation.map Parameter.identity).Nodup
  union : ((s.union ++ s.inner).map Parameter.identity).Nodup

/-- What a dispatcher declares for the parameters of its union. -/
def Generics.scopes (g : Generics) : Scopes where
  struct := storeLifetime :: g.parameters
  implementation := storeLifetime :: ordered g.parameters
  union := ordered g.parameters
  inner := [storeLifetime]

/-- Parameters that are distinct stay so exactly if none of them is the lifetime of the store. -/
lemma Generics.isHygienic_scopes_iff {g : Generics}
    (distinct : (g.parameters.map Parameter.identity).Nodup) :
    g.scopes.IsHygienic ↔ storeLifetime.identity ∉ g.parameters.map Parameter.identity := by
  have hperm := (perm_ordered g.parameters).map Parameter.identity
  constructor
  · intro h
    exact (List.nodup_cons.mp h.struct).1
  · intro h
    have h' : storeLifetime.identity ∉ (ordered g.parameters).map Parameter.identity := by
      rwa [hperm.mem_iff]
    have hdistinct := hperm.nodup_iff.mpr distinct
    constructor
    · exact List.nodup_cons.mpr ⟨h, distinct⟩
    · exact List.nodup_cons.mpr ⟨h', hdistinct⟩
    · apply (List.perm_append_comm.map Parameter.identity).nodup_iff.mpr
      exact List.nodup_cons.mpr ⟨h', hdistinct⟩

namespace Emission

/-- The items declare these parameters, each behind the words that introduce it. -/
structure HasScopes (e : Emission) (s : Scopes) : Prop where
  struct : Code.Declares
    (documentationCode e.union.name ++ wordCode "pub" ++ wordCode "struct" ++ wordCode e.view)
    (s.struct.map Parameter.declaredCode) e.structCode
  fromStore : Code.Declares (wordCode "impl") (s.implementation.map Parameter.boundedCode)
    e.fromStoreCode
  view : Code.Declares (wordCode "impl") (s.implementation.map Parameter.boundedCode) e.viewCode
  union : Code.Declares (wordCode "impl") (s.union.map Parameter.boundedCode) e.hasViewCode
  inner : ∃ header, Code.Declares (header ++ wordCode "type" ++ wordCode "View")
    (s.inner.map Parameter.nameCode) e.hasViewCode

/-- A path does not begin with an angle bracket. -/
lemma fits_path_append (p : Path) (rest : Code) :
    (Terminal.operator "<").fits (p.code ++ rest) = false := by
  have hsegments : ∃ behind, Path.segmentsCode p.segments = .ident p.first.name :: behind := by
    unfold Path.segments
    cases p.more with
    | nil => exact ⟨_, rfl⟩
    | cons s more => exact ⟨_, rfl⟩
  obtain ⟨behind, hsegments⟩ := hsegments
  unfold Path.code
  rw [hsegments]
  cases p.rooted <;> rfl

/-- An implementation declares the parameters behind `impl` with the lifetimes first. -/
lemma declares_implementation {g : Generics} (h : g.IsPunctuated) (trait : Path) (rest : Code) :
    Code.Declares (wordCode "impl") ((Generics.ordered g.parameters).map Parameter.boundedCode)
      (wordCode "impl" ++ (g.implCode ++ (trait.code ++ rest))) := by
  unfold Generics.implCode Generics.angled
  cases hps : g.parameters with
  | nil => exact .none (fits_path_append trait rest)
  | cons p ps =>
    have hlists := Generics.lists_lifetimesFirst Parameter.boundedCode h
    rw [hps] at hlists
    simpa using Code.Declares.some (trait.code ++ rest) hlists

variable {e : Emission}

lemma declares_structCode (h : e.generics.IsPunctuated) : Code.Declares
    (documentationCode e.union.name ++ wordCode "pub" ++ wordCode "struct" ++ wordCode e.view)
    (e.generics.parameters.map Parameter.declaredCode) e.structCode := by
  have hlists := Parameter.lists_of_punctuated Parameter.declaredCode h
  unfold structCode
  rw [List.append_assoc _ e.generics.whereCode]
  exact .some _ hlists

lemma declares_fromStoreCode (h : e.generics.IsPunctuated) : Code.Declares (wordCode "impl")
    ((Generics.ordered e.generics.parameters).map Parameter.boundedCode) e.fromStoreCode := by
  simpa only [fromStoreCode, List.append_assoc] using
    declares_implementation h (e.runtime.child "FromStore") _

lemma declares_viewCode (h : e.generics.IsPunctuated) : Code.Declares (wordCode "impl")
    ((Generics.ordered e.generics.parameters).map Parameter.boundedCode) e.viewCode := by
  simpa only [viewCode, List.append_assoc] using
    declares_implementation h (e.runtime.child "View") _

lemma declares_hasViewCode (h : e.union.generics.IsPunctuated) : Code.Declares (wordCode "impl")
    ((Generics.ordered e.union.generics.parameters).map Parameter.boundedCode) e.hasViewCode := by
  simpa only [hasViewCode, List.append_assoc] using
    declares_implementation h (e.runtime.child "HasView") _

/-- The type inside the implementation for the union declares the lifetime of the store. -/
lemma declares_hasViewCode_inner : ∃ header,
    Code.Declares (header ++ wordCode "type" ++ wordCode "View") [lifetime] e.hasViewCode := by
  let header : Code := wordCode "impl" ++ e.union.generics.implCode ++
    (e.runtime.child "HasView").code ++ wordCode "for" ++ e.ownerType ++
    e.union.generics.whereCode ++ [.opening .curly]
  let rest : Code := opCode "=" ++ e.viewType ++ wordCode "where" ++ wordCode "Self" ++
    opCode ":" ++ lifetime ++ opCode ";" ++ [.closing .curly]
  have hcode : e.hasViewCode = header ++ wordCode "type" ++ wordCode "View" ++ opCode "<" ++
      lifetime ++ opCode ">" ++ rest := by
    simp only [hasViewCode, groupCode, header, rest, List.append_assoc, List.cons_append,
      List.nil_append]
  rw [hcode]
  exact ⟨header, .some rest (.last lifetime)⟩

/-- Every item declares what it should for parameters that are printed with their own commas. -/
lemma hasScopes (h : e.union.generics.IsPunctuated) : e.HasScopes e.union.generics.scopes :=
  { struct := declares_structCode h.withStore
    fromStore := declares_fromStoreCode h.withStore
    view := declares_viewCode h.withStore
    union := declares_hasViewCode h
    inner := declares_hasViewCode_inner }

end Emission

/-- The dispatcher of an enumeration declares the lifetime of its store in front of the parameters
of the enumeration, which are in the order in which they are written if lifetimes come first there.
If these parameters are distinct, all items are hygienic exactly if none of them is a lifetime of
the name that the lifetime of the store has. -/
theorem hygiene_of_dispatcher {code : Code} {e : Enumeration} {settings : Settings} {a : Artifact}
    (parsed : code.item? = .ok (.enumeration e))
    (artifact : (code.expand settings).artifact = some a)
    (distinct : (e.generics.parameters.map Parameter.identity).Nodup) :
    (∃ items : Emission, items.union = e.toUnion ∧
      a.code = items.structCode ++ items.fromStoreCode ++ items.viewCode ++ items.hasViewCode ∧
      items.HasScopes e.generics.scopes) ∧
    (e.generics.parameters.Pairwise (fun p q => q.isLifetime = true → p.isLifetime = true) →
      Generics.ordered e.generics.parameters = e.generics.parameters) ∧
    (e.generics.scopes.IsHygienic ↔
      ∀ p ∈ e.generics.parameters, p.isLifetime = true → plainName p.name ≠ "store") := by
  refine ⟨?_, Generics.ordered_eq_self, ?_⟩
  · simp only [Code.expand, parsed] at artifact
    cases artifact
    rw [TaggedUnion.union_validate]
    exact ⟨_, rfl, rfl, Emission.hasScopes (Code.isPunctuated_of_item? parsed)⟩
  · rw [Generics.isHygienic_scopes_iff distinct]
    simp only [List.mem_map, not_exists, not_and]
    refine forall₂_congr fun p _ => ?_
    constructor
    · intro h hlifetime hname
      exact h (Prod.ext hlifetime hname)
    · intro h hidentity
      exact h (Prod.mk.inj hidentity).1 (Prod.mk.inj hidentity).2

/-- An enumeration with a lifetime and a type. -/
def sheetCode (lifetime : String) : Code :=
  wordCode "enum" ++ wordCode "Sheet" ++ opCode "<" ++ [.punct '\'' .joint, .ident lifetime] ++
    opCode "," ++ wordCode "T" ++ opCode ">" ++
    groupCode .curly (wordCode "Info" ++ groupCode .round (wordCode "T"))

def sheetParameters (lifetime : String) : List Parameter :=
  [{ kind := .lifetime, name := lifetime, comma := true }, { kind := .type, name := "T" }]

lemma nodup_sheetParameters (lifetime : String) :
    ((sheetParameters lifetime).map Parameter.identity).Nodup := by
  simp [sheetParameters, Parameter.identity, Parameter.isLifetime]

def Code.parameters? (code : Code) : Option (List Parameter) :=
  match code.item? with
  | .ok (.enumeration e) => some e.generics.parameters
  | _ => none

lemma Code.exists_of_parameters? {code : Code} {ps : List Parameter}
    (h : code.parameters? = some ps) :
    ∃ e, code.item? = .ok (.enumeration e) ∧ e.generics.parameters = ps := by
  unfold parameters? at h
  split at h
  · rename_i e hitem
    exact ⟨e, hitem, Option.some.inj h⟩
  · cases h

/-- The dispatcher of a sheet is hygienic, unless the lifetime of the sheet is called `store`. -/
theorem hygiene_of_sheets :
    (∃ e a, (sheetCode "a").item? = .ok (.enumeration e) ∧
      ((sheetCode "a").expand {}).artifact = some a ∧
      (∃ items : Emission, items.union = e.toUnion ∧
        a.code = items.structCode ++ items.fromStoreCode ++ items.viewCode ++ items.hasViewCode ∧
        items.HasScopes e.generics.scopes) ∧
      e.generics.scopes.IsHygienic) ∧
    (∃ e a, (sheetCode "store").item? = .ok (.enumeration e) ∧
      ((sheetCode "store").expand {}).artifact = some a ∧
      (e.generics.parameters.map Parameter.identity).Nodup ∧ ¬ e.generics.scopes.IsHygienic) := by
  have dispatcher {code : Code} {e : Enumeration} (parsed : code.item? = .ok (.enumeration e)) :
      ∃ a, (code.expand {}).artifact = some a := by
    simp only [Code.expand, parsed]
    exact ⟨_, rfl⟩
  constructor
  · have read : (sheetCode "a").parameters? = some (sheetParameters "a") := by
      decide +kernel
    obtain ⟨e, parsed, hparameters⟩ := Code.exists_of_parameters? read
    obtain ⟨a, artifact⟩ := dispatcher parsed
    have distinct := nodup_sheetParameters "a"
    rw [← hparameters] at distinct
    obtain ⟨hitems, -, hhygiene⟩ := hygiene_of_dispatcher parsed artifact distinct
    refine ⟨e, a, parsed, artifact, hitems, hhygiene.mpr ?_⟩
    rw [hparameters]
    decide
  · have read : (sheetCode "store").parameters? = some (sheetParameters "store") := by
      decide +kernel
    obtain ⟨e, parsed, hparameters⟩ := Code.exists_of_parameters? read
    obtain ⟨a, artifact⟩ := dispatcher parsed
    have distinct := nodup_sheetParameters "store"
    rw [← hparameters] at distinct
    obtain ⟨-, -, hhygiene⟩ := hygiene_of_dispatcher parsed artifact distinct
    refine ⟨e, a, parsed, artifact, distinct, fun h => ?_⟩
    have hnames := hhygiene.mp h
    rw [hparameters] at hnames
    exact absurd hnames (by decide)

end UnionView
