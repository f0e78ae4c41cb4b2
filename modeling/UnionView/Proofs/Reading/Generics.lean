import UnionView.Proofs.Reading.Parameters

/-!
# Reading the parameters of the generated items
-/

namespace UnionView

open Reader

/-! ### Syntax that is read back -/

/-- The grammar is nested deeply enough for everything that the code may contain. -/
def Code.IsCoveredBy (code : Code) (fuel : Nat) : Prop :=
  8 * code.length + 64 ≤ fuel

lemma Code.IsCoveredBy.of_length_le {code code' : Code} {fuel : Nat} (h : code.IsCoveredBy fuel)
    (hle : code'.length ≤ code.length) : code'.IsCoveredBy fuel := by
  unfold IsCoveredBy at h ⊢
  omega

/-- What `Read.parameter` reads as the bounds of a parameter or as the type of a constant. -/
def ParameterKind.boundsReader (g : Grammar) : ParameterKind → Reader Unit
  | lifetime => Read.lifetimeBounds do
      return (← isEnded) || (← peekAny [.operator ",", .operator ">"])
  | type => Read.boundsUntil g do
      return (← isEnded) || (← peekAny [.operator ",", .operator ">", .operator "="])
  | constant => do
      let _ ← g.type true

/-- What `Read.parameter` reads as the default of a parameter. -/
def ParameterKind.defaultReader (g : Grammar) : ParameterKind → Reader Unit
  | lifetime => return
  | type => do
      let _ ← g.type true
  | constant => Read.constantArgument g

/-- The attributes, the bounds and the default of a parameter are read back from the tokens that
they are printed as, wherever in a list of parameters they stand. -/
structure Parameter.ReadsBack (p : Parameter) : Prop where
  attributes : ∀ fuel rest, p.attributes.IsCoveredBy fuel →
    (Terminal.operator "#").fits rest = false →
    Takes (Read.outerAttributes (grammar fuel)) p.attributes rest fun _ => True
  bounds : ∀ bounds fuel rest, p.bounds = some bounds → bounds ≠ [] ∨ p.kind = .constant →
    bounds.IsCoveredBy fuel → rest.EndsBounds →
    Takes (p.kind.boundsReader (grammar fuel)) bounds rest fun _ => True
  default : ∀ default fuel rest, p.default = some default → default.IsCoveredBy fuel →
    rest.EndsEntry → Takes (p.kind.defaultReader (grammar fuel)) default rest fun _ => True

/-- The syntax that an enumeration brings along for its parameters is read back from the tokens that
it is printed as. -/
structure Generics.ReadsBack (g : Generics) : Prop where
  parameters : ∀ p ∈ g.parameters, p.ReadsBack
  predicates : ∀ fuel rest, g.whereCode.IsCoveredBy fuel →
    Takes (Read.predicates (grammar fuel)) g.whereCode (.opening .curly :: rest) fun _ => True

/-! ### The parts of a parameter -/

namespace Parameter

def boundsCode (p : Parameter) : Code :=
  match p.bounds with
  | none => []
  | some [] => []
  | some bounds => opCode ":" ++ bounds

def defaultCode (p : Parameter) : Code :=
  match p.default with
  | none => []
  | some default => opCode "=" ++ default

/-- A parameter behind its attributes, without its default. -/
def bareCode (p : Parameter) : Code :=
  (if p.kind = .constant then wordCode "const" else []) ++ p.nameCode ++ p.boundsCode

lemma boundedCode_eq (p : Parameter) : p.boundedCode = p.attributes ++ p.bareCode := by
  have hcode : p.boundedCode = p.attributes ++
      (if p.kind = .constant then wordCode "const" else []) ++ p.nameCode ++ p.boundsCode := rfl
  rw [hcode, bareCode]
  simp only [List.append_assoc]

lemma declaredCode_eq (p : Parameter) :
    p.declaredCode = p.attributes ++ (p.bareCode ++ p.defaultCode) := by
  have hcode : p.declaredCode = p.boundedCode ++ p.defaultCode := rfl
  rw [hcode, boundedCode_eq, List.append_assoc]

variable {p : Parameter}

lemma bareCode_of_lifetime (h : p.kind = .lifetime) :
    p.bareCode = [.punct '\'' .joint, .ident p.name] ++ p.boundsCode := by
  obtain ⟨_, kind, _, _, _, _⟩ := p
  obtain rfl : kind = .lifetime := h
  rfl

lemma bareCode_of_type (h : p.kind = .type) : p.bareCode = wordCode p.name ++ p.boundsCode := by
  obtain ⟨_, kind, _, _, _, _⟩ := p
  obtain rfl : kind = .type := h
  rfl

lemma bareCode_of_constant (h : p.kind = .constant) :
    p.bareCode = wordCode "const" ++ (wordCode p.name ++ p.boundsCode) := by
  obtain ⟨_, kind, _, _, _, _⟩ := p
  obtain rfl : kind = .constant := h
  rfl

end Parameter

namespace Read

open Parameter

variable {p : Parameter} {rest : Code}

/-- Behind the bounds of a parameter nothing is read as more of them. -/
lemma takes_parameterBounds {bounds : Reader Unit}
    (h : ∀ code, p.bounds = some code → code ≠ [] → Takes bounds code rest fun _ => True)
    (hrest : rest.EndsBounds) : Takes (parameterBounds bounds) p.boundsCode rest fun _ => True := by
  have hnone : Takes (parameterBounds bounds) [] rest fun _ => True := by
    unfold parameterBounds
    refine .look (a := (false, [])) ?_ (.pure trivial)
    obtain ⟨h⟩ | _ := hrest
    · cases h <;> exact fun _ _ => ⟨_, _, rfl, rfl⟩
    · exact fun _ _ => ⟨_, _, rfl, rfl⟩
  unfold boundsCode
  cases hbounds : p.bounds with
  | none => exact hnone
  | some code =>
    cases code with
    | nil => exact hnone
    | cons token code =>
      unfold parameterBounds
      have hcolon : Takes (capture (acceptOperator ":")) (opCode ":") (token :: code ++ rest)
          fun r => r.1 = true := fun _ _ => ⟨_, _, rfl, rfl⟩
      refine .bind hcolon ?_
      rintro ⟨_, _⟩ rfl
      refine .last (.capture (h _ hbounds nofun)) fun r _ => ?_
      exact .ite (fun _ => .seq (.write _) fun _ => .pure trivial) fun _ => .pure trivial

/-- A default is read behind its equals sign. -/
lemma takes_parameterDefault {value : Reader Unit}
    (h : ∀ code, p.default = some code → Takes value code rest fun _ => True)
    (hrest : rest.EndsEntry) : Takes (parameterDefault value) p.defaultCode rest fun _ => True := by
  unfold defaultCode parameterDefault
  cases hdefault : p.default with
  | none =>
    have hequals : (Terminal.operator "=").fits rest = false := by
      cases hrest <;> rfl
    exact .refuse hequals (.pure trivial)
  | some code =>
    refine .accept (.last (.capture (h code hdefault)) fun r _ => ?_)
    exact .seq (.write _) fun _ => .pure trivial

lemma endsBounds_defaultCode (hrest : rest.EndsEntry) : (p.defaultCode ++ rest).EndsBounds := by
  unfold defaultCode
  cases p.default with
  | none => exact .entry hrest
  | some default =>
    rw [List.append_assoc]
    exact .default _

/-! ### One parameter -/

section Kinds

variable (g : Grammar) (attributes : Code)

lemma takes_lifetimeParameter (hkind : p.kind = .lifetime) (hdeclared : p.IsDeclared)
    (hbounds : Takes (parameterBounds (p.kind.boundsReader g)) p.boundsCode (p.defaultCode ++ rest)
      fun _ => True) :
    Takes (lifetimeParameter attributes) (p.bareCode ++ p.defaultCode) rest fun _ => True := by
  have hdefault : p.defaultCode = [] := by
    rw [IsDeclared, hkind] at hdeclared
    rw [defaultCode, hdeclared]
  rw [hdefault] at hbounds ⊢
  rw [bareCode_of_lifetime hkind, List.append_nil]
  rw [hkind] at hbounds
  unfold lifetimeParameter
  refine .quiet (P := fun _ => True) (fun _ _ => ⟨_, _, rfl, trivial⟩) fun _ _ => ?_
  refine .seq (P := fun _ => True) (fun _ _ => ⟨_, _, rfl, trivial⟩) fun _ => ?_
  exact .last hbounds fun _ _ => .pure trivial

lemma takes_typeParameter (hkind : p.kind = .type)
    (hname : Terminal.identifier.fits [.ident p.name] = true)
    (hbounds : Takes (parameterBounds (p.kind.boundsReader g)) p.boundsCode (p.defaultCode ++ rest)
      fun _ => True)
    (hdefault : Takes (parameterDefault (p.kind.defaultReader g)) p.defaultCode rest
      fun _ => True) :
    Takes (typeParameter g attributes) (p.bareCode ++ p.defaultCode) rest fun _ => True := by
  rw [hkind] at hbounds hdefault
  rw [bareCode_of_type hkind, List.append_assoc]
  unfold typeParameter
  refine .seq (.identifier hname) fun _ => .seq hbounds fun _ => ?_
  exact .last hdefault fun _ _ => .pure trivial

/-- No type begins where the bounds of a parameter end. -/
lemma ne_nil_of_takes_type {code : Code} {P : Ty → Prop}
    (h : Takes (Read.type g true) code rest P) (hrest : rest.EndsBounds) : code ≠ [] := by
  rintro rfl
  obtain ⟨_, _, hrun, -⟩ := h 0 []
  obtain ⟨⟨behind⟩ | ⟨behind⟩⟩ | ⟨behind⟩ := hrest
  · cases hrun
  · cases hrun
  · cases hrun

lemma takes_constantParameter (hkind : p.kind = .constant) (hdeclared : p.IsDeclared)
    (hbounds : ∀ bounds, p.bounds = some bounds → bounds ≠ [] ∧
      Takes (p.kind.boundsReader g) bounds (p.defaultCode ++ rest) fun _ => True)
    (hdefault : Takes (parameterDefault (p.kind.defaultReader g)) p.defaultCode rest
      fun _ => True) :
    Takes (constantParameter g attributes) (p.bareCode ++ p.defaultCode) rest fun _ => True := by
  rw [IsDeclared, hkind] at hdeclared
  obtain ⟨hname, hsome⟩ := hdeclared
  obtain ⟨type, htype⟩ := Option.isSome_iff_exists.mp hsome
  obtain ⟨hne, hread⟩ := hbounds type htype
  rw [hkind] at hread hdefault
  have hcode : p.boundsCode = opCode ":" ++ type := by
    obtain ⟨token, others, rfl⟩ := List.exists_cons_of_ne_nil hne
    rw [boundsCode, htype]
  rw [bareCode_of_constant hkind, hcode, List.append_assoc, List.append_assoc, List.append_assoc]
  unfold constantParameter
  refine .seq (.word "const") fun _ => .seq (.identifier hname) fun _ => ?_
  refine .seq (.operator _) fun _ => ?_
  refine .seq (.capture (Takes.of_dropped hread)) fun r => .quiet (.write r.2) fun _ _ => ?_
  exact .last hdefault fun _ _ => .pure trivial

end Kinds

lemma length_le_boundsCode {bounds : Code} (h : p.bounds = some bounds) :
    bounds.length ≤ p.boundsCode.length := by
  unfold boundsCode
  rw [h]
  cases bounds with
  | nil => exact Nat.zero_le _
  | cons => exact (List.length_append ▸ Nat.le_add_left _ _)

/-- What is behind the attributes of a parameter is none of them. -/
lemma fits_bareCode (p : Parameter) (rest : Code) :
    (Terminal.operator "#").fits (p.bareCode ++ rest) = false := by
  cases hkind : p.kind with
  | lifetime => rw [bareCode_of_lifetime hkind]; rfl
  | type => rw [bareCode_of_type hkind]; rfl
  | constant => rw [bareCode_of_constant hkind]; rfl

/-- A parameter is read back from the tokens that it is printed as. -/
lemma takes_parameter {fuel : Nat} (hdeclared : p.IsDeclared) (hreads : p.ReadsBack)
    (hcovered : p.declaredCode.IsCoveredBy (fuel + 1)) (hrest : rest.EndsEntry) :
    Takes (parameter (grammar (fuel + 1))) p.declaredCode rest fun _ => True := by
  have hends := endsBounds_defaultCode (p := p) hrest
  rw [declaredCode_eq] at hcovered ⊢
  have hattributes : p.attributes.IsCoveredBy (fuel + 1) :=
    hcovered.of_length_le (by rw [List.length_append]; omega)
  have hbounds : ∀ bounds, p.bounds = some bounds → bounds ≠ [] ∨ p.kind = .constant →
      Takes (p.kind.boundsReader (grammar (fuel + 1))) bounds (p.defaultCode ++ rest)
        fun _ => True := by
    intro bounds hsome hne
    have hlength := length_le_boundsCode hsome
    refine hreads.bounds bounds _ _ hsome hne (hcovered.of_length_le ?_) hends
    simp only [bareCode, List.length_append]
    omega
  have hdefault : Takes (parameterDefault (p.kind.defaultReader (grammar (fuel + 1))))
      p.defaultCode rest fun _ => True := by
    refine takes_parameterDefault (fun default hsome => ?_) hrest
    refine hreads.default default _ _ hsome (hcovered.of_length_le ?_) hrest
    simp only [defaultCode, hsome, List.length_append]
    omega
  have hbounds' : Takes (parameterBounds (p.kind.boundsReader (grammar (fuel + 1)))) p.boundsCode
      (p.defaultCode ++ rest) fun _ => True :=
    takes_parameterBounds (fun bounds hsome hne => hbounds bounds hsome (.inl hne)) hends
  unfold parameter
  have hfront : (Terminal.operator "#").fits (p.bareCode ++ p.defaultCode ++ rest) = false := by
    rw [List.append_assoc]
    exact fits_bareCode p _
  refine .seq (.capture (hreads.attributes _ _ hattributes hfront)) fun r =>
    .quiet (.write r.2) fun _ _ => ?_
  cases hkind : p.kind with
  | lifetime =>
    refine .see (b := true) (by rw [bareCode_of_lifetime hkind]; rfl) ?_
    exact takes_lifetimeParameter _ _ hkind hdeclared hbounds'
  | type =>
    refine .see (b := false) (by rw [bareCode_of_type hkind]; rfl) ?_
    rw [IsDeclared, hkind] at hdeclared
    obtain hname | ⟨hname, hnone, hnone'⟩ := hdeclared
    · refine .see (b := true) (by rw [bareCode_of_type hkind]; exact hname) ?_
      exact takes_typeParameter _ _ hkind hname hbounds' hdefault
    · -- an underscore has neither bounds nor a default
      rw [bareCode_of_type hkind, boundsCode, defaultCode, hname, hnone, hnone']
      exact fun _ _ => ⟨_, _, rfl, trivial⟩
  | constant =>
    refine .see (b := false) (by rw [bareCode_of_constant hkind]; rfl) ?_
    refine .see (b := false) (by rw [bareCode_of_constant hkind]; rfl) ?_
    refine .see (b := true) (by rw [bareCode_of_constant hkind]; rfl) ?_
    refine takes_constantParameter _ _ hkind hdeclared (fun bounds hsome => ?_) hdefault
    have htype := hbounds bounds hsome (.inr hkind)
    rw [hkind] at htype ⊢
    exact ⟨ne_nil_of_takes_type _ htype.of_dropped hends, htype⟩

/-- A parameter without its default is read back as well. -/
lemma takes_parameter_bounded {fuel : Nat} (hdeclared : p.IsDeclared) (hreads : p.ReadsBack)
    (hcovered : p.boundedCode.IsCoveredBy (fuel + 1)) (hrest : rest.EndsEntry) :
    Takes (parameter (grammar (fuel + 1))) p.boundedCode rest fun _ => True := by
  let q : Parameter := { p with default := none }
  have hcode : q.declaredCode = p.boundedCode := List.append_nil _
  have hdeclared' : q.IsDeclared := by
    unfold IsDeclared at hdeclared ⊢
    obtain ⟨_, kind, _, _, _, _⟩ := p
    cases kind with
    | lifetime => rfl
    | type => exact hdeclared.imp_right fun ⟨hname, hnone, _⟩ => ⟨hname, hnone, rfl⟩
    | constant => exact hdeclared
  have hreads' : q.ReadsBack := ⟨hreads.attributes, hreads.bounds, nofun⟩
  rw [← hcode] at hcovered ⊢
  exact takes_parameter hdeclared' hreads' hcovered hrest

/-! ### Lists of parameters -/

/-- The code is read as a parameter wherever in a list it stands. -/
def IsParameter (g : Grammar) (code : Code) : Prop :=
  (∀ rest, (Terminal.operator ">").fits (code ++ rest) = false) ∧
    ∀ rest, rest.EndsEntry → Takes (parameter g) code rest fun _ => True

/-- Parameters are read from the list in angle brackets that they are printed as. -/
lemma takes_parameters {g : Grammar} {entries : List Code} {list : Code}
    (hlists : Code.Lists entries list) (hentries : ∀ e ∈ entries, IsParameter g e) (rest : Code) :
    Takes (parameters g) (opCode "<" ++ list ++ opCode ">") rest fun _ => True := by
  have hne : ∀ e ∈ entries, e ≠ [] := by
    rintro e he rfl
    exact absurd ((hentries [] he).1 (opCode ">")) (by decide)
  have hlist : Takes (collect (listedParameter? g)) list (opCode ">" ++ rest) fun _ => True := by
    refine takes_collect_of_lists hlists hne ?_ ?_ ?_
    · intro e he
      obtain ⟨hopen, hparameter⟩ := hentries e he
      refine .see (hopen _) (.last (hparameter _ (.angle rest)) fun p _ => ?_)
      exact .see rfl (.pure ⟨_, rfl, trivial⟩)
    · intro e he r
      obtain ⟨hopen, hparameter⟩ := hentries e he
      have hfits : (Terminal.operator ">").fits (e ++ opCode "," ++ r) = false := by
        rw [List.append_assoc]
        exact hopen _
      refine .see hfits (.bind (hparameter _ (.comma r)) fun p _ => .see rfl ?_)
      exact fun _ _ => ⟨_, _, rfl, _, rfl, trivial⟩
    · exact .see rfl (.pure rfl)
  rw [List.append_assoc]
  exact .accept (.seq hlist fun _ => .last (.operator ">") fun _ _ => .pure trivial)

/-- Without an angle bracket there are no parameters. -/
lemma takes_parameters_nil (g : Grammar) (h : (Terminal.operator "<").fits rest = false) :
    Takes (parameters g) [] rest fun _ => True :=
  .refuse h (.pure trivial)

end Read

/-! ### Where parameters begin -/

namespace Parameter

variable {p : Parameter}

/-- The attributes of a parameter that is read back begin as attributes do. -/
lemma ReadsBack.attributes_cases (h : p.ReadsBack) :
    p.attributes = [] ∨ ∃ spacing behind, p.attributes = .punct '#' spacing :: behind := by
  cases hcode : p.attributes with
  | nil => exact .inl rfl
  | cons token behind =>
    by_cases hfits : (Terminal.operator "#").fits (token :: behind) = true
    · cases token with
      | punct mark spacing =>
        obtain rfl : mark = '#' := by simpa [Terminal.fits, Code.startsWith] using hfits
        exact .inr ⟨spacing, behind, rfl⟩
      | ident | literal | opening | closing => cases hfits
    · -- nothing would be read of them
      have htakes := h.attributes _ [] (Nat.le_refl _) rfl
      rw [hcode] at htakes
      obtain ⟨_, _, hrun, -⟩ := htakes 0 []
      have hnone : Takes (Read.outerAttributes (grammar (8 * p.attributes.length + 64))) []
          (token :: behind) _ :=
        Read.takes_outerAttributes_nil _ (Bool.eq_false_iff.mpr hfits)
      obtain ⟨_, _, hrun', -⟩ := hnone 0 []
      rw [List.append_nil] at hrun
      rw [hcode] at hrun'
      rw [List.nil_append, hrun] at hrun'
      cases hrun'

/-- A parameter that may stand in front of the others: it is not an underscore alone, with which a
qualified path might begin. -/
def MayLead (p : Parameter) : Prop :=
  p.name = "_" → p.attributes ≠ []

/-- What follows the name of a parameter: bounds, or the end of the entry. -/
lemma boundsCode_front (p : Parameter) {rest : Code} (hrest : rest.EndsEntry) :
    ∃ mark behind, p.boundsCode ++ rest = .punct mark .alone :: behind ∧
      (mark = ':' ∨ mark = ',' ∨ mark = '>') := by
  have hend : ∃ mark behind, rest = .punct mark .alone :: behind ∧
      (mark = ':' ∨ mark = ',' ∨ mark = '>') := by
    cases hrest with
    | comma behind => exact ⟨',', behind, rfl, .inr (.inl rfl)⟩
    | angle behind => exact ⟨'>', behind, rfl, .inr (.inr rfl)⟩
  unfold boundsCode
  cases p.bounds with
  | none => exact hend
  | some bounds =>
    cases bounds with
    | nil => exact hend
    | cons token bounds => exact ⟨':', _, rfl, .inl rfl⟩

end Parameter

namespace Read

open Parameter

variable {p : Parameter} {rest : Code}

/-- Parameters begin where a list of them does. -/
lemma takes_startsParameters (hdeclared : p.IsDeclared) (hreads : p.ReadsBack) (hlead : p.MayLead)
    (hrest : rest.EndsEntry) :
    Takes startsParameters [] (opCode "<" ++ (p.boundedCode ++ rest)) (· = true) := by
  rw [boundedCode_eq, List.append_assoc]
  unfold startsParameters
  refine .see rfl ?_
  obtain hnone | ⟨spacing, behind, hsome⟩ := hreads.attributes_cases
  · rw [hnone]
    obtain ⟨mark, behind, hbehind, hmark⟩ := p.boundsCode_front hrest
    rw [List.nil_append]
    cases hkind : p.kind with
    | lifetime =>
      rw [bareCode_of_lifetime hkind, List.append_assoc, hbehind]
      obtain rfl | rfl | rfl := hmark <;> exact fun _ _ => ⟨_, _, rfl, rfl⟩
    | type =>
      rw [IsDeclared, hkind] at hdeclared
      have hname :
          Terminal.identifier.fits (.ident p.name :: .punct mark .alone :: behind) = true :=
        hdeclared.resolve_right fun hunderscore => hlead hunderscore.1 hnone
      rw [bareCode_of_type hkind, List.append_assoc, hbehind]
      refine .seeSecond rfl (.seeSecond rfl (.seeSecond (b := false) ?_ ?_))
      · exact Terminal.fits_word_of_identifier hname (by decide)
      · refine .seeSecond rfl (.seeSecond hname ?_)
        obtain rfl | rfl | rfl := hmark <;> exact fun _ _ => ⟨_, _, rfl, rfl⟩
    | constant =>
      rw [bareCode_of_constant hkind]
      exact fun _ _ => ⟨_, _, rfl, rfl⟩
  · rw [hsome]
    exact fun _ _ => ⟨_, _, rfl, rfl⟩

end Read

/-! ### The parameters of an item -/

namespace Code.Lists

variable {entries : List Code} {list : Code}

lemma length_le (h : Lists entries list) : ∀ e ∈ entries, e.length ≤ list.length := by
  induction h with
  | nil => exact nofun
  | last entry => exact List.forall_mem_singleton.mpr (Nat.le_refl _)
  | @cons entries list entry _ ih =>
    refine List.forall_mem_cons.mpr ⟨?_, fun e he => ?_⟩
    · simp only [List.length_append]
      omega
    · have hle := ih e he
      simp only [List.length_append]
      omega

/-- The first entry, and what follows it in angle brackets. -/
lemma exists_tail {entry : Code} (h : Lists (entry :: entries) list) (rest : Code) :
    ∃ tail, list ++ (opCode ">" ++ rest) = entry ++ tail ∧ tail.EndsEntry := by
  cases h with
  | last => exact ⟨_, rfl, .angle rest⟩
  | @cons _ list _ others =>
    refine ⟨_, ?_, .comma (list ++ (opCode ">" ++ rest))⟩
    rw [List.append_assoc, List.append_assoc]

end Code.Lists

namespace Generics

variable {g : Generics} {rest : Code} {fuel : Nat}

/-- Parameters that were declared and are read back. -/
structure IsKnown (g : Generics) : Prop where
  declared : ∀ p ∈ g.parameters, p.IsDeclared
  punctuated : g.IsPunctuated
  readsBack : g.ReadsBack

/-- A parameter does not begin as the end of a list does. -/
lemma fits_parameter {p : Parameter} (h : p.ReadsBack) (behind : Code) :
    (Terminal.operator ">").fits (p.attributes ++ (p.bareCode ++ behind)) = false := by
  obtain hnone | ⟨spacing, attributes, hsome⟩ := h.attributes_cases
  · rw [hnone, List.nil_append]
    cases hkind : p.kind with
    | lifetime => rw [p.bareCode_of_lifetime hkind]; rfl
    | type => rw [p.bareCode_of_type hkind]; rfl
    | constant => rw [p.bareCode_of_constant hkind]; rfl
  · rw [hsome]
    rfl

/-- Declared parameters are read back. -/
lemma IsKnown.takes_declaredCode (h : g.IsKnown) (hcovered : g.declaredCode.IsCoveredBy (fuel + 1))
    (rest : Code) : Takes (Read.parameters (grammar (fuel + 1)))
      (opCode "<" ++ g.declaredCode ++ opCode ">") rest fun _ => True := by
  have hlists := Parameter.lists_of_punctuated Parameter.declaredCode h.punctuated
  refine Read.takes_parameters hlists (List.forall_mem_map.mpr fun p hp => ⟨?_, ?_⟩) rest
  · intro behind
    rw [Parameter.declaredCode_eq, List.append_assoc, List.append_assoc]
    exact fits_parameter (h.readsBack.parameters p hp) _
  · intro behind hbehind
    have hle := hlists.length_le _ (List.mem_map_of_mem hp)
    exact Read.takes_parameter (h.declared p hp) (h.readsBack.parameters p hp)
      (hcovered.of_length_le hle) hbehind

/-- The first of the parameters of an implementation may lead them. -/
def MayLead (g : Generics) : Prop :=
  ∀ p, (ordered g.parameters).head? = some p → p.MayLead

/-- The parameters of an implementation are read back, and they are told from a path. -/
lemma IsKnown.takes_implCode (h : g.IsKnown) (hlead : g.MayLead)
    (hcovered : g.implCode.IsCoveredBy (fuel + 1)) (rest : Code) :
    g.implCode = [] ∨ Takes Read.startsParameters [] (g.implCode ++ rest) (· = true) ∧
      Takes (Read.parameters (grammar (fuel + 1))) g.implCode rest fun _ => True := by
  have hlists := lists_lifetimesFirst Parameter.boundedCode h.punctuated
  have hmem : ∀ p ∈ ordered g.parameters, p.IsDeclared ∧ p.ReadsBack := fun p hp =>
    have hp' := (perm_ordered _).mem_iff.mp hp
    ⟨h.declared p hp', h.readsBack.parameters p hp'⟩
  unfold MayLead at hlead
  unfold implCode angled at hcovered ⊢
  have hempty : g.parameters.isEmpty = (ordered g.parameters).isEmpty :=
    (perm_ordered g.parameters).symm.isEmpty_eq
  rw [hempty] at hcovered ⊢
  generalize lifetimesFirst (g.parameters.map (Parameter.entry Parameter.boundedCode)) = list
    at hlists hcovered ⊢
  cases hordered : ordered g.parameters with
  | nil => exact .inl rfl
  | cons p ps =>
    rw [hordered] at hlists hmem hlead hcovered
    obtain ⟨hdeclared, hreads⟩ := hmem p List.mem_cons_self
    refine .inr ⟨?_, ?_⟩
    · obtain ⟨tail, htail, hends⟩ := hlists.exists_tail rest
      show Takes _ [] (opCode "<" ++ list ++ opCode ">" ++ rest) _
      rw [List.append_assoc, List.append_assoc, htail]
      exact Read.takes_startsParameters hdeclared hreads (hlead p rfl) hends
    · refine Read.takes_parameters hlists (List.forall_mem_map.mpr fun q hq => ⟨?_, ?_⟩) rest
      · intro behind
        rw [Parameter.boundedCode_eq, List.append_assoc]
        exact fits_parameter (hmem q hq).2 _
      · intro behind hbehind
        have hle := hlists.length_le _ (List.mem_map_of_mem hq)
        have hlist : list.IsCoveredBy (fuel + 1) := by
          refine hcovered.of_length_le ?_
          show list.length ≤ (opCode "<" ++ list ++ opCode ">").length
          simp only [List.length_append]
          omega
        exact Read.takes_parameter_bounded (hmem q hq).1 (hmem q hq).2
          (hlist.of_length_le hle) hbehind

end Generics

end UnionView
