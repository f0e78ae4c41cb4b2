import UnionView.Proofs.Dispatch.Parameters
import UnionView.Proofs.Reading.Path

/-!
# Reading parameters that are known
-/

namespace UnionView

open Reader

namespace Code

/-- The code goes on behind an entry of a list in angle brackets. -/
inductive EndsEntry : Code → Prop
  | comma (behind : Code) : EndsEntry (opCode "," ++ behind)
  | angle (behind : Code) : EndsEntry (opCode ">" ++ behind)

/-- The code goes on behind the bounds of a parameter. -/
inductive EndsBounds : Code → Prop
  | entry {rest : Code} (h : EndsEntry rest) : EndsBounds rest
  | default (behind : Code) : EndsBounds (opCode "=" ++ behind)

lemma EndsEntry.endsPath {rest : Code} (h : EndsEntry rest) : rest.EndsPath := by
  cases h <;> exact ⟨rfl, rfl, rfl, rfl⟩

end Code

namespace Read

/-! ### Lists in angle brackets -/

/-- A loop over the entries of a list up to a closing angle bracket. -/
lemma takes_collect_of_lists {α : Type} {step : Reader (Option α)} {entries : List Code}
    {list rest : Code} (hlists : Code.Lists entries list) (hne : ∀ e ∈ entries, e ≠ [])
    (hlast : ∀ e ∈ entries, Takes step e (opCode ">" ++ rest) fun a? => ∃ a, a? = some a ∧ True)
    (hcomma : ∀ e ∈ entries, ∀ r, Takes step (e ++ opCode ",") r fun a? => ∃ a, a? = some a ∧ True)
    (hend : Takes step [] (opCode ">" ++ rest) (· = none)) :
    Takes (collect step) list (opCode ">" ++ rest) fun _ => True := by
  suffices heach : ∃ P, TakesEach step (opCode ">" ++ rest) list P by
    obtain ⟨P, heach⟩ := heach
    exact heach.collect.mono fun _ _ => trivial
  induction hlists with
  | nil => exact ⟨_, .last hend⟩
  | last entry =>
    have hentry := List.mem_singleton_self entry
    have hlast' : Takes step entry ([] ++ (opCode ">" ++ rest)) _ := hlast entry hentry
    have hstep := TakesEach.cons (hne entry hentry) hlast' (.last hend)
    rw [List.append_nil] at hstep
    exact ⟨_, hstep⟩
  | cons entry _ ih =>
    obtain ⟨P, heach⟩ := ih (fun e he => hne e (List.mem_cons_of_mem _ he))
      (fun e he => hlast e (List.mem_cons_of_mem _ he))
      (fun e he => hcomma e (List.mem_cons_of_mem _ he))
    have hentry : entry ++ opCode "," ≠ [] :=
      List.append_ne_nil_of_left_ne_nil (hne entry List.mem_cons_self) _
    exact ⟨_, .cons hentry (hcomma entry List.mem_cons_self _) heach⟩

variable (g : Grammar)

/-! ### Arguments -/

/-- An entry of a list of arguments, whatever entry comes next. -/
def IsArgument (entry : Code) : Prop :=
  (∀ rest, (Terminal.operator ">").fits (entry ++ rest) = false) ∧
    ∀ rest, rest.EndsEntry → Takes (argument g) entry rest fun _ => True

lemma IsArgument.ne_nil {entry : Code} (h : IsArgument g entry) : entry ≠ [] := by
  rintro rfl
  exact absurd (h.1 (opCode ">")) (by decide)

/-- Arguments are read from the list in angle brackets that they are printed as. -/
lemma takes_arguments {entries : List Code} {list : Code} (hlists : Code.Lists entries list)
    (hentries : ∀ e ∈ entries, IsArgument g e) (rest : Code) :
    Takes (arguments g) (opCode "<" ++ list ++ opCode ">") rest fun _ => True := by
  have hlist : Takes (angleList (argument g)) list (opCode ">" ++ rest) fun _ => True := by
    refine takes_collect_of_lists hlists (fun e he => (hentries e he).ne_nil) ?_ ?_ ?_
    · intro e he
      obtain ⟨hopen, hargument⟩ := hentries e he
      refine .see (hopen _) (.last (.capture (hargument _ (.angle rest))) fun a _ => ?_)
      exact .see rfl (.pure ⟨_, rfl, trivial⟩)
    · intro e he r
      obtain ⟨hopen, hargument⟩ := hentries e he
      have hfits : (Terminal.operator ">").fits (e ++ opCode "," ++ r) = false := by
        rw [List.append_assoc]
        exact hopen _
      refine .see hfits (.bind (.capture (hargument _ (.comma r))) fun a _ => .see rfl ?_)
      exact fun _ _ => ⟨_, _, rfl, _, rfl, trivial⟩
    · exact .see rfl (.pure rfl)
  rw [List.append_assoc]
  refine .refuse rfl (.seq (.operator _) fun _ => ?_)
  refine .seq hlist fun _ => .look (a := ()) ?_ ?_
  · exact (Takes.write _).mono fun _ _ => rfl
  · exact fun _ _ => ⟨_, _, rfl, trivial⟩

lemma isArgument_lifetime (name : String) : IsArgument g [.punct '\'' .joint, .ident name] := by
  refine ⟨fun _ => rfl, fun rest hrest => ?_⟩
  cases hrest <;> exact fun _ _ => ⟨_, _, rfl, trivial⟩

lemma isArgument_path {p : Path}
    (hstart : Path.segmentStarts.any (·.fits [.ident p.first.name]) = true)
    (h : ∀ rest, rest.EndsEntry → Takes (g.type true) p.code rest fun t => ∃ q, t = .path q) :
    IsArgument g p.code := by
  refine ⟨fun rest => (p.startsPath hstart rest).fits_eq_false (by decide), fun rest hrest => ?_⟩
  have hstart' := p.startsPath hstart rest
  unfold argument
  refine .see (hstart'.fits_eq_false rfl) (.seeSecond rfl ?_)
  refine .seeAny (hstart'.any_eq_false (by decide)) (.last (h rest hrest) ?_)
  rintro _ ⟨q, rfl⟩
  refine .ite (fun _ => ?_) fun _ => .pure trivial
  cases hrest <;> exact fun _ _ => ⟨_, _, rfl, trivial⟩

lemma isArgument_underscore
    (h : ∀ rest, rest.EndsEntry → Takes (g.type true) (wordCode "_") rest fun t => t = .other) :
    IsArgument g (wordCode "_") := by
  refine ⟨fun rest => rfl, fun rest hrest => ?_⟩
  unfold argument
  refine .see rfl (.seeSecond rfl (.seeAny rfl (.last (h rest hrest) ?_)))
  rintro _ rfl
  exact .pure trivial

end Read

/-! ### Parameters as arguments -/

namespace Parameter

/-- A parameter as it is declared: only a type may be an underscore, which stands alone, and only a
lifetime may have a reserved name. A constant has a type, and a lifetime has no default. -/
def IsDeclared (p : Parameter) : Prop :=
  match p.kind with
  | .lifetime => p.default = none
  | .type => Terminal.identifier.fits [.ident p.name] = true ∨
      p.name = "_" ∧ p.bounds = none ∧ p.default = none
  | .constant => Terminal.identifier.fits [.ident p.name] = true ∧ p.bounds.isSome = true

lemma takes_type_ofName (g : Grammar) (allowSum : Bool) {name : String} {rest : Code}
    (h : Terminal.identifier.fits [.ident name] = true) (hends : rest.EndsPath) :
    Takes (Read.type g allowSum) (wordCode name) rest
      fun t => ∃ q, t = .path q ∧ (Path.ofName name).IsNamed q := by
  have hstart := Path.segmentStarts_of_identifier h
  have hpath : Takes (Read.path g false) (Path.ofName name).code rest (Path.ofName name).IsNamed :=
    Read.takes_path g (List.forall_mem_singleton.mpr ⟨hstart, .inl rfl⟩) hends.endsNames
  exact Read.takes_type g allowSum (Path.startsPath hstart rest) hpath hends

lemma isArgument_nameCode {p : Parameter} (h : p.IsDeclared) (fuel : Nat) :
    Read.IsArgument (grammar (fuel + 1)) p.nameCode := by
  have hname (hfits : Terminal.identifier.fits [.ident p.name] = true) :
      Read.IsArgument (grammar (fuel + 1)) (wordCode p.name) := by
    refine Read.isArgument_path _ (p := .ofName p.name) (Path.segmentStarts_of_identifier hfits) ?_
    exact fun rest hrest => (takes_type_ofName _ true hfits hrest.endsPath).mono
      fun t ⟨q, ht, _⟩ => ⟨q, ht⟩
  obtain ⟨attributes, kind, name, bounds, default, comma⟩ := p
  cases kind with
  | lifetime => exact Read.isArgument_lifetime _ name
  | type =>
    obtain hfits | ⟨hunderscore, -⟩ := h
    · exact hname hfits
    · obtain rfl : name = "_" := hunderscore
      refine Read.isArgument_underscore _ fun rest hrest => ?_
      cases hrest <;> exact fun _ _ => ⟨_, _, rfl, rfl⟩
  | constant => exact hname h.1

end Parameter

namespace Generics

variable {g : Generics}

/-- The parameters as arguments: nothing, or a list in angle brackets that is read. -/
lemma argumentCode_cases (hdeclared : ∀ p ∈ g.parameters, p.IsDeclared) (h : g.IsPunctuated)
    (fuel : Nat) : g.argumentCode = [] ∨ ∃ args, g.argumentCode = opCode "<" ++ args ∧
      ∀ rest, Takes (Read.arguments (grammar (fuel + 1))) g.argumentCode rest fun _ => True := by
  unfold argumentCode angled
  cases hps : g.parameters with
  | nil => exact .inl rfl
  | cons p ps =>
    have hlists := lists_lifetimesFirst Parameter.nameCode h
    have hentries : ∀ e ∈ (ordered g.parameters).map Parameter.nameCode,
        Read.IsArgument (grammar (fuel + 1)) e := by
      rw [List.forall_mem_map]
      intro q hq
      exact Parameter.isArgument_nameCode (hdeclared q ((perm_ordered _).mem_iff.mp hq)) fuel
    rw [hps] at hlists hentries
    refine .inr ⟨_, by rw [List.append_assoc]; rfl, fun rest => ?_⟩
    exact Read.takes_arguments _ hlists hentries rest

end Generics

/-! ### Types with arguments -/

namespace Path

/-- The path that goes on with one more name, which has arguments. -/
def childWith (p : Path) (name : String) (args : Code) : Path :=
  { p with more := p.more ++ [{ name, arguments := args }] }

lemma code_childWith (p : Path) (name : String) (args : Code) :
    (p.childWith name args).code = (p.child name).code ++ args := by
  simp only [code, segments, childWith, child, Read.segmentsCode_eq, Read.moreCode,
    List.flatMap_append, List.flatMap_singleton, PathSegment.code, List.append_assoc,
    List.cons_append, List.nil_append]
  rfl

lemma isNamed_childWith (p : Path) (name : String) (args : Code) :
    (p.childWith name args).IsNamed = (p.child name).IsNamed := by
  funext q
  simp [IsNamed, segments, childWith, child]

end Path

namespace Read

variable {rest : Code}

/-- A plain path that goes on with a name with arguments is read as a type. -/
lemma takes_type_childWith (fuel : Nat) (allowSum : Bool) {p : Path} {name : String} {args : Code}
    (hplain : ∀ s ∈ p.segments, s.IsPlain)
    (hname : Terminal.identifier.fits [.ident name] = true)
    (hargs : args = [] ∨ ∃ inner, args = opCode "<" ++ inner ∧
      ∀ rest, Takes (arguments (grammar fuel)) args rest fun _ => True) (hends : rest.EndsPath) :
    Takes ((grammar (fuel + 1)).type allowSum) ((p.child name).code ++ args) rest
      fun t => ∃ q, t = .path q ∧ (p.child name).IsNamed q := by
  have hsegments : ∀ s ∈ (p.childWith name args).segments, IsSegment (grammar fuel) false s := by
    intro s hs
    obtain hs | hs := List.mem_append.mp (show s ∈ p.segments ++ [_] from hs)
    · exact isSegment_of_isPlain _ _ (hplain s hs)
    · obtain rfl := List.mem_singleton.mp hs
      refine ⟨Path.segmentStarts_of_identifier hname, hargs.imp_right ?_⟩
      exact fun ⟨inner, hinner, htakes⟩ => ⟨rfl, hname, inner, hinner, htakes⟩
  have hstart := (p.childWith name args).startsPath (hplain p.first List.mem_cons_self).fits rest
  have htype :=
    takes_type (grammar fuel) allowSum hstart (takes_path _ hsegments hends.endsNames) hends
  rw [Path.code_childWith, Path.isNamed_childWith] at htype
  exact htype

/-- A name with the parameters that were declared for it is read as a type. -/
lemma takes_type_declared (fuel : Nat) (allowSum : Bool) {name : String} {g : Generics}
    (hname : Terminal.identifier.fits [.ident name] = true)
    (hdeclared : ∀ p ∈ g.parameters, p.IsDeclared) (hpunctuated : g.IsPunctuated)
    (hends : rest.EndsPath) :
    Takes ((grammar (fuel + 2)).type allowSum) (wordCode name ++ g.argumentCode) rest
      fun t => ∃ q, t = .path q ∧ (Path.ofName name).IsNamed q := by
  let p : Path := { first := { name, arguments := g.argumentCode } }
  have hsegments : ∀ s ∈ p.segments, IsSegment (grammar (fuel + 1)) false s := by
    refine List.forall_mem_singleton.mpr ⟨Path.segmentStarts_of_identifier hname, ?_⟩
    exact (Generics.argumentCode_cases hdeclared hpunctuated fuel).imp_right
      fun ⟨args, hargs, htakes⟩ => ⟨rfl, hname, args, hargs, htakes⟩
  have hstart := p.startsPath (Path.segmentStarts_of_identifier hname) rest
  exact takes_type (grammar (fuel + 1)) allowSum hstart
    (takes_path _ hsegments hends.endsNames) hends

/-- What the arguments of the type of a store are: a lifetime, and a type that was declared. -/
lemma takes_arguments_store (fuel : Nat) (lifetime : String) {name : String} {g : Generics}
    (hname : Terminal.identifier.fits [.ident name] = true)
    (hdeclared : ∀ p ∈ g.parameters, p.IsDeclared) (hpunctuated : g.IsPunctuated) (rest : Code) :
    Takes (arguments (grammar (fuel + 2)))
      (opCode "<" ++ ([.punct '\'' .joint, .ident lifetime] ++ opCode "," ++
        (wordCode name ++ g.argumentCode)) ++ opCode ">") rest fun _ => True := by
  let p : Path := { first := { name, arguments := g.argumentCode } }
  refine takes_arguments _ (.cons _ (.last p.code)) ?_ rest
  refine List.forall_mem_cons.mpr ⟨isArgument_lifetime _ lifetime, ?_⟩
  refine List.forall_mem_singleton.mpr ?_
  refine isArgument_path _ (Path.segmentStarts_of_identifier hname) fun rest hrest => ?_
  exact (takes_type_declared fuel true hname hdeclared hpunctuated hrest.endsPath).mono
    fun t ⟨q, ht, _⟩ => ⟨q, ht⟩

end Read

end UnionView
