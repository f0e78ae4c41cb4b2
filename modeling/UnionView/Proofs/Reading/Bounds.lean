import UnionView.Proofs.Reading.Generics

/-!
# Bounds and predicates that are read back

Bounds by plain paths, and predicates that bound a name by them, are read back from the tokens that
they are printed as (`Generics.readsBack_of_isSimple`).
-/

namespace UnionView

open Reader

/-! ### Sums of paths -/

/-- Paths with `+` between them. -/
def Path.sumCode : List Path → Code
  | [] => []
  | [p] => p.code
  | p :: q :: ps => p.code ++ opCode "+" ++ sumCode (q :: ps)

/-- There is a path, and all paths are plain. -/
structure Path.ArePlain (ps : List Path) : Prop where
  nonempty : ps ≠ []
  plain : ∀ p ∈ ps, ∀ s ∈ p.segments, s.IsPlain

/-- No bound goes on with this code. -/
structure Code.EndsBound (rest : Code) : Prop extends rest.EndsNames where
  round : (Terminal.group .round).fits rest = false

namespace Reader.Takes

/-- Where a reader writes the tokens as they stand, it reads the same ones. -/
lemma verbatimIf {α : Type} {p : Reader α} {code rest : Code} {P : α → Prop}
    (h : Takes p code rest P)
    (asWritten : α → Bool) : Takes (verbatimIf asWritten p) code rest P := by
  intro behind written
  obtain ⟨a, written', hrun, ha⟩ := h behind written
  unfold Reader.verbatimIf
  rw [hrun]
  dsimp only
  split
  · exact ⟨a, _, rfl, ha⟩
  · exact ⟨a, _, rfl, ha⟩

end Reader.Takes

namespace Read

variable (g : Grammar) {rest : Code}

lemma takes_traitBound {p : Path} (hplain : ∀ s ∈ p.segments, s.IsPlain) (hends : rest.EndsBound) :
    Takes (traitBound g true) p.code rest fun _ => True := by
  have hstart := p.startsPath (hplain p.first List.mem_cons_self).fits rest
  have hforeign (t : Terminal) (ht : t.isForeignToPath = true) := hstart.fits_eq_false ht
  have hpath : Takes (path g false) p.code rest p.IsNamed :=
    takes_path g (fun s hs => isSegment_of_isPlain g false (hplain s hs)) hends.toEndsNames
  unfold traitBound
  refine .quiet (.capture (takes_binder?_none g (hforeign _ (by decide)))) fun r hr => ?_
  refine .quiet .mark fun _ _ => .see (hforeign _ rfl) ?_
  refine .refuse (hforeign (.word "const") (by decide)) (.look (a := false) (.pure rfl) ?_)
  refine .refuse (hforeign (.operator "?") (by decide)) (.look (a := r.2) (.pure rfl) ?_)
  refine .quiet (.write _) fun _ _ => .last hpath fun q _ => ?_
  refine .ite (fun _ => .see hends.round (.see hends.separator ?_)) fun _ => .pure trivial
  exact .seeThird rfl (.pure trivial)

lemma takes_bound {p : Path} (hplain : ∀ s ∈ p.segments, s.IsPlain) (hends : rest.EndsBound) :
    Takes (bound g false true) p.code rest fun _ => True := by
  have hstart := p.startsPath (hplain p.first List.mem_cons_self).fits rest
  have hforeign (t : Terminal) (ht : t.isForeignToPath = true) := hstart.fits_eq_false ht
  unfold bound
  refine .see (hforeign _ rfl) (.see (hforeign _ (by decide)) ?_)
  have htrait : Takes (do
      if ← peek (.group .round) then group .round (traitBound g true)
      else traitBound g true) p.code rest fun _ => True :=
    .see (hforeign _ rfl) (takes_traitBound g hplain hends)
  exact .last (.verbatimIf htrait _) fun _ _ => .pure trivial

/-- Plain paths are bounds up to where no further one follows. -/
lemma takes_boundsUntil {stop : Reader Bool} {fuel : Nat} {ps : List Path} (hps : Path.ArePlain ps)
    (hstop : ∀ code : Code, code.StartsPath → Takes stop [] code (· = false))
    (hends : rest.EndsBound) (hplus : (Terminal.operator "+").fits rest = false) :
    Takes (boundsUntil (grammar (fuel + 1)) stop) (Path.sumCode ps) rest fun _ => True := by
  obtain ⟨hne, hplain⟩ := hps
  have hpath {p : Path} (hp : ∀ s ∈ p.segments, s.IsPlain) (behind : Code) :
      (p.code ++ behind).StartsPath := p.startsPath (hp p.first List.mem_cons_self).fits behind
  suffices heach : ∃ P, TakesEach (whileStep do
      if ← stop then return false
      let _ ← (grammar (fuel + 1)).bound false true
      acceptOperator "+") rest (Path.sumCode ps) P by
    obtain ⟨P, heach⟩ := heach
    exact heach.repeatWhile
  induction ps with
  | nil => exact absurd rfl hne
  | cons p ps ih =>
    have hp := hplain p List.mem_cons_self
    cases ps with
    | nil =>
      have hbound : Takes ((grammar (fuel + 1)).bound false true) p.code rest fun _ => True :=
        takes_bound _ hp hends
      refine ⟨_, .stop (.look (hstop _ (hpath hp rest)) (.last hbound fun _ _ => ?_))⟩
      exact .refused hplus
    | cons q ps =>
      obtain ⟨P, heach⟩ := ih nofun fun q hq => hplain q (List.mem_cons_of_mem _ hq)
      have hstart : (p.code ++ opCode "+" ++ (Path.sumCode (q :: ps) ++ rest)).StartsPath := by
        rw [List.append_assoc]
        exact hpath hp _
      refine
        ⟨_, .goOn (List.append_ne_nil_of_right_ne_nil _ nofun) (.look (hstop _ hstart) ?_) heach⟩
      have hbound : Takes ((grammar (fuel + 1)).bound false true) p.code
          (opCode "+" ++ (Path.sumCode (q :: ps) ++ rest)) fun _ => True :=
        takes_bound _ hp ⟨⟨rfl, rfl⟩, rfl⟩
      exact .seq hbound fun _ _ _ => ⟨_, _, rfl, rfl⟩

/-! ### Predicates -/

/-- Where a path begins, the predicates of a `where` go on. -/
lemma takes_predicateStop {code : Code} (hstart : code.StartsPath) :
    Takes predicateStop [] code (· = false) := by
  cases hstart with
  | rooted behind => exact fun _ _ => ⟨_, _, rfl, rfl⟩
  | name fits behind => exact fun _ _ => ⟨_, _, rfl, rfl⟩

/-- A predicate that bounds a name by plain paths. -/
def IsPredicate (entry : Code) : Prop :=
  ∃ name ps, Terminal.identifier.fits [.ident name] = true ∧ Path.ArePlain ps ∧
    entry = wordCode name ++ (opCode ":" ++ Path.sumCode ps)

/-- The predicates go on behind a comma, and end in front of braces. -/
inductive EndsPredicate : Code → Prop
  | comma (behind : Code) : EndsPredicate (opCode "," ++ behind)
  | curly (behind : Code) : EndsPredicate (.opening .curly :: behind)

lemma takes_predicate {fuel : Nat} {entry : Code} (h : IsPredicate entry)
    (hrest : EndsPredicate rest) :
    Takes (predicate (grammar (fuel + 1))) entry rest fun _ => True := by
  obtain ⟨name, ps, hname, hps, rfl⟩ := h
  have htype : Takes ((grammar (fuel + 1)).type true) (wordCode name)
      (opCode ":" ++ Path.sumCode ps ++ rest) _ :=
    Parameter.takes_type_ofName (grammar fuel) true hname ⟨rfl, rfl, rfl, rfl⟩
  have hfor :
      (Terminal.word "for").fits (wordCode name ++ (opCode ":" ++ Path.sumCode ps) ++ rest) =
      false := Terminal.fits_word_of_identifier hname (by decide)
  unfold predicate
  refine .see rfl (.seeSecond rfl (.look (takes_binder?_none _ hfor) (.seq htype fun _ => ?_)))
  refine .seq (.operator _) fun _ => ?_
  refine takes_boundsUntil hps (fun code hcode => takes_predicateStop hcode) ?_ ?_
  · cases hrest <;> exact ⟨⟨rfl, rfl⟩, rfl⟩
  · cases hrest <;> rfl

/-- The step in which `predicates` reads a predicate with its comma. -/
def listedPredicate (g : Grammar) : Reader Bool := do
  if ← predicateStop then return false
  predicate g
  acceptOperator ","

/-- The predicates of a list are read up to the braces behind it. -/
lemma takesEach_predicate {fuel : Nat} {entries : List Code} {list : Code}
    (hlists : Code.Lists entries list) (hentries : ∀ e ∈ entries, IsPredicate e) :
    ∃ P, TakesEach (whileStep (listedPredicate (grammar (fuel + 1)))) (.opening .curly :: rest)
      list P := by
  have hstop {e : Code} (he : IsPredicate e) (behind : Code) :
      Takes predicateStop [] (e ++ behind) (· = false) := by
    obtain ⟨name, ps, hname, -, rfl⟩ := he
    exact takes_predicateStop (.name (Path.segmentStarts_of_identifier hname) _)
  induction hlists with
  | nil => exact ⟨_, .stop (fun _ _ => ⟨_, _, rfl, rfl⟩)⟩
  | last e =>
    have he := hentries e List.mem_cons_self
    refine ⟨_, .stop (.look (hstop he _) (.last (takes_predicate he (.curly _)) fun _ _ => ?_))⟩
    exact .refused rfl
  | @cons entries list e _ ih =>
    have he := hentries e List.mem_cons_self
    obtain ⟨P, heach⟩ := ih fun e' he' => hentries e' (List.mem_cons_of_mem _ he')
    have hgoes := hstop he (opCode "," ++ (list ++ .opening .curly :: rest))
    rw [← List.append_assoc] at hgoes
    refine ⟨_, .goOn (List.append_ne_nil_of_right_ne_nil _ nofun) (.look hgoes ?_) heach⟩
    exact .seq (takes_predicate he (.comma _)) fun _ _ _ => ⟨_, _, rfl, rfl⟩

end Read

/-! ### Parameters -/

/-- A parameter without attributes whose bounds and default are plain paths. A lifetime has no
bounds, and a constant has a type but no default. -/
structure Parameter.IsSimple (p : Parameter) : Prop where
  attributes : p.attributes = []
  bounds : ∀ code, p.bounds = some code → match p.kind with
    | .lifetime => False
    | .type => ∃ ps, Path.ArePlain ps ∧ code = Path.sumCode ps
    | .constant => ∃ q : Path, (∀ s ∈ q.segments, s.IsPlain) ∧ code = q.code
  default : ∀ code, p.default = some code → p.kind = .type ∧
    ∃ q : Path, (∀ s ∈ q.segments, s.IsPlain) ∧ code = q.code

/-- Generic parameters with plain paths as bounds, and with predicates that bound names by them. -/
structure Generics.IsSimple (g : Generics) : Prop where
  parameters : ∀ p ∈ g.parameters, p.IsSimple
  predicates : ∀ code, g.predicates = some code →
    ∃ entries, Code.Lists entries code ∧ ∀ e ∈ entries, Read.IsPredicate e

lemma Read.takes_type_of_isPlain (g : Grammar) {q : Path} {rest : Code}
    (hplain : ∀ s ∈ q.segments, s.IsPlain) (hends : rest.EndsPath) :
    Takes (Read.type g true) q.code rest fun _ => True := by
  have hstart := q.startsPath (hplain q.first List.mem_cons_self).fits rest
  have hpath : Takes (path g false) q.code rest q.IsNamed :=
    takes_path g (fun s hs => isSegment_of_isPlain g false (hplain s hs)) hends.endsNames
  exact (takes_type g true hstart hpath hends).mono fun _ _ => trivial

lemma Code.EndsBounds.endsPath {rest : Code} (h : rest.EndsBounds) : rest.EndsPath := by
  obtain ⟨h⟩ | _ := h
  · exact h.endsPath
  · exact ⟨rfl, rfl, rfl, rfl⟩

lemma Code.EndsBounds.endsBound {rest : Code} (h : rest.EndsBounds) : rest.EndsBound := by
  obtain ⟨⟨_⟩ | ⟨_⟩⟩ | _ := h <;> exact ⟨⟨rfl, rfl⟩, rfl⟩

lemma Parameter.IsSimple.readsBack {p : Parameter} (h : p.IsSimple) : p.ReadsBack where
  attributes fuel rest _ hrest := by
    rw [h.attributes]
    exact (Read.takes_outerAttributes_nil _ hrest).mono fun _ _ => trivial
  bounds code fuel rest hcode _ hcovered hrest := by
    obtain ⟨k, rfl⟩ : ∃ k, fuel = k + 1 := ⟨fuel - 1, by unfold Code.IsCoveredBy at hcovered; omega⟩
    have hbounds := h.bounds code hcode
    cases hkind : p.kind with
    | lifetime =>
      rw [hkind] at hbounds
      exact hbounds.elim
    | type =>
      rw [hkind] at hbounds
      obtain ⟨ps, hps, rfl⟩ := hbounds
      refine Read.takes_boundsUntil hps (fun code hcode => ?_) hrest.endsBound hrest.endsPath.plus
      cases hcode <;> exact fun _ _ => ⟨_, _, rfl, rfl⟩
    | constant =>
      rw [hkind] at hbounds
      obtain ⟨q, hq, rfl⟩ := hbounds
      exact (Read.takes_type_of_isPlain (grammar k) hq hrest.endsPath).dropped
  default code fuel rest hcode hcovered hrest := by
    obtain ⟨k, rfl⟩ : ∃ k, fuel = k + 1 := ⟨fuel - 1, by unfold Code.IsCoveredBy at hcovered; omega⟩
    obtain ⟨hkind, q, hq, rfl⟩ := h.default code hcode
    rw [hkind]
    exact (Read.takes_type_of_isPlain (grammar k) hq hrest.endsPath).dropped

/-- Predicates that bound names by plain paths are read behind their keyword. -/
lemma Read.takes_predicates {fuel : Nat} {entries : List Code} {list rest : Code}
    (hlists : Code.Lists entries list) (hentries : ∀ e ∈ entries, IsPredicate e) (hne : list ≠ []) :
    Takes (predicates (grammar (fuel + 1))) (wordCode "where" ++ list) (.opening .curly :: rest)
      fun _ => True := by
  have hstart : Takes startsParameters [] (list ++ .opening .curly :: rest) (· = false) := by
    cases hlists with
    | nil => exact absurd rfl hne
    | last =>
      obtain ⟨name, ps, -, -, rfl⟩ := hentries list List.mem_cons_self
      exact fun _ _ => ⟨_, _, rfl, rfl⟩
    | cons e _ =>
      obtain ⟨name, ps, -, -, rfl⟩ := hentries e List.mem_cons_self
      exact fun _ _ => ⟨_, _, rfl, rfl⟩
  have hlist : Takes (repeatWhile (listedPredicate (grammar (fuel + 1)))) list
      (.opening .curly :: rest) fun _ => True := by
    obtain ⟨P, heach⟩ := takesEach_predicate hlists hentries
    exact heach.repeatWhile
  unfold predicates
  refine .see rfl (.seq (.capture (.word "where")) fun keyword => .look hstart ?_)
  refine .last (.capture hlist) fun r _ => ?_
  exact .ite (fun _ => .seq (.write _) fun _ => .pure trivial) fun _ => .pure trivial

/-- Simple parameters and their predicates are read back. -/
lemma Generics.IsSimple.readsBack {g : Generics} (h : g.IsSimple) : g.ReadsBack where
  parameters p hp := (h.parameters p hp).readsBack
  predicates fuel rest hcovered := by
    obtain ⟨k, rfl⟩ : ∃ k, fuel = k + 1 := ⟨fuel - 1, by unfold Code.IsCoveredBy at hcovered; omega⟩
    have hnone : Takes (Read.predicates (grammar (k + 1))) [] (.opening .curly :: rest)
        fun _ => True :=
      .see rfl (.pure trivial)
    unfold whereCode
    cases hpredicates : g.predicates with
    | none => exact hnone
    | some code =>
      cases code with
      | nil => exact hnone
      | cons token code =>
        obtain ⟨entries, hlists, hentries⟩ := h.predicates _ hpredicates
        exact Read.takes_predicates hlists hentries nofun

end UnionView
