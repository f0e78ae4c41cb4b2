import UnionView.Grammar.File
import UnionView.Proofs.Syntax.Path
import UnionView.Proofs.Syntax.Taking

/-!
# Reading paths that are known
-/

namespace UnionView

open Reader

/-! ### The front of a path -/

/-- The words that a path may begin with although they are reserved. -/
def Path.startWords : List String := ["super", "self", "Self", "crate"]

/-- Whether the terminal never stands where a path begins. -/
def Terminal.isForeignToPath : Terminal → Bool
  | word text => reservedWords.contains text && !Path.startWords.contains text
  | operator text => text.toList.head?.any (· != ':')
  | identifier => false
  | _ => true

/-- The code begins as a path does. -/
inductive Code.StartsPath : Code → Prop
  | rooted (behind : Code) : StartsPath (Path.separator ++ behind)
  | name {name : String} (fits : Path.segmentStarts.any (·.fits [.ident name]) = true)
      (behind : Code) : StartsPath (.ident name :: behind)

namespace Code.StartsPath

variable {code : Code}

lemma fits_word {text : String} (h : StartsPath code)
    (hforeign : (Terminal.word text).isForeignToPath = true) :
    (Terminal.word text).fits code = false := by
  cases h with
  | rooted => rfl
  | @name name fits behind =>
    show (name == text) = false
    rw [beq_eq_false_iff_ne]
    rintro rfl
    simp [Path.segmentStarts, Terminal.fits, Terminal.isForeignToPath, Path.startWords]
      at fits hforeign
    grind

lemma fits_operator {text : String} (h : StartsPath code)
    (hforeign : (Terminal.operator text).isForeignToPath = true) :
    (Terminal.operator text).fits code = false := by
  change text.toList.head?.any (· != ':') = true at hforeign
  show startsWith text.toList code = false
  cases htext : text.toList with
  | nil =>
    rw [htext] at hforeign
    cases hforeign
  | cons first others =>
    rw [htext] at hforeign
    have hfirst : first ≠ ':' := by simpa using hforeign
    cases h with
    | rooted => cases others <;> simp [startsWith, Path.separator, operatorCode, hfirst.symm]
    | name => cases others <;> rfl

lemma fits_eq_false {t : Terminal} (h : StartsPath code) (hforeign : t.isForeignToPath = true) :
    t.fits code = false := by
  cases t with
  | word text => exact h.fits_word hforeign
  | operator text => exact h.fits_operator hforeign
  | identifier => cases hforeign
  | literal =>
    cases h with
    | rooted => rfl
    | @name name fits behind =>
      have hstart := Code.StartsPath.name fits behind
      have htrue : (Terminal.word "true").fits _ = false := hstart.fits_word (by decide)
      have hfalse : (Terminal.word "false").fits _ = false := hstart.fits_word (by decide)
      simp only [Terminal.fits] at htrue hfalse ⊢
      rw [htrue, hfalse]
      rfl
  | lifetime => cases h <;> rfl
  | string => cases h <;> rfl
  | group d => cases h <;> rfl

lemma any_eq_false {ts : List Terminal} (h : StartsPath code)
    (hforeign : ts.all Terminal.isForeignToPath = true) : ts.any (·.fits code) = false := by
  rw [List.any_eq_false]
  intro t ht
  rw [h.fits_eq_false (List.all_eq_true.mp hforeign t ht)]
  exact Bool.false_ne_true

/-- One of the terminals that a path may begin with fits. -/
lemma any_eq_true {ts : List Terminal} (h : StartsPath code)
    (hts : ∀ t ∈ Terminal.operator "::" :: Path.segmentStarts, t ∈ ts) :
    ts.any (·.fits code) = true := by
  rw [List.any_eq_true]
  cases h with
  | rooted => exact ⟨_, hts _ List.mem_cons_self, rfl⟩
  | @name name fits behind =>
    rw [← Path.fits_segmentStarts_cons name behind] at fits
    obtain ⟨t, ht, hfits⟩ := List.any_eq_true.mp fits
    exact ⟨t, hts t (List.mem_cons_of_mem _ ht), hfits⟩

end Code.StartsPath

lemma Path.startsPath {p : Path} (h : segmentStarts.any (·.fits [.ident p.first.name]) = true)
    (rest : Code) : (p.code ++ rest).StartsPath := by
  have hsegments : ∃ behind, segmentsCode p.segments = .ident p.first.name :: behind := by
    unfold segments
    cases p.more with
    | nil => exact ⟨_, rfl⟩
    | cons s more => exact ⟨_, rfl⟩
  obtain ⟨behind, hsegments⟩ := hsegments
  unfold code
  rw [hsegments]
  cases p.rooted with
  | true => exact .rooted _
  | false => exact .name h _

/-! ### The end of a path -/

/-- No path goes on with this code. -/
structure Code.EndsNames (rest : Code) : Prop where
  separator : (Terminal.operator "::").fits rest = false
  angle : (Terminal.operator "<").fits rest = false

/-- No path or type goes on with this code. -/
structure Code.EndsPath (rest : Code) : Prop where
  separator : (Terminal.operator "::").fits rest = false
  angle : (Terminal.operator "<").fits rest = false
  exclamation : (Terminal.operator "!").fits rest = false
  plus : (Terminal.operator "+").fits rest = false

lemma Code.EndsPath.endsNames {rest : Code} (h : rest.EndsPath) : rest.EndsNames :=
  ⟨h.separator, h.angle⟩

/-! ### Segments -/

lemma Path.segmentStarts_of_identifier {name : String}
    (h : Terminal.identifier.fits [.ident name] = true) :
    segmentStarts.any (·.fits [.ident name]) = true := by
  simp only [segmentStarts, List.any_cons, h, Bool.true_or]

namespace Terminal

/-- An identifier that is not reserved is no reserved word. -/
lemma fits_word_of_identifier {code : Code} {text : String}
    (h : identifier.fits code = true) (htext : reservedWords.contains text = true) :
    (word text).fits code = false := by
  cases code with
  | nil => rfl
  | cons token code =>
    cases token with
    | ident name =>
      show (name == text) = false
      rw [beq_eq_false_iff_ne]
      rintro rfl
      change (!reservedWords.contains name) = true at h
      rw [htext] at h
      cases h
    | punct | literal | opening | closing => cases h

lemma any_words_of_identifier {code : Code} {texts : List String}
    (h : identifier.fits code = true) (htexts : texts.all reservedWords.contains = true) :
    (texts.map word).any (·.fits code) = false := by
  rw [List.any_map, List.any_eq_false]
  intro text htext
  rw [Function.comp, fits_word_of_identifier h (List.all_eq_true.mp htexts text htext)]
  exact Bool.false_ne_true

end Terminal

namespace Read

variable (g : Grammar) {rest : Code}

/-- What `segment` reads behind the name. -/
def segmentEnd (inExpression : Bool) (name : String) : Reader PathSegment := do
  let direct ←
    if inExpression then pure false
    else do
      pure ((← peekOperator "<") && !(← peekAny [.operator "<=", .operator "<<="]))
  if direct || ((← peekOperator "::") && (← peekThird (.operator "<"))) then
    let (_, code) ← capture (arguments g)
    write code
    return { name, arguments := code }
  else return { name }

/-- A name that is not reserved may have arguments. -/
lemma takes_segment_of_identifier {inExpression : Bool} {name : String} {args : Code}
    {P : PathSegment → Prop} (hfits : Terminal.identifier.fits [.ident name] = true)
    (hend : Takes (segmentEnd g inExpression name) args rest P) :
    Takes (segment g inExpression) (wordCode name ++ args) rest P := by
  have hfits' : Terminal.identifier.fits (wordCode name ++ args ++ rest) = true := hfits
  have hwords : (["super", "self", "crate", "try"].map Terminal.word).any
      (·.fits (wordCode name ++ args ++ rest)) = false :=
    Terminal.any_words_of_identifier hfits' (by decide)
  unfold segment
  refine .seeAny hwords (.see (Terminal.fits_word_of_identifier hfits' (by decide)) ?_)
  refine .bind (.identifier hfits) ?_
  rintro _ rfl
  exact hend

/-- `Self` may have arguments as well. -/
lemma takes_segment_of_self {inExpression : Bool} {args : Code} {P : PathSegment → Prop}
    (hend : Takes (segmentEnd g inExpression "Self") args rest P) :
    Takes (segment g inExpression) (wordCode "Self" ++ args) rest P := by
  unfold segment
  refine .seeAny rfl (.see rfl ?_)
  refine .bind (.anyIdentifier "Self") ?_
  rintro _ rfl
  exact hend

/-- A name ends where neither an angle bracket nor one behind `::` follows. -/
lemma takes_segmentEnd_nil (inExpression : Bool) (name : String)
    (hangle : (Terminal.operator "<").fits rest = false)
    (hturbofish : ((Terminal.operator "::").fits rest &&
      (Terminal.operator "<").fits (Cursor.skip { rest } 2)) = false) :
    Takes (segmentEnd g inExpression name) [] rest (· = { name }) := by
  have hbehind : Takes (do
      if false || ((← peekOperator "::") && (← peekThird (.operator "<"))) then
        let (_, code) ← capture (arguments g)
        write code
        return { name, arguments := code }
      else return { name }) [] rest (· = ({ name } : PathSegment)) := by
    refine .see rfl (.seeThird rfl (.ite ?_ fun _ => .pure rfl))
    intro h
    exact absurd hturbofish (by simpa using h)
  unfold segmentEnd
  cases inExpression with
  | true => exact .look (.pure rfl) hbehind
  | false => exact .see hangle (.seeAny rfl (.look (.pure rfl) hbehind))

/-- Arguments belong to the name in front of them where a type is expected. -/
lemma takes_segmentEnd_arguments {name : String} {args : Code}
    (hargs : Takes (arguments g) (opCode "<" ++ args) rest fun _ => True) :
    Takes (segmentEnd g false name) (opCode "<" ++ args) rest (·.name = name) := by
  unfold segmentEnd
  refine .see rfl (.seeAny rfl (.look (.pure rfl) (.see rfl (.seeThird rfl ?_))))
  refine .last (.capture hargs) fun r _ => ?_
  exact .seq (.write r.2) fun _ => .pure rfl

/-- A segment that is read as it stands. Only a name where a type is expected has arguments. -/
structure IsSegment (inExpression : Bool) (s : PathSegment) : Prop where
  fits : Path.segmentStarts.any (·.fits [.ident s.name]) = true
  arguments : s.arguments = [] ∨ inExpression = false ∧
    Terminal.identifier.fits [.ident s.name] = true ∧
    ∃ args, s.arguments = opCode "<" ++ args ∧
      ∀ rest, Takes (arguments g) s.arguments rest fun _ => True

/-- A segment of a plain path is read as it stands wherever a path is read. -/
lemma isSegment_of_isPlain (inExpression : Bool) {s : PathSegment} (h : s.IsPlain) :
    IsSegment g inExpression s :=
  ⟨h.fits, .inl h.arguments⟩

lemma takes_segment {inExpression : Bool} {s : PathSegment} (h : IsSegment g inExpression s)
    (hangle : (Terminal.operator "<").fits rest = false)
    (hturbofish : ((Terminal.operator "::").fits rest &&
      (Terminal.operator "<").fits (Cursor.skip { rest } 2)) = false) :
    Takes (segment g inExpression) s.code rest (·.name = s.name) := by
  obtain ⟨name, args⟩ := s
  obtain ⟨hfits, rfl | ⟨rfl, hname, inner, hcode, hargs⟩⟩ := h
  · -- the words that are no identifiers have no arguments either
    have hend : Takes (segmentEnd g inExpression name) [] rest (·.name = name) :=
      (takes_segmentEnd_nil g inExpression name hangle hturbofish).mono fun s hs => by rw [hs]
    simp only [Path.segmentStarts, List.any_cons, List.any_nil, Bool.or_false, Bool.or_eq_true,
      Terminal.fits, beq_iff_eq] at hfits
    obtain hname | rfl | rfl | rfl | rfl := hfits
    · exact takes_segment_of_identifier g hname hend
    · exact fun _ _ => ⟨_, _, rfl, rfl⟩
    · exact fun _ _ => ⟨_, _, rfl, rfl⟩
    · exact takes_segment_of_self g hend
    · exact fun _ _ => ⟨_, _, rfl, rfl⟩
  · obtain rfl : args = opCode "<" ++ inner := hcode
    exact takes_segment_of_identifier g hname (takes_segmentEnd_arguments g (hargs rest))

/-! ### Paths -/

/-- The names behind the first one, each behind its separator. -/
def moreCode (more : List PathSegment) : Code :=
  more.flatMap fun s => Path.separator ++ s.code

lemma segmentsCode_eq (first : PathSegment) (more : List PathSegment) :
    Path.segmentsCode (first :: more) = first.code ++ moreCode more := by
  induction more generalizing first with
  | nil => exact (List.append_nil _).symm
  | cons next more ih =>
    rw [Path.segmentsCode_cons_cons, ih]
    simp only [moreCode, List.flatMap_cons, List.append_assoc]

/-- Behind a segment of a path there are no arguments that it could have. -/
lemma behind_segment (more : List PathSegment) (hends : rest.EndsNames) :
    (Terminal.operator "<").fits (moreCode more ++ rest) = false ∧
      ((Terminal.operator "::").fits (moreCode more ++ rest) &&
        (Terminal.operator "<").fits
          (Cursor.skip { rest := moreCode more ++ rest } 2)) = false := by
  cases more with
  | nil =>
    refine ⟨hends.angle, ?_⟩
    show ((Terminal.operator "::").fits rest && _) = false
    rw [hends.separator]
    rfl
  | cons s more => exact ⟨rfl, rfl⟩

/-- The loop in which `path` reads the segments behind the first one. -/
def furtherSegment (inExpression : Bool) : Reader (Option PathSegment) := do
  if (← peekOperator "::") && !(← peekThird (.group .round)) then
    operator "::"
    return some (← segment g inExpression)
  else return none

lemma takesEach_furtherSegment {inExpression : Bool} {more : List PathSegment}
    (h : ∀ s ∈ more, IsSegment g inExpression s) (hends : rest.EndsNames) :
    Takes (collect (furtherSegment g inExpression)) (moreCode more) rest fun found =>
      found.map (·.name) = more.map (·.name) := by
  suffices heach : ∃ P, TakesEach (furtherSegment g inExpression) rest (moreCode more) P ∧
      ∀ found, P found → found.map (·.name) = more.map (·.name) by
    obtain ⟨P, heach, hP⟩ := heach
    exact heach.collect.mono hP
  induction more with
  | nil =>
    refine ⟨_, .last ?_, ?_⟩
    · exact .see hends.separator (.seeThird rfl (.pure rfl))
    · rintro _ rfl
      rfl
  | cons s more ih =>
    obtain ⟨P, heach, hP⟩ := ih fun s hs => h s (List.mem_cons_of_mem _ hs)
    obtain ⟨hangle, hturbofish⟩ := behind_segment more hends
    have hsegment := takes_segment g (h s List.mem_cons_self) hangle hturbofish
    have hstep : Takes (furtherSegment g inExpression) (Path.separator ++ s.code)
        (moreCode more ++ rest)
        fun answer => ∃ found, answer = some found ∧ found.name = s.name := by
      refine .see rfl (.seeThird rfl ?_)
      refine .seq (.operator "::") fun _ => ?_
      exact .last hsegment fun found hfound => .pure ⟨found, rfl, hfound⟩
    refine ⟨_, .cons nofun hstep heach, ?_⟩
    rintro _ ⟨found, others, rfl, hfound, hothers⟩
    rw [List.map_cons, List.map_cons, hfound, hP others hothers]

end Read

/-- The paths have the same names, whatever arguments these have. -/
def Path.IsNamed (p q : Path) : Prop :=
  q.rooted = p.rooted ∧ q.segments.map (·.name) = p.segments.map (·.name)

namespace Read

variable (g : Grammar) {rest : Code}

/-- The `::` of a rooted path in front of a name. -/
lemma takes_root (rooted : Bool) (name : String) (behind : Code) :
    Takes (acceptOperator "::") (if rooted then Path.separator else []) (.ident name :: behind)
      (· = rooted) := by
  cases rooted with
  | true => exact fun _ _ => ⟨_, _, rfl, rfl⟩
  | false => exact fun _ _ => ⟨_, _, rfl, rfl⟩

/-- A path is read with the names that it is printed with. -/
lemma takes_path {inExpression : Bool} {p : Path} (h : ∀ s ∈ p.segments, IsSegment g inExpression s)
    (hends : rest.EndsNames) : Takes (path g inExpression) p.code rest p.IsNamed := by
  have hfirst := h p.first List.mem_cons_self
  have hmore := takesEach_furtherSegment g (fun s hs => h s (List.mem_cons_of_mem _ hs)) hends
  obtain ⟨hangle, hturbofish⟩ := behind_segment p.more hends
  have hsegment := takes_segment g hfirst hangle hturbofish
  have hroot : Takes (acceptOperator "::") (if p.rooted then Path.separator else [])
      (p.first.code ++ moreCode p.more ++ rest) (· = p.rooted) := takes_root p.rooted _ _
  have hcode :
      p.code = (if p.rooted then Path.separator else []) ++ (p.first.code ++ moreCode p.more) := by
    rw [Path.code, Path.segments, segmentsCode_eq]
  rw [hcode]
  refine .bind hroot ?_
  rintro _ rfl
  refine .bind hsegment fun first hfirst => ?_
  refine .last hmore fun more hmore => .pure ⟨rfl, ?_⟩
  show first.name :: more.map (·.name) = _
  rw [hfirst, hmore]
  rfl

/-- A path that no type qualifies. -/
lemma takes_qualifiedPath {inExpression : Bool} {p : Path} (hstart : (p.code ++ rest).StartsPath)
    (h : Takes (path g inExpression) p.code rest p.IsNamed) :
    Takes (qualifiedPath g inExpression) p.code rest fun q? => ∃ q, q? = some q ∧ p.IsNamed q := by
  unfold qualifiedPath
  refine .refuse (hstart.fits_eq_false (by decide)) ?_
  exact .last h fun q hq => .pure ⟨q, rfl, hq⟩

/-- Where no `#` comes next there are no attributes. -/
lemma takes_outerAttributes_nil (h : (Terminal.operator "#").fits rest = false) :
    Takes (outerAttributes g) [] rest (· = []) := by
  refine TakesEach.collect (.last ?_)
  exact .see h (.pure rfl)

/-! ### Paths as types -/

lemma takes_binder?_none (h : (Terminal.word "for").fits rest = false) :
    Takes (binder? g) [] rest (· = false) :=
  .see h (.pure rfl)

lemma takes_type (allowSum : Bool) {p : Path} (hstart : (p.code ++ rest).StartsPath)
    (h : Takes (path g false) p.code rest p.IsNamed) (hends : rest.EndsPath) :
    Takes (type g allowSum) p.code rest fun t => ∃ q, t = .path q ∧ p.IsNamed q := by
  unfold type
  refine .look (takes_binder?_none g (hstart.fits_eq_false (by decide))) ?_
  show Takes (typeAfterBinder g allowSum false) _ _ _
  unfold typeAfterBinder
  refine .see (hstart.fits_eq_false rfl) (.seeAny (hstart.any_eq_false (by decide)) ?_)
  refine .seeAny (hstart.any_eq_true (by decide)) ?_
  show Takes (pathType g allowSum false) _ _ _
  unfold pathType
  refine .last (takes_qualifiedPath g hstart h) ?_
  rintro _ ⟨q, rfl, hq⟩
  refine .see hends.exclamation (.see rfl (.see hends.plus ?_))
  rw [Bool.and_false]
  exact .pure ⟨q, rfl, hq⟩

end Read

end UnionView
