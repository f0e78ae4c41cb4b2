import UnionView.Attribute.Arguments
import UnionView.Proofs.Grammar.PathValue
import UnionView.Proofs.Syntax.CommaList

/-!
# The arguments that are accepted

`Code.IsArguments code arguments` says what arguments are written in the code of an attribute:
`runtime = P` and `renderers(N = P, ..)`, with commas between them and allowed at the end, in both
lists. Exactly such code is accepted, unless a second runtime is chosen or a payload has two
renderers (`AttributeArguments.ofCode_accepts_arguments`).
-/

namespace UnionView

open Reader

/-! ### What is written -/

/-- A name that may stand alone in front of the value of an argument. -/
def Path.IsMetaName (name : String) : Prop :=
  name = "unsafe" ∨ segmentStarts.any (·.fits [.ident name]) = true

/-- The value that stands at the front of the code is the path `p`, and `rest` stands behind it. -/
def Code.HasPath (g : Grammar) (behind : Nat) (code : Code) (p : Path) (rest : Code) : Prop :=
  ∃ written, Read.metaValue g { rest := code, behind } = .ok (.path p, { rest, behind, written })

/-- A renderer `N = P`. Its mark is the place of the name. -/
inductive Code.IsEntry (g : Grammar) (behind : Nat) : Code → WrittenRenderer → Code → Prop
  | mk {name : String} {spacing : Spacing} {value rest : Code} {p : Path}
      (single : Path.IsMetaName name) (path : value.HasPath g behind p rest) :
      IsEntry g behind (.ident name :: .punct '=' spacing :: value)
        { payload := name, mark := value.length + 2 + behind, renderer := p } rest

inductive WrittenArgument
  | runtime (runtime : Path)
  | renderers (renderers : List WrittenRenderer)

/-- An argument `runtime = P` or `renderers(N = P, ..)`. The equals sign is not that of `==` or
`=>`, and the list stands in brackets of any kind. -/
inductive Code.IsArgument (g : Grammar) : Code → WrittenArgument → Code → Prop
  | runtime {spacing : Spacing} {value rest : Code} {p : Path}
      (sign : [Terminal.operator "==", .operator "=>"].any
        (·.fits (.punct '=' spacing :: value)) = false)
      (path : value.HasPath g 0 p rest) :
      IsArgument g (.ident "runtime" :: .punct '=' spacing :: value) (.runtime p) rest
  | renderers {d : Delimiter} {inner rest : Code} {entries : List WrittenRenderer}
      (balanced : inner.IsBalanced)
      (list : inner.IsList (Code.IsEntry g (rest.length + 1)) entries) :
      IsArgument g (.ident "renderers" :: (groupCode d inner ++ rest)) (.renderers entries) rest

lemma Code.IsArgument.lastRenderers {g : Grammar} {d : Delimiter} {inner : Code}
    {entries : List WrittenRenderer} (balanced : inner.IsBalanced)
    (list : inner.IsList (Code.IsEntry g 1) entries) :
    IsArgument g (.ident "renderers" :: groupCode d inner) (.renderers entries) [] := by
  rw [← List.append_nil (groupCode d inner)]
  exact .renderers balanced list

def Code.IsArguments (code : Code) (arguments : List WrittenArgument) : Prop :=
  code.IsList (Code.IsArgument code.grammar) arguments

namespace WrittenArgument

def runtime? : WrittenArgument → Option Path
  | runtime p => some p
  | renderers _ => none

def entries : WrittenArgument → List WrittenRenderer
  | runtime _ => []
  | renderers entries => entries

end WrittenArgument

/-! ### Names -/

namespace Path

lemma eq_ofName_of_name? {p : Path} {name : String} (h : p.name? = some name) :
    p = ofName name := by
  unfold name? at h
  split at h
  · cases h
    rfl
  · cases h

lemma plain_eq_ok_ofName {c d : Cursor} {name : String} (h : plain c = .ok (ofName name, d)) :
    segmentStarts.any (·.fits [.ident name]) = true ∧
      ∃ rest written, c.rest = .ident name :: rest ∧ d = { c with rest, written } := by
  obtain ⟨rooted, _, haccept, h⟩ := bind_eq_ok.mp h
  obtain ⟨found, _, hfound, h⟩ := bind_eq_ok.mp h
  obtain rfl := looks_peekAny _ hfound
  cases found with
  | false => exact absurd h (noIdentifier_ne_ok _ _)
  | true =>
    obtain ⟨_, _, ⟨⟩, h⟩ := bind_eq_ok.mp h
    obtain ⟨⟨first, more⟩, _, hsegments, h⟩ := bind_eq_ok.mp h
    cases h
    obtain rfl := eq_of_accept_false haccept
    have hstart := congrArg Prod.fst (Except.ok.inj hfound)
    obtain ⟨word, rest, hrest⟩ := exists_of_fits_segmentStarts hstart
    obtain ⟨written, hword⟩ := anyIdentifier_of_rest hrest
    rw [plainSegments, bind_of_ok hword] at hsegments
    obtain ⟨accepted, _, haccepted, hsegments⟩ := bind_eq_ok.mp hsegments
    cases accepted with
    | false =>
      obtain rfl := eq_of_accept_false haccepted
      cases hsegments
      rw [hrest] at hstart
      exact ⟨hstart, rest, written, hrest, rfl⟩
    | true =>
      obtain ⟨further, _, hfurther, hsegments⟩ := bind_eq_ok.mp hsegments
      cases further with
      | false => exact absurd hsegments (expected_ne_ok _ _ _)
      | true =>
        obtain ⟨⟨next, others⟩, _, -, hsegments⟩ := bind_eq_ok.mp hsegments
        cases hsegments

lemma plain_of_name {c : Cursor} {name : String} {rest : Code}
    (hrest : c.rest = .ident name :: rest) (hname : segmentStarts.any (·.fits [.ident name]) = true)
    (hseparator : (Terminal.operator "::").fits rest = false) :
    ∃ written, plain c = .ok (ofName name, { c with rest, written }) := by
  obtain ⟨written, hword⟩ := anyIdentifier_of_rest hrest
  refine ⟨written, ?_⟩
  have hfront : (Terminal.operator "::").fits c.rest = false := by
    rw [hrest]
    rfl
  have hfound : peekAny segmentStarts c = .ok (true, c) := by
    rw [peekAny_apply, hrest, fits_segmentStarts_cons, hname]
  have hbehind : (Terminal.operator "::").fits ({ c with rest, written } : Cursor).rest = false :=
    hseparator
  unfold plain
  rw [bind_of_ok (acceptOperator_of_not_fits hfront), bind_of_ok hfound, if_pos rfl,
    bind_of_ok (get_apply c), plainSegments, bind_assoc, bind_of_ok hword, bind_assoc,
    bind_of_ok (acceptOperator_of_not_fits hbehind)]
  rfl

end Path

namespace Read

variable {g : Grammar} {c d : Cursor} {name : String}

lemma metaPath_eq_ok (h : metaPath c = .ok (Path.ofName name, d)) :
    Path.IsMetaName name ∧ ∃ rest written, c.rest = .ident name :: rest ∧
      d = { c with rest, written } := by
  unfold metaPath acceptWord accept at h
  rw [bind_assoc, bind_of_ok (peek_apply _ c)] at h
  split at h
  · rename_i hword
    obtain ⟨rest, hrest⟩ := fits_word_iff.mp hword
    rw [bind_assoc, bind_of_ok (advance_apply _ c)] at h
    cases h
    refine ⟨.inl rfl, rest, .ident "unsafe" :: c.written, hrest, ?_⟩
    simp [hrest, Terminal.width, Terminal.canonical]
  · obtain ⟨hname, hplain⟩ := Path.plain_eq_ok_ofName h
    exact ⟨.inr hname, hplain⟩

lemma metaPath_of_name {rest : Code} (hrest : c.rest = .ident name :: rest)
    (hname : Path.IsMetaName name) (hseparator : (Terminal.operator "::").fits rest = false) :
    ∃ written, metaPath c = .ok (Path.ofName name, { c with rest, written }) := by
  have hfits : (Terminal.word "unsafe").fits c.rest = (name == "unsafe") := by
    rw [hrest]
    rfl
  unfold metaPath acceptWord accept
  rw [bind_assoc, bind_of_ok (peek_apply _ c), hfits]
  by_cases h : name = "unsafe"
  · subst h
    refine ⟨.ident "unsafe" :: c.written, ?_⟩
    rw [beq_self_eq_true, if_pos rfl, bind_assoc, bind_of_ok (advance_apply _ c), hrest]
    rfl
  · rw [beq_eq_false_iff_ne.mpr h]
    exact Path.plain_of_name hrest (hname.resolve_left h) hseparator

/-- A name that stands alone is the first name of its path. -/
lemma firstName_of_name {rest : Code} (hrest : c.rest = .ident name :: rest) :
    ahead (acceptOperator "::" >>= fun _ => mark) c = .ok (c.mark, c) := by
  have hfits : (Terminal.operator "::").fits c.rest = false := by
    rw [hrest]
    rfl
  unfold ahead
  rw [bind_of_ok (Path.acceptOperator_of_not_fits hfits)]
  rfl

lemma markedPath_of_name {rest : Code} (hrest : c.rest = .ident name :: rest)
    (hname : Path.IsMetaName name) (hseparator : (Terminal.operator "::").fits rest = false) :
    ∃ written, markedPath c =
      .ok ((c.mark, c.mark, Path.ofName name), { c with rest, written }) := by
  obtain ⟨written, hpath⟩ := metaPath_of_name hrest hname hseparator
  refine ⟨written, ?_⟩
  unfold markedPath
  rw [bind_of_ok (mark_apply c), bind_of_ok (firstName_of_name hrest), bind_of_ok hpath]
  rfl

lemma markedPath_eq_ok {start nameMark : Mark} {p : Path}
    (h : markedPath c = .ok ((start, nameMark, p), d)) (hname : p.name? = some name) :
    Path.IsMetaName name ∧ start = c.mark ∧ nameMark = c.mark ∧
      ∃ rest written, c.rest = .ident name :: rest ∧ d = { c with rest, written } := by
  obtain rfl := Path.eq_ofName_of_name? hname
  obtain ⟨_, _, ⟨⟩, h⟩ := bind_eq_ok.mp h
  obtain ⟨nameMark', _, hmark, h⟩ := bind_eq_ok.mp h
  obtain rfl := looks_ahead _ hmark
  obtain ⟨path, _, hpath, h⟩ := bind_eq_ok.mp h
  cases h
  obtain ⟨hname, rest, written, hrest, rfl⟩ := metaPath_eq_ok hpath
  refine ⟨hname, rfl, ?_, rest, written, hrest, rfl⟩
  exact (congrArg Prod.fst (Except.ok.inj ((firstName_of_name hrest).symm.trans hmark))).symm

/-! ### Values -/

variable {fuel : Nat} {behind : Nat} {code rest : Code} {p : Path}

/-- A value that is a path is one whatever was written down before. -/
lemma hasPath_of_metaValue (h : metaValue (grammar fuel) c = .ok (.path p, d))
    (hleft : d.leftover = none) : c.rest.HasPath (grammar fuel) c.behind p d.rest := by
  obtain ⟨hnone, ⟨-, hbehind⟩, -⟩ := Tidy.yields h hleft
  obtain ⟨written, hvalue⟩ := steady_metaValue fuel c h trivial []
  refine ⟨written, ?_⟩
  rw [hnone, hbehind, hleft] at hvalue
  exact hvalue

lemma metaValue_of_hasPath (h : code.HasPath (grammar fuel) behind p rest) (written : Code) :
    ∃ written', metaValue (grammar fuel) { rest := code, behind, written } =
      .ok (.path p, { rest, behind, written := written' }) := by
  obtain ⟨_, hvalue⟩ := h
  exact steady_metaValue fuel _ hvalue trivial written

lemma length_le_of_hasPath (h : code.HasPath (grammar fuel) behind p rest) :
    rest.length ≤ code.length := by
  obtain ⟨_, hvalue⟩ := h
  obtain ⟨-, ⟨hsuffix, -⟩, -⟩ := Tidy.yields hvalue rfl
  exact hsuffix.length_le

/-- The equals sign and a path behind it. -/
lemma metaAssignment_eq_ok {equals value : Mark}
    (h : metaAssignment (grammar fuel) c = .ok (.value equals value (.path p), d))
    (hleft : d.leftover = none) : ∃ (spacing : Spacing) (code : Code),
      c.rest = .punct '=' spacing :: code ∧ code.HasPath (grammar fuel) c.behind p d.rest := by
  obtain ⟨_, _, ⟨⟩, h⟩ := bind_eq_ok.mp h
  obtain ⟨_, _, hequals, h⟩ := bind_eq_ok.mp h
  obtain ⟨spacing, code, hrest⟩ := (fits_mark_iff rfl).mp (take_eq_ok.mp hequals).1
  rw [operator_of_mark rfl hrest] at hequals
  cases hequals
  obtain ⟨_, _, ⟨⟩, h⟩ := bind_eq_ok.mp h
  obtain ⟨form, _, hvalue, h⟩ := bind_eq_ok.mp h
  cases h
  exact ⟨spacing, code, hrest, hasPath_of_metaValue hvalue hleft⟩

lemma metaAssignment_of_hasPath {spacing : Spacing}
    (hrest : c.rest = .punct '=' spacing :: code) (hleft : c.leftover = none)
    (h : code.HasPath (grammar fuel) c.behind p rest) :
    ∃ written, metaAssignment (grammar fuel) c =
      .ok (.value c.mark (code.length + c.behind) (.path p),
        { rest, behind := c.behind, written }) := by
  obtain ⟨written, hvalue⟩ := metaValue_of_hasPath h (.punct '=' .alone :: c.written)
  refine ⟨written, ?_⟩
  unfold metaAssignment
  rw [bind_of_ok (mark_apply c), bind_of_ok (operator_of_mark rfl hrest), bind_of_ok (mark_apply _),
    hleft, bind_of_ok hvalue]
  rfl

end Read

/-! ### What arguments say -/

/-- A list of computations has results if each of them has one. -/
lemma Except.mapM_eq_ok_iff {α β ε : Type} {f : α → Except ε β} {as : List α} {bs : List β} :
    as.mapM f = .ok bs ↔ List.Forall₂ (fun a b => f a = .ok b) as bs := by
  induction as generalizing bs with
  | nil =>
    rw [List.mapM_nil, Except.pure_eq_ok_iff, List.forall₂_nil_left_iff]
    exact eq_comm
  | cons a as ih =>
    rw [List.mapM_cons]
    simp only [Except.bind_eq_ok_iff, Except.pure_eq_ok_iff, ih]
    constructor
    · rintro ⟨b, hb, bs, hbs, rfl⟩
      exact .cons hb hbs
    · rintro (_ | ⟨hb, hbs⟩)
      exact ⟨_, hb, _, hbs, rfl⟩

@[simp] lemma Form.pathAt_eq_ok_iff {form : Form} {value : Mark} {p : Path} :
    form.pathAt value = .ok p ↔ form = .path p := by
  cases form <;> simp [pathAt]

namespace Meta

variable {m : Meta}

lemma value?_eq_ok_iff {name : String} {value : Mark} {form : Form} :
    m.value? name = .ok (value, form) ↔ ∃ equals, m.form = .value equals value form := by
  unfold value?
  cases m.form <;> simp

lemma group?_eq_ok_iff {name : String} {group : RawGroup} :
    m.group? name = .ok group ↔ m.form = .list group := by
  unfold group?
  cases m.form <;> simp

/-- The value of the argument is the path. -/
def HasPath (m : Meta) (p : Path) : Prop :=
  ∃ equals value, m.form = .value equals value (.path p)

lemma hasPath_iff (name : String) {p : Path} : m.HasPath p ↔
    ∃ value form, m.value? name = .ok (value, form) ∧ form.pathAt value = .ok p := by
  constructor
  · rintro ⟨equals, value, hform⟩
    exact ⟨value, .path p, value?_eq_ok_iff.mpr ⟨equals, hform⟩, Form.pathAt_eq_ok_iff.mpr rfl⟩
  · rintro ⟨value, form, hvalue, hpath⟩
    obtain ⟨equals, hform⟩ := value?_eq_ok_iff.mp hvalue
    exact ⟨equals, value, Form.pathAt_eq_ok_iff.mp hpath ▸ hform⟩

/-- An entry gives a renderer if its path is one name and its value is a path. -/
lemma renderer?_eq_ok_iff {r : WrittenRenderer} : m.renderer? = .ok r ↔
    m.path.name? = some r.payload ∧ m.nameMark = r.mark ∧ m.HasPath r.renderer := by
  unfold renderer?
  cases m.path.name? with
  | none => simp
  | some payload =>
    obtain ⟨name, mark, renderer⟩ := r
    simp only [hasPath_iff payload, Except.bind_eq_ok_iff, Except.pure_eq_ok_iff,
      Prod.exists, WrittenRenderer.mk.injEq, Option.some.injEq]
    constructor
    · rintro ⟨value, form, hvalue, p, hpath, rfl, rfl, rfl⟩
      exact ⟨rfl, rfl, value, form, hvalue, hpath⟩
    · rintro ⟨rfl, rfl, value, form, hvalue, hpath⟩
      exact ⟨value, form, hvalue, renderer, hpath, rfl, rfl, rfl⟩

def Means (g : Grammar) (m : Meta) : WrittenArgument → Prop
  | .runtime p => m.path.name? = some "runtime" ∧ m.HasPath p
  | .renderers entries => m.path.name? = some "renderers" ∧ m.renderers? g = .ok entries

end Meta

namespace WrittenArguments

variable {g : Grammar} {a b : WrittenArguments}

/-- An argument that is added to others means something, and chooses no second runtime. -/
inductive Adds (g : Grammar) (m : Meta) (a : WrittenArguments) : WrittenArguments → Prop
  | runtime {p : Path} (meaning : m.Means g (.runtime p)) (first : a.runtime = none) :
      Adds g m a { a with runtime := some p }
  | renderers {entries : List WrittenRenderer} (meaning : m.Means g (.renderers entries)) :
      Adds g m a { a with renderers := a.renderers ++ entries }

lemma add_eq_ok_iff {m : Meta} : a.add g m = .ok b ↔ Adds g m a b := by
  constructor
  · intro h
    unfold add at h
    split at h
    · rename_i hname
      obtain ⟨⟨value, form⟩, hvalue, h⟩ := Except.bind_eq_ok_iff.mp h
      dsimp only at h
      split at h
      · cases h
      · rename_i hfirst
        obtain ⟨p, hpath, h⟩ := Except.bind_eq_ok_iff.mp h
        obtain rfl := Except.pure_eq_ok_iff.mp h
        exact .runtime ⟨hname, (Meta.hasPath_iff "runtime").mpr ⟨value, form, hvalue, hpath⟩⟩
          (by simpa using hfirst)
    · split at h
      · rename_i hname
        obtain ⟨entries, hentries, h⟩ := Except.bind_eq_ok_iff.mp h
        obtain rfl := Except.pure_eq_ok_iff.mp h
        exact .renderers ⟨hname, hentries⟩
      · cases h
  · rintro (⟨⟨hname, hpath⟩, first⟩ | ⟨hname, hentries⟩)
    · obtain ⟨value, form, hvalue, hpath⟩ := (Meta.hasPath_iff "runtime").mp hpath
      unfold add
      rw [if_pos hname, hvalue]
      simp [bind, Except.bind, first, hpath, pure, Except.pure]
    · have hother : ¬m.path.name? = some "runtime" := by
        rw [hname]
        decide
      unfold add
      rw [if_neg hother, if_pos hname, hentries]
      rfl

/-- What arguments say if they are added to nothing: the runtime, which at most one of them
chooses, and all renderers in the order in which they are written. -/
lemma foldlM_add_eq_ok_iff {ms : List Meta} : ms.foldlM (add g) a = .ok b ↔
    ∃ arguments, List.Forall₂ (Meta.Means g) ms arguments ∧
      (a.runtime.toList ++ arguments.filterMap (·.runtime?)).length ≤ 1 ∧
      b.runtime = (a.runtime.toList ++ arguments.filterMap (·.runtime?)).head? ∧
      b.renderers = a.renderers ++ arguments.flatMap (·.entries) := by
  induction ms generalizing a with
  | nil =>
    have hlength : a.runtime.toList.length ≤ 1 := by cases a.runtime <;> simp
    have hhead : a.runtime.toList.head? = a.runtime := by cases a.runtime <;> rfl
    obtain ⟨runtime, renderers⟩ := a
    obtain ⟨runtime', renderers'⟩ := b
    simp only [List.foldlM_nil, Except.pure_eq_ok_iff, List.forall₂_nil_left_iff, exists_eq_left,
      List.filterMap_nil, List.append_nil, List.flatMap_nil, hlength, hhead, true_and, mk.injEq]
    exact and_congr eq_comm eq_comm
  | cons m ms ih =>
    simp only [List.foldlM_cons, Except.bind_eq_ok_iff, add_eq_ok_iff, ih]
    constructor
    · rintro ⟨_, ⟨meaning, first⟩ | ⟨meaning⟩, arguments, hms, hlength, hruntime, hrenderers⟩
      · refine ⟨_ :: arguments, .cons meaning hms, ?_⟩
        simpa [first, WrittenArgument.runtime?, WrittenArgument.entries] using
          And.intro hlength (And.intro hruntime hrenderers)
      · refine ⟨_ :: arguments, .cons meaning hms, ?_⟩
        simpa [WrittenArgument.runtime?, WrittenArgument.entries] using
          And.intro hlength (And.intro hruntime hrenderers)
    · rintro ⟨_, hmeans, hlength, hruntime, hrenderers⟩
      obtain _ | ⟨meaning, hms⟩ := hmeans
      rename_i argument arguments
      cases argument with
      | runtime p =>
        have first : a.runtime = none := by
          cases hfirst : a.runtime with
          | none => rfl
          | some q => simp [hfirst, WrittenArgument.runtime?] at hlength
        refine ⟨_, .runtime meaning first, arguments, hms, ?_⟩
        simpa [first, WrittenArgument.runtime?, WrittenArgument.entries] using
          And.intro hlength (And.intro hruntime hrenderers)
      | renderers entries =>
        refine ⟨_, .renderers meaning, arguments, hms, ?_⟩
        simpa [WrittenArgument.runtime?, WrittenArgument.entries] using
          And.intro hlength (And.intro hruntime hrenderers)

end WrittenArguments

/-! ### Groups -/

namespace Code

/-- Behind the content of a group stands what stood behind it before, whatever that is. -/
lemma toClosing_append {opened inner : List Delimiter} {code : Code}
    (h : nest opened code = some inner) (behind : Code) :
    toClosing opened.length (code ++ behind) = toClosing inner.length behind := by
  induction code generalizing opened with
  | nil =>
    cases h
    rfl
  | cons token code ih =>
    rw [nest_cons] at h
    obtain ⟨between, htoken, hcode⟩ := Option.bind_eq_some_iff.mp h
    rw [← ih hcode]
    cases token with
    | ident | punct | literal | opening =>
      cases htoken
      cases opened <;> rfl
    | closing d =>
      cases opened with
      | nil => cases htoken
      | cons e opened =>
        simp only [Token.nest] at htoken
        split at htoken
        · cases htoken
          rfl
        · cases htoken

lemma IsBalanced.closes {code : Code} (h : code.IsBalanced) : Closes 0 code :=
  fun _ _ => toClosing_append h _

/-- In balanced code every group is closed. -/
lemma exists_group_of_suffix {whole code : Code} {d : Delimiter} (h : whole.IsBalanced)
    (hsuffix : .opening d :: code <:+ whole) :
    ∃ inner rest : Code, code = inner ++ .closing d :: rest ∧ inner.IsBalanced := by
  obtain ⟨front, rfl⟩ := hsuffix
  rw [IsBalanced, nest_append] at h
  obtain ⟨opened, -, hnest⟩ := Option.bind_eq_some_iff.mp h
  have hcode : nest ([] ++ d :: opened) code = some [] := hnest
  obtain ⟨inner, hinner, hbalanced, hhead⟩ : ∃ inner, code = inner ++ toClosing 0 code ∧
      nest [] inner = some [] ∧ ∀ token ∈ (toClosing 0 code).head?, ∃ d, token = .closing d :=
    toClosing_of_nest hcode rfl
  rw [hinner, List.nil_append, nest_append, IsBalanced.nest hbalanced, Option.bind_some] at hcode
  cases hclosing : toClosing 0 code with
  | nil =>
    rw [hclosing] at hcode
    cases hcode
  | cons token rest =>
    obtain ⟨e, rfl⟩ := hhead token (by rw [hclosing]; rfl)
    rw [hclosing, nest_cons, Token.nest] at hcode
    split at hcode
    · rename_i hsame
      exact ⟨inner, rest, by rw [hinner, hclosing, hsame], hbalanced⟩
    · cases hcode

end Code

lemma Reader.exists_opening_of_rawGroup {c d : Cursor} {group : RawGroup}
    (h : rawGroup c = .ok (group, d)) : ∃ delimiter rest, c.rest = .opening delimiter :: rest := by
  obtain ⟨_, _, ⟨⟩, h⟩ := bind_eq_ok.mp h
  obtain ⟨_, _, ⟨⟩, h⟩ := bind_eq_ok.mp h
  generalize hrest : c.rest = rest at h
  split at h
  · exact ⟨_, _, rfl⟩
  · exact absurd h (expected_ne_ok _ _ _)

/-- In balanced code a group is taken with its brackets. -/
lemma Reader.rawGroup_eq_ok_of_balanced {c d : Cursor} {group : RawGroup} {whole : Code}
    (h : rawGroup c = .ok (group, d)) (hwhole : whole.IsBalanced) (hsuffix : c.rest <:+ whole) :
    c.rest = groupCode group.delimiter group.inner ++ d.rest ∧ group.inner.IsBalanced ∧
      group.closeAt = d.rest.length + 1 + c.behind := by
  obtain ⟨delimiter, code, hrest⟩ := exists_opening_of_rawGroup h
  rw [hrest] at hsuffix
  obtain ⟨inner, rest, rfl, hbalanced⟩ := Code.exists_group_of_suffix hwhole hsuffix
  obtain ⟨written, hgroup⟩ := rawGroup_of_closed hrest hbalanced.closes
  rw [hgroup] at h
  cases h
  exact ⟨by simp [hrest, groupCode], hbalanced, rfl⟩

/-! ### The arguments one by one -/

namespace Read

variable {fuel : Nat} {behind : Nat} {c d : Cursor} {code rest : Code}

/-- What is read as an entry that gives a renderer is that entry. -/
lemma entry_of_assignment {m : Meta} {r : WrittenRenderer}
    (h : assignment (grammar fuel) c = .ok (m, d)) (hleft : d.leftover = none)
    (hr : m.renderer? = .ok r) : Code.IsEntry (grammar fuel) c.behind c.rest r d.rest := by
  obtain ⟨payload, mark, renderer⟩ := r
  obtain ⟨hname, hmark, equals, value, hform⟩ := Meta.renderer?_eq_ok_iff.mp hr
  obtain ⟨⟨start, nameMark, path⟩, _, hpath, h⟩ := bind_eq_ok.mp h
  obtain ⟨form, _, hassignment, h⟩ := bind_eq_ok.mp h
  cases h
  cases hform
  obtain ⟨hsingle, -, hplace, rest, written, hrest, rfl⟩ := markedPath_eq_ok hpath hname
  obtain ⟨spacing, code, hequals, hvalue⟩ := metaAssignment_eq_ok hassignment hleft
  obtain rfl : rest = .punct '=' spacing :: code := hequals
  obtain rfl : mark = code.length + 2 + c.behind := by
    rw [← show nameMark = mark from hmark, hplace, Cursor.mark, hrest]
    rfl
  rw [hrest]
  exact .mk hsingle hvalue

/-- An entry is read where it stands in front of other code. -/
lemma assignment_of_entry {r : WrittenRenderer}
    (h : code.IsEntry (grammar fuel) behind r rest) : ∃ m : Meta, (rest.length < code.length ∧
      Cursor.isEnded { rest := code } = false ∧
      ∀ written, ∃ written', assignment (grammar fuel) { rest := code, behind, written } =
        .ok (m, { rest, behind, written := written' })) ∧ m.renderer? = .ok r := by
  obtain ⟨hsingle, hvalue⟩ := h
  rename_i name spacing value p
  let start : Mark := value.length + 2 + behind
  let m : Meta := {
    mark := start
    nameMark := start
    path := Path.ofName name
    form := .value (value.length + 1 + behind) (value.length + behind) (.path p) }
  refine ⟨m, ⟨?_, rfl, fun written => ?_⟩, ?_⟩
  · have hle := length_le_of_hasPath hvalue
    simp only [List.length_cons]
    omega
  · let c : Cursor := { rest := .ident name :: .punct '=' spacing :: value, behind, written }
    obtain ⟨written', hpath⟩ := markedPath_of_name (c := c) rfl hsingle rfl
    obtain ⟨written'', hassignment⟩ := metaAssignment_of_hasPath
      (c := { c with rest := .punct '=' spacing :: value, written := written' }) rfl rfl hvalue
    refine ⟨written'', ?_⟩
    show assignment (grammar fuel) c = _
    unfold assignment
    rw [bind_of_ok hpath]
    dsimp only
    rw [bind_of_ok hassignment]
    have hstart : c.mark = start := by
      simp only [Cursor.mark, c, start, List.length_cons]
    have hequals : Cursor.mark { c with rest := .punct '=' spacing :: value, written := written' } =
        value.length + 1 + behind := rfl
    rw [hstart, hequals]
    rfl
  · exact Meta.renderer?_eq_ok_iff.mpr ⟨rfl, rfl, _, _, rfl⟩

/-- A group with entries gives the renderers that are written in it. -/
lemma renderers?_eq_ok_iff {m : Meta} {group : RawGroup} {entries : List WrittenRenderer}
    (hform : m.form = .list group) : m.renderers? (grammar fuel) = .ok entries ↔
      group.inner.IsList (Code.IsEntry (grammar fuel) group.closeAt) entries := by
  unfold Meta.renderers?
  simp only [Except.bind_eq_ok_iff, Meta.group?_eq_ok_iff, hform, MetaForm.list.injEq,
    exists_eq_left', run_eq_ok_iff, Except.mapM_eq_ok_iff]
  constructor
  · rintro ⟨ms, ⟨e, hlist, hleft, hrest⟩, hms⟩
    refine Code.IsList.of_forall₂ hms (isList_of_separatedBy ?_ hlist hrest hleft)
    intro c m d h _ hbehind _ hleft r hr
    exact hbehind ▸ entry_of_assignment h hleft hr
  · intro hlist
    obtain ⟨ms, hms, hrs⟩ := hlist.exists_forall₂ fun code r rest h => assignment_of_entry h
    obtain ⟨written, hrun⟩ := separatedBy_of_isList (fun code m rest h => h) hms
    exact ⟨ms, ⟨_, hrun, rfl, rfl⟩, hrs⟩

/-- Behind its path an argument has a group, or an equals sign and a value, or nothing. -/
lemma meta?_eq_ok {g : Grammar} {m : Meta} (h : meta? g c = .ok (m, d)) :
    ∃ start nameMark e, markedPath c = .ok ((start, nameMark, m.path), e) ∧
      ((∃ group, m.form = .list group ∧ rawGroup e = .ok (group, d)) ∨
        [Terminal.operator "==", .operator "=>"].any (·.fits e.rest) = false ∧
          metaAssignment g e = .ok (m.form, d) ∨
        m.form = .bare) := by
  obtain ⟨⟨start, nameMark, path⟩, e, hpath, h⟩ := bind_eq_ok.mp h
  refine ⟨start, nameMark, e, ?_⟩
  dsimp only at h
  rw [bind_of_ok (peekAny_apply _ _)] at h
  split at h
  · obtain ⟨_, _, ⟨⟩, h⟩ := bind_eq_ok.mp h
    obtain ⟨_, _, ⟨⟩, h⟩ := bind_eq_ok.mp h
    obtain ⟨group, _, hgroup, h⟩ := bind_eq_ok.mp h
    cases h
    exact ⟨hpath, .inl ⟨group, rfl, hgroup⟩⟩
  · obtain ⟨_, _, ⟨⟩, h⟩ := bind_eq_ok.mp h
    obtain ⟨_, _, ⟨⟩, h⟩ := bind_eq_ok.mp h
    split at h
    · rename_i hsign
      obtain ⟨form, _, hform, h⟩ := bind_eq_ok.mp h
      cases h
      exact ⟨hpath, .inr (.inl ⟨by simpa using (Bool.and_eq_true_iff.mp hsign).2, hform⟩)⟩
    · cases h
      exact ⟨hpath, .inr (.inr rfl)⟩

/-- What is read as an argument that means something is that argument. -/
lemma argument_of_meta? {m : Meta} {argument : WrittenArgument} {whole : Code}
    (h : meta? (grammar fuel) c = .ok (m, d)) (hleft : d.leftover = none) (hbehind : c.behind = 0)
    (hwhole : whole.IsBalanced) (hsuffix : c.rest <:+ whole)
    (meaning : m.Means (grammar fuel) argument) :
    Code.IsArgument (grammar fuel) c.rest argument d.rest := by
  obtain ⟨start, nameMark, e, hpath, hform⟩ := meta?_eq_ok h
  cases argument with
  | runtime p =>
    obtain ⟨hname, equals, value, hvalue⟩ := meaning
    obtain ⟨-, -, -, rest, written, hrest, rfl⟩ := markedPath_eq_ok hpath hname
    rw [hvalue] at hform
    obtain ⟨_, ⟨⟩, -⟩ | ⟨hsign, hassignment⟩ | ⟨⟨⟩⟩ := hform
    obtain ⟨spacing, code, hequals, hcode⟩ := metaAssignment_eq_ok hassignment hleft
    obtain rfl : rest = .punct '=' spacing :: code := hequals
    rw [show ({ c with rest := _, written } : Cursor).behind = 0 from hbehind] at hcode
    rw [hrest]
    exact .runtime hsign hcode
  | renderers entries =>
    obtain ⟨hname, hentries⟩ := meaning
    obtain ⟨-, -, -, rest, written, hrest, rfl⟩ := markedPath_eq_ok hpath hname
    obtain ⟨group, hgroup, -⟩ := Except.bind_eq_ok_iff.mp hentries
    rw [Meta.group?_eq_ok_iff] at hgroup
    rw [renderers?_eq_ok_iff hgroup] at hentries
    rw [hgroup] at hform
    obtain ⟨_, ⟨⟩, hraw⟩ | ⟨-, hassignment⟩ | ⟨⟨⟩⟩ := hform
    · have hrest' : rest <:+ whole := (hrest ▸ List.suffix_cons _ _ : rest <:+ c.rest).trans hsuffix
      obtain ⟨hcode, hbalanced, hcloseAt⟩ := rawGroup_eq_ok_of_balanced hraw hwhole hrest'
      rw [hcloseAt] at hentries
      rw [hrest, show rest = _ from hcode]
      refine .renderers hbalanced ?_
      rwa [show ({ c with rest, written } : Cursor).behind = 0 from hbehind] at hentries
    · obtain ⟨_, _, ⟨⟩, hassignment⟩ := bind_eq_ok.mp hassignment
      obtain ⟨_, _, -, hassignment⟩ := bind_eq_ok.mp hassignment
      obtain ⟨_, _, ⟨⟩, hassignment⟩ := bind_eq_ok.mp hassignment
      obtain ⟨_, _, -, ⟨⟩⟩ := bind_eq_ok.mp hassignment

section

variable {g : Grammar} {e : Cursor} {start nameMark : Mark} {path : Path}

lemma meta?_of_group {delimiter : Delimiter} {group : RawGroup}
    (hpath : markedPath c = .ok ((start, nameMark, path), e))
    (hrest : e.rest = .opening delimiter :: code) (hgroup : rawGroup e = .ok (group, d)) :
    meta? g c = .ok ({ mark := start, nameMark, path, form := .list group }, d) := by
  have hopen : peekAny [.group .round, .group .square, .group .curly] e = .ok (true, e) := by
    rw [peekAny_apply, hrest]
    cases delimiter <;> rfl
  unfold meta?
  rw [bind_of_ok hpath]
  dsimp only
  rw [bind_of_ok hopen, bind_of_ok (peekOperator_apply "=" e), bind_of_ok (peekAny_apply _ e),
    if_pos rfl, bind_of_ok hgroup]
  rfl

lemma meta?_of_assignment {spacing : Spacing} {form : MetaForm}
    (hpath : markedPath c = .ok ((start, nameMark, path), e))
    (hrest : e.rest = .punct '=' spacing :: code)
    (hsign : [Terminal.operator "==", .operator "=>"].any (·.fits e.rest) = false)
    (hform : metaAssignment g e = .ok (form, d)) :
    meta? g c = .ok ({ mark := start, nameMark, path, form }, d) := by
  have hclosed : peekAny [.group .round, .group .square, .group .curly] e = .ok (false, e) := by
    rw [peekAny_apply, hrest]
    rfl
  have hequals : peekOperator "=" e = .ok (true, e) := by
    rw [peekOperator_apply, (fits_mark_iff rfl).mpr ⟨_, _, hrest⟩]
  have hother : peekAny [.operator "==", .operator "=>"] e = .ok (false, e) := by
    rw [peekAny_apply, hsign]
  unfold meta?
  rw [bind_of_ok hpath]
  dsimp only
  rw [bind_of_ok hclosed, bind_of_ok hequals, bind_of_ok hother]
  show (metaAssignment g >>= _) e = _
  rw [bind_of_ok hform]
  rfl

end

/-- An argument is read where it stands in front of other code. -/
lemma meta?_of_argument {argument : WrittenArgument}
    (h : code.IsArgument (grammar fuel) argument rest) : ∃ m : Meta, (rest.length < code.length ∧
      Cursor.isEnded { rest := code } = false ∧
      ∀ written, ∃ written', meta? (grammar fuel) { rest := code, written } =
        .ok (m, { rest, written := written' })) ∧ m.Means (grammar fuel) argument := by
  cases h with
  | @runtime spacing value _ p sign path =>
    let m : Meta := {
      mark := value.length + 2
      nameMark := value.length + 2
      path := Path.ofName "runtime"
      form := .value (value.length + 1) value.length (.path p) }
    refine ⟨m, ⟨?_, rfl, fun written => ?_⟩, rfl, _, _, rfl⟩
    · have hle := length_le_of_hasPath path
      simp only [List.length_cons]
      omega
    · let c : Cursor := { rest := .ident "runtime" :: .punct '=' spacing :: value, written }
      obtain ⟨written', hpath⟩ := markedPath_of_name (c := c) rfl (.inr (by decide)) rfl
      obtain ⟨written'', hassignment⟩ := metaAssignment_of_hasPath
        (c := { c with rest := .punct '=' spacing :: value, written := written' }) rfl rfl path
      exact ⟨written'', meta?_of_assignment hpath rfl sign hassignment⟩
  | @renderers d inner _ entries balanced list =>
    let m : Meta := {
      mark := (groupCode d inner ++ rest).length + 1
      nameMark := (groupCode d inner ++ rest).length + 1
      path := Path.ofName "renderers"
      form := .list {
        delimiter := d
        openAt := (groupCode d inner ++ rest).length
        inner
        closeAt := rest.length + 1 } }
    refine ⟨m, ⟨?_, rfl, fun written => ?_⟩, rfl, (renderers?_eq_ok_iff rfl).mpr list⟩
    · simp only [List.length_cons, List.length_append]
      omega
    · let c : Cursor := { rest := .ident "renderers" :: (groupCode d inner ++ rest), written }
      obtain ⟨written', hpath⟩ := markedPath_of_name (c := c) rfl (.inr (by decide)) rfl
      let e : Cursor := { c with rest := groupCode d inner ++ rest, written := written' }
      have hrest : e.rest = .opening d :: (inner ++ .closing d :: rest) := by
        simp [e, groupCode]
      obtain ⟨written'', hgroup⟩ := rawGroup_of_closed hrest balanced.closes
      exact ⟨written'', meta?_of_group hpath hrest hgroup⟩

end Read

/-! ### All arguments -/

/-- No renderer is found if the payloads are different from each other and from earlier ones. -/
lemma firstRepeated?_eq_none_iff {earlier : List String} {rs : List WrittenRenderer} :
    firstRepeated? earlier rs = none ↔
      (∀ r ∈ rs, r.payload ∉ earlier) ∧ (rs.map (·.payload)).Nodup := by
  induction rs generalizing earlier with
  | nil => simp [firstRepeated?]
  | cons r rs ih =>
    unfold firstRepeated?
    split
    · simp_all
    · rename_i hnew
      simp only [ih, List.mem_cons, not_or, forall_eq_or_imp, hnew, not_false_eq_true, true_and,
        List.map_cons, List.nodup_cons, List.mem_map, not_exists, not_and, forall_and]
      tauto

/-- The first renderer is found whose payload occurred before. -/
lemma firstRepeated?_append {earlier : List String} {front later : List WrittenRenderer}
    {r : WrittenRenderer} (hnew : ∀ s ∈ front, s.payload ∉ earlier)
    (hfront : (front.map (·.payload)).Nodup)
    (hrepeated : r.payload ∈ earlier ∨ r.payload ∈ front.map (·.payload)) :
    firstRepeated? earlier (front ++ r :: later) = some r := by
  induction front generalizing earlier with
  | nil => simp [firstRepeated?, show r.payload ∈ earlier by simpa using hrepeated]
  | cons s front ih =>
    obtain ⟨hs, hfront⟩ := List.nodup_cons.mp hfront
    unfold firstRepeated?
    rw [List.cons_append]
    dsimp only
    rw [if_neg (hnew s List.mem_cons_self)]
    refine ih (fun t ht hmem => ?_) hfront ?_
    · obtain htail | hmem := List.mem_cons.mp hmem
      · exact hs (List.mem_map.mpr ⟨t, ht, htail⟩)
      · exact hnew t (List.mem_cons_of_mem _ ht) hmem
    · simp only [List.map_cons, List.mem_cons] at hrepeated ⊢
      tauto

lemma Meta.means_unique {g : Grammar} : Relator.RightUnique (Meta.Means g) := by
  rintro m (p | entries) (q | entries') ⟨hname, h⟩ ⟨hname', h'⟩
  · obtain ⟨_, _, h⟩ := h
    obtain ⟨_, _, h'⟩ := h'
    rw [h] at h'
    cases h'
    rfl
  · rw [hname] at hname'
    simp at hname'
  · rw [hname] at hname'
    simp at hname'
  · rw [h] at h'
    cases h'
    rfl

/-- The arguments say that the runtime is the one that is written, at most once, and that the
renderers are the ones that are written, no two of them for one payload. -/
structure AttributeArguments.Says (a : AttributeArguments) (arguments : List WrittenArgument) :
    Prop where
  oneRuntime : (arguments.filterMap (·.runtime?)).length ≤ 1
  distinct : ((arguments.flatMap (·.entries)).map (·.payload)).Nodup
  runtime : a.runtime = (arguments.filterMap (·.runtime?)).head?
  renderers : a.renderers = (arguments.flatMap (·.entries)).map fun r => (r.payload, r.renderer)

namespace Code.IsArguments

variable {code : Code} {arguments : List WrittenArgument}

/-- Arguments are read, and what is read means them. -/
lemma exists_metas (h : code.IsArguments arguments) : ∃ metas d,
    separatedBy "," (Read.meta? code.grammar) { rest := code } = .ok (metas, d) ∧ d.rest = [] ∧
      d.leftover = none ∧ List.Forall₂ (Meta.Means code.grammar) metas arguments := by
  obtain ⟨metas, hmetas, hmeans⟩ :=
    Code.IsList.exists_forall₂ (fun code argument rest h => Read.meta?_of_argument h) h
  obtain ⟨written, hrun⟩ := separatedBy_of_isList (fun code m rest h => h) hmetas
  exact ⟨metas, _, hrun, rfl, rfl, hmeans⟩

/-- Code is a list of arguments in one way only. -/
lemma unique {others : List WrittenArgument} (h : code.IsArguments arguments)
    (h' : code.IsArguments others) : arguments = others := by
  obtain ⟨metas, _, hrun, -, -, hmeans⟩ := h.exists_metas
  obtain ⟨metas', _, hrun', -, -, hmeans'⟩ := h'.exists_metas
  rw [hrun] at hrun'
  cases hrun'
  exact Meta.means_unique.forall₂ hmeans hmeans'

end Code.IsArguments

namespace AttributeArguments

variable {code : Code} {behind : Nat} {arguments : List WrittenArgument}

lemma checked_eq_ok_iff {written : WrittenArguments} {a : AttributeArguments} :
    written.checked = .ok a ↔ (written.renderers.map (·.payload)).Nodup ∧
      a.runtime = written.runtime ∧
      a.renderers = written.renderers.map fun r => (r.payload, r.renderer) := by
  have hdistinct : firstRepeated? [] written.renderers = none ↔
      (written.renderers.map (·.payload)).Nodup := by
    simp [firstRepeated?_eq_none_iff]
  rw [← hdistinct]
  obtain ⟨runtime, renderers⟩ := a
  unfold WrittenArguments.checked
  cases firstRepeated? [] written.renderers with
  | some r => simp
  | none => simp [eq_comm]

/-- A list of arguments is accepted if it says something. -/
lemma ofCode_eq_ok_iff {a : AttributeArguments} (h : code.IsArguments arguments) :
    ofCode code behind = .ok a ↔ a.Says arguments := by
  obtain ⟨metas, d, hmetas, hrest, hleft, hmeans⟩ := h.exists_metas
  unfold ofCode
  rw [Except.mapError_eq_ok_iff, run_eq_ok_iff]
  constructor
  · rintro ⟨c, hread, -, -⟩
    obtain ⟨metas', _, hmetas', hread⟩ := bind_eq_ok.mp hread
    rw [hmetas] at hmetas'
    cases hmetas'
    obtain ⟨written, hwritten, hread⟩ := Except.bind_eq_ok_iff.mp hread
    obtain ⟨_, hchecked, ⟨⟩⟩ := Except.bind_eq_ok_iff.mp hread
    obtain ⟨others, hmeans', hone, hruntime, hrenderers⟩ :=
      WrittenArguments.foldlM_add_eq_ok_iff.mp hwritten
    obtain rfl := Meta.means_unique.forall₂ hmeans hmeans'
    rw [checked_eq_ok_iff, hruntime, hrenderers] at hchecked
    obtain ⟨hdistinct, haruntime, harenderers⟩ := hchecked
    exact ⟨hone, hdistinct, haruntime, harenderers⟩
  · rintro ⟨hone, hdistinct, hruntime, hrenderers⟩
    let written : WrittenArguments :=
      { runtime := (arguments.filterMap (·.runtime?)).head?
        renderers := arguments.flatMap (·.entries) }
    have hwritten : metas.foldlM (WrittenArguments.add code.grammar) {} = .ok written :=
      WrittenArguments.foldlM_add_eq_ok_iff.mpr ⟨arguments, hmeans, hone, rfl, rfl⟩
    have hchecked : written.checked = .ok a :=
      checked_eq_ok_iff.mpr ⟨hdistinct, hruntime, hrenderers⟩
    exact ⟨d, bind_eq_ok.mpr ⟨metas, d, hmetas, Except.bind_eq_ok_iff.mpr
      ⟨written, hwritten, Except.bind_eq_ok_iff.mpr ⟨a, hchecked, rfl⟩⟩⟩, hleft, hrest⟩

lemma exists_isArguments {a : AttributeArguments} (balanced : code.IsBalanced)
    (h : ofCode code behind = .ok a) : ∃ arguments, code.IsArguments arguments := by
  obtain ⟨c, hread, hleft, hrest⟩ := run_eq_ok_iff.mp (Except.mapError_eq_ok_iff.mp h)
  obtain ⟨metas, d, hmetas, hread⟩ := bind_eq_ok.mp hread
  obtain ⟨written, hwritten, hread⟩ := Except.bind_eq_ok_iff.mp hread
  obtain ⟨_, -, ⟨⟩⟩ := Except.bind_eq_ok_iff.mp hread
  obtain ⟨arguments, hmeans, -⟩ := WrittenArguments.foldlM_add_eq_ok_iff.mp hwritten
  refine ⟨arguments, Code.IsList.of_forall₂ hmeans (isList_of_separatedBy ?_ hmetas hrest hleft)⟩
  intro c m d h hsuffix hbehind _ hleft argument meaning
  exact Read.argument_of_meta? h hleft hbehind balanced hsuffix meaning

/-- The fault of arguments that have no other fault than a payload with two renderers. -/
lemma ofCode_of_repeated (h : code.IsArguments arguments)
    (oneRuntime : (arguments.filterMap (·.runtime?)).length ≤ 1)
    {earlier later : List WrittenRenderer} {r : WrittenRenderer}
    (hentries : arguments.flatMap (·.entries) = earlier ++ r :: later)
    (distinct : (earlier.map (·.payload)).Nodup) (repeated : r.payload ∈ earlier.map (·.payload)) :
    ofCode code behind =
      .error { cause := .repeatedRenderer r.payload, mark := r.mark + behind } := by
  obtain ⟨metas, d, hmetas, -, -, hmeans⟩ := h.exists_metas
  have hwritten : metas.foldlM (WrittenArguments.add code.grammar) {} =
      .ok { runtime := (arguments.filterMap (·.runtime?)).head?,
            renderers := earlier ++ r :: later } :=
    WrittenArguments.foldlM_add_eq_ok_iff.mpr ⟨arguments, hmeans, oneRuntime, rfl, hentries.symm⟩
  have hrepeated : firstRepeated? [] (earlier ++ r :: later) = some r :=
    firstRepeated?_append (by simp) distinct (.inr repeated)
  have hchecked : WrittenArguments.checked
      { runtime := (arguments.filterMap (·.runtime?)).head?, renderers := earlier ++ r :: later } =
      .error { cause := .repeatedRenderer r.payload, mark := r.mark } := by
    unfold WrittenArguments.checked
    rw [hrepeated]
  have hread : reader code.grammar { rest := code } =
      .error { cause := .repeatedRenderer r.payload, mark := r.mark } := by
    unfold reader
    rw [bind_of_ok hmetas, hwritten]
    show (WrittenArguments.checked _ >>= _) = _
    rw [hchecked]
    rfl
  have hrun : run (reader code.grammar) code =
      .error { cause := .repeatedRenderer r.payload, mark := r.mark } := by
    unfold run
    rw [hread]
    rfl
  unfold ofCode
  rw [hrun]
  rfl

/-- Code is accepted as arguments if and only if it is a list of arguments, which it is in one way
only, that chooses at most one runtime and gives no payload two renderers. The result is the
runtime and the renderers as they are written. If a payload with two renderers is the only fault,
the fault is at the first renderer whose payload occurred before. -/
theorem ofCode_accepts_arguments (code : Code) (balanced : code.IsBalanced) (behind : Nat) :
    (∀ a, ofCode code behind = .ok a ↔
      ∃ arguments, code.IsArguments arguments ∧ a.Says arguments) ∧
    (∀ arguments others, code.IsArguments arguments → code.IsArguments others →
      arguments = others) ∧
    ∀ arguments, code.IsArguments arguments → (arguments.filterMap (·.runtime?)).length ≤ 1 →
      ∀ earlier r later, arguments.flatMap (·.entries) = earlier ++ r :: later →
        (earlier.map (·.payload)).Nodup → r.payload ∈ earlier.map (·.payload) →
        ofCode code behind =
          .error { cause := .repeatedRenderer r.payload, mark := r.mark + behind } := by
  refine ⟨fun a => ⟨fun h => ?_, ?_⟩, ?_, ?_⟩
  · obtain ⟨arguments, harguments⟩ := exists_isArguments balanced h
    exact ⟨arguments, harguments, (ofCode_eq_ok_iff harguments).mp h⟩
  · rintro ⟨arguments, harguments, hsays⟩
    exact (ofCode_eq_ok_iff harguments).mpr hsays
  · intro arguments others h h'
    exact h.unique h'
  · intro arguments h oneRuntime earlier r later hentries distinct repeated
    exact ofCode_of_repeated h oneRuntime hentries distinct repeated

/-- The renderer `Info = path`. -/
def infoEntry (path : String) : Code :=
  [.ident "Info", .punct '=' .alone, .ident path]

/-- The arguments `runtime = ui, renderers(Info = panel,)`. -/
def panelArguments : Code :=
  .ident "runtime" :: .punct '=' .alone :: .ident "ui" :: .punct ',' .alone ::
    .ident "renderers" :: groupCode .round (infoEntry "panel" ++ [.punct ',' .alone])

/-- The arguments `renderers(Info = panel), renderers(Info = card)`. -/
def repeatedArguments : Code :=
  .ident "renderers" :: (groupCode .round (infoEntry "panel") ++
    .punct ',' .alone :: .ident "renderers" :: groupCode .round (infoEntry "card"))

lemma isArguments_panelArguments : panelArguments.IsArguments
    [.runtime (.ofName "ui"),
      .renderers [{ payload := "Info", mark := 5, renderer := .ofName "panel" }]] := by
  have hbalanced : Code.IsBalanced (infoEntry "panel" ++ [.punct ',' .alone]) := rfl
  have hentries : Code.IsList (Code.IsEntry panelArguments.grammar 1)
      (infoEntry "panel" ++ [.punct ',' .alone])
      [{ payload := "Info", mark := 5, renderer := .ofName "panel" }] :=
    .cons (.mk (.inr (by decide)) ⟨_, rfl⟩) .nil
  exact .cons (.runtime (by decide) ⟨_, rfl⟩) (.last (.lastRenderers hbalanced hentries))

lemma isArguments_repeatedArguments : repeatedArguments.IsArguments
    [.renderers [{ payload := "Info", mark := 11, renderer := .ofName "panel" }],
      .renderers [{ payload := "Info", mark := 4, renderer := .ofName "card" }]] := by
  have hbalanced : Code.IsBalanced (infoEntry "card") := rfl
  have hcard : Code.IsList (Code.IsEntry repeatedArguments.grammar 1) (infoEntry "card")
      [{ payload := "Info", mark := 4, renderer := .ofName "card" }] :=
    .last (.mk (.inr (by decide)) ⟨_, rfl⟩)
  have hpanel : Code.IsList (Code.IsEntry repeatedArguments.grammar 8) (infoEntry "panel")
      [{ payload := "Info", mark := 11, renderer := .ofName "panel" }] :=
    .last (.mk (.inr (by decide)) ⟨_, rfl⟩)
  exact .cons (.renderers rfl hpanel) (.last (.lastRenderers hbalanced hcard))

/-- The first arguments are accepted. In the others the second renderer for `Info` is the fault, and
its name is the fourth token from the end, in front of one more token. -/
theorem ofCode_panelArguments :
    panelArguments.IsBalanced ∧ repeatedArguments.IsBalanced ∧
      ofCode panelArguments 1 =
        .ok { runtime := some (.ofName "ui"), renderers := [("Info", .ofName "panel")] } ∧
      ofCode repeatedArguments 1 =
        .error { cause := .repeatedRenderer "Info", mark := 5 } := by
  have hpanel : panelArguments.IsBalanced := rfl
  have hrepeated : repeatedArguments.IsBalanced := rfl
  refine ⟨hpanel, hrepeated, ?_, ?_⟩
  · refine ((ofCode_accepts_arguments panelArguments hpanel 1).1 _).mpr
      ⟨_, isArguments_panelArguments, ⟨by decide, by decide, rfl, rfl⟩⟩
  · exact (ofCode_accepts_arguments repeatedArguments hrepeated 1).2.2 _
      isArguments_repeatedArguments (by decide) [_] _ [] rfl (by decide) (by decide)

end AttributeArguments

end UnionView
