import UnionView.Attribute.Arguments
import UnionView.Dispatch.Emission
import UnionView.Proofs.Grammar.WrittenPath
import UnionView.Proofs.Settings.Override
import UnionView.Settings.Loading

/-!
# The runtime that settings end up with

A runtime is chosen by a text, in a settings file or on its own, or by the arguments of an
attribute. A text is read as a plain path, but the value of an argument is read as an expression,
so only an attribute can choose a runtime with generic arguments. Such a runtime, and one that is
written with `Self`, is not a path that can be imported from (`Path.importCode`).
-/

namespace UnionView

open Reader

/-! ### Imports -/

namespace Path

/-- The import of the trait that dispatchers are made from stores with. -/
def importCode (runtime : Path) : Code :=
  wordCode "use" ++ (runtime.child "FromStore").code ++ wordCode "as" ++ wordCode "_" ++ opCode ";"

/-- All names of the path may stand in an import, and no name has arguments. -/
def IsImportable (p : Path) : Prop :=
  ∀ s ∈ p.segments, s.arguments = [] ∧ isImportName s.name = true

end Path

namespace Read

/-! ### The names of an import one by one -/

section UseTree

variable (g : Grammar) (allowRoot : Bool) {c : Cursor} {name : String} {rest : Code}

/-- A name in front of `::` is followed by another tree. -/
lemma useTree_of_separator (hname : Path.isImportName name = true)
    (hrest : c.rest = .ident name :: (Path.separator ++ rest)) :
    ∃ written, useTree g allowRoot c = g.useTree false { c with rest, written } := by
  obtain ⟨r, behind, before, leftover⟩ := c
  subst hrest
  refine ⟨Path.separator.reverse ++ .ident name :: before, ?_⟩
  unfold useTree
  rw [bind_of_ok (peekAny_apply _ _)]
  show (if Path.isImportName name = true then (_ : Reader Bool) else _) _ = _
  rw [if_pos hname]
  rfl

/-- A name in front of `as _` ends the tree. -/
lemma useTree_of_as (hname : Path.isImportName name = true)
    (hrest : c.rest = .ident name :: .ident "as" :: .ident "_" :: rest) :
    ∃ written, useTree g allowRoot c = .ok (true, { c with rest, written }) := by
  obtain ⟨r, behind, before, leftover⟩ := c
  subst hrest
  refine ⟨.ident "_" :: .ident "as" :: .ident name :: before, ?_⟩
  unfold useTree
  rw [bind_of_ok (peekAny_apply _ _)]
  show (if Path.isImportName name = true then (_ : Reader Bool) else _) _ = _
  rw [if_pos hname]
  rfl

lemma isImportName_of_useTree {r : Bool × Cursor} (hrest : c.rest = .ident name :: rest)
    (h : useTree g allowRoot c = .ok r) : Path.isImportName name = true := by
  obtain ⟨tokens, behind, before, leftover⟩ := c
  subst hrest
  by_contra hname
  unfold useTree at h
  rw [bind_of_ok (peekAny_apply _ _)] at h
  change (if Path.isImportName name = true then (_ : Reader Bool) else _) _ = _ at h
  rw [if_neg hname] at h
  exact unexpected_ne_ok _ _ _ h

/-- No tree of an import begins with an angle bracket. -/
lemma useTree_angle_ne_ok (r : Bool × Cursor) (hrest : c.rest = .punct '<' .alone :: rest) :
    useTree g allowRoot c ≠ .ok r := by
  obtain ⟨tokens, behind, before, leftover⟩ := c
  subst hrest
  exact unexpected_ne_ok _ _ _

end UseTree

/-! ### The path of an import -/

section Import

variable {c : Cursor} {first : PathSegment} {more : List PathSegment}
  {rest : Code}

lemma useTree_of_importable (allowRoot : Bool) {fuel : Nat} (hfuel : more.length ≤ fuel)
    (himport : ∀ s ∈ first :: more, s.arguments = [] ∧ Path.isImportName s.name = true)
    (hrest : c.rest = Path.segmentsCode (first :: more) ++ .ident "as" :: .ident "_" :: rest) :
    ∃ written, useTree (grammar fuel) allowRoot c = .ok (true, { c with rest, written }) := by
  obtain ⟨harguments, hname⟩ := himport first List.mem_cons_self
  induction more generalizing first fuel allowRoot c with
  | nil =>
    refine useTree_of_as _ _ hname ?_
    rw [hrest, Path.segmentsCode, PathSegment.code, harguments]
    rfl
  | cons next more ih =>
    obtain ⟨fuel, rfl⟩ :=
      Nat.exists_eq_succ_of_ne_zero (Nat.ne_of_gt (Nat.zero_lt_of_lt hfuel))
    have himport' := fun s hs => himport s (List.mem_cons_of_mem _ hs)
    rw [Path.segmentsCode_cons_cons, PathSegment.code, harguments, List.append_assoc,
      List.append_assoc] at hrest
    obtain ⟨written, htree⟩ := useTree_of_separator (grammar (fuel + 1)) allowRoot hname hrest
    obtain ⟨harguments', hname'⟩ := himport' next List.mem_cons_self
    rw [htree]
    exact ih _ (Nat.le_of_succ_le_succ hfuel) himport' rfl harguments' hname'

/-- A tree of an import does not begin with a name that has arguments. -/
lemma importable_of_useTree {allowRoot : Bool} {fuel : Nat} {r : Bool × Cursor}
    (hwritten : first.IsWritten) (hrest : c.rest = first.code ++ rest)
    (h : useTree (grammar fuel) allowRoot c = .ok r) :
    first.arguments = [] ∧ Path.isImportName first.name = true := by
  have hname : Path.isImportName first.name = true := isImportName_of_useTree _ _ hrest h
  refine ⟨?_, hname⟩
  obtain harguments | ⟨inner, harguments⟩ := hwritten.arguments
  · exact harguments
  · have hangle : c.rest =
        .ident first.name :: (Path.separator ++ (.punct '<' .alone :: (inner ++ rest))) := by
      rw [hrest, PathSegment.code, harguments]
      simp only [List.append_assoc, List.cons_append]
    obtain ⟨written, htree⟩ := useTree_of_separator (grammar fuel) allowRoot hname hangle
    rw [htree] at h
    cases fuel with
    | zero => exact absurd h (unexpected_ne_ok _ _ _)
    | succ fuel => exact absurd h (useTree_angle_ne_ok _ _ _ rfl)

lemma importable_of_useTree_segments {allowRoot : Bool} {fuel : Nat} {r : Bool × Cursor}
    (hwritten : ∀ s ∈ first :: more, s.IsWritten)
    (hrest : c.rest = Path.segmentsCode (first :: more) ++ rest)
    (h : useTree (grammar fuel) allowRoot c = .ok r) :
    ∀ s ∈ first :: more, s.arguments = [] ∧ Path.isImportName s.name = true := by
  have hfirst := hwritten first List.mem_cons_self
  induction more generalizing first fuel allowRoot c with
  | nil =>
    rw [List.forall_mem_singleton]
    exact importable_of_useTree hfirst hrest h
  | cons next more ih =>
    rw [Path.segmentsCode_cons_cons, List.append_assoc, List.append_assoc] at hrest
    obtain ⟨harguments, hname⟩ := importable_of_useTree hfirst hrest h
    have hwritten' := fun s hs => hwritten s (List.mem_cons_of_mem _ hs)
    refine List.forall_mem_cons.mpr ⟨⟨harguments, hname⟩, ?_⟩
    rw [PathSegment.code, harguments] at hrest
    obtain ⟨written, htree⟩ := useTree_of_separator (grammar fuel) allowRoot hname hrest
    rw [htree] at h
    cases fuel with
    | zero => exact absurd h (unexpected_ne_ok _ _ _)
    | succ fuel => exact ih hwritten' rfl h (hwritten' next List.mem_cons_self)

/-- How an import goes on behind its keyword and the `::` of a rooted path. -/
lemma useDeclaration_of_rest (g : Grammar) (start : Mark) (attributes : List Attribute)
    {rooted : Bool} {behind : Code} (hrest : c.rest = .ident "use" ::
      ((if rooted then Path.separator else []) ++ (.ident first.name :: behind))) :
    ∃ written, useDeclaration g start attributes c =
      (do
        let understood ← g.useTree (!rooted)
        operator ";"
        return if understood then Item.unnamed .useDeclaration attributes c.mark
          else Item.unclassified start)
      { c with rest := .ident first.name :: behind, written } := by
  obtain ⟨tokens, count, before, leftover⟩ := c
  subst hrest
  cases rooted with
  | true => exact ⟨Path.separator.reverse ++ .ident "use" :: before, rfl⟩
  | false => exact ⟨.ident "use" :: before, rfl⟩

end Import

end Read

/-! ### Whole imports -/

namespace Path

lemma exists_segmentsCode_cons (s : PathSegment) (more : List PathSegment) :
    ∃ behind, segmentsCode (s :: more) = .ident s.name :: behind := by
  cases more with
  | nil => exact ⟨_, rfl⟩
  | cons next more => exact ⟨_, rfl⟩

/-- The code of an import behind its keyword and the `::` of a rooted path. -/
def importBehind (runtime : Path) : Code :=
  segmentsCode (runtime.first :: (runtime.more ++ [{ name := "FromStore" }])) ++
    [.ident "as", .ident "_", .punct ';' .alone]

lemma importCode_eq (runtime : Path) : runtime.importCode =
    .ident "use" :: ((if runtime.rooted then separator else []) ++ runtime.importBehind) := by
  unfold importCode importBehind code
  simp [segments, child, wordCode, opCode, operatorCode]
  rfl

/-- An import is read from its tree of names. -/
lemma importCode_item? (runtime : Path) : ∃ written,
    runtime.importCode.item? = run (afresh fun _ =>
      (do
        let understood ← Read.useTree (grammar (8 * runtime.importCode.length + 62)) !runtime.rooted
        operator ";"
        return if understood then Item.unnamed .useDeclaration [] runtime.importCode.length
          else Item.unclassified runtime.importCode.length)
      { rest := runtime.importBehind, written }) runtime.importCode := by
  obtain ⟨behind, hbehind⟩ := exists_segmentsCode_cons runtime.first
    (runtime.more ++ [{ name := "FromStore" }])
  let c : Cursor := { rest := runtime.importCode }
  have hrest : c.rest = .ident "use" :: ((if runtime.rooted then separator else []) ++
      (.ident runtime.first.name :: (behind ++ [.ident "as", .ident "_", .punct ';' .alone]))) := by
    show runtime.importCode = _
    rw [importCode_eq, importBehind, hbehind, List.cons_append]
  obtain ⟨written, hdeclared⟩ := Read.useDeclaration_of_rest
    (grammar (8 * runtime.importCode.length + 63)) runtime.importCode.length [] hrest
  refine ⟨written, ?_⟩
  have hstart : runtime.importCode.item? = run (afresh
      (Read.useDeclaration (grammar (8 * runtime.importCode.length + 63))
        runtime.importCode.length [])) runtime.importCode := by
    rw [importCode_eq]
    rfl
  rw [hstart]
  unfold run afresh
  rw [hdeclared, importBehind, hbehind]
  rfl

lemma forall_mem_snoc {runtime : Path} {P : PathSegment → Prop} {last : PathSegment}
    (h : ∀ s ∈ runtime.segments, P s) (hlast : P last) :
    ∀ s ∈ runtime.first :: (runtime.more ++ [last]), P s := by
  intro s hs
  rw [← List.cons_append] at hs
  obtain hs | hs := List.mem_append.mp hs
  · exact h s hs
  · rw [List.mem_singleton.mp hs]
    exact hlast

/-- An import is read as a declaration exactly if no segment of its path has generic arguments or
is `Self`. -/
lemma importCode_item?_iff {runtime : Path} (hwritten : runtime.IsWritten) :
    (∃ item, runtime.importCode.item? = .ok item) ↔ runtime.IsImportable := by
  obtain ⟨written, hitem⟩ := importCode_item? runtime
  have hstore : isImportName "FromStore" = true := by decide
  constructor
  · rintro ⟨item, hread⟩
    rw [hitem] at hread
    obtain ⟨c, hafresh, -, -⟩ := run_eq_ok_iff.mp hread
    obtain ⟨d, hrest, -⟩ := afresh_eq_ok_iff.mp hafresh
    obtain ⟨understood, c', htree, -⟩ := bind_eq_ok.mp hrest
    have himport := Read.importable_of_useTree_segments
      (forall_mem_snoc hwritten ⟨.inr hstore, .inl rfl⟩) rfl htree
    exact fun s hs => himport s (List.mem_append_left _ hs)
  · intro himport
    have hfuel : (runtime.more ++ [{ name := "FromStore" : PathSegment }]).length ≤
        8 * runtime.importCode.length + 62 := by
      have hlt := length_lt_segmentsCode (runtime.more ++ [{ name := "FromStore" }]) runtime.first
      rw [importCode_eq, importBehind]
      simp only [List.length_cons, List.length_append] at hlt ⊢
      omega
    obtain ⟨written', htree⟩ := Read.useTree_of_importable (!runtime.rooted)
      (c := { rest := runtime.importBehind, written }) hfuel
      (forall_mem_snoc himport ⟨rfl, hstore⟩) rfl
    refine ⟨.unnamed .useDeclaration [] runtime.importCode.length, ?_⟩
    rw [hitem]
    unfold run afresh
    rw [bind_of_ok htree]
    rfl

/-- What makes a path that was read one that can be imported from. -/
lemma IsWritten.isImportable_iff {p : Path} (h : p.IsWritten) :
    p.IsImportable ↔ p.isPlain = true ∧ ∀ s ∈ p.segments, s.name ≠ "Self" := by
  have hself : isImportName "Self" = false := by decide
  unfold IsImportable isPlain
  rw [List.all_eq_true, ← forall₂_and]
  refine forall₂_congr fun s hs => ?_
  rw [List.isEmpty_iff]
  refine and_congr_right fun _ => ⟨fun hname heq => ?_, fun hne => ?_⟩
  · rw [heq, hself] at hname
    cases hname
  · exact (h s hs).name.resolve_left hne

lemma isWritten_defaultRuntime : defaultRuntime.IsWritten := by
  refine List.forall_mem_singleton.mpr ⟨.inr ?_, .inl rfl⟩
  decide

/-- A plain path is a path as it is read in an expression, too. -/
lemma isWritten_of_isPlain {p : Path} (h : ∀ s ∈ p.segments, s.IsPlain) : p.IsWritten := by
  intro s hs
  obtain ⟨harguments, hfits⟩ := h s hs
  refine ⟨?_, .inl harguments⟩
  simp only [segmentStarts, isImportName, importStarts, List.any_cons, List.any_nil, Terminal.fits,
    Bool.or_false, Bool.or_eq_true, beq_iff_eq] at hfits ⊢
  obtain h | h | h | h | h := hfits
  · exact .inr (.inl h)
  · exact .inr (.inr (.inr (.inl h)))
  · exact .inr (.inr (.inl h))
  · exact .inl h
  · exact .inr (.inr (.inr (.inr (.inl h))))

lemma isPlain_of_ofText {text : String} {p : Path} (h : ofText text = .ok p) :
    ∀ s ∈ p.segments, s.IsPlain := by
  unfold ofText at h
  split at h
  · rename_i hread
    cases h
    exact (isSound_of_readText hread).1
  · cases h

end Path

/-! ### The arguments of an attribute -/

lemma Form.isWritten_of_pathAt {form : Form} {value : Mark} {p : Path} (hform : form.IsWritten)
    (h : form.pathAt value = .ok p) : p.IsWritten := by
  unfold pathAt at h
  split at h
  · cases h
    exact hform p rfl
  · cases h

lemma Meta.isWritten_of_value? {m : Meta} {name : String} {value : Mark} {form : Form}
    (hm : m.form.IsWritten) (h : m.value? name = .ok (value, form)) : form.IsWritten := by
  unfold value? at h
  split at h
  · cases h
  · cases h
  · rename_i hform
    cases h
    exact hm _ _ _ hform

namespace WrittenArguments

/-- If a runtime was chosen, its segments are written ones. -/
def HasWrittenRuntime (a : WrittenArguments) : Prop :=
  ∀ p, a.runtime = some p → p.IsWritten

/-- One more argument keeps the runtime or chooses one that was read as an expression. -/
lemma hasWrittenRuntime_add {g : Grammar} {a b : WrittenArguments} {m : Meta}
    (ha : a.HasWrittenRuntime) (hm : m.form.IsWritten) (h : a.add g m = .ok b) :
    b.HasWrittenRuntime := by
  unfold add at h
  split at h
  · obtain ⟨⟨value, form⟩, hvalue, h⟩ := Except.bind_eq_ok_iff.mp h
    dsimp only at h
    split at h
    · cases h
    · obtain ⟨p, hpath, h⟩ := Except.bind_eq_ok_iff.mp h
      obtain rfl := Except.pure_eq_ok_iff.mp h
      rintro _ ⟨⟩
      exact Form.isWritten_of_pathAt (Meta.isWritten_of_value? hm hvalue) hpath
  · split at h
    · obtain ⟨renderers, -, h⟩ := Except.bind_eq_ok_iff.mp h
      obtain rfl := Except.pure_eq_ok_iff.mp h
      exact ha
    · cases h

lemma hasWrittenRuntime_foldlM {g : Grammar} {metas : List Meta} {a b : WrittenArguments}
    (ha : a.HasWrittenRuntime) (hmetas : ∀ m ∈ metas, m.form.IsWritten)
    (h : metas.foldlM (add g) a = .ok b) : b.HasWrittenRuntime := by
  induction metas generalizing a with
  | nil =>
    cases h
    exact ha
  | cons m metas ih =>
    rw [List.foldlM_cons] at h
    obtain ⟨next, hnext, hrest⟩ := Except.bind_eq_ok_iff.mp h
    obtain ⟨hm, hmetas⟩ := List.forall_mem_cons.mp hmetas
    exact ih (hasWrittenRuntime_add ha hm hnext) hmetas hrest

end WrittenArguments

namespace AttributeArguments

/-- A runtime that the arguments of an attribute choose was read as an expression. -/
lemma isWritten_runtime {code : Code} {behind : Nat} {a : AttributeArguments} {p : Path}
    (h : ofCode code behind = .ok a) (hruntime : a.runtime = some p) : p.IsWritten := by
  obtain ⟨c, hread, -, -⟩ := run_eq_ok_iff.mp (Except.mapError_eq_ok_iff.mp h)
  obtain ⟨metas, c', hmetas, hread⟩ := bind_eq_ok.mp hread
  obtain ⟨written, hwritten, hread⟩ := Except.bind_eq_ok_iff.mp hread
  obtain ⟨checked, hchecked, ⟨⟩⟩ := Except.bind_eq_ok_iff.mp hread
  have hforms := (Read.meta?_isWritten _ (hasWrittenPaths_grammar _)).separatedBy "," hmetas
  have hnone : WrittenArguments.HasWrittenRuntime {} := by
    rintro _ ⟨⟩
  refine WrittenArguments.hasWrittenRuntime_foldlM hnone hforms hwritten p ?_
  rw [← hruntime]
  unfold WrittenArguments.checked at hchecked
  split at hchecked
  · cases hchecked
  · cases hchecked
    rfl

/-- Arguments choose the runtime and register the renderers. -/
lemma applyTo_eq (a : AttributeArguments) (base : Settings) : a.applyTo base =
    { runtime := a.runtime.getD base.runtime
      renderers := base.renderers.insertAll a.renderers } := by
  have hrenderers (entries : List (String × Path)) (s : Settings) :
      entries.foldl (fun s entry => s.withRenderer entry.1 entry.2) s =
        { s with renderers := s.renderers.insertAll entries } := by
    induction entries generalizing s with
    | nil => rfl
    | cons entry entries ih => exact ih _
  unfold applyTo
  rw [hrenderers]
  cases a.runtime <;> rfl

@[simp] lemma runtime_applyTo (a : AttributeArguments) (s : Settings) :
    (a.applyTo s).runtime = a.runtime.getD s.runtime := by
  rw [applyTo_eq]

end AttributeArguments

/-! ### Layers of settings -/

inductive RuntimeChoice
  | default
  | text (text : String)
  | argument (path : Path)

def RuntimeChoice.Gives : RuntimeChoice → Path → Prop
  | default, p => p = defaultRuntime
  | text t, p => Path.ofText t = .ok p
  | argument q, p => p = q

namespace Settings

/-- Settings that users arrive at, laying one thing over the other, with the runtime that they
chose last. The settings of a file are where they begin, if not with the default. -/
inductive Layered : RuntimeChoice → Settings → Prop
  | default : Layered .default {}
  | file {file : SettingsFile} {s : Settings} (build : file.build = .ok s) :
      Layered (file.runtime.elim .default .text) s
  | text {choice : RuntimeChoice} {s t : Settings} {runtime : String} (base : Layered choice s)
      (accepted : s.withRuntimeText runtime = .ok t) : Layered (.text runtime) t
  | arguments {choice : RuntimeChoice} {s : Settings} {code : Code} {behind : Nat}
      {a : AttributeArguments} (base : Layered choice s)
      (accepted : AttributeArguments.ofCode code behind = .ok a) :
      Layered (a.runtime.elim choice .argument) (a.applyTo s)
  | renderer {choice : RuntimeChoice} {s : Settings} (payload : String) (renderer : Path)
      (base : Layered choice s) : Layered choice (s.withRenderer payload renderer)
  | renderers {choice : RuntimeChoice} {s : Settings} (renderers : Renderers)
      (base : Layered choice s) : Layered choice (s.withRenderers renderers)

end Settings

/-- What is known of a runtime from the way in which it was chosen. -/
structure RuntimeChoice.Explains (choice : RuntimeChoice) (runtime : Path) : Prop where
  gives : choice.Gives runtime
  written : runtime.IsWritten
  plain : (∀ p, choice ≠ .argument p) → runtime.isPlain = true

namespace RuntimeChoice

lemma explains_default : default.Explains defaultRuntime :=
  ⟨rfl, Path.isWritten_defaultRuntime, fun _ => by decide⟩

/-- A runtime that a text names is plain. -/
lemma explains_text {t : String} {p : Path} (h : Path.ofText t = .ok p) : (text t).Explains p := by
  have hplain := Path.isPlain_of_ofText h
  refine ⟨h, Path.isWritten_of_isPlain hplain, fun _ => ?_⟩
  refine List.all_eq_true.mpr fun s hs => ?_
  rw [(hplain s hs).arguments]
  rfl

/-- Of a runtime that an argument names it is only known that it was read as an expression. -/
lemma explains_argument {p : Path} (h : p.IsWritten) : (argument p).Explains p :=
  ⟨rfl, h, fun hne => absurd rfl (hne p)⟩

end RuntimeChoice

namespace Settings

/-- Every layer keeps the runtime or chooses one. -/
lemma Layered.explains {choice : RuntimeChoice} {s : Settings} (h : Layered choice s) :
    choice.Explains s.runtime := by
  induction h with
  | default => exact RuntimeChoice.explains_default
  | @file file s build =>
    obtain ⟨hnamed, hdefault, -⟩ :=
      SettingsFile.settings?_eq_ok (Except.mapError_eq_ok_iff.mp build)
    cases hruntime : file.runtime with
    | none =>
      rw [hdefault hruntime]
      exact RuntimeChoice.explains_default
    | some text => exact RuntimeChoice.explains_text (hnamed text hruntime)
  | text base accepted =>
    obtain ⟨path, hread, accepted⟩ := Except.bind_eq_ok_iff.mp accepted
    obtain rfl := Except.pure_eq_ok_iff.mp accepted
    exact RuntimeChoice.explains_text (SettingsFile.ofText_of_readRuntime hread)
  | @arguments choice s code behind a base accepted ih =>
    rw [AttributeArguments.runtime_applyTo]
    cases hruntime : a.runtime with
    | none => exact ih
    | some p =>
      exact RuntimeChoice.explains_argument (AttributeArguments.isWritten_runtime accepted hruntime)
  | renderer payload renderer base ih => exact ih
  | renderers renderers base ih => exact ih

end Settings

/-! ### The import in the generated code -/

lemma infix_groupCode (d : Delimiter) {code inner : Code} (h : code <:+: inner) :
    code <:+: groupCode d inner :=
  h.trans ⟨[.opening d], [.closing d], rfl⟩

/-- The generated code imports from the runtime. -/
lemma TaggedUnion.importCode_infix_emit (u : TaggedUnion) (dispatch : Dispatch)
    (s : Settings) : s.runtime.importCode <:+: (u.emit dispatch s).code := by
  let e : Emission := { runtime := s.runtime, union := u, dispatch }
  have hbody : s.runtime.importCode <:+: allowCode "unused_imports" ++ s.runtime.importCode ++
      (dispatch.body u.name).code s.runtime := ⟨_, _, rfl⟩
  have hview : s.runtime.importCode <:+: e.viewCode := by
    refine (infix_groupCode .curly ?_).trans (List.suffix_append _ _).isInfix
    refine (infix_groupCode .curly ?_).trans (List.suffix_append _ _).isInfix
    simpa only [Path.importCode, List.append_assoc] using hbody
  have hcode : e.viewCode <:+: e.code := ⟨e.structCode ++ e.fromStoreCode, e.hasViewCode, rfl⟩
  exact hview.trans hcode

/-- The runtime of settings is the one that was chosen last. It is a plain path unless an attribute
has chosen it, and the generated code can import from it exactly if it is plain and does not contain
`Self`. -/
theorem runtime_of_layers {choice : RuntimeChoice} {s : Settings} (h : s.Layered choice) :
    choice.Gives s.runtime ∧
      ((∀ p, choice ≠ .argument p) → s.runtime.isPlain = true) ∧
      (∀ (u : TaggedUnion) (dispatch : Dispatch),
        s.runtime.importCode <:+: (u.emit dispatch s).code) ∧
      ((∃ item, s.runtime.importCode.item? = .ok item) ↔
        s.runtime.isPlain = true ∧ ∀ segment ∈ s.runtime.segments, segment.name ≠ "Self") := by
  obtain ⟨hgives, hwritten, hplain⟩ := h.explains
  refine ⟨hgives, hplain, fun u dispatch => u.importCode_infix_emit dispatch s, ?_⟩
  rw [Path.importCode_item?_iff hwritten, hwritten.isImportable_iff]

/-- The arguments `runtime = ui::<u8>`. -/
def genericRuntimeCode : Code :=
  [.ident "runtime", .punct '=' .alone, .ident "ui", .punct ':' .joint, .punct ':' .joint,
    .punct '<' .alone, .ident "u8", .punct '>' .alone]

/-- The runtime that these arguments choose. -/
def genericRuntime : Path :=
  { first := { name := "ui", arguments := [.punct ':' .joint, .punct ':' .alone,
      .punct '<' .alone, .ident "u8", .punct '>' .alone] } }

/-- An attribute chooses this runtime although the settings have a plain one, and nothing can be
imported from it. -/
theorem runtime_of_genericArgument : ∃ s : Settings,
    s.Layered (.argument genericRuntime) ∧ s.runtime = genericRuntime ∧
      s.runtime.isPlain = false ∧ ¬∃ item, s.runtime.importCode.item? = .ok item := by
  have hbuild : ((SettingsFile.build { runtime := some "ui::kit" }).toOption).isSome = true := by
    decide +kernel
  have harguments : (AttributeArguments.ofCode genericRuntimeCode).toOption =
      some { runtime := some genericRuntime } := by
    decide +kernel
  obtain ⟨base, hbase⟩ := Option.isSome_iff_exists.mp hbuild
  have hlayered := (Settings.Layered.file (Except.toOption_eq_some_iff.mp hbase)).arguments
    (Except.toOption_eq_some_iff.mp harguments)
  obtain ⟨hgives, -, -, himport⟩ := runtime_of_layers hlayered
  have hgeneric : genericRuntime.isPlain = false := by decide
  have hruntime : (AttributeArguments.applyTo { runtime := some genericRuntime } base).runtime =
      genericRuntime := hgives
  refine ⟨_, hlayered, hruntime, ?_, ?_⟩
  · rw [hruntime, hgeneric]
  · rw [himport, hruntime, hgeneric]
    nofun

end UnionView
