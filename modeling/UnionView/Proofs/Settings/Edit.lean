import UnionView.Proofs.NameMap
import UnionView.Proofs.Settings.Override

/-!
# Editing a settings file

An edit names a runtime or assigns a renderer. What it is given is read before anything is written,
so an edit that is refused leaves the file as it was (`Edit.run_eq_error_iff`), and one that is
accepted changes one entry (`Edit.applyTo_eq_ok_iff`). What is written down can be read again, so a
file that can be built can be built after any edits, and a file that holds nothing but edits builds
what these edits chose (`edits_of_file`).
-/

namespace UnionView

namespace Edit

/-- The edit changes the one file into the other: the runtime is the text it is given, or the one
entry of its payload is what the path is printed as. What was written down is read as what the edit
chose. -/
inductive Changes : Edit → SettingsFile → SettingsFile → Prop
  | runtime {text : String} {path : Path} {file : SettingsFile}
      (chosen : (Edit.runtime text).read = .ok (.runtime path))
      (again : Path.ofText text = .ok path) :
      Changes (.runtime text) file { file with runtime := some text }
  | renderer {text payload : String} {path : Path} {file after : SettingsFile}
      (chosen : (Edit.renderer text).read = .ok (.renderer payload path))
      (again : readRenderer payload path.text = .ok (payload, path))
      (kept : after.runtime = file.runtime)
      (entry : after.renderers.get? payload = some path.text)
      (others : ∀ other, other ≠ payload →
        after.renderers.get? other = file.renderers.get? other) :
      Changes (.renderer text) file after

variable {e : Edit} {file after : SettingsFile}

/-! ### One edit -/

/-- Editing in place leaves behind the file with the edit, or the file that was there. -/
lemma run_eq (e : Edit) (file : SettingsFile) : e.run file =
    match e.applyTo file with
    | .ok after => .ok () after
    | .error cause => .error cause file := by
  cases e with
  | runtime text =>
    simp only [run, applyTo, SettingsFile.setRuntime]
    cases readRuntime text <;> rfl
  | renderer text =>
    simp only [run, applyTo, SettingsFile.setRenderer]
    cases readAssignment text <;> rfl

lemma run_eq_ok_iff : e.run file = .ok () after ↔ e.applyTo file = .ok after := by
  rw [run_eq]
  cases e.applyTo file <;> simp

/-- Whether an edit is refused is a matter of its text. -/
lemma applyTo_eq_error_iff {cause : InvalidSettings} :
    e.applyTo file = .error cause ↔ e.read = .error cause := by
  cases e with
  | runtime text =>
    simp only [applyTo, read, SettingsFile.setRuntime]
    cases readRuntime text <;> simp [bind, Except.bind, pure, Except.pure, Except.map]
  | renderer text =>
    simp only [applyTo, read, SettingsFile.setRenderer]
    cases readAssignment text <;> simp [bind, Except.bind, pure, Except.pure, Except.map]

/-- When an edit is refused nothing is written. -/
lemma run_eq_error_iff {cause : InvalidSettings} :
    e.run file = .error cause after ↔ e.read = .error cause ∧ after = file := by
  have hrefused : e.applyTo file = .error cause ↔ e.read = .error cause := applyTo_eq_error_iff
  rw [run_eq, ← hrefused]
  cases e.applyTo file <;> simp [eq_comm]

lemma read_runtime_eq_ok_iff {text : String} {choice : Choice} :
    (Edit.runtime text).read = .ok choice ↔
      ∃ path, readRuntime text = .ok path ∧ choice = .runtime path := by
  simp only [read]
  cases readRuntime text <;> simp [Except.map, eq_comm]

lemma read_renderer_eq_ok_iff {text : String} {choice : Choice} :
    (Edit.renderer text).read = .ok choice ↔ ∃ payload path,
      readAssignment text = .ok (payload, path) ∧ choice = .renderer payload path := by
  simp only [read]
  cases readAssignment text <;> simp [Except.map, Prod.ext_iff, eq_comm]

/-- What was read as an assignment is read again from the name and the text of the path. -/
lemma readRenderer_of_readAssignment {text payload : String} {path : Path}
    (h : readAssignment text = .ok (payload, path)) :
    readRenderer payload path.text = .ok (payload, path) := by
  simp only [readAssignment] at h
  split at h
  · cases h
  · exact readRenderer_text h

/-- An edit that is accepted changes the runtime, or the one entry of its payload. -/
lemma changes_of_applyTo (h : e.applyTo file = .ok after) : e.Changes file after := by
  cases e with
  | runtime text =>
    obtain ⟨path, hread, hafter⟩ := Except.bind_eq_ok_iff.mp h
    cases hafter
    apply Changes.runtime
    · exact read_runtime_eq_ok_iff.mpr ⟨path, hread, rfl⟩
    · exact SettingsFile.ofText_of_readRuntime hread
  | renderer text =>
    obtain ⟨⟨payload, path⟩, hread, hafter⟩ := Except.bind_eq_ok_iff.mp h
    cases hafter
    apply Changes.renderer
    · exact read_renderer_eq_ok_iff.mpr ⟨payload, path, hread, rfl⟩
    · exact readRenderer_of_readAssignment hread
    · rfl
    · exact NameMap.get?_insert_self _ _ _
    · intro other hother
      exact NameMap.get?_insert_of_ne _ hother _

/-- The file that an accepted assignment leaves behind. -/
lemma Changes.eq_insert {text payload : String} {path : Path}
    (h : (Edit.renderer text).Changes file after)
    (chosen : (Edit.renderer text).read = .ok (.renderer payload path)) :
    after = { file with renderers := file.renderers.insert payload path.text } := by
  cases h with
  | renderer chosen' again kept entry others =>
    cases chosen'.symm.trans chosen
    -- the two maps give the same to every name
    have hrenderers : after.renderers = file.renderers.insert payload path.text := by
      apply NameMap.ext_get?
      intro name
      by_cases hname : name = payload
      · rw [hname, NameMap.get?_insert_self, entry]
      · rw [NameMap.get?_insert_of_ne _ hname, others name hname]
    cases after
    cases kept
    cases hrenderers
    rfl

/-- What an edit changes says which file is left behind. -/
lemma applyTo_of_changes (h : e.Changes file after) : e.applyTo file = .ok after := by
  cases h with
  | runtime chosen again =>
    obtain ⟨path, hread, -⟩ := read_runtime_eq_ok_iff.mp chosen
    exact Except.bind_eq_ok_iff.mpr ⟨path, hread, rfl⟩
  | renderer chosen again kept entry others =>
    rw [Changes.eq_insert (.renderer chosen again kept entry others) chosen]
    obtain ⟨payload, path, hread, hchoice⟩ := read_renderer_eq_ok_iff.mp chosen
    cases hchoice
    exact Except.bind_eq_ok_iff.mpr ⟨_, hread, rfl⟩

lemma applyTo_eq_ok_iff : e.applyTo file = .ok after ↔ e.Changes file after :=
  ⟨changes_of_applyTo, applyTo_of_changes⟩

end Edit

namespace SettingsFile

variable {file after : SettingsFile} {e : Edit} {s : Settings}

/-! ### Files that can be built -/

/-- All texts of the file can be read. -/
structure IsValid (file : SettingsFile) : Prop where
  runtime : ∀ text, file.runtime = some text → ∃ path, readRuntime text = .ok path
  renderers : ∀ entry ∈ file.renderers.entries, ∃ r, readRenderer entry.1 entry.2 = .ok r

lemma exists_foldlM_iff (entries : List (String × String)) (base : Settings) :
    (∃ s, entries.foldlM (fun settings entry => do
      let (payload, renderer) ← readRenderer entry.1 entry.2
      return settings.withRenderer payload renderer) base = .ok s) ↔
      ∀ entry ∈ entries, ∃ r, readRenderer entry.1 entry.2 = .ok r := by
  induction entries generalizing base with
  | nil => exact ⟨fun _ => by simp, fun _ => ⟨base, rfl⟩⟩
  | cons entry rest ih =>
    simp only [List.foldlM_cons, List.forall_mem_cons]
    cases hread : readRenderer entry.1 entry.2 with
    | error cause => simp [bind, Except.bind]
    | ok r =>
      have hrest := ih (base.withRenderer r.1 r.2)
      simpa [bind, Except.bind, pure, Except.pure] using hrest

/-- Settings can be built exactly of a file all texts of which can be read. -/
lemma exists_settings?_iff : (∃ s, file.settings? = .ok s) ↔ file.IsValid := by
  cases hruntime : file.runtime with
  | none =>
    have hiff := exists_foldlM_iff file.renderers.entries {}
    simp only [settings?, hruntime]
    constructor
    · intro h
      exact ⟨by simp [hruntime], hiff.mp h⟩
    · intro h
      exact hiff.mpr h.renderers
  | some text =>
    simp only [settings?, hruntime, Settings.withRuntimeText]
    cases hread : readRuntime text with
    | error cause =>
      constructor
      · rintro ⟨s, h⟩
        cases h
      · intro h
        obtain ⟨path, hpath⟩ := h.runtime text hruntime
        rw [hread] at hpath
        cases hpath
    | ok path =>
      have hiff := exists_foldlM_iff file.renderers.entries (Settings.withRuntime {} path)
      constructor
      · intro h
        refine ⟨fun text' htext => ⟨path, ?_⟩, hiff.mp h⟩
        cases hruntime.symm.trans htext
        exact hread
      · intro h
        exact hiff.mpr h.renderers

lemma edited_of_changes (h : e.Changes file after) : file.edited e = after := by
  simp only [edited, Edit.run_eq_ok_iff.mpr (Edit.applyTo_of_changes h)]

lemma edited_of_refused {cause : InvalidSettings} (h : e.read = .error cause) :
    file.edited e = file := by
  simp only [edited, Edit.run_eq_error_iff.mpr ⟨h, rfl⟩]

lemma changes_or_refused (file : SettingsFile) (e : Edit) :
    (∃ after, e.Changes file after) ∨ ∃ cause, e.read = .error cause := by
  cases h : e.run file with
  | ok _ after => exact .inl ⟨after, Edit.changes_of_applyTo (Edit.run_eq_ok_iff.mp h)⟩
  | error cause after => exact .inr ⟨cause, (Edit.run_eq_error_iff.mp h).1⟩

/-- A file that can be built can be built after an edit. -/
lemma IsValid.edited (h : file.IsValid) (e : Edit) : (file.edited e).IsValid := by
  rcases changes_or_refused file e with ⟨after, hchanges⟩ | ⟨cause, hrefused⟩
  · rw [edited_of_changes hchanges]
    cases hchanges with
    | runtime chosen again =>
      constructor
      · rintro _ ⟨⟩
        obtain ⟨path, hread, -⟩ := Edit.read_runtime_eq_ok_iff.mp chosen
        exact ⟨path, hread⟩
      · exact h.renderers
    | @renderer text payload path _ _ chosen again kept entry others =>
      constructor
      · rw [kept]
        exact h.runtime
      · intro found hfound
        rw [Edit.Changes.eq_insert (.renderer chosen again kept entry others) chosen] at hfound
        rcases NameMap.mem_insertInto hfound with rfl | hfound
        · exact ⟨_, again⟩
        · exact h.renderers found hfound
  · rwa [edited_of_refused hrefused]

lemma IsValid.editedBy (h : file.IsValid) (edits : List Edit) : (file.editedBy edits).IsValid := by
  induction edits generalizing file with
  | nil => exact h
  | cons e edits ih => exact ih (h.edited e)

/-! ### Files that hold nothing but edits -/

/-- Every key is the name that it is read as. -/
def IsCanonical (file : SettingsFile) : Prop :=
  ∀ entry ∈ file.renderers.entries, ∃ path, readRenderer entry.1 entry.2 = .ok (entry.1, path)

/-- Behind a name there is no other key that is read as this name. -/
lemma IsCanonical.laterRenderer?_eq_none (h : file.IsCanonical) (payload : String) :
    file.laterRenderer? payload = none := by
  simp only [laterRenderer?, lastRenderer?, List.findSome?_eq_none_iff, List.mem_reverse,
    List.mem_filter, decide_eq_true_eq]
  rintro entry ⟨hentry, hlater⟩
  obtain ⟨path, hread⟩ := h entry hentry
  rw [entryRenderer?_of_ok hread, if_neg]
  intro hname
  rw [hname] at hlater
  exact String.lt_irrefl _ hlater

/-- Files with one runtime build settings with one runtime. -/
lemma runtime_unique {s' : Settings} (h : file.settings? = .ok s) (h' : after.settings? = .ok s')
    (kept : after.runtime = file.runtime) : s'.runtime = s.runtime := by
  obtain ⟨hwritten, hdefault, -⟩ := settings?_eq_ok h
  obtain ⟨hwritten', hdefault', -⟩ := settings?_eq_ok h'
  cases hruntime : file.runtime with
  | none => rw [hdefault hruntime, hdefault' (kept.trans hruntime)]
  | some text =>
    have hpath := hwritten text hruntime
    rw [hwritten' text (kept.trans hruntime)] at hpath
    exact Except.ok.inj hpath

lemma settings_ext {s' : Settings} (runtime : s.runtime = s'.runtime)
    (renderers : ∀ payload, s.renderers.get? payload = s'.renderers.get? payload) : s = s' := by
  have hmap := NameMap.ext_get? renderers
  cases s
  cases s'
  cases runtime
  cases hmap
  rfl

/-- Of a file with canonical keys an accepted edit makes another one, which builds the settings
with what the edit chose. -/
lemma IsCanonical.of_changes (h : file.IsCanonical) (built : file.settings? = .ok s)
    (changes : e.Changes file after) :
    after.IsCanonical ∧ ∃ choice, e.read = .ok choice ∧
      after.settings? = .ok (choice.applyTo s) := by
  have hvalid : (file.edited e).IsValid := (exists_settings?_iff.mp ⟨s, built⟩).edited e
  rw [edited_of_changes changes] at hvalid
  obtain ⟨s', hbuilt⟩ := exists_settings?_iff.mpr hvalid
  obtain ⟨-, -, hbefore⟩ := settings?_eq_ok built
  obtain ⟨hwritten, -, hafter⟩ := settings?_eq_ok hbuilt
  cases changes with
  | @runtime text path _ chosen again =>
    refine ⟨h, .runtime path, chosen, ?_⟩
    rw [hbuilt]
    congr 1
    apply settings_ext
    · have hpath := hwritten text rfl
      rw [again] at hpath
      exact (Except.ok.inj hpath).symm
    · intro payload
      rw [hafter]
      exact (hbefore payload).symm
  | @renderer text payload path _ _ chosen again kept entry others =>
    obtain rfl := Edit.Changes.eq_insert (.renderer chosen again kept entry others) chosen
    constructor
    · intro found hfound
      rcases NameMap.mem_insertInto hfound with rfl | hfound
      · exact ⟨path, again⟩
      · exact h found hfound
    refine ⟨.renderer payload path, chosen, ?_⟩
    rw [hbuilt]
    congr 1
    apply settings_ext
    · have hruntime := runtime_unique built hbuilt rfl
      exact hruntime
    · intro name
      simp only [hafter, Choice.applyTo, Settings.withRenderer]
      by_cases hname : name = payload
      · subst hname
        have hlast := lastRenderer?_insertInto again file.renderers.ordered
        have hlater : lastRenderer? name (file.renderers.entries.filter fun entry =>
            decide (name < entry.1)) = none := h.laterRenderer?_eq_none name
        rw [hlater, Option.getD_none] at hlast
        rw [NameMap.get?_insert_self]
        exact hlast
      · have hothers := lastRenderer?_insertInto_of_ne again hname path.text (fun _ => true)
          file.renderers.entries
        simp only [List.filter_true] at hothers
        rw [NameMap.get?_insert_of_ne _ hname, hbefore]
        exact hothers

/-- Edits that are made one after the other to a file with canonical keys add what they choose to
the settings that it builds. -/
lemma IsCanonical.editedBy (h : file.IsCanonical) (built : file.settings? = .ok s)
    (edits : List Edit) :
    (file.editedBy edits).settings? =
      .ok ((edits.filterMap (·.read.toOption)).foldl (fun s choice => choice.applyTo s) s) := by
  induction edits generalizing file s with
  | nil => exact built
  | cons e edits ih =>
    rcases changes_or_refused file e with ⟨after, hchanges⟩ | ⟨cause, hrefused⟩
    · obtain ⟨hcanonical, choice, hread, hbuilt⟩ := h.of_changes built hchanges
      have hedited : file.editedBy (e :: edits) = after.editedBy edits := by
        simp only [SettingsFile.editedBy, List.foldl_cons, edited_of_changes hchanges]
      simp only [hedited, ih hcanonical hbuilt, List.filterMap_cons, hread, Except.toOption,
        List.foldl_cons]
    · have hedited : file.editedBy (e :: edits) = file.editedBy edits := by
        simp only [SettingsFile.editedBy, List.foldl_cons, edited_of_refused hrefused]
      simp only [hedited, ih h built, List.filterMap_cons, hrefused, Except.toOption]

/-- An edit that is refused leaves the file as it was, and one that is accepted changes the runtime
or the one entry of its payload, whatever file it is made to. A file that can be built can be built
after any edits. A file that holds nothing but edits builds the settings by default with what the
accepted edits chose, one after the other. -/
theorem edits_of_file (file : SettingsFile) (edits : List Edit) :
    (∀ (e : Edit) (current after : SettingsFile),
        (∀ cause, e.run current = .error cause after ↔ e.read = .error cause ∧ after = current) ∧
        (e.run current = .ok () after ↔ e.applyTo current = .ok after) ∧
        (e.applyTo current = .ok after ↔ e.Changes current after)) ∧
      (∀ s, file.settings? = .ok s → ∃ s', (file.editedBy edits).settings? = .ok s') ∧
      (editedBy {} edits).settings? =
        .ok ((edits.filterMap (·.read.toOption)).foldl (fun s choice => choice.applyTo s) {}) := by
  refine ⟨?_, ?_, ?_⟩
  · intro e current after
    exact ⟨fun cause => Edit.run_eq_error_iff, Edit.run_eq_ok_iff, Edit.applyTo_eq_ok_iff⟩
  · intro s built
    have hvalid := exists_settings?_iff.mp ⟨s, built⟩
    exact exists_settings?_iff.mpr (hvalid.editedBy edits)
  · have hcanonical : IsCanonical {} := by
      intro entry hentry
      cases hentry
    exact hcanonical.editedBy rfl edits

/-- A file whose one key has a blank behind the name. -/
def panelFile : SettingsFile where
  runtime := some "ui"
  renderers := .ofList [("Info ", "FilePanel")]

/-- Edits of which the first and the third are refused. -/
def panelEdits : List Edit :=
  [.runtime "1 + 1", .renderer "r#type = ::panels::r#Type", .renderer "Note",
    .renderer "Info=self::InfoPanel", .runtime "crate :: ui"]

/-- The choices of the accepted edits, with a path from the root, raw names and keywords in it. -/
def panelChoices : List Choice :=
  [.renderer "r#type" (Path.child { Path.ofName "panels" with rooted := true } "r#Type"),
    .renderer "Info" ((Path.ofName "self").child "InfoPanel"),
    .runtime ((Path.ofName "crate").child "ui")]

/-- The file can be built after the edits, and the edits alone build what the accepted ones
chose. -/
theorem edits_of_panelFile :
    (∃ s, panelFile.settings? = .ok s) ∧
      (∃ s, (panelFile.editedBy panelEdits).settings? = .ok s) ∧
      (∃ cause, (Edit.runtime "1 + 1").run panelFile = .error cause panelFile) ∧
      (editedBy {} panelEdits).settings? =
        .ok (panelChoices.foldl (fun s choice => choice.applyTo s) {}) := by
  have builds : panelFile.settings?.toOption.isSome = true := by decide +kernel
  have refused : (Edit.runtime "1 + 1").read =
      .error (.runtimePath "1 + 1" "expected identifier") := by
    decide +kernel
  have chosen : panelEdits.filterMap (·.read.toOption) = panelChoices := by decide +kernel
  obtain ⟨s, hsome⟩ := Option.isSome_iff_exists.mp builds
  have built := Except.toOption_eq_some_iff.mp hsome
  obtain ⟨hrun, hkept, halone⟩ := edits_of_file panelFile panelEdits
  refine ⟨⟨s, built⟩, hkept s built, ⟨_, ((hrun _ _ _).1 _).mpr ⟨refused, rfl⟩⟩, ?_⟩
  rw [halone, chosen]

end SettingsFile

end UnionView
