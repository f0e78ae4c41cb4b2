import UnionView.Proofs.Failure
import UnionView.Proofs.Syntax.Path
import UnionView.Settings.File

/-!
# Settings that are laid over a file

The renderer of a payload is given by the last entry, in the order of the keys, whose key reads as
the payload (`SettingsFile.renderer?`). An assignment is written down under the name that it reads
as, so it does not remove the entries for the same payload that are spelled in another way, and it
loses against those of them that come later (`SettingsFile.laterRenderer?`).
-/

namespace UnionView

/-! ### Entries -/

def entryRenderer? (payload : String) (entry : String × String) : Option Path :=
  match readRenderer entry.1 entry.2 with
  | .ok (name, path) => if name = payload then some path else none
  | .error _ => none

/-- The renderer that the last of some entries for a payload gives to it. -/
def lastRenderer? (payload : String) (entries : List (String × String)) : Option Path :=
  entries.reverse.findSome? (entryRenderer? payload)

namespace SettingsFile

def renderer? (file : SettingsFile) (payload : String) : Option Path :=
  lastRenderer? payload file.renderers.entries

/-- The renderer that a settings file gives to a payload under keys that come behind its name. -/
def laterRenderer? (file : SettingsFile) (payload : String) : Option Path :=
  lastRenderer? payload (file.renderers.entries.filter fun entry => payload < entry.1)

end SettingsFile

lemma lastRenderer?_cons (payload : String) (entry : String × String)
    (entries : List (String × String)) : lastRenderer? payload (entry :: entries) =
      (lastRenderer? payload entries).or (entryRenderer? payload entry) := by
  unfold lastRenderer?
  rw [List.reverse_cons, List.findSome?_append]
  simp

lemma entryRenderer?_of_ok {key renderer name : String} {path : Path}
    (h : readRenderer key renderer = .ok (name, path)) (payload : String) :
    entryRenderer? payload (key, renderer) = if name = payload then some path else none := by
  unfold entryRenderer?
  rw [h]

/-! ### Names and paths that were read -/

lemma readRenderer_eq_ok_iff {key renderer name : String} {path : Path} :
    readRenderer key renderer = .ok (name, path) ↔
      (∃ listing, readText Code.identifier? key = .ok (listing, name)) ∧
        ∃ listing, readText Code.plainPath? renderer = .ok (listing, path) := by
  unfold readRenderer Path.ofText
  constructor
  · intro h
    split at h
    · cases h
    · rename_i listing name' hkey
      split at h
      · rename_i path' hpath
        split at hpath
        · rename_i listing' path'' hrenderer
          cases hpath
          cases h
          exact ⟨⟨listing, hkey⟩, listing', hrenderer⟩
        · cases hpath
      · cases h
  · rintro ⟨⟨listing, hkey⟩, listing', hrenderer⟩
    simp only [hkey, hrenderer]

/-- What was read as a renderer can be written down and is read as the same. -/
lemma readRenderer_text {key renderer name : String} {path : Path}
    (h : readRenderer key renderer = .ok (name, path)) :
    readRenderer name path.text = .ok (name, path) := by
  obtain ⟨⟨_, hname⟩, ⟨_, hpath⟩⟩ := readRenderer_eq_ok_iff.mp h
  exact readRenderer_eq_ok_iff.mpr ⟨readText_identifier hname, readText_plainPath hpath⟩

/-- An entry under a name that was read says nothing of other payloads. -/
lemma entryRenderer?_of_ne {key renderer name : String} {path : Path}
    (h : readRenderer key renderer = .ok (name, path)) {payload : String} (hne : payload ≠ name)
    (renderer' : String) : entryRenderer? payload (name, renderer') = none := by
  obtain ⟨⟨_, hkey⟩, -⟩ := readRenderer_eq_ok_iff.mp h
  obtain ⟨_, hname⟩ := readText_identifier hkey
  cases hentry : readRenderer name renderer' with
  | error cause =>
    unfold entryRenderer?
    rw [hentry]
  | ok read =>
    obtain ⟨name', path'⟩ := read
    obtain ⟨⟨_, hname'⟩, -⟩ := readRenderer_eq_ok_iff.mp hentry
    rw [hname] at hname'
    cases hname'
    rw [entryRenderer?_of_ok hentry, if_neg hne.symm]

/-! ### One more entry -/

section Insert

variable {key renderer name : String} {path : Path}

/-- One more entry for a payload does not change what the others give to other payloads. -/
lemma lastRenderer?_insertInto_of_ne (h : readRenderer key renderer = .ok (name, path))
    {payload : String} (hne : payload ≠ name) (renderer' : String) (keep : String × String → Bool)
    (entries : List (String × String)) :
    lastRenderer? payload ((NameMap.insertInto name renderer' entries).filter keep) =
      lastRenderer? payload (entries.filter keep) := by
  have hnone (renderer' : String) : entryRenderer? payload (name, renderer') = none :=
    entryRenderer?_of_ne h hne renderer'
  have hskip (renderer' : String) (rest : List (String × String)) :
      lastRenderer? payload (((name, renderer') :: rest).filter keep) =
        lastRenderer? payload (rest.filter keep) := by
    rw [List.filter_cons]
    split
    · rw [lastRenderer?_cons, hnone, Option.or_none]
    · rfl
  induction entries with
  | nil => exact hskip renderer' []
  | cons entry rest ih =>
    rw [NameMap.insertInto]
    split
    · exact hskip renderer' (entry :: rest)
    · split
      · rename_i heq
        rw [hskip renderer' rest]
        obtain ⟨key', renderer''⟩ := entry
        obtain rfl := heq
        exact (hskip renderer'' rest).symm
      · rw [List.filter_cons, List.filter_cons]
        split
        · rw [lastRenderer?_cons, lastRenderer?_cons, ih]
        · exact ih

/-- An entry under a name is not behind this name. -/
lemma filter_cons_self (name renderer : String) (rest : List (String × String)) :
    ((name, renderer) :: rest).filter (fun entry => name < entry.1) =
      rest.filter fun entry => name < entry.1 := by
  refine List.filter_cons_of_neg ?_
  rw [decide_eq_true_eq]
  exact String.lt_irrefl name

/-- The entries behind a name stay when an entry under this name is written down. -/
lemma filter_insertInto (renderer' : String) (entries : List (String × String)) :
    (NameMap.insertInto name renderer' entries).filter (fun entry => name < entry.1) =
      entries.filter fun entry => name < entry.1 := by
  induction entries with
  | nil => exact filter_cons_self name renderer' []
  | cons entry rest ih =>
    rw [NameMap.insertInto]
    split
    · exact filter_cons_self name renderer' (entry :: rest)
    · split
      · rename_i heq
        obtain ⟨key', renderer''⟩ := entry
        obtain rfl := heq
        rw [filter_cons_self, filter_cons_self]
      · rw [List.filter_cons, List.filter_cons, ih]

/-- The renderer of a payload behind one more entry under its name: that of the last entry behind
the name, if there is one, and otherwise the new one. -/
lemma lastRenderer?_insertInto (h : readRenderer key renderer = .ok (name, path))
    {entries : List (String × String)} (hordered : entries.Pairwise fun a b => a.1 < b.1) :
    lastRenderer? name (NameMap.insertInto name path.text entries) =
      some ((lastRenderer? name (entries.filter fun entry => name < entry.1)).getD path) := by
  have hentry : entryRenderer? name (name, path.text) = some path := by
    rw [entryRenderer?_of_ok (readRenderer_text h), if_pos rfl]
  have hfront (later : List (String × String)) :
      lastRenderer? name ((name, path.text) :: later) =
        some ((lastRenderer? name later).getD path) := by
    rw [lastRenderer?_cons, hentry]
    cases lastRenderer? name later <;> rfl
  induction hordered with
  | nil => exact hfront []
  | @cons entry rest hentry' _ ih =>
    rw [NameMap.insertInto]
    split
    · -- all entries are behind the name
      rename_i hlt
      have hall : ∀ e ∈ entry :: rest, decide (name < e.1) = true := by
        intro e he
        obtain rfl | he := List.mem_cons.mp he
        · exact decide_eq_true hlt
        · exact decide_eq_true (String.lt_trans hlt (hentry' e he))
      rw [List.filter_eq_self.mpr hall]
      exact hfront _
    · split
      · -- the entry is replaced, and those that are left are behind the name
        rename_i heq
        have hall : ∀ e ∈ rest, decide (name < e.1) = true := by
          intro e he
          rw [heq]
          exact decide_eq_true (hentry' e he)
        obtain ⟨key', renderer'⟩ := entry
        obtain rfl := heq
        rw [filter_cons_self, List.filter_eq_self.mpr hall]
        exact hfront _
      · -- the first entry is in front of the name
        rename_i hlt hne
        rw [List.filter_cons_of_neg (by simpa using hlt), lastRenderer?_cons, ih]
        rfl

end Insert

namespace SettingsFile

variable {file edited : SettingsFile}

/-! ### Building settings -/

/-- Building takes the renderers one after the other, so the last one for a payload stays. -/
lemma get?_of_foldlM {entries : List (String × String)} {base s : Settings}
    (h : entries.foldlM (fun settings entry => do
      let (payload, renderer) ← readRenderer entry.1 entry.2
      return settings.withRenderer payload renderer) base = .ok s) :
    s.runtime = base.runtime ∧ ∀ payload, s.renderers.get? payload =
      (lastRenderer? payload entries).or (base.renderers.get? payload) := by
  induction entries generalizing base with
  | nil =>
    cases h
    exact ⟨rfl, fun payload => rfl⟩
  | cons entry rest ih =>
    rw [List.foldlM_cons] at h
    obtain ⟨base', hbase, hrest⟩ := Except.bind_eq_ok_iff.mp h
    obtain ⟨⟨name, path⟩, hread, hbase⟩ := Except.bind_eq_ok_iff.mp hbase
    obtain rfl := Except.pure_eq_ok_iff.mp hbase
    obtain ⟨hruntime, hrenderers⟩ := ih hrest
    refine ⟨hruntime, fun payload => ?_⟩
    rw [hrenderers, lastRenderer?_cons, entryRenderer?_of_ok hread, Option.or_assoc]
    congr 1
    by_cases hname : name = payload
    · subst hname
      rw [if_pos rfl]
      exact NameMap.get?_insert_self _ _ _
    · rw [if_neg hname]
      exact NameMap.get?_insert_of_ne _ (Ne.symm hname) _

lemma ofText_of_readRuntime {text : String} {path : Path} (h : readRuntime text = .ok path) :
    Path.ofText text = .ok path := by
  unfold readRuntime at h
  split at h
  · cases h
    assumption
  · cases h

/-- The settings that a file builds: the runtime that it names, and the renderers that its entries
give. -/
lemma settings?_eq_ok {s : Settings} (h : file.settings? = .ok s) :
    (∀ runtime, file.runtime = some runtime → Path.ofText runtime = .ok s.runtime) ∧
      (file.runtime = none → s.runtime = defaultRuntime) ∧
      ∀ payload, s.renderers.get? payload = file.renderer? payload := by
  unfold settings? at h
  cases hruntime : file.runtime with
  | none =>
    rw [hruntime] at h
    obtain ⟨hs, hrenderers⟩ := get?_of_foldlM h
    refine ⟨nofun, fun _ => hs, fun payload => ?_⟩
    rw [hrenderers]
    exact Option.or_none
  | some runtime =>
    rw [hruntime] at h
    obtain ⟨base, hbase, h⟩ := Except.bind_eq_ok_iff.mp h
    obtain ⟨path, hread, hbase⟩ := Except.bind_eq_ok_iff.mp hbase
    obtain rfl := Except.pure_eq_ok_iff.mp hbase
    obtain ⟨hs, hrenderers⟩ := get?_of_foldlM h
    refine ⟨?_, nofun, fun payload => ?_⟩
    · rintro _ ⟨⟩
      rw [hs]
      exact ofText_of_readRuntime hread
    · rw [hrenderers]
      exact Option.or_none

lemma ofText_of_entryRenderer? {payload : String} {entry : String × String} {path : Path}
    (h : entryRenderer? payload entry = some path) : Path.ofText entry.2 = .ok path := by
  unfold entryRenderer? at h
  split at h
  · rename_i name read hread
    obtain rfl : read = path := by
      split at h
      · exact Option.some.inj h
      · cases h
    obtain ⟨-, listing, hpath⟩ := readRenderer_eq_ok_iff.mp hread
    unfold Path.ofText
    rw [hpath]
  · cases h

/-- The paths of settings that a file builds are read from texts, but for the runtime by default. -/
lemma ofText_of_settings? {s : Settings} (h : file.settings? = .ok s) :
    (s.runtime = defaultRuntime ∨ ∃ text, Path.ofText text = .ok s.runtime) ∧
      ∀ payload p, s.renderers.get? payload = some p → ∃ text, Path.ofText text = .ok p := by
  obtain ⟨hwritten, hdefault, hrenderers⟩ := settings?_eq_ok h
  constructor
  · cases hruntime : file.runtime with
    | none => exact .inl (hdefault hruntime)
    | some text => exact .inr ⟨text, hwritten text hruntime⟩
  · intro payload p hp
    rw [hrenderers] at hp
    obtain ⟨entry, -, hentry⟩ := List.exists_of_findSome?_eq_some hp
    exact ⟨entry.2, ofText_of_entryRenderer? hentry⟩

/-! ### Laying assignments over a file -/

def lastAssigned? (assignments : List (String × Path)) (payload : String) : Option Path :=
  assignments.reverse.lookup payload

lemma lastAssigned?_append (first second : List (String × Path)) (payload : String) :
    lastAssigned? (first ++ second) payload =
      (lastAssigned? second payload).or (lastAssigned? first payload) := by
  unfold lastAssigned?
  rw [List.reverse_append, List.lookup_append]

lemma lastAssigned?_singleton (name : String) (path : Path) (payload : String) :
    lastAssigned? [(name, path)] payload = if payload = name then some path else none := by
  unfold lastAssigned?
  rw [List.reverse_singleton, List.lookup_cons]
  by_cases hname : payload = name
  · subst hname
    simp
  · rw [if_neg hname, beq_eq_false_iff_ne.mpr hname]
    rfl

/-- What the edited file gives to payloads, given the assignments that it was edited with. -/
structure IsLaidOver (edited file : SettingsFile) (assignments : List (String × Path)) : Prop where
  runtime : edited.runtime = file.runtime
  later : ∀ payload, edited.laterRenderer? payload = file.laterRenderer? payload
  assigned : ∀ payload path, lastAssigned? assignments payload = some path →
    edited.renderer? payload = some ((file.laterRenderer? payload).getD path)
  others : ∀ payload, lastAssigned? assignments payload = none →
    edited.renderer? payload = file.renderer? payload

/-- An assignment that is accepted is laid over the file. -/
lemma isLaidOver_of_setRenderer {text : String} (h : file.setRenderer text = .ok edited) :
    ∃ assignment, readAssignment text = .ok assignment ∧ edited.IsLaidOver file [assignment] := by
  obtain ⟨⟨name, path⟩, hread, h⟩ := Except.bind_eq_ok_iff.mp h
  obtain rfl := Except.pure_eq_ok_iff.mp h
  refine ⟨(name, path), hread, ?_⟩
  obtain ⟨key, renderer, hkey⟩ : ∃ key renderer, readRenderer key renderer = .ok (name, path) := by
    unfold readAssignment at hread
    split at hread
    · cases hread
    · exact ⟨_, _, hread⟩
  constructor
  · rfl
  · intro payload
    by_cases hname : payload = name
    · subst hname
      exact congrArg (lastRenderer? payload) (filter_insertInto _ _)
    · exact lastRenderer?_insertInto_of_ne hkey hname _ _ _
  · intro payload path' hpath
    rw [lastAssigned?_singleton] at hpath
    by_cases hname : payload = name
    · rw [if_pos hname] at hpath
      cases hpath
      subst hname
      exact lastRenderer?_insertInto hkey file.renderers.ordered
    · rw [if_neg hname] at hpath
      cases hpath
  · intro payload hnone
    rw [lastAssigned?_singleton] at hnone
    by_cases hname : payload = name
    · rw [if_pos hname] at hnone
      cases hnone
    · have hall := lastRenderer?_insertInto_of_ne hkey hname path.text (fun _ => true)
        file.renderers.entries
      rwa [List.filter_eq_self.mpr (fun _ _ => rfl), List.filter_eq_self.mpr (fun _ _ => rfl)]
        at hall

/-- Assignments that are laid over an edited file are laid over the file behind the first ones. -/
lemma IsLaidOver.trans {next : SettingsFile} {first second : List (String × Path)}
    (hsecond : edited.IsLaidOver next second) (hfirst : next.IsLaidOver file first) :
    edited.IsLaidOver file (first ++ second) := by
  constructor
  · exact hsecond.runtime.trans hfirst.runtime
  · exact fun payload => (hsecond.later payload).trans (hfirst.later payload)
  · intro payload path hpath
    rw [lastAssigned?_append] at hpath
    cases hlast : lastAssigned? second payload with
    | some path' =>
      rw [hlast] at hpath
      cases hpath
      rw [hsecond.assigned payload path hlast, hfirst.later]
    | none =>
      rw [hlast] at hpath
      rw [hsecond.others payload hlast, hfirst.assigned payload path hpath]
  · intro payload hnone
    rw [lastAssigned?_append] at hnone
    obtain ⟨hlast, hnone⟩ := Option.or_eq_none_iff.mp hnone
    rw [hsecond.others payload hlast, hfirst.others payload hnone]

/-- Assignments are laid over a file one after the other. -/
lemma isLaidOver_of_foldlM {texts : List String}
    (h : texts.foldlM setRenderer file = .ok edited) :
    ∃ assignments, texts.mapM readAssignment = .ok assignments ∧
      edited.IsLaidOver file assignments := by
  induction texts generalizing file with
  | nil =>
    cases h
    exact ⟨[], rfl, ⟨rfl, fun _ => rfl, nofun, fun _ _ => rfl⟩⟩
  | cons text texts ih =>
    rw [List.foldlM_cons] at h
    obtain ⟨next, hnext, hrest⟩ := Except.bind_eq_ok_iff.mp h
    obtain ⟨assignment, hread, hfirst⟩ := isLaidOver_of_setRenderer hnext
    obtain ⟨assignments, hreads, hlaid⟩ := ih hrest
    refine ⟨assignment :: assignments, ?_, hlaid.trans hfirst⟩
    rw [List.mapM_cons, hread, hreads]
    rfl

end SettingsFile

end UnionView
