import UnionView.Command.Arguments
import UnionView.Proofs.Settings.Override

/-!
# Settings of the command

What the arguments of the command say is laid over the settings file that they name. The runtime of
the arguments wins, and so does the last renderer that they assign to a payload, unless the file has
a key that reads as the payload and comes behind its name (`settings_of_arguments`).
-/

namespace UnionView

open Command

/-- The settings file that the arguments name, or an empty one. -/
def Command.Arguments.loaded (a : Arguments) (w : Workplace) : Except SettingsError SettingsFile :=
  match a.settingsFile with
  | some fileName => w.loadSettings fileName
  | none => .ok {}

/-- The file with the runtime that the arguments name, if they name one. -/
def Command.Arguments.withRuntime (a : Arguments) (file : SettingsFile) :
    Except InvalidSettings SettingsFile :=
  match a.runtime with
  | some runtime => file.setRuntime runtime
  | none => .ok file

/-- The file is loaded, and then the runtime and the renderers are laid over it. -/
lemma Command.Arguments.settings_eq_bind (a : Arguments) (w : Workplace) :
    a.settings w = a.loaded w >>= fun file =>
      (a.withRuntime file >>= fun file =>
        a.renderers.foldlM SettingsFile.setRenderer file).mapError .invalid := by
  unfold Arguments.settings Arguments.loaded Arguments.withRuntime
  cases a.settingsFile <;> cases a.runtime <;> rfl

lemma Command.Arguments.withRuntime_eq_ok {a : Arguments} {file edited : SettingsFile}
    (h : a.withRuntime file = .ok edited) :
    edited = { file with runtime := a.runtime.or file.runtime } := by
  unfold Arguments.withRuntime at h
  cases hname : a.runtime with
  | none =>
    rw [hname] at h
    exact (Except.ok.inj h).symm
  | some runtime =>
    rw [hname] at h
    obtain ⟨path, -, h⟩ := Except.bind_eq_ok_iff.mp h
    exact (Except.pure_eq_ok_iff.mp h).symm

/-- What the arguments say is laid over the file that they name. -/
lemma Command.Arguments.settings_eq_ok {a : Arguments} {w : Workplace} {edited : SettingsFile}
    (h : a.settings w = .ok edited) :
    ∃ file assignments, a.loaded w = .ok file ∧ a.renderers.mapM readAssignment = .ok assignments ∧
      edited.IsLaidOver { file with runtime := a.runtime.or file.runtime } assignments := by
  rw [Arguments.settings_eq_bind] at h
  obtain ⟨file, hfile, h⟩ := Except.bind_eq_ok_iff.mp h
  obtain ⟨base, hbase, h⟩ := Except.bind_eq_ok_iff.mp (Except.mapError_eq_ok_iff.mp h)
  obtain rfl := Arguments.withRuntime_eq_ok hbase
  obtain ⟨assignments, hread, hlaid⟩ := SettingsFile.isLaidOver_of_foldlM h
  exact ⟨file, assignments, hfile, hread, hlaid⟩

/-- The settings that the arguments and the file make together. The runtime is that of the
arguments, if they name one, and otherwise that of the file. A payload with an assignment has the
renderer of the last one, unless a key of the file that comes behind its name reads as the payload.
Any other payload has the renderer that it has with the file alone. -/
theorem settings_of_arguments {a : Arguments} {w : Workplace} {edited : SettingsFile}
    {s : Settings} (laid : a.settings w = .ok edited) (built : edited.build = .ok s) :
    ∃ file assignments, a.loaded w = .ok file ∧ a.renderers.mapM readAssignment = .ok assignments ∧
      (∀ runtime, a.runtime = some runtime → Path.ofText runtime = .ok s.runtime) ∧
      (∀ payload path, SettingsFile.lastAssigned? assignments payload = some path →
        s.renderers.resolve payload = (file.laterRenderer? payload).getD path) ∧
      (∀ payload, SettingsFile.lastAssigned? assignments payload = none →
        s.renderers.get? payload = file.renderer? payload) ∧
      ∀ alone, file.build = .ok alone →
        (a.runtime = none → s.runtime = alone.runtime) ∧
        ∀ payload, SettingsFile.lastAssigned? assignments payload = none →
          s.renderers.resolve payload = alone.renderers.resolve payload := by
  obtain ⟨file, assignments, hloaded, hread, hlaid⟩ := Arguments.settings_eq_ok laid
  obtain ⟨hnamed, hdefault, hrenderers⟩ :=
    SettingsFile.settings?_eq_ok (Except.mapError_eq_ok_iff.mp built)
  have hruntime : edited.runtime = a.runtime.or file.runtime := hlaid.runtime
  have hothers : ∀ payload, SettingsFile.lastAssigned? assignments payload = none →
      s.renderers.get? payload = file.renderer? payload := by
    intro payload hnone
    rw [hrenderers, hlaid.others payload hnone]
    rfl
  refine ⟨file, assignments, hloaded, hread, ?_, ?_, hothers, fun alone halone => ⟨?_, ?_⟩⟩
  · intro runtime hname
    rw [hname] at hruntime
    exact hnamed runtime hruntime
  · intro payload path hlast
    rw [Renderers.resolve, hrenderers, hlaid.assigned payload path hlast]
    rfl
  · intro hnone
    obtain ⟨hnamed', hdefault', -⟩ :=
      SettingsFile.settings?_eq_ok (Except.mapError_eq_ok_iff.mp halone)
    rw [hnone] at hruntime
    cases hfile : file.runtime with
    | none =>
      rw [hdefault (hruntime.trans hfile), hdefault' hfile]
    | some runtime =>
      have hs := hnamed runtime (hruntime.trans hfile)
      rw [hnamed' runtime hfile] at hs
      exact (Except.ok.inj hs).symm
  · intro payload hnone
    obtain ⟨-, -, hrenderers'⟩ :=
      SettingsFile.settings?_eq_ok (Except.mapError_eq_ok_iff.mp halone)
    rw [Renderers.resolve, Renderers.resolve, hothers payload hnone, hrenderers']

/-- A settings file that has one of its two keys with a blank behind the name. -/
def paddedSettingsText : String :=
  "\x7b\"renderers\": \x7b\"Info \": \"FilePanel\", \"Note\": \"FileNote\"\x7d\x7d"

/-- A place that holds this settings file and nothing else. -/
def paddedWorkplace : Workplace where
  root := .directory [("c.json", .file paddedSettingsText.toUTF8)]

/-- Arguments that assign a renderer to the one payload of the file and two to the other. -/
def noteArguments : Arguments where
  inputs := ["a.rs"]
  settingsFile := some "c.json"
  renderers := ["Info=FlagPanel", "Note=Draft", "Note=ui::NotePanel"]

/-- The last assignment for `Note` wins, but the padded key wins against the one for `Info`. -/
theorem settings_of_noteArguments :
    ∃ (edited : SettingsFile) (s : Settings), noteArguments.settings paddedWorkplace = .ok edited ∧
      edited.build = .ok s ∧ (s.renderers.resolve "Note").text = "ui :: NotePanel" ∧
      (s.renderers.resolve "Info").text = "FilePanel" := by
  have builds : ((noteArguments.settings paddedWorkplace).toOption.bind fun edited =>
      edited.settings?.toOption).isSome = true := by
    decide +kernel
  have assigned : (noteArguments.renderers.mapM readAssignment).toOption.map (fun assignments =>
      ["Note", "Info"].map fun payload =>
        (SettingsFile.lastAssigned? assignments payload).map Path.text) =
      some [some "ui :: NotePanel", some "FlagPanel"] := by
    decide +kernel
  have later : (noteArguments.loaded paddedWorkplace).toOption.map (fun file =>
      ["Note", "Info"].map fun payload => (file.laterRenderer? payload).map Path.text) =
      some [none, some "FilePanel"] := by
    decide +kernel
  obtain ⟨s, hsome⟩ := Option.isSome_iff_exists.mp builds
  obtain ⟨edited, hlaid, hbuilt⟩ := Option.bind_eq_some_iff.mp hsome
  have laid := Except.toOption_eq_some_iff.mp hlaid
  have built : edited.build = .ok s :=
    Except.mapError_eq_ok_iff.mpr (Except.toOption_eq_some_iff.mp hbuilt)
  obtain ⟨file, assignments, hfile, hread, -, hassigned, -⟩ := settings_of_arguments laid built
  rw [hread] at assigned
  rw [hfile] at later
  simp only [Except.toOption, Option.map_some, List.map_cons, List.map_nil, Option.some.injEq,
    List.cons.injEq, Option.map_eq_some_iff, Option.map_eq_none_iff, and_true] at assigned later
  obtain ⟨⟨note, hnote, htext⟩, ⟨info, hinfo, -⟩⟩ := assigned
  obtain ⟨hnone, ⟨panel, hpanel, hpanelText⟩⟩ := later
  refine ⟨edited, s, laid, built, ?_, ?_⟩
  · rw [hassigned "Note" note hnote, hnone]
    exact htext
  · rw [hassigned "Info" info hinfo, hpanel]
    exact hpanelText

end UnionView
