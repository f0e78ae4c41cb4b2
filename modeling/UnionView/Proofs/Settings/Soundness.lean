import UnionView.Proofs.Settings.Runtime
import UnionView.Proofs.Writing.Value

/-!
# The paths of settings are sound

The paths of settings are read from texts, from the arguments of attributes in sound code, or are
the runtime by default. So the paths that a dispatcher is made with are sound (`Settings.IsSound`).
-/

namespace UnionView

open Lexer Reader

/-- The runtime and the renderers are sound paths. -/
structure Settings.IsSound (s : Settings) : Prop where
  runtime : s.runtime.IsSound
  renderers : ∀ payload p, s.renderers.get? payload = some p → p.IsSound

lemma Path.isSound_of_ofText {text : String} {p : Path} (h : ofText text = .ok p) :
    p.IsSound := by
  unfold ofText at h
  split at h
  · rename_i listing path hread
    cases h
    exact (isSound_of_readText hread).2
  · cases h

lemma isSound_defaultRuntime : defaultRuntime.IsSound :=
  List.forall_mem_singleton.mpr ⟨.plain (by decide), Code.isSound_nil⟩

namespace Settings.IsSound

variable {s : Settings}

lemma withRuntime (h : s.IsSound) {runtime : Path} (hruntime : runtime.IsSound) :
    (s.withRuntime runtime).IsSound :=
  ⟨hruntime, h.renderers⟩

lemma withRenderer (h : s.IsSound) (payload : String) {renderer : Path}
    (hrenderer : renderer.IsSound) : (s.withRenderer payload renderer).IsSound where
  runtime := h.runtime
  renderers other p hp := by
    unfold Settings.withRenderer at hp
    by_cases hother : other = payload
    · subst hother
      rw [NameMap.get?_insert_self] at hp
      exact Option.some.inj hp ▸ hrenderer
    · rw [NameMap.get?_insert_of_ne _ hother] at hp
      exact h.renderers other p hp

/-- Arguments with sound paths that are laid over sound settings give sound settings. -/
lemma applyTo (h : s.IsSound) {a : AttributeArguments} (ha : a.IsSound) :
    (a.applyTo s).IsSound := by
  have hbase : (a.runtime.elim s s.withRuntime).IsSound := by
    cases hruntime : a.runtime with
    | none => exact h
    | some runtime => exact h.withRuntime (ha.runtime runtime hruntime)
  have hall : ∀ (entries : List (String × Path)) (base : Settings), base.IsSound →
      (∀ entry ∈ entries, entry.2.IsSound) →
        (entries.foldl (fun s entry => s.withRenderer entry.1 entry.2) base).IsSound := by
    intro entries
    induction entries with
    | nil => exact fun _ hbase _ => hbase
    | cons entry entries ih =>
      intro base hbase hentries
      obtain ⟨hentry, hentries⟩ := List.forall_mem_cons.mp hentries
      exact ih _ (hbase.withRenderer entry.1 hentry) hentries
  exact hall a.renderers _ hbase ha.renderers

end Settings.IsSound

theorem SettingsFile.isSound_of_settings? {file : SettingsFile} {s : Settings}
    (h : file.settings? = .ok s) : s.IsSound := by
  obtain ⟨hruntime, hrenderers⟩ := ofText_of_settings? h
  constructor
  · obtain hdefault | ⟨text, htext⟩ := hruntime
    · rw [hdefault]
      exact isSound_defaultRuntime
    · exact Path.isSound_of_ofText htext
  · intro payload p hp
    obtain ⟨text, htext⟩ := hrenderers payload p hp
    exact Path.isSound_of_ofText htext

end UnionView
