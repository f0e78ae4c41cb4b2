import UnionView.Proofs.Attribute.Arguments
import UnionView.Proofs.NameMap
import UnionView.Proofs.Settings.Runtime
import UnionView.Source.Selection

/-!
# Arguments over settings

What is written with a declaration wins over the settings that it is laid over, and nothing that
is written is lost. Since no payload has two renderers in accepted arguments, it does not matter in
which order and in which groups they are written (`WrittenArgument.SameMeaning`).
-/

namespace UnionView

open Reader

/-! ### Arguments in any order -/

namespace WrittenArgument

def pairs (argument : WrittenArgument) : List (String × Path) :=
  argument.entries.map fun r => (r.payload, r.renderer)

/-- Arguments with the same runtimes and renderers, in any order and in any groups. -/
structure SameMeaning (arguments others : List WrittenArgument) : Prop where
  runtimes : (arguments.filterMap (·.runtime?)).Perm (others.filterMap (·.runtime?))
  renderers : (arguments.flatMap (·.pairs)).Perm (others.flatMap (·.pairs))

lemma flatMap_pairs (arguments : List WrittenArgument) : arguments.flatMap (·.pairs) =
    (arguments.flatMap (·.entries)).map fun r => (r.payload, r.renderer) :=
  List.map_flatMap.symm

lemma map_fst_flatMap_pairs (arguments : List WrittenArgument) :
    (arguments.flatMap (·.pairs)).map Prod.fst =
      (arguments.flatMap (·.entries)).map (·.payload) := by
  rw [flatMap_pairs, List.map_map]
  rfl

end WrittenArgument

namespace AttributeArguments

variable {code code' : Code} {behind behind' : Nat} {a b : AttributeArguments}
  {arguments others : List WrittenArgument}

/-- In accepted arguments no payload has two renderers. -/
lemma nodup_of_ofCode (h : ofCode code behind = .ok a) : (a.renderers.map Prod.fst).Nodup := by
  obtain ⟨c, hread, -, -⟩ := run_eq_ok_iff.mp (Except.mapError_eq_ok_iff.mp h)
  obtain ⟨metas, _, -, hread⟩ := bind_eq_ok.mp hread
  obtain ⟨written, -, hread⟩ := Except.bind_eq_ok_iff.mp hread
  obtain ⟨_, hchecked, ⟨⟩⟩ := Except.bind_eq_ok_iff.mp hread
  obtain ⟨hdistinct, -, hrenderers⟩ := checked_eq_ok_iff.mp hchecked
  rw [hrenderers, List.map_map]
  exact hdistinct

/-- The arguments of an item that has any read a payload no more than once. -/
lemma nodup_of_arguments? {item : Item} (h : item.arguments? = some (.ok a)) :
    (a.renderers.map Prod.fst).Nodup := by
  unfold Item.arguments? at h
  split at h
  · cases h
  · rename_i request _
    replace h := Option.some.inj h
    unfold Attribute.arguments at h
    split at h
    · cases h
      exact List.nodup_nil
    · exact nodup_of_ofCode h
    · cases h
  · cases h

/-! ### Settings below the arguments -/

/-- The settings are those below with the arguments laid over them: what the arguments say holds,
and where they say nothing it is as below. -/
structure LaidOver (a : AttributeArguments) (below settings : Settings) : Prop where
  runtime : settings.runtime = a.runtime.getD below.runtime
  listed : ∀ payload renderer, (payload, renderer) ∈ a.renderers →
    settings.renderers.get? payload = some renderer
  others : ∀ payload, payload ∉ a.renderers.map Prod.fst →
    settings.renderers.get? payload = below.renderers.get? payload

lemma laidOver_applyTo (h : (a.renderers.map Prod.fst).Nodup) (below : Settings) :
    a.LaidOver below (a.applyTo below) := by
  rw [applyTo_eq]
  exact ⟨rfl, fun _ _ hentry => NameMap.get?_insertAll_of_mem h hentry,
    fun _ hpayload => NameMap.get?_insertAll_of_notMem hpayload⟩

/-- The arguments leave nothing open. -/
lemma LaidOver.unique {below settings settings' : Settings} (h : a.LaidOver below settings)
    (h' : a.LaidOver below settings') : settings = settings' := by
  have hrenderers : settings.renderers = settings'.renderers := by
    refine NameMap.ext_get? fun payload => ?_
    by_cases hpayload : payload ∈ a.renderers.map Prod.fst
    · obtain ⟨⟨_, renderer⟩, hentry, rfl⟩ := List.mem_map.mp hpayload
      rw [h.listed _ renderer hentry, h'.listed _ renderer hentry]
    · rw [h.others payload hpayload, h'.others payload hpayload]
  obtain ⟨runtime, renderers⟩ := settings
  obtain ⟨runtime', renderers'⟩ := settings'
  have hruntime : runtime = runtime' := h.runtime.trans h'.runtime.symm
  exact congrArg₂ Settings.mk hruntime hrenderers

/-- What arguments of the same meaning say is the same up to the order of the renderers. -/
lemma Says.exists_of_sameMeaning (h : a.Says arguments)
    (same : WrittenArgument.SameMeaning arguments others) :
    ∃ b : AttributeArguments, b.Says others ∧ b.runtime = a.runtime ∧
      a.renderers.Perm b.renderers := by
  obtain ⟨hone, hdistinct, hruntime, hrenderers⟩ := h
  rw [← WrittenArgument.map_fst_flatMap_pairs] at hdistinct
  rw [← WrittenArgument.flatMap_pairs] at hrenderers
  have hsame : others.filterMap (·.runtime?) = arguments.filterMap (·.runtime?) := by
    obtain ⟨hruntimes, -⟩ := same
    generalize arguments.filterMap (·.runtime?) = runtimes at hone hruntimes
    match runtimes, hone, hruntimes with
    | [], _, h => exact h.symm.eq_nil
    | [_], _, h => exact List.perm_singleton.mp h.symm
  refine ⟨{ runtime := a.runtime, renderers := others.flatMap (·.pairs) }, ⟨?_, ?_, ?_, ?_⟩,
    rfl, ?_⟩
  · rwa [hsame]
  · rw [← WrittenArgument.map_fst_flatMap_pairs]
    exact (same.renderers.map Prod.fst).nodup_iff.mp hdistinct
  · rwa [hsame]
  · exact WrittenArgument.flatMap_pairs others
  · rw [hrenderers]
    exact same.renderers

/-- Accepted arguments win over the settings that they are laid over: the runtime is theirs if they
choose one, the renderers that they list are found, all others are found as before, and every
payload that has a renderer in one of both has one. Arguments of the same meaning, in whatever
order and groups they are written, are accepted as well and give the same settings, and the same
arguments change nothing a second time. -/
theorem applyTo_layers (code : Code) (behind : Nat) (a : AttributeArguments)
    (accepted : ofCode code behind = .ok a) (base : Settings) :
    (a.applyTo base).runtime = a.runtime.getD base.runtime ∧
      (∀ payload renderer, (payload, renderer) ∈ a.renderers →
        (a.applyTo base).renderers.resolve payload = renderer) ∧
      (∀ payload, payload ∉ a.renderers.map Prod.fst →
        (a.applyTo base).renderers.resolve payload = base.renderers.resolve payload) ∧
      (a.applyTo base).renderers.size =
        (base.renderers.names ∪ (a.renderers.map Prod.fst).toFinset).card ∧
      (∀ arguments code' others behind', code.IsArguments arguments → code'.IsArguments others →
        WrittenArgument.SameMeaning arguments others →
        ∃ b, ofCode code' behind' = .ok b ∧ b.applyTo base = a.applyTo base) ∧
      a.applyTo (a.applyTo base) = a.applyTo base := by
  have hnodup := nodup_of_ofCode accepted
  have hlaid := laidOver_applyTo hnodup base
  refine ⟨hlaid.runtime, ?_, ?_, ?_, ?_, ?_⟩
  · intro payload renderer hentry
    rw [Renderers.resolve, hlaid.listed payload renderer hentry, Option.getD_some]
  · intro payload hpayload
    rw [Renderers.resolve, hlaid.others payload hpayload, Renderers.resolve]
  · rw [applyTo_eq, NameMap.size_eq_card, NameMap.names_insertAll hnodup]
  · intro arguments code' others behind' harguments hothers same
    obtain ⟨b, hb, hruntime, hrenderers⟩ :=
      ((ofCode_eq_ok_iff harguments).mp accepted).exists_of_sameMeaning same
    refine ⟨b, (ofCode_eq_ok_iff hothers).mpr hb, ?_⟩
    rw [applyTo_eq, applyTo_eq, hruntime, NameMap.insertAll_congr hnodup hrenderers]
  · simp only [applyTo_eq, NameMap.insertAll_insertAll hnodup]
    cases a.runtime <;> rfl

/-- The arguments `renderers(Info = panel), renderers(), runtime = ui`. -/
def reorderedArguments : Code :=
  .ident "renderers" :: (groupCode .round (infoEntry "panel") ++ .punct ',' .alone ::
    .ident "renderers" :: (groupCode .round [] ++ .punct ',' .alone ::
      [.ident "runtime", .punct '=' .alone, .ident "ui"]))

lemma isArguments_reorderedArguments : reorderedArguments.IsArguments
    [.renderers [{ payload := "Info", mark := 12, renderer := .ofName "panel" }], .renderers [],
      .runtime (.ofName "ui")] := by
  refine .cons (.renderers rfl (.last (.mk (.inr (by decide)) ⟨_, rfl⟩))) ?_
  exact .cons (.renderers rfl .nil) (.last (.runtime (by decide) ⟨_, rfl⟩))

/-- Settings with other renderers for `Info` and `Card`. -/
def cardSettings : Settings :=
  ({ : Settings }.withRenderer "Info" (.ofName "plain")).withRenderer "Card" (.ofName "card")

/-- The renderer of `Info` is replaced, that of `Card` stays, and the same settings come of the
arguments in another order. -/
theorem applyTo_panelArguments :
    let panel : AttributeArguments :=
      { runtime := some (.ofName "ui"), renderers := [("Info", .ofName "panel")] }
    ofCode panelArguments = .ok panel ∧
      (panel.applyTo cardSettings).runtime = .ofName "ui" ∧
      (panel.applyTo cardSettings).renderers.resolve "Info" = .ofName "panel" ∧
      (panel.applyTo cardSettings).renderers.resolve "Card" = .ofName "card" ∧
      (panel.applyTo cardSettings).renderers.size = 2 ∧
      ∃ b, ofCode reorderedArguments = .ok b ∧
        b.applyTo cardSettings = panel.applyTo cardSettings := by
  intro panel
  have accepted : ofCode panelArguments = .ok panel :=
    (ofCode_eq_ok_iff isArguments_panelArguments).mpr ⟨by decide, by decide, rfl, rfl⟩
  obtain ⟨hruntime, hlisted, hothers, hsize, hordered, -⟩ :=
    applyTo_layers panelArguments 0 panel accepted cardSettings
  refine ⟨accepted, hruntime, hlisted _ _ (by decide), ?_, ?_, ?_⟩
  · exact (hothers "Card" (by decide)).trans rfl
  · rw [hsize]
    rfl
  · exact hordered _ _ _ 0 isArguments_panelArguments isArguments_reorderedArguments
      ⟨by decide, by decide⟩

end AttributeArguments

end UnionView
