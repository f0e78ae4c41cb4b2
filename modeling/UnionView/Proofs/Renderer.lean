import UnionView.Proofs.NameMap
import UnionView.Settings.Basic

/-!
# Renderers that are registered step by step

Renderers are registered one by one, or all those of another registry at once, which was built in
the same way (`Renderers.Step`). Whatever the steps are, they come to the registrations that they
make one after the other (`Renderers.Step.registrations`): every name is listed once, in the order
of the bytes, and has the renderer that was registered for it last (`Renderers.registry_of_steps`).
So no change of settings breaks what it promises of its result (`Settings.Change.checkedOn`).
-/

namespace UnionView

namespace Renderers

/-! ### Steps -/

/-- A step by which renderers are registered: one renderer, in place or in a chain of calls, or all
those of a registry that steps of its own build. -/
inductive Step where
  | register (payload : String) (renderer : Path)
  | withRenderer (payload : String) (renderer : Path)
  | extend (steps : List Step)

mutual

def Step.applyTo (renderers : Renderers) : Step → Renderers
  | .register payload renderer | .withRenderer payload renderer =>
    renderers.insert payload renderer
  | .extend steps => renderers.merge (applyAll .empty steps)

def applyAll (renderers : Renderers) : List Step → Renderers
  | [] => renderers
  | step :: steps => applyAll (step.applyTo renderers) steps

end

def built (steps : List Step) : Renderers :=
  applyAll .empty steps

mutual

def Step.registrations : Step → List (String × Path)
  | .register payload renderer | .withRenderer payload renderer => [(payload, renderer)]
  | .extend steps => registrationsOf steps

def registrationsOf : List Step → List (String × Path)
  | [] => []
  | step :: steps => step.registrations ++ registrationsOf steps

end

/-! ### The last registration for a payload -/

/-- The renderer that the last of some registrations for a payload gives to it. -/
def lastRegistered? (payload : String) (registrations : List (String × Path)) : Option Path :=
  registrations.reverse.lookup payload

variable {registrations : List (String × Path)} {renderers : Renderers}

lemma lastRegistered?_append (payload : String) (earlier later : List (String × Path)) :
    lastRegistered? payload (earlier ++ later) =
      (lastRegistered? payload later).or (lastRegistered? payload earlier) := by
  rw [lastRegistered?, List.reverse_append, List.lookup_append]
  rfl

/-- There is a last registration for a payload if there is any. -/
lemma exists_lastRegistered?_iff {payload : String} :
    (∃ path, lastRegistered? payload registrations = some path) ↔
      payload ∈ registrations.map Prod.fst := by
  rw [← Option.isSome_iff_exists, lastRegistered?, List.lookup_isSome_iff]
  simp

lemma get?_insert (renderers : Renderers) (name payload : String) (path : Path) :
    (renderers.insert name path).get? payload =
      (lastRegistered? payload [(name, path)]).or (renderers.get? payload) := by
  have hone : ([(name, path)].map Prod.fst).Nodup := List.nodup_singleton name
  exact NameMap.get?_insertAll hone

/-! ### What steps come to -/

mutual

/-- A step leaves the renderer that it registers last for a payload, or else the earlier one. -/
lemma Step.get?_applyTo (renderers : Renderers) (step : Step) (payload : String) :
    (step.applyTo renderers).get? payload =
      (lastRegistered? payload step.registrations).or (renderers.get? payload) := by
  match step with
  | .register name path | .withRenderer name path =>
    rw [Step.applyTo, Step.registrations]
    exact get?_insert renderers name payload path
  | .extend steps =>
    -- the registry that extends is built from none, so it has what its own steps register last
    rw [Step.applyTo, Step.registrations, NameMap.get?_merge, get?_applyAll .empty steps,
      NameMap.get?_empty, Option.or_none]

lemma get?_applyAll (renderers : Renderers) (steps : List Step) (payload : String) :
    (applyAll renderers steps).get? payload =
      (lastRegistered? payload (registrationsOf steps)).or (renderers.get? payload) := by
  match steps with
  | [] =>
    rw [applyAll, registrationsOf]
    rfl
  | step :: steps =>
    rw [applyAll, registrationsOf, get?_applyAll (step.applyTo renderers) steps,
      Step.get?_applyTo renderers step, lastRegistered?_append, Option.or_assoc]

end

lemma get?_built (steps : List Step) (payload : String) :
    (built steps).get? payload = lastRegistered? payload (registrationsOf steps) := by
  rw [built, get?_applyAll, NameMap.get?_empty, Option.or_none]

/-- The renderers that some registrations, one after the other, come to: the names for which one was
registered are listed once each in the order of their bytes, with the renderer that was registered
last, and all other payloads are drawn by what has the name by convention. -/
structure IsRegistryOf (renderers : Renderers) (registrations : List (String × Path)) : Prop where
  ordered : (renderers.entries.map Prod.fst).Pairwise fun a b => Text.bytes a < Text.bytes b
  names (payload : String) :
    payload ∈ renderers.entries.map Prod.fst ↔ payload ∈ registrations.map Prod.fst
  entries (payload : String) (path : Path) :
    (payload, path) ∈ renderers.entries ↔ lastRegistered? payload registrations = some path
  size : renderers.size = (registrations.map Prod.fst).toFinset.card
  isEmpty : renderers.isEmpty = true ↔ renderers.size = 0
  resolve (payload : String) : renderers.resolve payload =
    (lastRegistered? payload registrations).getD (Path.ofName (viewName payload))

/-- Renderers are what registrations come to if they have the last of them for every payload. -/
lemma isRegistryOf_of_get?
    (h : ∀ payload, renderers.get? payload = lastRegistered? payload registrations) :
    renderers.IsRegistryOf registrations := by
  have hnames : renderers.names = (registrations.map Prod.fst).toFinset := by
    ext payload
    rw [NameMap.mem_names_iff, h, exists_lastRegistered?_iff, List.mem_toFinset]
  refine
    { ordered := renderers.pairwise_bytes
      names := fun payload => ?_
      entries := fun payload path => ?_
      size := ?_
      isEmpty := NameMap.isEmpty_iff_size
      resolve := fun payload => ?_ }
  · rw [← List.mem_toFinset, ← List.mem_toFinset, ← hnames]
    rfl
  · rw [← NameMap.get?_eq_some_iff, h]
  · rw [NameMap.size_eq_card, hnames]
  · rw [Renderers.resolve, h]

end Renderers

/-! ### What changes promise -/

/-- A change of settings that promises something of its result. -/
inductive Settings.Change where
  | runtime (path : Path)
  | renderer (payload : String) (path : Path)
  | renderers (others : Renderers)

namespace Settings.Change

def applyTo (s : Settings) : Change → Settings
  | runtime path => s.withRuntime path
  | renderer payload path => s.withRenderer payload path
  | renderers others => s.withRenderers others

/-- Whether the settings behind a change are as it promises: they have the runtime that was chosen,
they have some renderer, or they have no fewer renderers than the settings in front of it. -/
def keeps (before after : Settings) : Change → Bool
  | runtime path => after.runtime == path
  | renderer _ _ => !after.renderers.isEmpty
  | renderers _ => before.renderers.size ≤ after.renderers.size

/-- A change with its promise checked at the end. A broken promise is the error. -/
def checkedOn (s : Settings) (change : Change) : Except Change Settings :=
  if change.keeps s (change.applyTo s) then .ok (change.applyTo s) else .error change

lemma keeps_applyTo (s : Settings) (change : Change) :
    change.keeps s (change.applyTo s) = true := by
  cases change with
  | runtime path => exact beq_self_eq_true path
  | renderer payload path =>
    rw [keeps, Bool.not_eq_true']
    exact s.renderers.isEmpty_insert payload path
  | renderers others => exact decide_eq_true (s.renderers.size_le_size_merge others)

/-- No check stops a run of changes. -/
lemma foldlM_checkedOn (s : Settings) (changes : List Change) :
    changes.foldlM checkedOn s = .ok (changes.foldl applyTo s) := by
  induction changes generalizing s with
  | nil => rfl
  | cons change changes ih =>
    have hchange : checkedOn s change = .ok (change.applyTo s) := if_pos (keeps_applyTo s change)
    rw [List.foldlM_cons, hchange]
    exact ih (change.applyTo s)

end Settings.Change

namespace Renderers

/-- Renderers that are registered by any steps are what the registrations of the steps come to, one
after the other. Extending registries is associative, the one without renderers changes nothing on
either side, and no name is lost by it. The checks of what changes of settings promise stop none of
them, whatever changes are made one after the other. -/
theorem registry_of_steps (steps : List Step) :
    (built steps).IsRegistryOf (registrationsOf steps) ∧
      (∀ r₁ r₂ r₃ : Renderers, (r₁.merge r₂).merge r₃ = r₁.merge (r₂.merge r₃)) ∧
      (∀ renderers : Renderers, renderers.merge .empty = renderers ∧
        NameMap.empty.merge renderers = renderers) ∧
      (∀ renderers others : Renderers, renderers.names ⊆ (renderers.merge others).names ∧
        renderers.size ≤ (renderers.merge others).size) ∧
      ∀ (s : Settings) (changes : List Settings.Change),
        changes.foldlM Settings.Change.checkedOn s =
          .ok (changes.foldl Settings.Change.applyTo s) := by
  refine ⟨isRegistryOf_of_get? (get?_built steps), NameMap.merge_assoc, ?_, ?_, ?_⟩
  · intro renderers
    exact ⟨renderers.merge_empty, renderers.empty_merge⟩
  · intro renderers others
    exact ⟨renderers.names_subset_merge others, renderers.size_le_size_merge others⟩
  · exact Settings.Change.foldlM_checkedOn

/-- The last renderer for `Info` is the last one in the registry that extends the first one, and the
names come in the order of their bytes, in which capital letters are in front of small ones. -/
example : (built [.register "Info" (.ofName "plain"), .withRenderer "card" (.ofName "card"),
      .extend [.register "Info" (.ofName "panel"),
        .withRenderer "Info" (.ofName "note")]]).entries =
    [("Info", .ofName "note"), ("card", .ofName "card")] := by decide

end Renderers

end UnionView
