import UnionView.Attribute.Attachment
import UnionView.Proofs.Attribute.Layering
import UnionView.Proofs.Dispatch.Outcome
import UnionView.Proofs.Failure

/-!
# What is attached to a declaration

What comes back for a declaration is the declaration and, only if it is an enumeration that does
not ask a second time, its dispatcher. `Code.Attaches` says which of the three cases holds and what
is said in it; `attachment_outcome` says that there is no other one.
-/

namespace UnionView

/-- No attribute of the item asks for a dispatcher. -/
def Item.IsSilent (item : Item) : Prop :=
  ∀ a ∈ item.attributes, a.isRequest = false

/-- What comes back for a declaration, with settings that are known. -/
inductive Code.Attaches (declaration : Code) (settings : Settings) : Attachment → Prop
  /-- An item that asks again: one error, which points at the first attribute that does. -/
  | again {item : Item} {first : Attribute} (parsed : declaration.item? = .ok item)
      (asks : item.attributes.find? Attribute.isRequest = some first) :
      Attaches declaration settings
        { code := declaration
          notices := [⟨.error, Cause.repeatedAttribute.wording, first.mark⟩] }
  /-- An enumeration: its dispatcher behind it, and a warning if it has no variants. -/
  | dispatcher {e : Enumeration} {a : Artifact} (parsed : declaration.item? = .ok (.enumeration e))
      (silent : (Item.enumeration e).IsSilent)
      (artifact : ((Item.enumeration e).expand settings).artifact = some a) :
      Attaches declaration settings
        { code := declaration ++ a.code
          notices := if e.variants = [] then [⟨.warning, emptyUnionMessage, e.keyword⟩] else [] }
  /-- Anything else, an item or not: one error, which says what it is. -/
  | refused {e : NotAUnion} (other : ∀ e, declaration.item? ≠ .ok (.enumeration e))
      (silent : ∀ item, declaration.item? = .ok item → item.IsSilent)
      (error : declaration.extract = .error e) :
      Attaches declaration settings
        { code := declaration, notices := [⟨.error, e.message, e.mark⟩] }

namespace Code

variable {declaration : Code} {settings : Settings}

lemma request?_eq_some_iff {a : Attribute} :
    declaration.request? = some a ↔ ∃ item, declaration.item? = .ok item ∧
      item.attributes.find? Attribute.isRequest = some a := by
  unfold request? Item.requests
  cases declaration.item? <;> simp [List.head?_filter]

lemma request?_eq_none_iff :
    declaration.request? = none ↔ ∀ item, declaration.item? = .ok item → item.IsSilent := by
  unfold request? Item.requests Item.IsSilent
  cases declaration.item? <;> simp [List.head?_filter]

/-- What an expansion of an enumeration has to say. -/
lemma notices_expand (e : Enumeration) :
    ((Item.enumeration e).expand settings).findings.map Notice.ofFinding =
      if e.variants = [] then [⟨.warning, emptyUnionMessage, e.keyword⟩] else [] := by
  have hfindings := e.toUnion.findings_expand settings
  have hempty : e.toUnion.variants.isEmpty = decide (e.variants = []) := by
    cases hvariants : e.variants <;> simp [Enumeration.toUnion, hvariants]
  rw [hempty] at hfindings
  show (e.toUnion.expand settings).findings.map Notice.ofFinding = _
  rw [hfindings]
  by_cases hvariants : e.variants = []
  · simp only [hvariants, decide_true, if_true]
    rfl
  · simp only [hvariants, decide_false, Bool.false_eq_true, if_false]
    rfl

/-- What is no enumeration is not extracted, and its expansion says why. -/
lemma exists_expand_eq_failed (other : ∀ e, declaration.item? ≠ .ok (.enumeration e)) :
    ∃ e, declaration.extract = .error e ∧ declaration.expand settings = .failed e := by
  rw [expand_eq_stages]
  cases hextract : declaration.extract with
  | error e => exact ⟨e, rfl, rfl⟩
  | ok u =>
    unfold extract at hextract
    cases hitem : declaration.item? with
    | error fault =>
      rw [hitem] at hextract
      cases hextract
    | ok item =>
      rw [hitem] at hextract
      cases item with
      | enumeration e => exact absurd hitem (other e)
      | module | named | unnamed | unclassified => cases hextract

/-- What comes back once the settings are known. -/
def attached (declaration : Code) (settings : Settings) : Attachment :=
  match declaration.request? with
  | some again => { code := declaration, notices := [.ofFault again.repeatedFault] }
  | none =>
    { code := declaration ++ (declaration.expand settings).code
      notices := (declaration.expand settings).findings.map .ofFinding }

/-- The arguments decide on the settings and on nothing else. -/
lemma attach_eq_map (arguments declaration : Code) :
    arguments.attach declaration = (AttributeArguments.ofCode arguments).map fun read =>
      declaration.attached (read.applyTo {}) := by
  unfold attach attached
  cases AttributeArguments.ofCode arguments with
  | error fault => rfl
  | ok read =>
    cases declaration.request? with
    | some again => rfl
    | none => rfl

/-- Every declaration is in one of the three cases. -/
lemma attaches_attached (declaration : Code) (settings : Settings) :
    declaration.Attaches settings (declaration.attached settings) := by
  unfold attached
  cases hrequest : declaration.request? with
  | some again =>
    obtain ⟨item, hitem, hasks⟩ := request?_eq_some_iff.mp hrequest
    exact .again hitem hasks
  | none =>
    have hsilent := request?_eq_none_iff.mp hrequest
    by_cases hunion : ∃ e, declaration.item? = .ok (.enumeration e)
    · obtain ⟨e, he⟩ := hunion
      have hexpand : declaration.expand settings = (Item.enumeration e).expand settings := by
        simp only [expand, he]
      simp only [hexpand, notices_expand]
      exact .dispatcher he (hsilent _ he) rfl
    · have hother : ∀ e, declaration.item? ≠ .ok (.enumeration e) := fun e he => hunion ⟨e, he⟩
      obtain ⟨e, hextract, hexpand⟩ := exists_expand_eq_failed hother
      have hcode : declaration ++ (Expansion.failed e).code = declaration := List.append_nil _
      show declaration.Attaches settings { code := _ ++ _, notices := _ }
      rw [hexpand, hcode]
      exact .refused hother hsilent hextract

/-- Each case settles what comes back. -/
lemma Attaches.eq_attached {attachment : Attachment}
    (h : declaration.Attaches settings attachment) :
    attachment = declaration.attached settings := by
  unfold attached
  cases h with
  | again parsed asks =>
    rw [request?_eq_some_iff.mpr ⟨_, parsed, asks⟩]
    rfl
  | @dispatcher e a parsed silent artifact =>
    have hsilent : declaration.request? = none := by
      refine request?_eq_none_iff.mpr fun item hitem => ?_
      rw [parsed] at hitem
      cases hitem
      exact silent
    have hexpand : declaration.expand settings = (Item.enumeration e).expand settings := by
      simp only [expand, parsed]
    have hcode : ((Item.enumeration e).expand settings).code = a.code := by
      simp only [Expansion.code, artifact]
    simp only [hsilent, hexpand, hcode, notices_expand]
  | @refused e other silent error =>
    obtain ⟨e', hextract, hexpand⟩ : ∃ e', declaration.extract = .error e' ∧
        declaration.expand settings = .failed e' := exists_expand_eq_failed other
    rw [error] at hextract
    cases hextract
    have hcode : declaration ++ (Expansion.failed e).code = declaration := List.append_nil _
    simp only [request?_eq_none_iff.mpr silent, hexpand, hcode]
    rfl

end Code

/-- Nothing comes back exactly if the arguments are faulty, and then there is the one fault.
Otherwise the declaration comes back as it was, with what its case says and with nothing else. The
settings are the default ones with the arguments laid over them. -/
theorem attachment_outcome (arguments declaration : Code) :
    (∀ fault, arguments.attach declaration = .error fault ↔
      AttributeArguments.ofCode arguments = .error fault) ∧
    ∀ attachment, arguments.attach declaration = .ok attachment ↔
      ∃ read settings, AttributeArguments.ofCode arguments = .ok read ∧
        read.LaidOver {} settings ∧ declaration.Attaches settings attachment := by
  rw [Code.attach_eq_map]
  cases hread : AttributeArguments.ofCode arguments with
  | error fault' =>
    constructor
    · intro fault
      simp [Except.map]
    · intro attachment
      simp [Except.map]
  | ok read =>
    have hlaid := AttributeArguments.laidOver_applyTo
      (AttributeArguments.nodup_of_ofCode hread) {}
    refine ⟨fun fault => by simp [Except.map], fun attachment => ?_⟩
    constructor
    · intro h
      cases h
      exact ⟨read, _, rfl, hlaid, Code.attaches_attached declaration _⟩
    · rintro ⟨_, settings, ⟨⟩, hsettings, h⟩
      rw [h.eq_attached, hsettings.unique hlaid]
      rfl

end UnionView
