import UnionView.Grammar.File
import UnionView.Proofs.Syntax.Reader

/-!
# Items and the attributes in front of them

Of all readers of items only `Read.enumeration` answers an enumeration, and `Read.item` runs it
exactly where the word `enum` follows the visibility (`item_eq_ok_enumeration`). What it reads does
not depend on the attributes in front of the item, which it takes over as they are. Only
`Read.module` answers a module, and all other readers take over the attributes as well, unless what
they read is not understood (`item_eq_ok_cases`).
-/

namespace UnionView

open Reader

/-- The item is neither an enumeration nor a module, and the attributes in front of it are the
first of its attributes, unless it is not understood. -/
def Item.IsOther (attributes : List Attribute) : Item → Prop
  | .enumeration _ => False
  | .module _ _ _ _ => False
  | .named _ own _ _ => attributes <+: own
  | .unnamed _ own _ => attributes <+: own
  | .unclassified _ => True

/-- The item is a module, and the attributes in front of it are the first of its attributes. -/
def Item.IsModule (attributes : List Attribute) (item : Item) : Prop :=
  ∃ inner mark name contents, item = .module (attributes ++ inner) mark name contents

def Item.IsNoEnumeration (item : Item) : Prop :=
  ∀ e, item ≠ .enumeration e

/-- Whatever the item is, the attributes in front of it are the first of its attributes, unless it
is not understood. -/
def Item.Keeps (attributes : List Attribute) (item : Item) : Prop :=
  (∃ mark, item = .unclassified mark) ∨ attributes <+: item.attributes

namespace Item

variable {attributes : List Attribute} {item : Item}

lemma IsOther.isNoEnumeration (h : item.IsOther attributes) : item.IsNoEnumeration := by
  rintro e rfl
  exact h

lemma IsModule.isNoEnumeration (h : item.IsModule attributes) : item.IsNoEnumeration := by
  obtain ⟨inner, mark, name, contents, rfl⟩ := h
  nofun

lemma IsModule.keeps (h : item.IsModule attributes) : item.Keeps attributes := by
  obtain ⟨inner, mark, name, contents, rfl⟩ := h
  exact .inr (List.prefix_append _ _)

lemma IsOther.keeps (h : item.IsOther attributes) : item.Keeps attributes := by
  cases item with
  | enumeration => exact h.elim
  | module => exact h.elim
  | named => exact .inr h
  | unnamed => exact .inr h
  | unclassified mark => exact .inl ⟨mark, rfl⟩

end Item

namespace Read

variable (g : Grammar)

/-! ### Items that are no enumerations -/

lemma function_isOther (start : Mark) (attributes : List Attribute) :
    (function g start attributes).Answers (Item.IsOther attributes) :=
  .bind fun _ => .bind fun _ => .ite (.pure trivial)
    (.bind fun _ => .pure (List.prefix_append _ _))

lemma useDeclaration_isOther (start : Mark) (attributes : List Attribute) :
    (useDeclaration g start attributes).Answers (Item.IsOther attributes) := by
  refine .bind fun _ => .bind fun _ => .bind fun _ => .bind fun _ => .bind fun _ => .pure ?_
  split
  · exact List.prefix_rfl
  · trivial

lemma staticItem_isOther (start : Mark) (attributes : List Attribute) :
    (staticItem g start attributes).Answers (Item.IsOther attributes) := by
  refine .bind fun _ => .bind fun _ => .bind fun _ => .bind fun _ => .bind fun _ => .ite ?_ ?_
  · exact .bind fun _ => .bind fun _ => .pure trivial
  · exact .bind fun _ => .bind fun _ => .bind fun _ => .ite (.pure trivial)
      (.bind fun _ => .bind fun _ => .bind fun _ => .pure List.prefix_rfl)

lemma constant_isOther (start : Mark) (attributes : List Attribute) :
    (constant g start attributes).Answers (Item.IsOther attributes) := by
  refine .bind fun _ => .bind fun _ => .bind fun _ => .pure ?_
  split
  · exact List.prefix_rfl
  · trivial

lemma typeItem_isOther (start : Mark) (attributes : List Attribute) :
    (typeItem g start attributes).Answers (Item.IsOther attributes) :=
  .bind fun _ => .ite (.pure List.prefix_rfl) (.pure trivial)

lemma struct_isOther (attributes : List Attribute) :
    (struct g attributes).Answers (Item.IsOther attributes) :=
  .bind fun _ => .bind fun _ => .bind fun _ => .bind fun _ => .bind fun _ =>
    .pure List.prefix_rfl

lemma union_isOther (attributes : List Attribute) :
    (union g attributes).Answers (Item.IsOther attributes) :=
  .bind fun _ => .bind fun _ => .bind fun _ => .bind fun _ => .bind fun _ => .bind fun _ =>
    .pure List.prefix_rfl

lemma externCrate_isOther (attributes : List Attribute) :
    (externCrate attributes).Answers (Item.IsOther attributes) := by
  refine .bind fun _ => .bind fun _ => .bind fun _ => .bind fun _ => ?_
  extract_lets behindName
  have hname : ∀ name, (behindName name).Answers (Item.IsOther attributes) := by
    intro name
    refine .bind fun _ => ?_
    extract_lets behindAlias
    have halias : ∀ u, (behindAlias u).Answers (Item.IsOther attributes) := fun _ =>
      .bind fun _ => .pure List.prefix_rfl
    exact .ite (.bind fun _ => .ite (.bind halias) (.bind fun _ => halias ())) (halias ())
  exact .ite (.bind hname) (.bind hname)

lemma externBlock_isOther (start : Mark) (attributes : List Attribute) :
    (externBlock g start attributes).Answers (Item.IsOther attributes) := by
  refine .bind fun _ => .bind fun _ => ?_
  extract_lets behindWord
  have hword : ∀ u, (behindWord u).Answers (Item.IsOther attributes) := fun _ =>
    .bind fun _ => .bind fun _ => .pure (List.prefix_append _ _)
  exact .ite (.bind hword) (hword ())

lemma externItem_isOther (start : Mark) (attributes : List Attribute) (visible : Option Mark) :
    (externItem g start attributes visible).Answers (Item.IsOther attributes) := by
  refine .bind fun second => ?_
  split
  · exact externCrate_isOther attributes
  · split
    · exact .failAt _ _
    · exact externBlock_isOther g start attributes
  · exact .bind fun _ => .bind fun _ => .ite (.unexpected _) (.unexpected _)

lemma traitRest_isOther (attributes : List Attribute) (keyword : Mark) (name : String) :
    (traitRest g attributes keyword name).Answers (Item.IsOther attributes) := by
  refine .bind fun _ => ?_
  extract_lets behindBounds
  have hbounds : ∀ u, (behindBounds u).Answers (Item.IsOther attributes) := fun _ =>
    .bind fun _ => .bind fun _ => .pure (List.prefix_append _ _)
  exact .ite (.bind hbounds) (hbounds ())

lemma modifiedTrait_isOther (attributes : List Attribute) :
    (modifiedTrait g attributes).Answers (Item.IsOther attributes) :=
  .bind fun _ => .bind fun _ => .bind fun keyword => .bind fun _ => .bind fun name =>
    .bind fun _ => traitRest_isOther g attributes keyword name

lemma trait_isOther (attributes : List Attribute) :
    (trait g attributes).Answers (Item.IsOther attributes) := by
  refine .bind fun keyword => .bind fun _ => .bind fun name => .bind fun _ => .bind fun _ => ?_
  refine .ite (traitRest_isOther g attributes keyword name) (.bind fun _ => .ite ?_ ?_)
  · exact .bind fun _ => .bind fun _ => .bind fun _ => .pure List.prefix_rfl
  · exact .unexpected _

lemma implementation_isOther (start : Mark) (attributes : List Attribute) (visible : Bool) :
    (implementation g start attributes visible).Answers (Item.IsOther attributes) := by
  refine .bind fun _ => .bind fun _ => .bind fun _ => .bind fun _ => .bind fun _ => ?_
  -- behind every optional part the reader goes on with a part of its own
  extract_lets behindParameters
  have hparameters : ∀ u, (behindParameters u).Answers (Item.IsOther attributes) := by
    intro u
    refine .bind fun _ => .bind fun _ => .bind fun _ => ?_
    extract_lets constant behindConst
    have hconst : ∀ u, (behindConst u).Answers (Item.IsOther attributes) := by
      intro u
      refine .bind fun _ => .bind fun _ => .bind fun _ => ?_
      extract_lets behindSign
      have hsign : ∀ negative, (behindSign negative).Answers (Item.IsOther attributes) := by
        intro negative
        refine .bind fun _ => .bind fun _ => ?_
        extract_lets isTrait behindType
        have htype : ∀ u, (behindType u).Answers (Item.IsOther attributes) := by
          intro u
          refine .bind fun _ => .bind fun _ => .pure ?_
          split
          · trivial
          · exact List.prefix_append _ _
        exact .ite (.bind fun _ => htype ()) (.ite (.bind htype) (htype ()))
      exact .ite (.bind hsign) (.bind hsign)
    exact .ite (.bind fun _ => .bind hconst) (hconst ())
  exact .ite (.bind fun _ => hparameters ()) (hparameters ())

lemma definition_isOther (start : Mark) (attributes : List Attribute) :
    (definition start).Answers (Item.IsOther attributes) := by
  refine .bind fun _ => .bind fun _ => .bind fun _ => ?_
  extract_lets behindArguments
  have harguments : ∀ u, (behindArguments u).Answers (Item.IsOther attributes) := fun _ =>
    .bind fun _ => .ite (.bind fun _ => .pure trivial) (.ite (.unexpected _) (.unexpected _))
  exact .ite (.bind harguments) (harguments ())

/-! ### Modules -/

lemma module_isModule (attributes : List Attribute) :
    (module g attributes).Answers (Item.IsModule attributes) := by
  refine .bind fun _ => .bind fun keyword => .bind fun _ => .bind fun _ => ?_
  extract_lets behindName
  have hname : ∀ name, (behindName name).Answers (Item.IsModule attributes) := by
    refine fun name => .bind fun _ => .ite (.pure ⟨[], keyword, name, none, ?_⟩) (.bind fun _ => ?_)
    · rw [List.append_nil]
    · exact .ite (.bind fun r => .pure ⟨r.1, keyword, name, some r.2, rfl⟩) (.unexpected _)
  exact .ite (.bind hname) (.bind hname)

/-- What begins with `unsafe` is a module or no module at all. -/
lemma unsafeItem_eq_ok {start : Mark} {attributes : List Attribute} {visible : Option Mark}
    {c d : Cursor} {item : Item}
    (h : unsafeItem g start attributes visible c = .ok (item, d)) :
    item.IsOther attributes ∨ module g attributes c = .ok (item, d) := by
  obtain ⟨_, -, h⟩ := (looks_peekSecond _).exists_of_bind h
  obtain ⟨_, -, h⟩ := (looks_peekSecond _).exists_of_bind h
  obtain ⟨_, -, h⟩ := (looks_peekThird _).exists_of_bind h
  split at h
  · exact .inl (modifiedTrait_isOther g attributes h)
  obtain ⟨_, -, h⟩ := (looks_peekSecond _).exists_of_bind h
  split at h
  · exact .inl (implementation_isOther g start attributes _ h)
  obtain ⟨_, -, h⟩ := (looks_peekSecond _).exists_of_bind h
  split at h
  · cases visible with
    | some place => exact absurd h (failAt_ne_ok _ _ _ _)
    | none => exact .inl (externBlock_isOther g start attributes h)
  obtain ⟨_, -, h⟩ := (looks_peekSecond _).exists_of_bind h
  split at h
  · exact .inr h
  · obtain ⟨_, _, -, h⟩ := bind_eq_ok.mp h
    exact absurd h (unexpected_ne_ok _ _ _)

/-! ### The choice of the reader -/

/-- Where an enumeration was read, a condition for something else did not hold. -/
lemma else_of_isNoEnumeration {look : Reader Bool} {p q : Reader Item} {c d : Cursor}
    {e : Enumeration} (hlook : look.Looks) (hp : p.Answers Item.IsNoEnumeration)
    (h : (look >>= fun b => if b then p else q) c = .ok (.enumeration e, d)) :
    look c = .ok (false, c) ∧ q c = .ok (.enumeration e, d) := by
  obtain ⟨b, hlooked, h⟩ := hlook.exists_of_bind h
  cases b with
  | false => exact ⟨hlooked, h⟩
  | true => exact absurd rfl (hp h e)

lemma or_of_ok {look : Reader Bool} {p q : Reader Item} {c : Cursor} {r : Item × Cursor}
    (hlook : look.Looks) (h : (look >>= fun b => if b then p else q) c = .ok r) :
    p c = .ok r ∨ q c = .ok r := by
  obtain ⟨b, -, h⟩ := hlook.exists_of_bind h
  cases b with
  | false => exact .inr h
  | true => exact .inl h

lemma else_of_ok {look : Reader Bool} {p q : Reader Item} {c : Cursor}
    (h : look c = .ok (false, c)) : (look >>= fun b => if b then p else q) c = q c := by
  rw [bind_of_ok h]
  rfl

lemma then_of_ok {look : Reader Bool} {p q : Reader Item} {c : Cursor}
    (h : look c = .ok (true, c)) : (look >>= fun b => if b then p else q) c = p c := by
  rw [bind_of_ok h]
  rfl

lemma looks_startsSignature (allowSafe : Bool) : (startsSignature allowSafe).Looks :=
  looks_ahead _

/-- What `item` reads where no enumeration begins, behind the forms that are tried before. -/
lemma behindEnumeration_isOther (start : Mark) (attributes : List Attribute)
    (visible : Option Mark) :
    (do
      if (← peekWord "union") && (← peekSecond .identifier) then union g attributes
      else if ← peekWord "trait" then trait g attributes
      else if (← peekWord "auto") && (← peekSecond (.word "trait")) then modifiedTrait g attributes
      else if (← peekWord "impl") ||
          ((← peekWord "default") && !(← peekSecond (.operator "!"))) then
        implementation g start attributes visible.isSome
      else if ← peekWord "macro" then definition start
      else if visible.isNone && (← peekAny invocationStarts) then
        invocationItem
        return .unnamed .invocation attributes start
      else unexpected (itemStarts ++ if visible.isNone then invocationStarts else [])).Answers
    (Item.IsOther attributes) := by
  refine .bind fun _ => .bind fun _ => .ite (union_isOther g attributes) (.bind fun _ => ?_)
  refine .ite (trait_isOther g attributes) (.bind fun _ => .bind fun _ => ?_)
  refine .ite (modifiedTrait_isOther g attributes)
    (.bind fun _ => .bind fun _ => .bind fun _ => ?_)
  refine .ite (implementation_isOther g start attributes _) (.bind fun _ => ?_)
  refine .ite (definition_isOther start attributes) (.bind fun _ => ?_)
  exact .ite (.bind fun _ => .pure List.prefix_rfl) (.unexpected _)

/-- An item that is an enumeration is read by `enumeration`, and so is every item that begins in
the same way, whatever attributes it has. -/
lemma item_eq_ok_enumeration {start : Mark} {attributes : List Attribute} {c d : Cursor}
    {e : Enumeration} (h : item g start attributes c = .ok (.enumeration e, d)) :
    ∃ written c', visibility c = .ok (written, c') ∧
      enumeration g attributes written c' = .ok (.enumeration e, d) ∧
      ∀ start' attributes', item g start' attributes' c = enumeration g attributes' written c' := by
  obtain ⟨_, _, ⟨⟩, h⟩ := bind_eq_ok.mp h
  obtain ⟨written, c', hvisibility, h⟩ := bind_eq_ok.mp h
  have hpeek (text : String) : (peekWord text).Looks := looks_peek _
  have hother {p : Reader Item} (hp : p.Answers (Item.IsOther attributes)) :
      p.Answers Item.IsNoEnumeration := fun _ _ _ hrun => (hp hrun).isNoEnumeration
  have hmodifiers (visible : Option Mark) :
      (unsafeItem g start attributes visible).Answers Item.IsNoEnumeration := fun _ _ _ hrun =>
    (unsafeItem_eq_ok g hrun).elim (·.isNoEnumeration)
      fun hmodule => (module_isModule g attributes hmodule).isNoEnumeration
  have hmodule : (module g attributes).Answers Item.IsNoEnumeration := fun _ _ _ hrun =>
    (module_isModule g attributes hrun).isNoEnumeration
  -- a condition that holds leads to another item, so each of them failed on the same cursor
  obtain ⟨hfn, h⟩ := else_of_isNoEnumeration (looks_startsSignature _)
    (hother (function_isOther g start attributes)) h
  obtain ⟨hforeign, h⟩ :=
    else_of_isNoEnumeration (hpeek _) (hother (externItem_isOther g start attributes _)) h
  obtain ⟨huse, h⟩ :=
    else_of_isNoEnumeration (hpeek _) (hother (useDeclaration_isOther g start attributes)) h
  obtain ⟨hstatic, h⟩ :=
    else_of_isNoEnumeration (hpeek _) (hother (staticItem_isOther g start attributes)) h
  obtain ⟨hconst, h⟩ :=
    else_of_isNoEnumeration (hpeek _) (hother (constant_isOther g start attributes)) h
  obtain ⟨hmodified, h⟩ := else_of_isNoEnumeration (hpeek _) (hmodifiers _) h
  obtain ⟨hmod, h⟩ := else_of_isNoEnumeration (hpeek _) hmodule h
  obtain ⟨htype, h⟩ :=
    else_of_isNoEnumeration (hpeek _) (hother (typeItem_isOther g start attributes)) h
  obtain ⟨hstruct, h⟩ :=
    else_of_isNoEnumeration (hpeek _) (hother (struct_isOther g attributes)) h
  obtain ⟨isEnum, henum, h⟩ := (hpeek _).exists_of_bind h
  cases isEnum with
  | false => exact (behindEnumeration_isOther g start attributes _ h).elim
  | true =>
    refine ⟨written, c', hvisibility, h, fun start' attributes' => ?_⟩
    unfold item
    rw [bind_of_ok (mark_apply c), bind_of_ok hvisibility]
    rw [else_of_ok hfn, else_of_ok hforeign, else_of_ok huse, else_of_ok hstatic, else_of_ok hconst,
      else_of_ok hmodified, else_of_ok hmod, else_of_ok htype, else_of_ok hstruct, then_of_ok henum]

/-- An item is read as a module, as an enumeration or as something else. -/
lemma item_eq_ok_cases {start : Mark} {attributes : List Attribute} {c d : Cursor} {found : Item}
    (h : item g start attributes c = .ok (found, d)) :
    ∃ written c', visibility c = .ok (written, c') ∧ (found.IsOther attributes ∨
      module g attributes c' = .ok (found, d) ∨
      enumeration g attributes written c' = .ok (found, d)) := by
  obtain ⟨_, _, ⟨⟩, h⟩ := bind_eq_ok.mp h
  obtain ⟨written, c', hvisibility, h⟩ := bind_eq_ok.mp h
  refine ⟨written, c', hvisibility, ?_⟩
  have hpeek (text : String) : (peekWord text).Looks := looks_peek _
  obtain h | h := or_of_ok (looks_startsSignature _) h
  · exact .inl (function_isOther g start attributes h)
  obtain h | h := or_of_ok (hpeek _) h
  · exact .inl (externItem_isOther g start attributes _ h)
  obtain h | h := or_of_ok (hpeek _) h
  · exact .inl (useDeclaration_isOther g start attributes h)
  obtain h | h := or_of_ok (hpeek _) h
  · exact .inl (staticItem_isOther g start attributes h)
  obtain h | h := or_of_ok (hpeek _) h
  · exact .inl (constant_isOther g start attributes h)
  obtain h | h := or_of_ok (hpeek _) h
  · exact (unsafeItem_eq_ok g h).imp_right .inl
  obtain h | h := or_of_ok (hpeek _) h
  · exact .inr (.inl h)
  obtain h | h := or_of_ok (hpeek _) h
  · exact .inl (typeItem_isOther g start attributes h)
  obtain h | h := or_of_ok (hpeek _) h
  · exact .inl (struct_isOther g attributes h)
  obtain h | h := or_of_ok (hpeek _) h
  · exact .inr (.inr h)
  · exact .inl (behindEnumeration_isOther g start attributes _ h)

/-! ### Enumerations -/

/-- An enumeration begins with its keyword and its name. Nothing else is said of the attributes
than that they are taken over. -/
lemma enumeration_eq_ok {attributes : List Attribute} {written : Code} {c d : Cursor}
    {e : Enumeration} (h : enumeration g attributes written c = .ok (.enumeration e, d)) :
    e.attributes = attributes ∧ e.keyword = c.mark ∧
      (∃ rest, c.rest = .ident "enum" :: .ident e.name :: rest) ∧
      ∀ attributes', enumeration g attributes' written c =
        .ok (.enumeration { e with attributes := attributes' }, d) := by
  obtain ⟨_, _, ⟨⟩, h⟩ := bind_eq_ok.mp h
  obtain ⟨_, c₁, hword, h⟩ := bind_eq_ok.mp h
  obtain ⟨_, _, ⟨⟩, h⟩ := bind_eq_ok.mp h
  obtain ⟨name, c₂, hname, h⟩ := bind_eq_ok.mp h
  obtain ⟨generics, c₃, hgenerics, h⟩ := bind_eq_ok.mp h
  obtain ⟨predicates, c₄, hpredicates, h⟩ := bind_eq_ok.mp h
  obtain ⟨variants, c₅, hvariants, ⟨⟩⟩ := bind_eq_ok.mp h
  refine ⟨rfl, rfl, ⟨c₂.rest, ?_⟩, fun attributes' => ?_⟩
  · rw [word_eq_ok hword, identifier_eq_ok hname]
  · unfold enumeration
    rw [bind_of_ok (mark_apply c), bind_of_ok hword, bind_of_ok (mark_apply c₁), bind_of_ok hname,
      bind_of_ok hgenerics, bind_of_ok hpredicates, bind_of_ok hvariants]
    rfl

lemma enumeration_isEnumeration (attributes : List Attribute) (written : Code) :
    (enumeration g attributes written).Answers fun item =>
      ∃ e, item = .enumeration e ∧ e.attributes = attributes :=
  .bind fun _ => .bind fun _ => .bind fun _ => .bind fun _ => .bind fun _ => .bind fun _ =>
    .bind fun _ => .pure ⟨_, rfl, rfl⟩

/-! ### Attributes -/

/-- The attributes in front of an item are the first of its attributes, unless the item is not
understood. -/
lemma item_keeps (start : Mark) (attributes : List Attribute) :
    (item g start attributes).Answers (Item.Keeps attributes) := by
  intro c found d h
  obtain ⟨written, c', -, hother | hmodule | henumeration⟩ := item_eq_ok_cases g h
  · exact hother.keeps
  · exact (module_isModule g attributes hmodule).keeps
  · obtain ⟨e, rfl, rfl⟩ := enumeration_isEnumeration g attributes written henumeration
    exact .inr List.prefix_rfl

end Read

end UnionView
