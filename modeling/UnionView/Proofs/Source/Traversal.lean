import UnionView.Proofs.Source.Selection

/-!
# The order of what is selected

The items of a file are gone through in the order in which they are written, a module in front of
what is inside of it (`traversal`). The selection is made of the items that carry the attribute or
are asked for, in this order, each with what its attributes ask for (`selection_in_order`). So the
selection of several lists is made of those of each of them, and more names only insert items.
-/

namespace UnionView

/-! ### The order of items -/

mutual

/-- An item and, behind it, what is inside of it. -/
def Item.traversal : Item → List Item
  | .module attributes mark name (some contents) =>
    .module attributes mark name (some contents) :: traversal contents
  | item => [item]

/-- The items of a list, each in front of what is inside of it. -/
def traversal : List Item → List Item
  | [] => []
  | item :: rest => item.traversal ++ traversal rest

end

@[simp] lemma traversal_nil : traversal [] = [] := rfl

/-- An item stands in front of its contents, and these stand in front of what follows the item. -/
lemma traversal_cons (item : Item) (rest : List Item) :
    traversal (item :: rest) = item :: (traversal item.contents ++ traversal rest) := by
  rw [traversal]
  cases item with
  | module attributes mark name inner =>
    cases inner with
    | none => rfl
    | some contents => rw [Item.traversal, Item.contents, List.cons_append]
  | enumeration e => rfl
  | named kind attributes mark name => rfl
  | unnamed kind attributes mark => rfl
  | unclassified mark => rfl

/-- The selection is what the items are selected as by themselves, one after the other. -/
lemma selectAll_eq_filterMap (names : List String) (items : List Item) :
    selectAll names items = (traversal items).filterMap (·.selected? names) := by
  match items with
  | [] => rfl
  | item :: rest =>
    have hsize := item.sizeOf_contents_le
    have hcontents := selectAll_eq_filterMap names item.contents
    have hrest := selectAll_eq_filterMap names rest
    rw [selectAll, Item.selection_eq, hcontents, hrest, traversal_cons]
    cases hitem : item.selected? names with
    | none => simp [hitem]
    | some s => simp [hitem]
termination_by sizeOf items

/-! ### One item -/

/-- What the attributes of an item ask for: nothing, a dispatcher with arguments, which may be
faulty, or a dispatcher for a second time, which is a fault at the second attribute whatever the
arguments of the first one are. -/
inductive Attribute.Ask : List Attribute → Option (Except Fault AttributeArguments) → Prop
  | never {attributes : List Attribute} (others : ∀ a ∈ attributes, a.isRequest = false) :
      Ask attributes none
  | once {before after : List Attribute} {a : Attribute} (request : a.isRequest = true)
      (others : ∀ b ∈ before ++ after, b.isRequest = false) :
      Ask (before ++ a :: after) (some a.arguments)
  | again {before between after : List Attribute} {a b : Attribute} (request : a.isRequest = true)
      (repeated : b.isRequest = true) (others : ∀ c ∈ before ++ between, c.isRequest = false) :
      Ask (before ++ a :: (between ++ b :: after)) (some (.error b.repeatedFault))

namespace Item

lemma filter_isRequest_of_others {attributes : List Attribute}
    (h : ∀ a ∈ attributes, a.isRequest = false) : attributes.filter Attribute.isRequest = [] := by
  apply List.filter_eq_nil_iff.mpr
  intro a ha
  simp [h a ha]

/-- What the attributes of an item ask for are its arguments. -/
lemma arguments?_of_ask {item : Item} {asked : Option (Except Fault AttributeArguments)}
    (h : Attribute.Ask item.attributes asked) : item.arguments? = asked := by
  unfold arguments? requests
  generalize item.attributes = attributes at h
  cases h with
  | never others => rw [filter_isRequest_of_others others]
  | once request others =>
    obtain ⟨hbefore, hafter⟩ := List.forall_mem_append.mp others
    rw [List.filter_append, List.filter_cons_of_pos request, filter_isRequest_of_others hbefore,
      filter_isRequest_of_others hafter]
    rfl
  | again request repeated others =>
    obtain ⟨hbefore, hbetween⟩ := List.forall_mem_append.mp others
    rw [List.filter_append, List.filter_cons_of_pos request, List.filter_append,
      List.filter_cons_of_pos repeated, filter_isRequest_of_others hbefore,
      filter_isRequest_of_others hbetween]
    rfl

lemma ask_arguments? (item : Item) : Attribute.Ask item.attributes item.arguments? := by
  unfold arguments? requests
  generalize item.attributes = attributes
  have others {l : List Attribute} (h : ∀ a ∈ l, ¬a.isRequest = true) :
      ∀ a ∈ l, a.isRequest = false := fun a ha => eq_false_of_ne_true (h a ha)
  cases hrequests : attributes.filter Attribute.isRequest with
  | nil => exact .never (others (List.filter_eq_nil_iff.mp hrequests))
  | cons a more =>
    obtain ⟨before, behind, rfl, hbefore, request, hmore⟩ := List.filter_eq_cons_iff.mp hrequests
    cases more with
    | nil =>
      have hbehind := List.filter_eq_nil_iff.mp hmore
      exact .once request (List.forall_mem_append.mpr ⟨others hbefore, others hbehind⟩)
    | cons b more =>
      obtain ⟨between, after, rfl, hbetween, repeated, -⟩ := List.filter_eq_cons_iff.mp hmore
      exact .again request repeated
        (List.forall_mem_append.mpr ⟨others hbefore, others hbetween⟩)

/-- The item carries the attribute, or is asked for by its name. -/
def IsWanted (names : List String) (item : Item) : Prop :=
  (∃ a ∈ item.attributes, a.isRequest = true) ∨ ∃ name ∈ names, item.name? = some name

instance (names : List String) : DecidablePred (IsWanted names) := fun item =>
  inferInstanceAs (Decidable
    ((∃ a ∈ item.attributes, a.isRequest = true) ∨ ∃ name ∈ names, item.name? = some name))

lemma isSome_arguments?_iff {item : Item} :
    item.arguments?.isSome = true ↔ ∃ a ∈ item.attributes, a.isRequest = true := by
  have hask := item.ask_arguments?
  constructor
  · intro hsome
    generalize item.arguments? = asked at hask hsome
    generalize item.attributes = attributes at hask
    cases hask with
    | never others => cases hsome
    | @once before after a request others => exact ⟨a, by simp, request⟩
    | @again before between after a b request repeated others => exact ⟨a, by simp, request⟩
  · rintro ⟨a, ha, request⟩
    cases hnone : item.arguments? with
    | some arguments => rfl
    | none =>
      rw [hnone] at hask
      generalize item.attributes = attributes at hask ha
      cases hask with
      | never others => simp [others a ha] at request

lemma isNamedIn_iff {item : Item} {names : List String} :
    item.isNamedIn names = true ↔ ∃ name ∈ names, item.name? = some name := by
  unfold isNamedIn
  cases item.name? with
  | none => simp
  | some name => simp

/-- An item that is wanted is selected by itself, with its arguments. -/
lemma selected?_eq (item : Item) (names : List String) : item.selected? names =
    if item.IsWanted names then some { item, arguments := item.arguments? } else none := by
  have hwanted : (item.arguments?.isSome || item.isNamedIn names) = true ↔ item.IsWanted names := by
    rw [Bool.or_eq_true, isSome_arguments?_iff, isNamedIn_iff, IsWanted]
  unfold selected?
  by_cases h : item.IsWanted names
  · rw [if_pos h]
    exact if_pos (hwanted.mpr h)
  · rw [if_neg h]
    exact if_neg fun hselected => h (hwanted.mp hselected)

/-- With more names no fewer items are wanted. -/
lemma IsWanted.mono {item : Item} {names wider : List String} (h : item.IsWanted names)
    (hsub : names ⊆ wider) : item.IsWanted wider := by
  rcases h with request | ⟨name, hname, hitem⟩
  · exact .inl request
  · exact .inr ⟨name, hsub hname, hitem⟩

end Item

/-! ### All items -/

/-- What is selected of several items. -/
structure Selects (names : List String) (items : List Item) (selection : List Selected) : Prop where
  /-- The items that are wanted, each once and in the order in which they stand. -/
  inOrder : selection.map Selected.item = (traversal items).filter (Item.IsWanted names)
  /-- They are all that are wanted, at any depth, whether or not the modules around them are. -/
  complete : ∀ item : Item,
    (∃ s ∈ selection, s.item = item) ↔ item.IsAmong items ∧ item.IsWanted names
  /-- Each has the arguments that its attributes ask for. -/
  arguments : ∀ s ∈ selection, ∀ asked, s.arguments = asked ↔ Attribute.Ask s.item.attributes asked

variable {names : List String} {items : List Item}

lemma map_item_selectAll : (selectAll names items).map Selected.item =
    (traversal items).filter (Item.IsWanted names) := by
  have hguard : (fun item : Item => (item.selected? names).map Selected.item) =
      Option.guard fun item => Item.IsWanted names item := by
    funext item
    rw [Item.selected?_eq]
    by_cases h : item.IsWanted names
    · simp [h, Option.guard]
    · simp [h, Option.guard]
  rw [selectAll_eq_filterMap, List.map_filterMap, hguard, List.filterMap_eq_filter]

lemma exists_item_selectAll_iff (item : Item) :
    (∃ s ∈ selectAll names items, s.item = item) ↔ item.IsAmong items ∧ item.IsWanted names := by
  constructor
  · rintro ⟨s, hs, rfl⟩
    obtain ⟨hamong, hselected⟩ := mem_selectAll_iff.mp hs
    rw [Item.selected?_eq, Option.ite_none_right_eq_some] at hselected
    exact ⟨hamong, hselected.1⟩
  · rintro ⟨hamong, hwanted⟩
    refine ⟨⟨item, item.arguments?⟩, mem_selectAll_of_isAmong hamong ?_, rfl⟩
    rw [Item.selected?_eq, if_pos hwanted]

lemma ask_of_mem_selectAll {s : Selected} (h : s ∈ selectAll names items)
    (asked : Option (Except Fault AttributeArguments)) :
    s.arguments = asked ↔ Attribute.Ask s.item.attributes asked := by
  obtain ⟨-, hselected⟩ := mem_selectAll_iff.mp h
  rw [Item.selected?_eq, Option.ite_none_right_eq_some] at hselected
  have harguments : s.arguments = s.item.arguments? :=
    (congrArg Selected.arguments (Option.some.inj hselected.2)).symm
  rw [harguments]
  constructor
  · rintro rfl
    exact s.item.ask_arguments?
  · exact Item.arguments?_of_ask

/-- What is selected with fewer names is selected with more names, too, in the same order. -/
lemma selectAll_sublist {wider : List String} (hsub : names ⊆ wider) (items : List Item) :
    (selectAll names items).Sublist (selectAll wider items) := by
  rw [selectAll_eq_filterMap, selectAll_eq_filterMap]
  induction traversal items with
  | nil => exact List.Sublist.slnil
  | cons item rest ih =>
    rw [List.filterMap_cons, List.filterMap_cons, Item.selected?_eq, Item.selected?_eq]
    by_cases h : item.IsWanted names
    · rw [if_pos h, if_pos (h.mono hsub)]
      exact ih.cons_cons _
    · rw [if_neg h]
      by_cases hwider : item.IsWanted wider
      · rw [if_pos hwider]
        exact ih.cons _
      · rw [if_neg hwider]
        exact ih

/-- Selected are the items that carry the attribute or are asked for, each once and in the order in
which they stand. Lists are selected from one after the other, and with more names items are only
inserted. -/
theorem selection_in_order (names : List String) (items : List Item) :
    Selects names items (selectAll names items) ∧
      (∀ more, selectAll names (items ++ more) = selectAll names items ++ selectAll names more) ∧
      ∀ wider, names ⊆ wider → (selectAll names items).Sublist (selectAll wider items) := by
  refine ⟨⟨map_item_selectAll, exists_item_selectAll_iff, fun s => ask_of_mem_selectAll⟩, ?_, ?_⟩
  · intro more
    exact selectAll_append names items more
  · intro wider hsub
    exact selectAll_sublist hsub items

/-- An attribute without arguments that asks for a dispatcher. -/
def bareRequest (mark : Mark) : Attribute where
  mark
  content :=
    { mark := mark - 2, nameMark := mark - 2, path := .ofName Attribute.requestName, form := .bare }

/-- A module with the attribute, an enumeration inside of it with the attribute written twice, and a
structure behind it. -/
def screenItems : List Item :=
  [.module [bareRequest 30] 26 "screens" (some [.enumeration
      { attributes := [bareRequest 23, bareRequest 19], keyword := 15, name := "Inner",
        nameMark := 14, variants := [] }]),
    .named .struct [] 2 "Details"]

/-- The structure is inserted if it is asked for, and the second attribute of the enumeration is a
fault. -/
theorem selection_of_screenItems :
    ([] : List String) ⊆ ["Details"] ∧
      (selectAll [] screenItems).map (·.item.name?) = [some "screens", some "Inner"] ∧
      (selectAll ["Details"] screenItems).map (·.item.name?) =
        [some "screens", some "Inner", some "Details"] ∧
      (selectAll ["Details"] screenItems).map (·.arguments) =
        [some (.ok {}), some (.error { cause := .repeatedAttribute, mark := 19 }), none] ∧
      Selects ["Details"] screenItems (selectAll ["Details"] screenItems) ∧
      (selectAll [] screenItems).Sublist (selectAll ["Details"] screenItems) := by
  have hsub : ([] : List String) ⊆ ["Details"] := List.nil_subset _
  refine ⟨hsub, by decide, by decide, rfl, (selection_in_order _ _).1, ?_⟩
  exact (selection_in_order [] screenItems).2.2 ["Details"] hsub

end UnionView
