import Mathlib.Tactic.Lemma
import UnionView.Source.Selection

/-!
# What is selected of a file

An item is selected by itself, wherever it stands among the items of a file and of the modules in it
(`mem_selectAll_iff`). So a name that is asked for is that of a selected item exactly if it is that
of any item (`exists_selected_named_iff`).
-/

namespace UnionView

namespace Item

/-- The items inside of a module. -/
def contents : Item → List Item
  | .module _ _ _ (some contents) => contents
  | _ => []

/-- An item is one of several, or stands inside of a module among them at any depth. -/
inductive IsAmong (item : Item) : List Item → Prop
  | here {items : List Item} (mem : item ∈ items) : IsAmong item items
  | inside {items : List Item} {outer : Item} (mem : outer ∈ items)
      (among : IsAmong item outer.contents) : IsAmong item items

lemma IsAmong.mono {item : Item} {items more : List Item} (h : item.IsAmong items)
    (hsub : items ⊆ more) : item.IsAmong more := by
  cases h with
  | here mem => exact .here (hsub mem)
  | inside mem among => exact .inside (hsub mem) among

lemma sizeOf_contents_le (item : Item) : sizeOf item.contents ≤ sizeOf item := by
  unfold contents
  split
  · simp
    omega
  · cases item <;> simp <;> omega

/-- What is selected of an item by itself is the item. -/
lemma item_of_selected? {item : Item} {names : List String} {s : Selected}
    (h : item.selected? names = some s) : s.item = item := by
  simp only [selected?, Option.ite_none_right_eq_some, Option.some.injEq] at h
  rw [← h.2]

/-- An item whose name is asked for is selected. -/
lemma exists_selected?_of_name {item : Item} {names : List String} {name : String}
    (hname : item.name? = some name) (hmem : name ∈ names) :
    ∃ s, item.selected? names = some s := by
  have hnamed : item.isNamedIn names = true := by
    simp [isNamedIn, hname, hmem]
  simp [selected?, hnamed]

/-- The selection of an item is the item by itself, and behind it what is inside. -/
lemma selection_eq (names : List String) (item : Item) :
    item.selection names = (item.selected? names).toList ++ selectAll names item.contents := by
  cases item with
  | module attributes mark name inner => cases inner <;> simp [selection, contents, selectAll]
  | enumeration e => simp [selection, contents, selectAll]
  | named kind attributes mark name => simp [selection, contents, selectAll]
  | unnamed kind attributes mark => simp [selection, contents, selectAll]
  | unclassified mark => simp [selection, contents, selectAll]

end Item

/-! ### Where selected items stand -/

variable {names : List String} {s : Selected}

/-- What is selected stands somewhere, and is selected there by itself. -/
lemma isAmong_of_mem_selectAll (items : List Item) (h : s ∈ selectAll names items) :
    s.item.IsAmong items ∧ s.item.selected? names = some s := by
  match items with
  | [] => simp [selectAll] at h
  | item :: rest =>
    rw [selectAll, Item.selection_eq] at h
    have hsize := item.sizeOf_contents_le
    rcases List.mem_append.mp h with h | h
    · rcases List.mem_append.mp h with h | h
      · have hs := Option.mem_toList.mp h
        rw [Item.item_of_selected? hs]
        exact ⟨.here List.mem_cons_self, hs⟩
      · obtain ⟨hamong, hs⟩ := isAmong_of_mem_selectAll item.contents h
        exact ⟨.inside List.mem_cons_self hamong, hs⟩
    · obtain ⟨hamong, hs⟩ := isAmong_of_mem_selectAll rest h
      exact ⟨hamong.mono (List.subset_cons_self item rest), hs⟩
termination_by sizeOf items

/-- What is selected of an item of several is selected of all of them. -/
lemma mem_selectAll_of_mem_selection {items : List Item} {item : Item} (hitem : item ∈ items)
    (h : s ∈ item.selection names) : s ∈ selectAll names items := by
  induction items with
  | nil => simp at hitem
  | cons first rest ih =>
    rw [selectAll, List.mem_append]
    rcases List.mem_cons.mp hitem with rfl | hitem
    · exact .inl h
    · exact .inr (ih hitem)

/-- An item that is selected by itself is selected wherever it stands. -/
lemma mem_selectAll_of_isAmong {items : List Item} {item : Item} (hamong : item.IsAmong items)
    (h : item.selected? names = some s) : s ∈ selectAll names items := by
  induction hamong with
  | here mem =>
    apply mem_selectAll_of_mem_selection mem
    simp [Item.selection_eq, h]
  | inside mem _ ih =>
    apply mem_selectAll_of_mem_selection mem
    rw [Item.selection_eq]
    exact List.mem_append_right _ ih

/-- Selected are the items, at any depth, that are selected each by itself. -/
lemma mem_selectAll_iff {items : List Item} :
    s ∈ selectAll names items ↔ s.item.IsAmong items ∧ s.item.selected? names = some s := by
  constructor
  · exact isAmong_of_mem_selectAll items
  · rintro ⟨hamong, hs⟩
    exact mem_selectAll_of_isAmong hamong hs

/-- A name that is asked for is that of a selected item exactly if it is that of any item. -/
lemma exists_selected_named_iff {items : List Item} {name : String} (hname : name ∈ names) :
    (∃ s ∈ selectAll names items, s.item.name? = some name) ↔
      ∃ item : Item, item.IsAmong items ∧ item.name? = some name := by
  constructor
  · rintro ⟨s, hs, hitem⟩
    exact ⟨s.item, (mem_selectAll_iff.mp hs).1, hitem⟩
  · rintro ⟨item, hamong, hitem⟩
    obtain ⟨s, hs⟩ := Item.exists_selected?_of_name hitem hname
    refine ⟨s, mem_selectAll_of_isAmong hamong hs, ?_⟩
    rw [Item.item_of_selected? hs, hitem]

end UnionView
