import Mathlib.Data.List.Basic
import UnionView.Proofs.Grammar.Declaration
import UnionView.Source.Selection

/-!
# The items of modules, as they are written

`Code.writtenItems` lists all items at module level, those of the file and those inside of modules
at any depth, with the attributes that are written in front of each. It is put together from the
readers of the grammar, but it keeps what they drop of an item that is not understood. The selection
of a file is made of these items one by one (`Code.selectAll_eq`).
-/

namespace UnionView

open Reader

/-! ### Written items -/

/-- An item as it is written: the attributes in front of it, where it begins behind them and what it
is read as. -/
structure WrittenItem where
  attributes : List Attribute
  behind : Cursor
  item : Item

namespace Read

/-- Reads an item inside of a module, with the attributes in front of it. -/
def writtenItem (g : Grammar) : Reader WrittenItem := do
  let start ← mark
  let attributes ← outerAttributes g
  let behind ← get
  return { attributes, behind, item := ← g.item start attributes }

/-- Reads a declaration of a file, with the attributes in front of it. -/
def writtenDeclaration : Reader WrittenItem := do
  let start ← mark
  let attributes ← collect declaredAttribute?
  afresh do
    let behind ← get
    return { attributes, behind, item := ← behind.rest.grammar.item start attributes }

def writtenDeclarations (g : Grammar) : Reader (List WrittenItem) := do
  let _ ← innerAttributes g
  untilEnd writtenDeclaration

/-- Reads the items in the braces of a module, from the visibility of the module on. -/
def moduleContents (g : Grammar) : Reader (List WrittenItem) := do
  let _ ← visibility
  let _ ← acceptWord "unsafe"
  word "mod"
  let _ ← if ← peekWord "try" then anyIdentifier else identifier
  take (.group .curly)
  let _ ← innerAttributes g
  untilEnd (writtenItem g)

end Read

/-- An item and, behind it, the items inside of it at any depth. The grammar that the item was read
with is nested for `fuel` levels. -/
def WrittenItem.all : Nat → WrittenItem → List WrittenItem
  | 0, w => [w]
  | fuel + 1, w =>
    w :: match w.item, Read.moduleContents (grammar fuel) w.behind with
      | .module _ _ _ (some _), .ok (items, _) => items.flatMap (all fuel)
      | _, _ => []

/-- All items at module level, in the order of the source. -/
def Code.writtenItems (code : Code) : List WrittenItem :=
  match Read.writtenDeclarations code.grammar { rest := code } with
  | .ok (items, _) => items.flatMap fun w => w.all (8 * w.behind.rest.length + 64)
  | .error _ => []

/-- The item was read with the grammar that is nested for `fuel` levels, behind its attributes. -/
def WrittenItem.IsRead (fuel : Nat) (w : WrittenItem) : Prop :=
  ∃ start d, (grammar fuel).item start w.attributes w.behind = .ok (w.item, d)

namespace Read

lemma writtenItem_isRead (fuel : Nat) :
    (writtenItem (grammar fuel)).Answers (WrittenItem.IsRead fuel) := by
  intro c w d h
  obtain ⟨start, _, -, h⟩ := bind_eq_ok.mp h
  obtain ⟨attributes, c', -, h⟩ := bind_eq_ok.mp h
  obtain ⟨_, _, ⟨⟩, h⟩ := bind_eq_ok.mp h
  obtain ⟨item, d', hitem, ⟨⟩⟩ := bind_eq_ok.mp h
  exact ⟨start, _, hitem⟩

lemma writtenDeclaration_isRead : writtenDeclaration.Answers fun w =>
    w.IsRead (8 * w.behind.rest.length + 64) := by
  intro c w d h
  obtain ⟨start, _, -, h⟩ := bind_eq_ok.mp h
  obtain ⟨attributes, c', -, h⟩ := bind_eq_ok.mp h
  obtain ⟨e, h, -⟩ := afresh_eq_ok_iff.mp h
  obtain ⟨_, _, ⟨⟩, h⟩ := bind_eq_ok.mp h
  obtain ⟨item, d', hitem, ⟨⟩⟩ := bind_eq_ok.mp h
  exact ⟨start, _, hitem⟩

lemma exists_writtenItem {g : Grammar} {c d : Cursor} {found : Item}
    (h : (do
      let start ← mark
      let attributes ← outerAttributes g
      g.item start attributes) c = .ok (found, d)) :
    ∃ w, writtenItem g c = .ok (w, d) ∧ w.item = found := by
  obtain ⟨_, _, ⟨⟩, h⟩ := bind_eq_ok.mp h
  obtain ⟨attributes, c', hattributes, hitem⟩ := bind_eq_ok.mp h
  refine ⟨{ attributes, behind := c', item := found }, ?_, rfl⟩
  unfold writtenItem
  rw [bind_of_ok (mark_apply c), bind_of_ok hattributes, bind_of_ok (get_apply c'),
    bind_of_ok hitem]
  rfl

/-- The part of a module behind its name. -/
lemma exists_contents {g : Grammar} {keyword mark : Mark} {attributes own : List Attribute}
    {name name' : String} {contents : List Item} {c d : Cursor}
    (h : (do
      if ← acceptOperator ";" then return Item.module attributes keyword name none
      else if ← peek (.group .curly) then
        let (inner, contents) ← group .curly do
          let inner ← innerAttributes g
          let contents ← untilEnd do
            let start ← Reader.mark
            let attributes ← outerAttributes g
            g.item start attributes
          return (inner, contents)
        return .module (attributes ++ inner) keyword name (some contents)
      else unexpected [.operator ";", .group .curly]) c =
        .ok (.module own mark name' (some contents), d)) :
    ∃ items d', (do
      take (.group .curly)
      let _ ← innerAttributes g
      untilEnd (writtenItem g)) c = .ok (items, d') ∧ items.map WrittenItem.item = contents := by
  obtain ⟨accepted, c₁, haccept, hbehind⟩ := bind_eq_ok.mp h
  cases accepted with
  | true => cases hbehind
  | false =>
    obtain rfl := eq_of_accept_false haccept
    obtain ⟨isGroup, -, h⟩ := (looks_peek _).exists_of_bind hbehind
    cases isGroup with
    | false => exact absurd h (unexpected_ne_ok _ _ _)
    | true =>
      obtain ⟨⟨inner, contents⟩, c₂, hgroup, ⟨⟩⟩ := bind_eq_ok.mp h
      obtain ⟨_, c₃, htake, hgroup⟩ := bind_eq_ok.mp hgroup
      obtain ⟨_, c₄, hcontents, hgroup⟩ := bind_eq_ok.mp hgroup
      obtain ⟨_, _, -, ⟨⟩⟩ := bind_eq_ok.mp hgroup
      obtain ⟨_, c₅, hinner, hcontents⟩ := bind_eq_ok.mp hcontents
      obtain ⟨_, c₆, hitems, ⟨⟩⟩ := bind_eq_ok.mp hcontents
      obtain ⟨items, hwritten, hmap⟩ :=
        exists_untilEnd_of (fun _ _ _ hitem => exists_writtenItem hitem) hitems
      refine ⟨items, c₄, ?_, hmap⟩
      rw [bind_of_ok htake, bind_of_ok hinner, hwritten]

/-- A module with contents is read as what is written in its braces. -/
lemma exists_moduleContents {g : Grammar} {start mark : Mark} {attributes own : List Attribute}
    {name : String} {contents : List Item} {c d : Cursor}
    (h : Read.item g start attributes c = .ok (.module own mark name (some contents), d)) :
    ∃ items d', moduleContents g c = .ok (items, d') ∧ items.map WrittenItem.item = contents := by
  obtain ⟨written, c₁, hvisibility, hother | hmodule | henumeration⟩ := item_eq_ok_cases g h
  · exact hother.elim
  · unfold moduleContents
    rw [bind_of_ok hvisibility]
    obtain ⟨_, c₂, hmodifier, h⟩ := bind_eq_ok.mp hmodule
    rw [bind_of_ok hmodifier]
    obtain ⟨_, _, ⟨⟩, h⟩ := bind_eq_ok.mp h
    obtain ⟨_, c₃, hword, h⟩ := bind_eq_ok.mp h
    rw [bind_of_ok hword]
    have hlook : (peekWord "try").Looks := looks_peek _
    obtain ⟨isTry, htry, h⟩ := hlook.exists_of_bind h
    rw [bind_of_ok htry]
    cases isTry with
    | true =>
      obtain ⟨name, c₄, hname, h⟩ := bind_eq_ok.mp h
      rw [if_pos rfl, bind_of_ok hname]
      exact exists_contents h
    | false =>
      obtain ⟨name, c₄, hname, h⟩ := bind_eq_ok.mp h
      rw [if_neg Bool.false_ne_true, bind_of_ok hname]
      exact exists_contents h
  · obtain ⟨e, ⟨⟩, -⟩ := enumeration_isEnumeration g attributes written henumeration

end Read

namespace Read

lemma moduleContents_isRead (fuel : Nat) : (moduleContents (grammar fuel)).Answers fun items =>
    ∀ w ∈ items, w.IsRead fuel := by
  refine .bind fun _ => .bind fun _ => .bind fun _ => .bind fun _ => ?_
  have hbehind : (do
      take (.group .curly)
      let _ ← innerAttributes (grammar fuel)
      untilEnd (writtenItem (grammar fuel))).Answers fun items => ∀ w ∈ items, w.IsRead fuel :=
    .bind fun _ => .bind fun _ => .untilEnd (writtenItem_isRead fuel)
  exact .ite (.bind fun _ => hbehind) (.bind fun _ => hbehind)

end Read

/-! ### The selection item by item -/

lemma selectAll_eq_flatMap (names : List String) (items : List Item) :
    selectAll names items = items.flatMap (Item.selection names) := by
  induction items with
  | nil => rw [selectAll, List.flatMap_nil]
  | cons item items ih => rw [selectAll, ih, List.flatMap_cons]

/-- What is selected of written items, each by itself. -/
def WrittenItem.select (names : List String) (items : List WrittenItem) : List Selected :=
  items.filterMap (·.item.selected? names)

namespace WrittenItem

lemma select_flatMap (names : List String) (items : List WrittenItem)
    (f : WrittenItem → List WrittenItem) :
    select names (items.flatMap f) = items.flatMap fun w => select names (f w) := by
  induction items with
  | nil => rfl
  | cons w items ih =>
    rw [List.flatMap_cons, List.flatMap_cons, ← ih]
    exact List.filterMap_append

lemma select_cons (names : List String) (w : WrittenItem) (items : List WrittenItem) :
    select names (w :: items) = (w.item.selected? names).toList ++ select names items := by
  unfold select
  rw [List.filterMap_cons]
  cases w.item.selected? names <;> rfl

variable {fuel : Nat} {w : WrittenItem}

/-- What stands inside of a module that was read are items that were read. -/
lemma IsRead.exists_contents {own : List Attribute} {mark : Mark} {name : String}
    {contents : List Item} (h : w.IsRead (fuel + 1))
    (hitem : w.item = .module own mark name (some contents)) :
    ∃ items d, Read.moduleContents (grammar fuel) w.behind = .ok (items, d) ∧
      items.map WrittenItem.item = contents ∧ ∀ v ∈ items, v.IsRead fuel := by
  obtain ⟨start, d, hread⟩ := h
  rw [hitem] at hread
  obtain ⟨items, d', hitems, hcontents⟩ := Read.exists_moduleContents hread
  exact ⟨items, d', hitems, hcontents, Read.moduleContents_isRead fuel hitems⟩

/-- An item that was read stands alone or is a module with items that were read. -/
lemma IsRead.all_cases (h : w.IsRead (fuel + 1)) :
    w.all (fuel + 1) = [w] ∧
        (∀ names, w.item.selection names = (w.item.selected? names).toList) ∨
      ∃ items : List WrittenItem, w.all (fuel + 1) = w :: items.flatMap (all fuel) ∧
        (∀ v ∈ items, v.IsRead fuel) ∧ ∀ names, w.item.selection names =
          (w.item.selected? names).toList ++ selectAll names (items.map WrittenItem.item) := by
  cases hitem : w.item with
  | module own mark name contents =>
    cases contents with
    | none => exact .inl ⟨by rw [all, hitem], fun names => by rw [Item.selection]; nofun⟩
    | some contents =>
      obtain ⟨items, d, hitems, hcontents, hread⟩ := h.exists_contents hitem
      refine .inr ⟨items, by rw [all, hitem, hitems], hread, fun names => ?_⟩
      rw [Item.selection, hcontents]
  | enumeration e => exact .inl ⟨by rw [all, hitem], fun names => by rw [Item.selection]; nofun⟩
  | named => exact .inl ⟨by rw [all, hitem], fun names => by rw [Item.selection]; nofun⟩
  | unnamed => exact .inl ⟨by rw [all, hitem], fun names => by rw [Item.selection]; nofun⟩
  | unclassified => exact .inl ⟨by rw [all, hitem], fun names => by rw [Item.selection]; nofun⟩

lemma not_isRead_zero : ¬w.IsRead 0 := by
  rintro ⟨start, d, hread⟩
  exact unexpected_ne_ok _ _ _ hread

/-- The selection of an item that was read is that of the items it consists of, each by itself. -/
lemma IsRead.selection_eq (h : w.IsRead fuel) (names : List String) :
    w.item.selection names = select names (w.all fuel) := by
  induction fuel generalizing w with
  | zero => exact absurd h not_isRead_zero
  | succ fuel ih =>
    obtain ⟨hall, hselection⟩ | ⟨items, hall, hitems, hselection⟩ := h.all_cases
    · rw [hall, hselection, select_cons]
      exact (List.append_nil _).symm
    · rw [hall, hselection, select_cons, select_flatMap, selectAll_eq_flatMap, List.flatMap_map]
      congr 1
      exact List.flatMap_congr fun v hv => ih (hitems v hv)

/-- The attributes in front of an item that was read, or of one inside of it, are the first of the
item's attributes, unless the item is not understood. -/
lemma IsRead.keeps (h : w.IsRead fuel) : ∀ v ∈ w.all fuel, v.item.Keeps v.attributes := by
  induction fuel generalizing w with
  | zero => exact absurd h not_isRead_zero
  | succ fuel ih =>
    have hw : w.item.Keeps w.attributes := by
      obtain ⟨start, d, hread⟩ := h
      exact Read.item_keeps (grammar fuel) start w.attributes hread
    obtain ⟨hall, -⟩ | ⟨items, hall, hitems, -⟩ := h.all_cases
    · rw [hall]
      exact List.forall_mem_singleton.mpr hw
    · rw [hall]
      refine List.forall_mem_cons.mpr ⟨hw, fun v hv => ?_⟩
      obtain ⟨u, hu, hv⟩ := List.mem_flatMap.mp hv
      exact ih (hitems u hu) v hv

end WrittenItem

/-! ### Files -/

lemma Read.exists_writtenDeclaration {c d : Cursor} {found : Item}
    (h : declaration c = .ok (found, d)) :
    ∃ w, writtenDeclaration c = .ok (w, d) ∧ w.item = found := by
  obtain ⟨attributes, c₁, c₂, hattributes, hitem, rfl⟩ := declaration_eq_ok_iff.mp h
  let behind : Cursor := { rest := c₁.rest, behind := c₁.behind }
  refine ⟨{ attributes, behind, item := found }, ?_, rfl⟩
  unfold writtenDeclaration
  rw [bind_of_ok (mark_apply c), bind_of_ok hattributes]
  refine afresh_eq_ok_iff.mpr ⟨c₂, ?_, rfl⟩
  exact bind_eq_ok.mpr ⟨behind, behind, rfl, bind_eq_ok.mpr ⟨found, c₂, hitem, rfl⟩⟩

/-- The declarations of a file that was read are written ones. -/
lemma Code.exists_writtenDeclarations {code : Code} {file : File} (h : code.file? = .ok file) :
    ∃ items : List WrittenItem, items.map WrittenItem.item = file.items ∧
      code.writtenItems = items.flatMap (fun w => w.all (8 * w.behind.rest.length + 64)) ∧
      ∀ w ∈ items, w.IsRead (8 * w.behind.rest.length + 64) := by
  obtain ⟨c, hread, -, -⟩ := run_eq_ok_iff.mp h
  obtain ⟨inner, c₁, hinner, hread⟩ := bind_eq_ok.mp hread
  obtain ⟨found, c₂, hfound, ⟨⟩⟩ := bind_eq_ok.mp hread
  obtain ⟨items, hitems, hmap⟩ :=
    exists_untilEnd_of (fun _ _ _ hitem => Read.exists_writtenDeclaration hitem) hfound
  refine ⟨items, hmap, ?_, Answers.untilEnd Read.writtenDeclaration_isRead hitems⟩
  unfold writtenItems Read.writtenDeclarations
  rw [bind_of_ok hinner, hitems]

/-- Of a file that was read, the written items are selected each by itself, and those that are
understood keep their attributes. -/
lemma Code.writtenItems_of_file? {code : Code} {file : File} (h : code.file? = .ok file) :
    (∀ names, selectAll names file.items = WrittenItem.select names code.writtenItems) ∧
      ∀ w ∈ code.writtenItems, w.item.Keeps w.attributes := by
  obtain ⟨items, hmap, hall, hread⟩ := exists_writtenDeclarations h
  rw [hall]
  constructor
  · intro names
    rw [← hmap, selectAll_eq_flatMap, List.flatMap_map, WrittenItem.select_flatMap]
    exact List.flatMap_congr fun w hw => (hread w hw).selection_eq names
  · intro w hw
    obtain ⟨v, hv, hw⟩ := List.mem_flatMap.mp hw
    exact (hread v hv).keeps w hw

end UnionView
