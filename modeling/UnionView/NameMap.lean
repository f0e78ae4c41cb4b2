/-!
# Maps from names

A `NameMap` holds one value per name, in increasing order of the names. The order is a part of
the type, so that two maps with the same values are equal and a listing is always sorted.
-/

namespace UnionView

/-- One value per name, in increasing order of the names. -/
structure NameMap (α : Type) where
  entries : List (String × α) := []
  ordered : entries.Pairwise (fun a b => a.1 < b.1) := by simp
deriving DecidableEq, Repr

namespace NameMap

variable {α β : Type}

/-! ### Lists in order -/

/-- Puts a value in its place, instead of an earlier one of the same name. -/
def insertInto (name : String) (value : α) : List (String × α) → List (String × α)
  | [] => [(name, value)]
  | entry :: rest =>
    if name < entry.1 then (name, value) :: entry :: rest
    else if name = entry.1 then (name, value) :: rest
    else entry :: insertInto name value rest

theorem mem_insertInto {name : String} {value : α} {entry : String × α}
    {entries : List (String × α)} (h : entry ∈ insertInto name value entries) :
    entry = (name, value) ∨ entry ∈ entries := by
  induction entries with
  | nil => simpa [insertInto] using h
  | cons first rest ih =>
    rw [insertInto] at h
    split at h
    · simpa using h
    · split at h
      · rcases List.mem_cons.mp h with h | h
        · exact .inl h
        · exact .inr (List.mem_cons_of_mem _ h)
      · rcases List.mem_cons.mp h with h | h
        · exact .inr (h ▸ List.mem_cons_self)
        · exact (ih h).imp id (List.mem_cons_of_mem _)

/-- One of two names is smaller unless they are equal. -/
theorem lt_of_not_lt_of_ne {a b : String} (h : ¬a < b) (hne : a ≠ b) : b < a := by
  rcases Decidable.em (b < a) with hba | hba
  · exact hba
  · exact absurd (String.le_antisymm (String.not_lt.mp hba) (String.not_lt.mp h)) hne

theorem pairwise_insertInto (name : String) (value : α) {entries : List (String × α)}
    (h : entries.Pairwise (fun a b => a.1 < b.1)) :
    (insertInto name value entries).Pairwise (fun a b => a.1 < b.1) := by
  induction entries with
  | nil => simp [insertInto]
  | cons first rest ih =>
    obtain ⟨hfirst, hrest⟩ := List.pairwise_cons.mp h
    rw [insertInto]
    split
    · rename_i hlt
      refine List.pairwise_cons.mpr ⟨fun entry hmem => ?_, h⟩
      rcases List.mem_cons.mp hmem with rfl | hmem
      · exact hlt
      · exact String.lt_trans hlt (hfirst entry hmem)
    · split
      · rename_i heq
        exact List.pairwise_cons.mpr ⟨fun entry hmem => heq ▸ hfirst entry hmem, hrest⟩
      · rename_i hlt hne
        refine List.pairwise_cons.mpr ⟨fun entry hmem => ?_, ih hrest⟩
        rcases mem_insertInto hmem with rfl | hmem
        · exact lt_of_not_lt_of_ne hlt hne
        · exact hfirst entry hmem

/-! ### Maps -/

def empty : NameMap α := {}

/-- The map with one more value, which replaces an earlier one of the same name. -/
def insert (m : NameMap α) (name : String) (value : α) : NameMap α :=
  { entries := insertInto name value m.entries
    ordered := pairwise_insertInto name value m.ordered }

def get? (m : NameMap α) (name : String) : Option α :=
  m.entries.lookup name

def size (m : NameMap α) : Nat :=
  m.entries.length

def isEmpty (m : NameMap α) : Bool :=
  m.entries.isEmpty

/-- The map with several more values. Of two values of one name the later one stays. -/
def insertAll (m : NameMap α) (entries : List (String × α)) : NameMap α :=
  entries.foldl (fun m entry => m.insert entry.1 entry.2) m

def ofList (entries : List (String × α)) : NameMap α :=
  empty.insertAll entries

/-- The values of both maps. Those of `other` stay where both have one. -/
def merge (m other : NameMap α) : NameMap α :=
  m.insertAll other.entries

/-! ### Laws -/

@[simp] theorem get?_empty (name : String) : (empty : NameMap α).get? name = none := rfl

theorem lookup_insertInto_self (name : String) (value : α) (entries : List (String × α)) :
    (insertInto name value entries).lookup name = some value := by
  induction entries with
  | nil => simp [insertInto]
  | cons first rest ih =>
    rw [insertInto]
    split
    · simp
    · split
      · simp
      · rename_i hne
        have hbeq : (name == first.1) = false := beq_eq_false_iff_ne.mpr hne
        rw [List.lookup_cons, hbeq, ih]

theorem lookup_insertInto_of_ne {name other : String} (h : other ≠ name) (value : α)
    (entries : List (String × α)) :
    (insertInto name value entries).lookup other = entries.lookup other := by
  have hbeq : (other == name) = false := beq_eq_false_iff_ne.mpr h
  induction entries with
  | nil => rw [insertInto, List.lookup_cons, hbeq]
  | cons first rest ih =>
    rw [insertInto]
    split
    · rw [List.lookup_cons, hbeq]
    · split
      · rename_i heq
        rw [List.lookup_cons, List.lookup_cons, ← heq, hbeq]
      · rw [List.lookup_cons, List.lookup_cons, ih]

@[simp] theorem get?_insert_self (m : NameMap α) (name : String) (value : α) :
    (m.insert name value).get? name = some value :=
  lookup_insertInto_self name value m.entries

theorem get?_insert_of_ne (m : NameMap α) {name other : String} (h : other ≠ name) (value : α) :
    (m.insert name value).get? other = m.get? other :=
  lookup_insertInto_of_ne h value m.entries

end NameMap

end UnionView
