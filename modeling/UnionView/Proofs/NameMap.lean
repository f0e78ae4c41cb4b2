import Mathlib.Data.Finset.Card
import Mathlib.Data.List.Sort
import UnionView.NameMap
import UnionView.Proofs.Text.ByteOrder

/-!
# What maps hold

A map is known by the values that its names have (`NameMap.ext_get?`), which it lists in the order
of their bytes (`NameMap.pairwise_bytes`). Several values for different names can be put into it in
any order, and a second time, without changing the result. Merging maps is associative
(`NameMap.merge_assoc`) and loses no name (`NameMap.names_merge`).
-/

namespace UnionView

namespace NameMap

variable {α : Type} {m m' : NameMap α} {entries entries' : List (String × α)} {name : String}

/-! ### Lists in order -/

/-- What stands under a name in a list without repetition. -/
lemma lookup_eq_some_iff_mem {value : α} (distinct : (entries.map Prod.fst).Nodup) :
    entries.lookup name = some value ↔ (name, value) ∈ entries := by
  induction entries with
  | nil => simp
  | cons entry rest ih =>
    obtain ⟨first, found⟩ := entry
    rw [List.map_cons, List.nodup_cons] at distinct
    obtain ⟨hfirst, hrest⟩ := distinct
    rw [List.lookup_cons, List.mem_cons]
    by_cases h : name = first
    · subst h
      simp only [beq_self_eq_true]
      constructor
      · intro hfound
        exact .inl (by rw [Option.some.inj hfound])
      · rintro (heq | hmem)
        · rw [(Prod.mk.inj heq).2]
        · exact absurd (List.mem_map_of_mem hmem) hfirst
    · simp only [beq_eq_false_iff_ne.mpr h, ih hrest]
      constructor
      · exact .inr
      · rintro (heq | hmem)
        · exact absurd (Prod.mk.inj heq).1 h
        · exact hmem

lemma nodup_of_order (order : entries.Pairwise fun x y => x.1 < y.1) :
    (entries.map Prod.fst).Nodup := by
  refine List.pairwise_map.mpr (order.imp fun {x y} hlt heq => ?_)
  rw [heq] at hlt
  exact String.lt_irrefl _ hlt

/-! ### The values of a map -/

def names (m : NameMap α) : Finset String :=
  (m.entries.map Prod.fst).toFinset

lemma nodup_names (m : NameMap α) : (m.entries.map Prod.fst).Nodup :=
  nodup_of_order m.ordered

/-- The names are listed in increasing order of their bytes. -/
lemma pairwise_bytes (m : NameMap α) :
    (m.entries.map Prod.fst).Pairwise fun a b => Text.bytes a < Text.bytes b :=
  List.pairwise_map.mpr (m.ordered.imp Text.bytes_lt_bytes)

lemma size_eq_card (m : NameMap α) : m.size = m.names.card := by
  rw [names, List.toFinset_card_of_nodup m.nodup_names, List.length_map]
  rfl

lemma get?_eq_some_iff {value : α} : m.get? name = some value ↔ (name, value) ∈ m.entries :=
  lookup_eq_some_iff_mem m.nodup_names

lemma mem_names_iff : name ∈ m.names ↔ ∃ value, m.get? name = some value := by
  simp [names, get?_eq_some_iff]

/-- Maps with the same values are equal. -/
lemma ext_get? (h : ∀ name, m.get? name = m'.get? name) : m = m' := by
  have hmem (entry : String × α) : entry ∈ m.entries ↔ entry ∈ m'.entries := by
    rw [← get?_eq_some_iff, ← get?_eq_some_iff, h]
  have hperm : m.entries.Perm m'.entries :=
    (List.perm_ext_iff_of_nodup m.nodup_names.of_map m'.nodup_names.of_map).mpr hmem
  have hentries : m.entries = m'.entries := by
    refine hperm.eq_of_pairwise (fun a b _ _ hab hba => ?_) m.ordered m'.ordered
    exact absurd (String.lt_trans hab hba) (String.lt_irrefl _)
  cases m
  cases m'
  cases hentries
  rfl

/-! ### Several more values -/

lemma insertAll_cons (m : NameMap α) (entry : String × α) (entries : List (String × α)) :
    m.insertAll (entry :: entries) = (m.insert entry.1 entry.2).insertAll entries := rfl

/-- A name that gets no new value keeps what it has. -/
lemma get?_insertAll_of_notMem (h : name ∉ entries.map Prod.fst) :
    (m.insertAll entries).get? name = m.get? name := by
  induction entries generalizing m with
  | nil => rfl
  | cons entry entries ih =>
    obtain ⟨hne, hrest⟩ := not_or.mp (List.mem_cons.not.mp h)
    rw [insertAll_cons, ih hrest, get?_insert_of_ne _ hne]

/-- A name that gets one new value has it. -/
lemma get?_insertAll_of_mem {value : α} (hnodup : (entries.map Prod.fst).Nodup)
    (h : (name, value) ∈ entries) : (m.insertAll entries).get? name = some value := by
  induction entries generalizing m with
  | nil => cases h
  | cons entry entries ih =>
    obtain ⟨hnew, hnodup⟩ := List.nodup_cons.mp hnodup
    rw [insertAll_cons]
    obtain rfl | h := List.mem_cons.mp h
    · rw [get?_insertAll_of_notMem hnew, get?_insert_self]
    · exact ih hnodup h

/-- A name has the new value that it gets, if it gets one. -/
lemma get?_insertAll (hnodup : (entries.map Prod.fst).Nodup) :
    (m.insertAll entries).get? name = (entries.lookup name).or (m.get? name) := by
  cases hlookup : entries.lookup name with
  | some value => exact get?_insertAll_of_mem hnodup ((lookup_eq_some_iff_mem hnodup).mp hlookup)
  | none =>
    apply get?_insertAll_of_notMem
    intro hname
    obtain ⟨⟨_, value⟩, hentry, rfl⟩ := List.mem_map.mp hname
    cases hlookup.symm.trans ((lookup_eq_some_iff_mem hnodup).mpr hentry)

/-- Whether names get values depends on the values, not on their order. -/
lemma insertAll_congr (hnodup : (entries.map Prod.fst).Nodup) (h : entries.Perm entries') :
    m.insertAll entries = m.insertAll entries' := by
  have hnodup' : (entries'.map Prod.fst).Nodup := (h.map Prod.fst).nodup_iff.mp hnodup
  refine ext_get? fun name => ?_
  by_cases hname : name ∈ entries.map Prod.fst
  · obtain ⟨⟨_, value⟩, hentry, rfl⟩ := List.mem_map.mp hname
    rw [get?_insertAll_of_mem hnodup hentry,
      get?_insertAll_of_mem hnodup' (h.mem_iff.mp hentry)]
  · rw [get?_insertAll_of_notMem hname,
      get?_insertAll_of_notMem (mt (h.map Prod.fst).mem_iff.mpr hname)]

/-- New values that are given again change nothing. -/
lemma insertAll_insertAll (hnodup : (entries.map Prod.fst).Nodup) :
    (m.insertAll entries).insertAll entries = m.insertAll entries := by
  refine ext_get? fun name => ?_
  by_cases hname : name ∈ entries.map Prod.fst
  · obtain ⟨⟨_, value⟩, hentry, rfl⟩ := List.mem_map.mp hname
    rw [get?_insertAll_of_mem hnodup hentry, get?_insertAll_of_mem hnodup hentry]
  · rw [get?_insertAll_of_notMem hname]

/-- No name is lost, and no name gets a value that is given none. -/
lemma names_insertAll (hnodup : (entries.map Prod.fst).Nodup) :
    (m.insertAll entries).names = m.names ∪ (entries.map Prod.fst).toFinset := by
  ext name
  rw [Finset.mem_union, List.mem_toFinset, mem_names_iff, mem_names_iff]
  by_cases hname : name ∈ entries.map Prod.fst
  · obtain ⟨⟨_, value⟩, hentry, rfl⟩ := List.mem_map.mp hname
    exact iff_of_true ⟨value, get?_insertAll_of_mem hnodup hentry⟩ (.inr hname)
  · rw [get?_insertAll_of_notMem hname, or_iff_left hname]

/-! ### Merged maps -/

/-- Where both maps have a value, that of the second one stays. -/
lemma get?_merge (m m' : NameMap α) (name : String) :
    (m.merge m').get? name = (m'.get? name).or (m.get? name) :=
  get?_insertAll m'.nodup_names

@[simp] lemma merge_empty (m : NameMap α) : m.merge empty = m := rfl

@[simp] lemma empty_merge (m : NameMap α) : empty.merge m = m := by
  refine ext_get? fun name => ?_
  rw [get?_merge, get?_empty, Option.or_none]

lemma merge_assoc (m₁ m₂ m₃ : NameMap α) :
    (m₁.merge m₂).merge m₃ = m₁.merge (m₂.merge m₃) := by
  refine ext_get? fun name => ?_
  simp only [get?_merge, Option.or_assoc]

lemma names_merge (m m' : NameMap α) : (m.merge m').names = m.names ∪ m'.names :=
  names_insertAll m'.nodup_names

lemma names_subset_merge (m m' : NameMap α) : m.names ⊆ (m.merge m').names := by
  rw [names_merge]
  exact Finset.subset_union_left

lemma size_le_size_merge (m m' : NameMap α) : m.size ≤ (m.merge m').size := by
  rw [size_eq_card, size_eq_card]
  exact Finset.card_le_card (m.names_subset_merge m')

/-! ### Maps without values -/

lemma isEmpty_iff_size : m.isEmpty = true ↔ m.size = 0 := by
  rw [isEmpty, List.isEmpty_iff, size, List.length_eq_zero_iff]

lemma isEmpty_insert (m : NameMap α) (name : String) (value : α) :
    (m.insert name value).isEmpty = false := by
  have hvalue := m.get?_insert_self name value
  rw [Bool.eq_false_iff]
  intro h
  rw [get?, List.isEmpty_iff.mp h] at hvalue
  cases hvalue

end NameMap

end UnionView
