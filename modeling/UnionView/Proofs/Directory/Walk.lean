import Mathlib.Data.List.Induction
import UnionView.Proofs.Directory.Spelling
import UnionView.Proofs.NameMap

/-!
# The order of what is found

The files below a directory are those that the names on the way lead to (`Entry.mem_files_iff`), and
they are gone through in the order of these names (`Entry.IsSorted.pairwise_files`). So the source
files of a directory are found once each, in the order of the parts of their file names. Of several
inputs, each file name is kept where it is found first, and what is found stands for itself
(`discover_lists_sources`).
-/

namespace UnionView

open FileNamePart

/-! ### Names in order -/

namespace Entry

/-- The names in every directory are in increasing order. -/
inductive IsSorted : Entry → Prop
  | file (contents : ByteArray) : IsSorted (.file contents)
  | directory {entries : List (String × Entry)} (order : entries.Pairwise fun x y => x.1 < y.1)
      (below : ∀ x ∈ entries, IsSorted x.2) : IsSorted (.directory entries)

lemma IsSorted.at? {e below : Entry} (h : e.IsSorted) {names : List String}
    (hbelow : e.at? names = some below) : below.IsSorted := by
  induction names generalizing e with
  | nil =>
    rw [Entry.at?] at hbelow
    exact Option.some.inj hbelow ▸ h
  | cons name names ih =>
    rw [Entry.at?] at hbelow
    obtain ⟨child, hlookup, hchild⟩ := Option.bind_eq_some_iff.mp hbelow
    cases h with
    | file contents => cases hlookup
    | directory order hentries =>
      have hmem := (NameMap.lookup_eq_some_iff_mem (NameMap.nodup_of_order order)).mp hlookup
      exact ih (hentries _ hmem) hchild

lemma at?_append (e : Entry) (names more : List String) :
    e.at? (names ++ more) = (e.at? names).bind (·.at? more) := by
  induction names generalizing e with
  | nil => rfl
  | cons name names ih =>
    rw [List.cons_append, Entry.at?, Entry.at?, Option.bind_assoc]
    exact Option.bind_congr fun child _ => ih child

/-! ### The files of a tree -/

lemma mem_filesOf_iff {entries : List (String × Entry)} {f : List String × ByteArray} :
    f ∈ filesOf entries ↔ ∃ x ∈ entries, ∃ g ∈ x.2.files, f = (x.1 :: g.1, g.2) := by
  induction entries with
  | nil => simp [filesOf]
  | cons x rest ih =>
    obtain ⟨name, e⟩ := x
    rw [filesOf, List.mem_append, ih, List.exists_mem_cons_iff, List.mem_map]
    simp only [eq_comm]

/-- The files of a tree are those that the names on the way lead to. -/
lemma mem_files_iff {e : Entry} (sorted : e.IsSorted) {names : List String} {contents : ByteArray} :
    (names, contents) ∈ e.files ↔ e.at? names = some (.file contents) := by
  induction sorted generalizing names with
  | file other =>
    rw [files, List.mem_singleton]
    cases names with
    | nil => simp [at?, eq_comm]
    | cons name names => simp [at?, children]
  | @directory entries order below ih =>
    rw [files, mem_filesOf_iff]
    cases names with
    | nil => simp [at?]
    | cons name names =>
      rw [at?, Option.bind_eq_some_iff]
      constructor
      · rintro ⟨⟨first, child⟩, hchild, ⟨behind, found⟩, hfile, heq⟩
        obtain ⟨hnames, rfl⟩ := Prod.mk.inj heq
        obtain ⟨rfl, rfl⟩ := List.cons.inj hnames
        exact ⟨child, (NameMap.lookup_eq_some_iff_mem (NameMap.nodup_of_order order)).mpr hchild,
          (ih _ hchild).mp hfile⟩
      · rintro ⟨child, hlookup, hfile⟩
        have hchild := (NameMap.lookup_eq_some_iff_mem (NameMap.nodup_of_order order)).mp hlookup
        exact ⟨(name, child), hchild, (names, contents), (ih _ hchild).mpr hfile, rfl⟩

/-- The files of a tree stand in the order of the names that lead to them, compared one by one. -/
lemma IsSorted.pairwise_files {e : Entry} (sorted : e.IsSorted) :
    e.files.Pairwise fun f g => List.Lex (· < ·) f.1 g.1 := by
  induction sorted with
  | file contents => exact List.pairwise_singleton _ _
  | @directory entries order below ih =>
    rw [files]
    induction entries with
    | nil => exact List.Pairwise.nil
    | cons x rest hrest =>
      obtain ⟨name, child⟩ := x
      obtain ⟨hfirst, horder⟩ := List.pairwise_cons.mp order
      obtain ⟨-, hbelow⟩ := List.forall_mem_cons.mp below
      obtain ⟨hchild, hothers⟩ := List.forall_mem_cons.mp ih
      rw [filesOf, List.pairwise_append]
      refine ⟨List.pairwise_map.mpr (hchild.imp .cons), hrest horder hbelow hothers, ?_⟩
      intro f hf g hg
      obtain ⟨inner, -, rfl⟩ := List.mem_map.mp hf
      obtain ⟨sibling, hsibling, other, -, rfl⟩ := mem_filesOf_iff.mp hg
      exact .rel (hfirst sibling hsibling)

end Entry

/-! ### Parts in order -/

namespace FileNamePart

/-- Where the parts of one kind stand among those of others. -/
def rank : FileNamePart → Nat
  | root => 0
  | here => 1
  | parent => 2
  | name _ => 3

/-- The order of parts: names are compared with each other and come last. -/
def Precedes : FileNamePart → FileNamePart → Prop
  | name a, name b => a < b
  | a, b => a.rank < b.rank

end FileNamePart

/-- The parts of the first file name stand before those of the second one, compared one by one. -/
def Precedes (x y : String) : Prop :=
  List.Lex FileNamePart.Precedes (list x) (list y)

lemma not_precedes_self (x : String) : ¬Precedes x x := by
  refine List.lex_irrefl (fun part h => ?_) (list x)
  cases part with
  | name text => exact String.lt_irrefl text h
  | root | here | parent => exact Nat.lt_irrefl _ h

lemma lex_append (common : List FileNamePart) {a b : List FileNamePart}
    (h : List.Lex FileNamePart.Precedes a b) :
    List.Lex FileNamePart.Precedes (common ++ a) (common ++ b) := by
  induction common with
  | nil => exact h
  | cons part common ih => exact .cons ih

lemma lex_map_name {a b : List String} (h : List.Lex (· < ·) a b) :
    List.Lex FileNamePart.Precedes (a.map .name) (b.map .name) := by
  induction h with
  | nil => exact .nil
  | cons _ ih => exact .cons ih
  | rel hlt => exact .rel hlt

/-- The parts of what stands below a directory. -/
lemma list_foldl_joinNames {directory : String} (hne : directory ≠ "") {names : List String}
    (h : ∀ name ∈ names, IsFileName name) :
    list (names.foldl joinNames directory) = list directory ++ names.map .name := by
  rw [list_eq, list_eq, beginning_foldl_joinNames hne h, behind_foldl_joinNames directory h,
    List.append_assoc]

/-! ### Source files -/

/-- A name with something in front of `.rs`. -/
def IsSourceName (name : String) : Prop :=
  ∃ stem, stem ≠ "" ∧ name = stem ++ ".rs"

lemma extension?_eq_some_iff {name : String} : extension? name = some "rs" ↔ IsSourceName name := by
  unfold extension?
  constructor
  · intro h
    have hsplit := List.takeWhile_append_dropWhile (p := (· ≠ '.')) (l := name.toList.reverse)
    dsimp only at h
    split at h
    · rename_i dot last stem hdrop
      have hdot : dot = '.' := by
        have hhead := List.head?_dropWhile_not (· ≠ '.') name.toList.reverse
        rw [hdrop] at hhead
        simpa using hhead
      have htake : name.toList.reverse.takeWhile (· ≠ '.') = ['s', 'r'] := by
        have hrs := congrArg String.toList (Option.some.inj h)
        rw [String.toList_ofList] at hrs
        simpa using congrArg List.reverse hrs
      rw [htake, hdrop, hdot] at hsplit
      refine ⟨String.ofList (last :: stem).reverse, ?_, String.toList_inj.mp ?_⟩
      · simp
      · simpa using (congrArg List.reverse hsplit).symm
    · cases h
  · rintro ⟨stem, hne, rfl⟩
    have hreverse : (stem ++ ".rs").toList.reverse = 's' :: 'r' :: '.' :: stem.toList.reverse := by
      simp
    have hstem : stem.toList.reverse ≠ [] := by simpa using hne
    obtain ⟨last, rest, hlast⟩ := List.exists_cons_of_ne_nil hstem
    rw [hreverse]
    simp [hlast]

lemma isSource_foldl_joinNames (directory : String) {names : List String} {last : String}
    (h : ∀ name ∈ names ++ [last], IsFileName name) :
    isSource ((names ++ [last]).foldl joinNames directory) = true ↔ IsSourceName last := by
  have hlast : (list ((names ++ [last]).foldl joinNames directory)).getLast? =
      some (.name last) := by
    rw [list_eq, behind_foldl_joinNames directory h]
    simp
  unfold isSource
  rw [hlast]
  simp [extension?_eq_some_iff]

/-! ### What is left out -/

/-- The file names of a list that are kept if every one is left out that has the parts of an earlier
one. -/
inductive KeepsFirst : List String → List String → Prop
  | nil : KeepsFirst [] []
  | new {all kept : List String} {x : String} (earlier : KeepsFirst all kept)
      (apart : ∀ y ∈ all, list y ≠ list x) : KeepsFirst (all ++ [x]) (kept ++ [x])
  | again {all kept : List String} {x y : String} (earlier : KeepsFirst all kept) (mem : y ∈ all)
      (same : list y = list x) : KeepsFirst (all ++ [x]) kept

/-- Whether the last file name is left out is told by the ones in front of it. -/
lemma distinctFileNames_append (earlier : List (List FileNamePart)) (all : List String)
    (x : String) :
    distinctFileNames earlier (all ++ [x]) = distinctFileNames earlier all ++
      if list x ∈ earlier ∨ ∃ y ∈ all, list y = list x then [] else [x] := by
  induction all generalizing earlier with
  | nil => simp [distinctFileNames]
  | cons first rest ih =>
    rw [List.cons_append, distinctFileNames, distinctFileNames]
    by_cases hfirst : list first ∈ earlier
    · have hiff : (list x ∈ earlier ∨ ∃ y ∈ rest, list y = list x) ↔
          list x ∈ earlier ∨ ∃ y ∈ first :: rest, list y = list x := by
        rw [List.exists_mem_cons_iff]
        constructor
        · exact Or.imp_right .inr
        · rintro (hx | hsame | hrest)
          · exact .inl hx
          · exact .inl (hsame ▸ hfirst)
          · exact .inr hrest
      simp only [if_pos hfirst, ih, hiff]
    · have hiff : (list x ∈ list first :: earlier ∨ ∃ y ∈ rest, list y = list x) ↔
          list x ∈ earlier ∨ ∃ y ∈ first :: rest, list y = list x := by
        rw [List.exists_mem_cons_iff, List.mem_cons, eq_comm, or_assoc]
        exact or_left_comm
      simp only [if_neg hfirst, ih, hiff, List.cons_append]

lemma keepsFirst_distinctFileNames (all : List String) :
    KeepsFirst all (distinctFileNames [] all) := by
  induction all using List.reverseRecOn with
  | nil => exact .nil
  | append_singleton all x ih =>
    rw [distinctFileNames_append]
    by_cases h : list x ∈ [] ∨ ∃ y ∈ all, list y = list x
    · rw [if_pos h, List.append_nil]
      obtain hnil | ⟨y, hy, hsame⟩ := h
      · cases hnil
      · exact .again ih hy hsame
    · rw [if_neg h]
      exact .new ih fun y hy hsame => h (.inr ⟨y, hy, hsame⟩)

/-- Nothing is left out of file names that have different parts. -/
lemma distinctFileNames_of_pairwise {all : List String}
    (h : all.Pairwise fun x y => list x ≠ list y) : distinctFileNames [] all = all := by
  induction all using List.reverseRecOn with
  | nil => rfl
  | append_singleton all x ih =>
    obtain ⟨hall, -, hx⟩ := List.pairwise_append.mp h
    rw [distinctFileNames_append, ih hall, if_neg]
    rintro (hnil | ⟨y, hy, hsame⟩)
    · cases hnil
    · exact hx y hy x List.mem_cons_self hsame

/-! ### What is found -/

namespace Workplace

variable {w : Workplace} {input : String} {e : Entry}

/-- What stands at the place of a name below a directory is what the directory holds there. -/
lemma at?_below (tree : w.root.IsNamed) (hdirectory : w.directory? input = some e)
    {names below : List String} (hnames : ∀ name ∈ names, IsFileName name)
    (hplace : w.place (names.foldl joinNames input) = .ok below) :
    w.root.at? below = e.at? names := by
  obtain ⟨hne, -⟩ := isNamed_of_directory? tree hdirectory
  obtain ⟨front, hfront, hat⟩ := find_eq_ok (find_of_directory? hdirectory)
  have hbelow : below = front ++ names := by
    rw [place_eq hplace, place_eq hfront, list_foldl_joinNames hne hnames, follow,
      List.foldl_append]
    exact follow_names _ names
  rw [hbelow, Entry.at?_append, hat, Option.bind_some]

lemma directory?_of_mem_expandInput (tree : w.root.IsNamed) (sorted : w.root.IsSorted) {x : String}
    (h : x ∈ w.expandInput input) : w.directory? x = none := by
  unfold expandInput at h
  cases hdirectory : w.directory? input with
  | none =>
    rw [hdirectory] at h
    rw [List.mem_singleton.mp h, hdirectory]
  | some e =>
    rw [hdirectory] at h
    obtain ⟨⟨names, contents⟩, hfile, rfl⟩ := List.mem_map.mp (List.mem_filter.mp h).1
    obtain ⟨-, hnamed⟩ := isNamed_of_directory? tree hdirectory
    obtain ⟨front, -, hat⟩ := find_eq_ok (find_of_directory? hdirectory)
    have hcontents := (Entry.mem_files_iff (sorted.at? hat)).mp hfile
    cases hfound : w.directory? (names.foldl joinNames input) with
    | none => rfl
    | some found =>
      obtain ⟨below, hplace, hbelow⟩ := find_eq_ok (find_of_directory? hfound)
      rw [at?_below tree hdirectory (hnamed.files _ hfile) hplace, hcontents] at hbelow
      obtain ⟨entries, rfl⟩ := exists_entries_of_directory? hfound
      cases hbelow

variable (tree : w.root.IsNamed) (sorted : w.root.IsSorted)
  (hdirectory : w.directory? input = some e)

include tree hdirectory

/-- The files below a directory are named by the directory and the names on the way. -/
lemma list_of_mem_files {f : List String × ByteArray} (hf : f ∈ e.files) :
    list (f.1.foldl joinNames input) = list input ++ f.1.map .name := by
  obtain ⟨hne, hnamed⟩ := isNamed_of_directory? tree hdirectory
  exact list_foldl_joinNames hne (hnamed.files f hf)

/-- Source files are found in the order of their parts. -/
lemma pairwise_sources (hsorted : e.IsSorted) : (e.sources input).Pairwise Precedes := by
  refine List.Pairwise.filter _ (List.pairwise_map.mpr ?_)
  apply hsorted.pairwise_files.imp_of_mem
  intro f g hf hg hlex
  unfold Precedes
  rw [list_of_mem_files tree hdirectory hf, list_of_mem_files tree hdirectory hg]
  exact lex_append _ (lex_map_name hlex)

/-- Source files are the files with a name that ends in `.rs`. -/
lemma mem_sources_iff (hsorted : e.IsSorted) {x : String} : x ∈ e.sources input ↔
    ∃ names last contents, x = (names ++ [last]).foldl joinNames input ∧
      e.at? (names ++ [last]) = some (.file contents) ∧ IsSourceName last := by
  obtain ⟨-, hnamed⟩ := isNamed_of_directory? tree hdirectory
  obtain ⟨entries, rfl⟩ := exists_entries_of_directory? hdirectory
  rw [Entry.sources, List.mem_filter, List.mem_map]
  constructor
  · rintro ⟨⟨⟨path, contents⟩, hfile, rfl⟩, hsource⟩
    have hcontents := (Entry.mem_files_iff hsorted).mp hfile
    obtain rfl | ⟨names, last, rfl⟩ := List.eq_nil_or_concat path
    · cases hcontents
    · rw [List.concat_eq_append] at hfile hsource hcontents ⊢
      exact ⟨names, last, contents, rfl, hcontents,
        (isSource_foldl_joinNames input (hnamed.files _ hfile)).mp hsource⟩
  · rintro ⟨names, last, contents, rfl, hcontents, hsource⟩
    have hfile := (Entry.mem_files_iff hsorted).mpr hcontents
    exact ⟨⟨_, hfile, rfl⟩, (isSource_foldl_joinNames input (hnamed.files _ hfile)).mpr hsource⟩

omit tree hdirectory

/-- The source files below a directory. -/
structure ListsSources (input : String) (e : Entry) (found : List String) : Prop where
  /-- They are the files that names lead to of which the last one ends in `.rs`, at any depth. -/
  mem_iff : ∀ x, x ∈ found ↔ ∃ names last contents, x = (names ++ [last]).foldl joinNames input ∧
    e.at? (names ++ [last]) = some (.file contents) ∧ IsSourceName last
  /-- The parts of such a file name are those of the directory and the names on the way. -/
  parts : ∀ names contents, e.at? names = some (.file contents) →
    list (names.foldl joinNames input) = list input ++ names.map .name
  /-- Each one is found once, and in the order of their parts. -/
  order : found.Pairwise Precedes
  once : found.Nodup

/-- A directory stands for the source files below it. -/
lemma discover_directory (tree : w.root.IsNamed) (sorted : w.root.IsSorted)
    (hdirectory : w.directory? input = some e) : w.discover [input] = e.sources input := by
  obtain ⟨front, -, hat⟩ := find_eq_ok (find_of_directory? hdirectory)
  have horder := pairwise_sources tree hdirectory (sorted.at? hat)
  unfold discover expandInput
  rw [List.flatMap_singleton, hdirectory]
  refine distinctFileNames_of_pairwise (horder.imp fun {x y} hlt heq => ?_)
  rw [Precedes, heq] at hlt
  exact not_precedes_self y hlt

/-- Everything but a directory stands for itself. -/
lemma discover_other (hdirectory : w.directory? input = none) : w.discover [input] = [input] := by
  unfold discover expandInput
  rw [List.flatMap_singleton, hdirectory]
  rfl

lemma listsSources_discover (tree : w.root.IsNamed) (sorted : w.root.IsSorted)
    (hdirectory : w.directory? input = some e) : ListsSources input e (w.discover [input]) := by
  obtain ⟨front, -, hat⟩ := find_eq_ok (find_of_directory? hdirectory)
  have hsorted := sorted.at? hat
  rw [discover_directory tree sorted hdirectory]
  have horder := pairwise_sources tree hdirectory hsorted
  refine ⟨fun x => mem_sources_iff tree hdirectory hsorted, fun names contents hfile => ?_, horder,
    horder.imp fun {x y} hlt heq => ?_⟩
  · exact list_of_mem_files tree hdirectory ((Entry.mem_files_iff hsorted).mpr hfile)
  · rw [heq] at hlt
    exact not_precedes_self y hlt

/-- An input stands for as much as it does alone. -/
lemma expandInput_eq_discover (tree : w.root.IsNamed) (sorted : w.root.IsSorted) (input : String) :
    w.expandInput input = w.discover [input] := by
  cases hdirectory : w.directory? input with
  | none =>
    rw [discover_other hdirectory, expandInput, hdirectory]
  | some e =>
    rw [discover_directory tree sorted hdirectory, expandInput, hdirectory]

/-- What is found stands for itself. -/
lemma discover_discover (tree : w.root.IsNamed) (sorted : w.root.IsSorted) (inputs : List String) :
    w.discover (w.discover inputs) = w.discover inputs := by
  have hself : ∀ x ∈ w.discover inputs, w.expandInput x = [x] := by
    intro x hx
    obtain ⟨input, -, hinput⟩ := exists_input_of_mem_discover hx
    rw [expandInput, directory?_of_mem_expandInput tree sorted hinput]
  have hfound : (w.discover inputs).flatMap w.expandInput = w.discover inputs := by
    rw [List.flatMap_congr hself, List.flatMap_singleton']
  conv_lhs => rw [discover, hfound]
  exact distinctFileNames_of_pairwise (pairwise_distinctFileNames [] _).1

/-- Inputs stand for the source files below them, if they are directories, and else for themselves.
Of all these file names each is kept where it stands first, and the ones that are kept stand for
themselves. -/
theorem discover_lists_sources (tree : w.root.IsNamed) (sorted : w.root.IsSorted) :
    (∀ input e, w.directory? input = some e → ListsSources input e (w.discover [input])) ∧
      (∀ input, w.directory? input = none → w.discover [input] = [input]) ∧
      ∀ inputs, KeepsFirst (inputs.flatMap fun input => w.discover [input]) (w.discover inputs) ∧
        w.discover (w.discover inputs) = w.discover inputs := by
  refine ⟨fun input e hdirectory => listsSources_discover tree sorted hdirectory,
    fun input hother => discover_other hother,
    fun inputs => ⟨?_, discover_discover tree sorted inputs⟩⟩
  have hexpand : (inputs.flatMap fun input => w.discover [input]) = inputs.flatMap w.expandInput :=
    List.flatMap_congr fun input _ => (expandInput_eq_discover tree sorted input).symm
  rw [hexpand]
  exact keepsFirst_distinctFileNames _

lemma isSorted_deskWorkplace : deskWorkplace.root.IsSorted := by
  refine .directory (List.pairwise_singleton _ _) (List.forall_mem_singleton.mpr ?_)
  refine .directory (by decide) (List.forall_mem_cons.mpr ⟨.file _, ?_⟩)
  refine List.forall_mem_singleton.mpr (.directory (List.pairwise_singleton _ _) ?_)
  exact List.forall_mem_singleton.mpr (.file _)

/-- The directory in use stands for the two source files below it, and what is found through it and
through one of the files is kept where it stands first. -/
theorem discover_lists_desk :
    deskWorkplace.discover ["."] = ["./home.rs", "./screens/sheet.rs"] ∧
      (∀ e, deskWorkplace.directory? "." = some e →
        ListsSources "." e ["./home.rs", "./screens/sheet.rs"]) ∧
      deskWorkplace.discover ["./screens/sheet.rs", "."] = ["./screens/sheet.rs", "./home.rs"] ∧
      deskWorkplace.discover ["./screens/sheet.rs", "./home.rs"] =
        ["./screens/sheet.rs", "./home.rs"] := by
  obtain ⟨hdirectory, -, hinputs⟩ :=
    discover_lists_sources isNamed_deskWorkplace isSorted_deskWorkplace
  have hhere : deskWorkplace.discover ["."] = ["./home.rs", "./screens/sheet.rs"] := by
    decide +kernel
  have hboth : deskWorkplace.discover ["./screens/sheet.rs", "."] =
      ["./screens/sheet.rs", "./home.rs"] := by
    decide +kernel
  refine ⟨hhere, fun e he => hhere ▸ hdirectory "." e he, hboth, ?_⟩
  rw [← hboth]
  exact (hinputs _).2

end Workplace

end UnionView
