import UnionView.Proofs.Directory.FileName

/-!
# What is found

File names are told apart by their parts, so no two that are found have the same ones. Two of them
still lead to the same file if their parts lead to the same place, which happens if one is written
with a dot in front and the other one without, or if parts go back. Among inputs that begin alike
and do not go back no file is found twice (`discover_finds_files_once`).
-/

namespace UnionView

open FileNamePart

/-! ### Names in a directory -/

/-- Everything below the entry has a name that files can have. -/
inductive Entry.IsNamed : Entry → Prop
  | file (contents : ByteArray) : IsNamed (.file contents)
  | directory {entries : List (String × Entry)} (names : ∀ x ∈ entries, IsFileName x.1)
      (below : ∀ x ∈ entries, IsNamed x.2) : IsNamed (.directory entries)

namespace Entry

lemma mem_filesOf {entries : List (String × Entry)} {f : List String × ByteArray}
    (h : f ∈ filesOf entries) : ∃ x ∈ entries, ∃ g ∈ x.2.files, f.1 = x.1 :: g.1 := by
  induction entries with
  | nil => simp [filesOf] at h
  | cons x rest ih =>
    obtain ⟨name, e⟩ := x
    rw [filesOf] at h
    rcases List.mem_append.mp h with h | h
    · obtain ⟨g, hg, rfl⟩ := List.mem_map.mp h
      exact ⟨(name, e), List.mem_cons_self, g, hg, rfl⟩
    · obtain ⟨x, hx, g, hg, hf⟩ := ih h
      exact ⟨x, List.mem_cons_of_mem _ hx, g, hg, hf⟩

/-- The names that lead to a file are names that files can have. -/
lemma IsNamed.files {e : Entry} (h : e.IsNamed) :
    ∀ f ∈ e.files, ∀ name ∈ f.1, IsFileName name := by
  induction h with
  | file contents => simp [Entry.files]
  | directory names below ih =>
    intro f hf
    rw [Entry.files] at hf
    obtain ⟨x, hx, g, hg, hnames⟩ := mem_filesOf hf
    rw [hnames]
    exact List.forall_mem_cons.mpr ⟨names x hx, ih x hx g hg⟩

lemma IsNamed.at? {e below : Entry} (h : e.IsNamed) {names : List String}
    (hbelow : e.at? names = some below) : below.IsNamed := by
  induction names generalizing e with
  | nil =>
    rw [Entry.at?] at hbelow
    exact Option.some.inj hbelow ▸ h
  | cons name names ih =>
    rw [Entry.at?] at hbelow
    obtain ⟨child, hlookup, hchild⟩ := Option.bind_eq_some_iff.mp hbelow
    cases h with
    | file contents => simp [children] at hlookup
    | @directory entries _ hentries =>
      obtain ⟨before, after, hmem, -⟩ := List.lookup_eq_some_iff.mp hlookup
      have hin : (name, child) ∈ entries := by
        rw [children] at hmem
        simp [hmem]
      exact ih (hentries _ hin) hchild

end Entry

/-! ### File names that are left out -/

/-- File names that are found have different parts, which are not among the earlier ones. -/
lemma pairwise_distinctFileNames (earlier : List (List FileNamePart)) (fileNames : List String) :
    (distinctFileNames earlier fileNames).Pairwise (fun x y => list x ≠ list y) ∧
      ∀ x ∈ distinctFileNames earlier fileNames, list x ∉ earlier := by
  induction fileNames generalizing earlier with
  | nil => simp [distinctFileNames]
  | cons first rest ih =>
    rw [distinctFileNames]
    split
    · exact ih earlier
    · rename_i hfirst
      obtain ⟨hrest, hnew⟩ := ih (list first :: earlier)
      refine ⟨List.pairwise_cons.mpr ⟨fun x hx heq => ?_, hrest⟩, ?_⟩
      · exact hnew x hx (heq ▸ List.mem_cons_self)
      · refine List.forall_mem_cons.mpr ⟨hfirst, fun x hx hmem => ?_⟩
        exact hnew x hx (List.mem_cons_of_mem _ hmem)

lemma mem_of_mem_distinctFileNames {earlier : List (List FileNamePart)} {fileNames : List String}
    {x : String} (h : x ∈ distinctFileNames earlier fileNames) : x ∈ fileNames := by
  induction fileNames generalizing earlier with
  | nil => simp [distinctFileNames] at h
  | cons first rest ih =>
    rw [distinctFileNames] at h
    split at h
    · exact List.mem_cons_of_mem _ (ih h)
    · rcases List.mem_cons.mp h with rfl | h
      · exact List.mem_cons_self
      · exact List.mem_cons_of_mem _ (ih h)

/-- A file name is left out only if another one with its parts is found. -/
lemma exists_mem_distinctFileNames (earlier : List (List FileNamePart)) {fileNames : List String}
    {x : String} (h : x ∈ fileNames) :
    list x ∈ earlier ∨ ∃ y ∈ distinctFileNames earlier fileNames, list y = list x := by
  induction fileNames generalizing earlier with
  | nil => simp at h
  | cons first rest ih =>
    rw [distinctFileNames]
    by_cases hfirst : list first ∈ earlier
    · simp only [hfirst, if_true]
      rcases List.mem_cons.mp h with rfl | h
      · exact .inl hfirst
      · exact ih earlier h
    · simp only [hfirst, if_false]
      rcases List.mem_cons.mp h with rfl | h
      · exact .inr ⟨x, List.mem_cons_self, rfl⟩
      · rcases ih (list first :: earlier) h with hmem | ⟨y, hy, heq⟩
        · rcases List.mem_cons.mp hmem with heq | hmem
          · exact .inr ⟨first, List.mem_cons_self, heq.symm⟩
          · exact .inl hmem
        · exact .inr ⟨y, List.mem_cons_of_mem _ hy, heq⟩

/-! ### Inputs without files -/

/-- Nothing is left out in front of the first file name. -/
lemma distinctFileNames_nil_eq_nil_iff {fileNames : List String} :
    distinctFileNames [] fileNames = [] ↔ fileNames = [] := by
  cases fileNames with
  | nil => simp [distinctFileNames]
  | cons first rest => simp [distinctFileNames]

/-- The input is a directory without source files below it. -/
def Workplace.LacksSources (w : Workplace) (input : String) : Prop :=
  ∃ e, w.directory? input = some e ∧ e.sources input = []

lemma Workplace.expandInput_eq_nil_iff {w : Workplace} {input : String} :
    w.expandInput input = [] ↔ w.LacksSources input := by
  unfold expandInput LacksSources
  cases w.directory? input with
  | none => simp
  | some e => simp

/-- Nothing is found exactly if all inputs are directories without source files. -/
lemma Workplace.discover_eq_nil_iff {w : Workplace} {inputs : List String} :
    w.discover inputs = [] ↔ ∀ input ∈ inputs, w.LacksSources input := by
  unfold discover
  rw [distinctFileNames_nil_eq_nil_iff, List.flatMap_eq_nil_iff]
  simp only [expandInput_eq_nil_iff]

/-! ### Files that are found -/

namespace Workplace

variable {w : Workplace} {inputs : List String} {x y : String}

/-- Two file names lead to the same file. -/
def SameFile (w : Workplace) (x y : String) : Prop :=
  ∃ names contents, w.place x = .ok names ∧ w.place y = .ok names ∧
    w.root.at? names = some (.file contents)

/-- What leads to the same file is read alike. -/
lemma SameFile.read_eq (h : w.SameFile x y) : w.read x = w.read y := by
  obtain ⟨names, contents, hx, hy, -⟩ := h
  have hfind : w.find x = w.find y := by
    rw [find_eq_bind_place, find_eq_bind_place, hx, hy]
  unfold Workplace.read
  rw [hfind]

/-- A directory that is found has a name, and what it holds is named as the whole tree is. -/
lemma isNamed_of_directory? (tree : w.root.IsNamed) {input : String} {e : Entry}
    (h : w.directory? input = some e) : input ≠ "" ∧ e.IsNamed := by
  have hfind := find_of_directory? h
  obtain ⟨names, -, hat⟩ := find_eq_ok hfind
  exact ⟨ne_empty_of_find hfind, tree.at? hat⟩

/-- What an input stands for begins as the input, and goes on behind it by names. -/
lemma behind_of_mem_expandInput (tree : w.root.IsNamed) {input : String}
    (h : x ∈ w.expandInput input) : beginning x = beginning input ∧
      ∃ names : List String, behind x = behind input ++ names.map .name := by
  unfold expandInput at h
  cases hdirectory : w.directory? input with
  | none =>
    rw [hdirectory] at h
    rw [List.mem_singleton.mp h]
    exact ⟨rfl, [], by simp⟩
  | some e =>
    rw [hdirectory] at h
    obtain ⟨hne, hnamed⟩ := isNamed_of_directory? tree hdirectory
    obtain ⟨f, hf, rfl⟩ := List.mem_map.mp (List.mem_filter.mp h).1
    have hnames := hnamed.files f hf
    exact ⟨beginning_foldl_joinNames hne hnames, f.1, behind_foldl_joinNames input hnames⟩

/-- What is found is what an input stands for. -/
lemma exists_input_of_mem_discover (h : x ∈ w.discover inputs) :
    ∃ input ∈ inputs, x ∈ w.expandInput input :=
  List.mem_flatMap.mp (mem_of_mem_distinctFileNames h)

/-- The file name goes back to a directory that something is in. -/
def GoesBack (fileName : String) : Prop :=
  .parent ∈ list fileName

/-- Behind the beginning of a file name that does not go back there are only names. -/
lemma exists_names_of_not_goesBack {fileName : String} (h : ¬GoesBack fileName) :
    ∃ names : List String, behind fileName = names.map .name := by
  refine ⟨(parts fileName).filter (· ≠ "."), List.map_congr_left fun text htext => ?_⟩
  by_cases hparent : text = ".."
  · have hmem : .parent ∈ behind fileName :=
      List.mem_map.mpr ⟨text, htext, if_pos hparent⟩
    rw [GoesBack, list_eq] at h
    exact absurd (List.mem_append_right _ hmem) h
  · exact if_neg hparent

/-- What is found begins as one of the inputs. -/
lemma exists_beginning_of_mem_discover (tree : w.root.IsNamed) (h : x ∈ w.discover inputs) :
    ∃ input ∈ inputs, beginning x = beginning input := by
  obtain ⟨input, hinput, hx⟩ := exists_input_of_mem_discover h
  exact ⟨input, hinput, (behind_of_mem_expandInput tree hx).1⟩

/-- What is found for inputs that do not go back goes on by names. -/
lemma exists_names_of_mem_discover (tree : w.root.IsNamed)
    (ahead : ∀ input ∈ inputs, ¬GoesBack input) (h : x ∈ w.discover inputs) :
    ∃ names : List String, behind x = names.map .name := by
  obtain ⟨input, hinput, hx⟩ := exists_input_of_mem_discover h
  obtain ⟨-, below, hbelow⟩ := behind_of_mem_expandInput tree hx
  obtain ⟨names, hnames⟩ := exists_names_of_not_goesBack (ahead input hinput)
  refine ⟨names ++ below, ?_⟩
  rw [hbelow, hnames, List.map_append]

/-- What leads to the same file has parts that lead to the same place. -/
lemma sameFile_iff : w.SameFile x y ↔
    w.SameFile x x ∧ w.SameFile y y ∧ follow w.here (list x) = follow w.here (list y) := by
  constructor
  · rintro ⟨names, contents, hx, hy, hat⟩
    exact ⟨⟨names, contents, hx, hx, hat⟩, ⟨names, contents, hy, hy, hat⟩,
      (place_eq hx).symm.trans (place_eq hy)⟩
  · rintro ⟨⟨names, contents, hx, -, hat⟩, ⟨names', contents', hy, -, -⟩, hfollow⟩
    have hsame : names = names' := by
      rw [place_eq hx, place_eq hy, hfollow]
    exact ⟨names, contents, hx, hsame ▸ hy, hat⟩

/-- File names that go on by names from the same place and lead to the same place go on by the same
names. -/
lemma behind_eq_of_follow_eq {start : List String}
    (hx : ∃ names : List String, behind x = names.map .name)
    (hy : ∃ names : List String, behind y = names.map .name)
    (hstart : follow start (beginning x).toList = follow start (beginning y).toList)
    (h : follow start (list x) = follow start (list y)) : behind x = behind y := by
  obtain ⟨names, hx⟩ := hx
  obtain ⟨names', hy⟩ := hy
  have happend (fileName : String) : follow start (list fileName) =
      follow (follow start (beginning fileName).toList) (behind fileName) := by
    rw [list_eq]
    exact List.foldl_append
  rw [happend, happend, hstart, hx, hy, follow_names, follow_names] at h
  rw [hx, hy, List.append_cancel_left h]

/-- File names that are found for inputs that do not go back, begin in the same place and lead to
the same file go on by the same names. -/
lemma SameFile.behind_eq (h : w.SameFile x y) (tree : w.root.IsNamed)
    (ahead : ∀ input ∈ inputs, ¬GoesBack input) (hx : x ∈ w.discover inputs)
    (hy : y ∈ w.discover inputs)
    (hstart : follow w.here (beginning x).toList = follow w.here (beginning y).toList) :
    behind x = behind y := by
  apply behind_eq_of_follow_eq _ _ hstart (sameFile_iff.mp h).2.2
  · exact exists_names_of_mem_discover tree ahead hx
  · exact exists_names_of_mem_discover tree ahead hy

/-- A relative file name begins in the directory in use, whether or not that is written out. -/
lemma beginning_cases {fileName : String} (h : isAbsolute fileName = false) :
    beginning fileName = none ∨ beginning fileName = some .here := by
  unfold beginning
  rw [h]
  by_cases hhere : (parts fileName).head? = some "."
  · simp [hhere]
  · simp [hhere]

/-- Two relative file names that go on by the same names differ only in a dot in front. -/
lemma list_cases (hx : beginning x = none ∨ beginning x = some .here)
    (hy : beginning y = none ∨ beginning y = some .here) (h : behind x = behind y)
    (hne : list x ≠ list y) : list x = .here :: list y ∨ list y = .here :: list x := by
  simp only [list_eq, h] at hne ⊢
  rcases hx with hx | hx <;> rcases hy with hy | hy
  · simp [hx, hy] at hne
  · simp [hx, hy]
  · simp [hx, hy]
  · simp [hx, hy] at hne

/-- What a list of inputs stands for, and when a file is in it twice. -/
structure FindsFilesOnce (w : Workplace) (inputs : List String) : Prop where
  /-- No two file names that are found have the same parts. -/
  apart : (w.discover inputs).Pairwise fun x y => list x ≠ list y
  /-- Nothing is left out but file names that have the parts of another one. -/
  covers : ∀ input ∈ inputs, ∀ x ∈ w.expandInput input, ∃ y ∈ w.discover inputs, list y = list x
  /-- File names lead to the same file if they lead to files and their parts to the same place. -/
  same : ∀ x y, w.SameFile x y ↔
    w.SameFile x x ∧ w.SameFile y y ∧ follow w.here (list x) = follow w.here (list y)
  /-- Then what is read under them is the same, too. -/
  alike : ∀ x y, w.SameFile x y → w.read x = w.read y
  /-- Of relative inputs that do not go back, a file is found twice only if one of its names begins
  with a dot, and the other one is the same without it. -/
  relative : (∀ input ∈ inputs, ¬GoesBack input ∧ isAbsolute input = false) →
    (w.discover inputs).Pairwise fun x y => w.SameFile x y →
      list x = .here :: list y ∨ list y = .here :: list x
  /-- Of inputs that do not go back and all begin alike, no file is found twice. -/
  once : ∀ start, (∀ input ∈ inputs, ¬GoesBack input ∧ beginning input = start) →
    (w.discover inputs).Pairwise fun x y => ¬w.SameFile x y

/-- No file is found twice if the inputs begin alike and do not go back; if they begin in different
ways, a file can be found once with a dot in front and once without. -/
theorem discover_finds_files_once (tree : w.root.IsNamed) (inputs : List String) :
    w.FindsFilesOnce inputs := by
  obtain ⟨hapart, -⟩ := pairwise_distinctFileNames [] (inputs.flatMap w.expandInput)
  refine ⟨hapart, ?_, fun x y => sameFile_iff, fun x y => SameFile.read_eq, ?_, ?_⟩
  · intro input hinput x hx
    have hmem : x ∈ inputs.flatMap w.expandInput := List.mem_flatMap.mpr ⟨input, hinput, hx⟩
    rcases exists_mem_distinctFileNames [] hmem with h | h
    · exact absurd h List.not_mem_nil
    · exact h
  · intro hinputs
    have ahead : ∀ input ∈ inputs, ¬GoesBack input := fun input hinput => (hinputs input hinput).1
    have hcases : ∀ z ∈ w.discover inputs, beginning z = none ∨ beginning z = some .here := by
      intro z hz
      obtain ⟨input, hinput, hbeginning⟩ := exists_beginning_of_mem_discover tree hz
      rw [hbeginning]
      exact beginning_cases (hinputs input hinput).2
    -- with or without a dot in front, a file name starts in the directory in use
    have hstart : ∀ z ∈ w.discover inputs, follow w.here (beginning z).toList = w.here := by
      intro z hz
      rcases hcases z hz with h | h <;> rw [h] <;> rfl
    apply hapart.imp_of_mem
    intro x y hx hy hne hsame
    have hbehind : behind x = behind y :=
      hsame.behind_eq tree ahead hx hy ((hstart x hx).trans (hstart y hy).symm)
    exact list_cases (hcases x hx) (hcases y hy) hbehind hne
  · intro start hinputs
    have ahead : ∀ input ∈ inputs, ¬GoesBack input := fun input hinput => (hinputs input hinput).1
    have hstart : ∀ z ∈ w.discover inputs, beginning z = start := by
      intro z hz
      obtain ⟨input, hinput, hbeginning⟩ := exists_beginning_of_mem_discover tree hz
      rw [hbeginning, (hinputs input hinput).2]
    apply hapart.imp_of_mem
    intro x y hx hy hne hsame
    have hbeginning : beginning x = beginning y := (hstart x hx).trans (hstart y hy).symm
    have hbehind : behind x = behind y := hsame.behind_eq tree ahead hx hy (by rw [hbeginning])
    apply hne
    rw [list_eq, list_eq, hbeginning, hbehind]

/-- A place with a source file in the directory in use and another one below it. -/
def deskWorkplace : Workplace where
  root := .directory
    [("desk", .directory
      [("home.rs", .file "enum Home \x7b\x7d".toUTF8),
        ("screens", .directory [("sheet.rs", .file "enum Sheet \x7b\x7d".toUTF8)])])]
  here := ["desk"]

lemma isNamed_deskWorkplace : deskWorkplace.root.IsNamed := by
  have desk : IsFileName "desk" := ⟨by decide, by decide, by decide, by decide⟩
  have home : IsFileName "home.rs" := ⟨by decide, by decide, by decide, by decide⟩
  have screens : IsFileName "screens" := ⟨by decide, by decide, by decide, by decide⟩
  have sheet : IsFileName "sheet.rs" := ⟨by decide, by decide, by decide, by decide⟩
  refine .directory (List.forall_mem_singleton.mpr desk) (List.forall_mem_singleton.mpr ?_)
  refine .directory (by simp [home, screens]) (List.forall_mem_cons.mpr ⟨.file _, ?_⟩)
  refine List.forall_mem_singleton.mpr (.directory (List.forall_mem_singleton.mpr sheet) ?_)
  exact List.forall_mem_singleton.mpr (.file _)

/-- With the directory in use as an input the file in it is found twice, and with both inputs
written with a dot in front it is found once. -/
theorem discover_finds_home :
    deskWorkplace.discover ["home.rs", "."] = ["home.rs", "./home.rs", "./screens/sheet.rs"] ∧
      deskWorkplace.SameFile "home.rs" "./home.rs" ∧
      deskWorkplace.FindsFilesOnce ["home.rs", "."] ∧
      deskWorkplace.discover ["./home.rs", "."] = ["./home.rs", "./screens/sheet.rs"] ∧
      (deskWorkplace.discover ["./home.rs", "."]).Pairwise fun x y =>
        ¬deskWorkplace.SameFile x y := by
  refine ⟨by decide +kernel, ?_, discover_finds_files_once isNamed_deskWorkplace _,
    by decide +kernel, ?_⟩
  · exact ⟨["desk", "home.rs"], _, by decide +kernel, by decide +kernel, rfl⟩
  · apply (discover_finds_files_once isNamed_deskWorkplace ["./home.rs", "."]).once (some .here)
    simp only [GoesBack]
    decide +kernel

end Workplace

end UnionView
