import UnionView.Proofs.Directory.Discovery

/-!
# Spellings of a file name

File names with the same parts can be spelled in different ways, with more slashes or with dots
between the parts. They are read alike, with the same failures, unless one of them must be the name
of a directory and the other one need not, or one is longer than file names can be
(`Workplace.read_eq_of_list_eq`).
-/

namespace UnionView

open FileNamePart

namespace Text

variable {separator : Char}

/-- The pieces of a text hold all of it but the separators. -/
lemma flatten_pieces (cs : List Char) :
    (pieces separator cs).flatten = cs.filter (· ≠ separator) := by
  induction cs with
  | nil => rfl
  | cons c cs ih =>
    rw [pieces]
    by_cases hc : c = separator
    · simp [hc, ih]
    · rw [if_neg hc, List.filter_cons_of_pos (by simpa using hc), ← ih]
      cases hpieces : pieces separator cs with
      | nil => exact absurd hpieces (pieces_ne_nil cs)
      | cons piece more => rfl

/-- The last piece of a text is all of it, or a separator stands in front of it. -/
lemma eq_or_of_getLast?_pieces {cs last : List Char}
    (h : (pieces separator cs).getLast? = some last) :
    cs = last ∨ ∃ front, cs = front ++ separator :: last := by
  by_cases hmem : separator ∈ cs
  · obtain ⟨back, front, hreverse, hback⟩ :=
      List.eq_append_cons_of_mem (List.mem_reverse.mpr hmem)
    have hcs : cs = front.reverse ++ separator :: back.reverse := by
      rw [← List.reverse_reverse cs, hreverse]
      simp
    have hpieces : pieces separator back.reverse = [back.reverse] :=
      pieces_of_notMem (by simpa using hback)
    rw [hcs, pieces_append_cons, hpieces, List.getLast?_append] at h
    have hlast : back.reverse = last := by simpa using h
    exact .inr ⟨front.reverse, hlast ▸ hcs⟩
  · rw [pieces_of_notMem hmem] at h
    exact .inl (Option.some.inj h)

end Text

/-! ### What the parts say of a name -/

namespace FileNamePart

open Workplace

variable {x y : String}

lemma ofText_injective : Function.Injective ofText := by
  intro a b h
  unfold ofText at h
  by_cases ha : a = ".." <;> by_cases hb : b = ".." <;> simp_all

/-- Behind the beginning no part can begin a name. -/
lemma not_mem_behind {part : FileNamePart} (h : part = root ∨ part = here) : part ∉ behind x := by
  intro hmem
  obtain ⟨text, -, rfl⟩ := List.mem_map.mp hmem
  unfold ofText at h
  split at h <;> simp at h

lemma beginning_eq_some {part : FileNamePart} (h : beginning x = some part) :
    part = root ∨ part = here := by
  unfold beginning at h
  split at h
  · exact .inl (Option.some.inj h).symm
  · split at h
    · exact .inr (Option.some.inj h).symm
    · cases h

/-- Names have the same parts if they begin alike and have the same parts behind the beginning. -/
lemma list_eq_list_iff : list x = list y ↔ beginning x = beginning y ∧ behind x = behind y := by
  constructor
  · intro h
    rw [list_eq, list_eq] at h
    cases hx : beginning x with
    | none =>
      cases hy : beginning y with
      | none => simpa [hx, hy] using h
      | some part =>
        have hmem : part ∈ behind x := by
          rw [hx, hy, Option.toList_none, Option.toList_some, List.nil_append] at h
          exact h ▸ List.mem_cons_self
        exact absurd hmem (not_mem_behind (beginning_eq_some hy))
    | some part =>
      cases hy : beginning y with
      | none =>
        have hmem : part ∈ behind y := by
          rw [hx, hy, Option.toList_none, Option.toList_some, List.nil_append] at h
          exact h ▸ List.mem_cons_self
        exact absurd hmem (not_mem_behind (beginning_eq_some hx))
      | some part' => simpa [hx, hy] using h
  · rintro ⟨hbeginning, hbehind⟩
    rw [list_eq, list_eq, hbeginning, hbehind]

lemma isAbsolute_iff : isAbsolute x = true ↔ beginning x = some root := by
  unfold beginning
  by_cases habsolute : isAbsolute x = true
  · simp [habsolute]
  · by_cases hhere : (parts x).head? = some "." <;> simp [habsolute, hhere]

/-- Only the empty name has no parts. -/
lemma eq_empty_iff : x = "" ↔ list x = [] := by
  constructor
  · rintro rfl
    decide
  · intro h
    rw [list_eq, List.append_eq_nil_iff] at h
    obtain ⟨hbeginning, hbehind⟩ := h
    by_contra hne
    cases hparts : parts x with
    | nil =>
      rw [isAbsolute_iff.mp (isAbsolute_of_parts_eq_nil hne hparts)] at hbeginning
      simp at hbeginning
    | cons first rest =>
      -- the first part is a dot, and with a dot a name begins
      have hfirst : first = "." := by
        by_contra hdot
        simp [behind, hparts, hdot] at hbehind
      have hsome : (beginning x).isSome = true := by
        unfold beginning
        rw [hparts, hfirst]
        split <;> simp
      obtain ⟨part, hpart⟩ := Option.isSome_iff_exists.mp hsome
      rw [hpart] at hbeginning
      simp at hbeginning

/-- A character of the name, unless it is a slash or a dot, is one of a part that is a name. -/
lemma mem_toList_iff {c : Char} (hslash : c ≠ '/') (hdot : c ≠ '.') :
    c ∈ x.toList ↔ ∃ text, .name text ∈ behind x ∧ c ∈ text.toList := by
  have hpieces : c ∈ x.toList ↔ ∃ piece ∈ Text.pieces '/' x.toList, c ∈ piece := by
    rw [← List.mem_flatten, Text.flatten_pieces, List.mem_filter]
    simp [hslash]
  have hparts (text : String) (htext : c ∈ text.toList) :
      text ≠ "" ∧ text ≠ "." ∧ text ≠ ".." := by
    refine ⟨?_, ?_, ?_⟩ <;> rintro rfl <;> simp [hdot] at htext
  rw [hpieces]
  constructor
  · rintro ⟨piece, hpiece, hc⟩
    obtain ⟨hne, hhere, hparent⟩ := hparts (String.ofList piece) (by simpa using hc)
    refine ⟨String.ofList piece, List.mem_map.mpr ⟨String.ofList piece, ?_, if_neg hparent⟩, by
      simpa using hc⟩
    simp only [parts, Text.splitText, List.mem_filter, List.mem_map]
    exact ⟨⟨⟨piece, hpiece, rfl⟩, by simpa using hne⟩, by simpa using hhere⟩
  · rintro ⟨text, hmem, hc⟩
    obtain ⟨text', hpart, htext⟩ := List.mem_map.mp hmem
    obtain ⟨-, -, hparent⟩ := hparts text hc
    have hsame : text' = text := by
      unfold ofText at htext
      split at htext
      · cases htext
      · exact FileNamePart.name.inj htext
    simp only [parts, Text.splitText, List.mem_filter, List.mem_map] at hpart
    obtain ⟨⟨⟨piece, hpiece, rfl⟩, -⟩, -⟩ := hpart
    refine ⟨piece, hpiece, ?_⟩
    rw [← hsame] at hc
    simpa using hc

end FileNamePart

/-! ### Names that need not be those of directories -/

/-- A name does not end with a slash, nor with a dot behind a slash. -/
structure IsPlain (fileName : String) : Prop where
  no_slash : ¬['/'] <:+ fileName.toList
  no_dot : ¬['/', '.'] <:+ fileName.toList

namespace Workplace

variable {w : Workplace} {x y : String}

/-- A name can be that of a file: it does not end with a slash, and its last part is no dot unless
it is all of the name. -/
structure CanNameFile (fileName : String) : Prop where
  no_slash : endsWithSlash fileName = false
  last : fileName = "." ∨ (parts fileName).getLast? ≠ some "."

/-- A file name is longer than file names can be. -/
def IsTooLong (fileName : String) : Prop :=
  longestFileName < fileName.utf8ByteSize

lemma canNameFile_of_isPlain (h : IsPlain x) : CanNameFile x := by
  have hslash : endsWithSlash x = false := by
    refine Bool.eq_false_iff.mpr fun hends => h.no_slash ?_
    obtain ⟨cs, hcs⟩ := List.getLast?_eq_some_iff.mp (of_decide_eq_true hends)
    exact ⟨cs, hcs.symm⟩
  refine ⟨hslash, or_iff_not_imp_right.mpr fun hdot => ?_⟩
  rw [not_not] at hdot
  obtain ⟨last, hlast⟩ : ∃ last, (Text.pieces '/' x.toList).getLast? = some last :=
    ⟨_, List.getLast?_eq_some_getLast (Text.pieces_ne_nil _)⟩
  have hcases := Text.eq_or_of_getLast?_pieces hlast
  obtain ⟨init, hpieces⟩ := List.getLast?_eq_some_iff.mp hlast
  have hparts : parts x = (init.map String.ofList).filter (· ≠ "") ++
      [String.ofList last].filter (· ≠ "") := by
    rw [parts, Text.splitText, hpieces, List.map_append, List.filter_append]
    rfl
  by_cases hempty : last = []
  · rcases hcases with hcs | ⟨front, hcs⟩
    · rw [hempty, String.toList_eq_nil_iff] at hcs
      subst hcs
      revert hdot
      decide
    · exact absurd ⟨front, by rw [hcs, hempty]⟩ h.no_slash
  · have hkept : [String.ofList last].filter (· ≠ "") = [String.ofList last] := by
      simp [hempty]
    have hdot' : last = ['.'] := by
      rw [hparts, hkept, List.getLast?_concat] at hdot
      simpa using congrArg String.toList (Option.some.inj hdot)
    rcases hcases with hcs | ⟨front, hcs⟩
    · exact String.toList_inj.mp (hcs.trans hdot')
    · exact absurd ⟨front, by rw [hcs, hdot']⟩ h.no_dot

/-- What a directory holds can be a file. -/
lemma canNameFile_joinNames (fileName : String) {name : String} (h : IsFileName name) :
    CanNameFile (joinNames fileName name) := by
  refine ⟨?_, .inr ?_⟩
  · have hname : name.toList ≠ [] := by
      simpa using h.ne_empty
    obtain ⟨front, hfront⟩ : ∃ front, (joinNames fileName name).toList = front ++ name.toList := by
      unfold joinNames
      split
      · exact ⟨fileName.toList, by simp⟩
      · exact ⟨fileName.toList ++ ['/'], by simp⟩
    have hlast : ∀ c ∈ name.toList.getLast?, c ≠ '/' := by
      rintro c hc rfl
      exact h.no_slash (List.mem_of_getLast? hc)
    unfold endsWithSlash
    rw [hfront, List.getLast?_append_of_ne_nil _ hname]
    exact decide_eq_false fun heq => hlast '/' heq rfl
  · rw [parts_joinNames fileName h, List.getLast?_append]
    simpa using h.ne_here

/-- What stands below a directory can be a file. -/
lemma canNameFile_foldl_joinNames (fileName : String) {names : List String} (hne : names ≠ [])
    (h : ∀ name ∈ names, IsFileName name) : CanNameFile (names.foldl joinNames fileName) := by
  obtain ⟨front, last, rfl⟩ := (List.eq_nil_or_concat' names).resolve_left hne
  rw [List.foldl_append]
  exact canNameFile_joinNames _ (h last (by simp))

lemma parts_append_single_slash (x : String) : parts (x ++ "/") = parts x := by
  have happend := parts_append_slash x ""
  have hempty : parts "" = [] := by
    decide
  rwa [String.append_empty, hempty, List.append_nil] at happend

/-- A slash behind a name does not change its parts. -/
lemma list_append_slash (hne : x ≠ "") : list (x ++ "/") = list x := by
  have habsolute : isAbsolute (x ++ "/") = isAbsolute x := by
    cases hx : x.toList with
    | nil => exact absurd (String.toList_eq_nil_iff.mp hx) hne
    | cons c cs => simp [isAbsolute, hx]
  unfold FileNamePart.list
  rw [parts_append_single_slash, habsolute]

/-! ### Following parts -/

/-- A dot in front of another part changes nothing. -/
lemma step_dot_bind (root : Entry) (names : List String) (next : String) (rest : List String) :
    (step root names "." >>= (next :: rest).foldlM (step root)) =
      (next :: rest).foldlM (step root) names := by
  cases hentry : root.at? names with
  | none =>
    have hstep (part : String) : step root names part = .error .notFound := by
      simp [step, hentry]
    rw [List.foldlM_cons, hstep, hstep]
    rfl
  | some e =>
    cases e with
    | file contents =>
      have hstep (part : String) : step root names part = .error .notADirectory := by
        simp [step, hentry]
      rw [List.foldlM_cons, hstep, hstep]
      rfl
    | directory entries =>
      have hdot : step root names "." = .ok names := by
        simp [step, hentry]
      rw [hdot]
      rfl

/-- Dots in front of other parts change nothing. -/
lemma foldlM_step_filter {root : Entry} {parts : List String} (h : parts.getLast? ≠ some ".")
    (names : List String) :
    parts.foldlM (step root) names = (parts.filter (· ≠ ".")).foldlM (step root) names := by
  induction parts generalizing names with
  | nil => rfl
  | cons part rest ih =>
    cases rest with
    | nil =>
      have hpart : part ≠ "." := by
        simpa using h
      simp [hpart]
    | cons next more =>
      rw [List.getLast?_cons_cons] at h
      by_cases hpart : part = "."
      · rw [hpart, List.foldlM_cons, step_dot_bind, ih h]
        simp
      · rw [List.filter_cons_of_pos (by simpa using hpart), List.foldlM_cons, List.foldlM_cons]
        exact congrArg _ (funext fun names' => ih h names')

/-- A dot is the only name of the directory in use that need not end with a slash. -/
lemma eq_dot_of_list_eq (hy : CanNameFile y) (h : list "." = list y) : y = "." := by
  refine hy.last.resolve_right fun hlast => hlast ?_
  obtain ⟨hbeginning, hbehind⟩ := list_eq_list_iff.mp h
  have hhead : (parts y).head? = some "." := by
    have hhere : beginning y = some .here := hbeginning.symm.trans (by decide)
    unfold beginning at hhere
    split at hhere
    · cases hhere
    · split at hhere
      · assumption
      · cases hhere
  have hdots : ∀ part ∈ parts y, part = "." := by
    have hnil : behind y = [] := hbehind.symm.trans (by decide)
    rw [behind, List.map_eq_nil_iff, List.filter_eq_nil_iff] at hnil
    simpa using hnil
  have hne : parts y ≠ [] := by
    rintro hnil
    simp [hnil] at hhead
  rw [List.getLast?_eq_some_getLast hne, hdots _ (List.getLast_mem hne)]

/-- Names with the same parts begin in the same place, or fail to for the same reason. -/
lemma origin_eq_of_list_eq (h : list x = list y) (length : IsTooLong x ↔ IsTooLong y) :
    w.origin x = w.origin y := by
  obtain ⟨hbeginning, hbehind⟩ := list_eq_list_iff.mp h
  have hnul : x.toList.contains '\x00' = y.toList.contains '\x00' := by
    rw [Bool.eq_iff_iff, List.contains_iff_mem, List.contains_iff_mem,
      mem_toList_iff (by decide) (by decide), mem_toList_iff (by decide) (by decide), hbehind]
  have hempty : x = "" ↔ y = "" := by
    rw [eq_empty_iff, eq_empty_iff, h]
  have habsolute : isAbsolute x = isAbsolute y := by
    rw [Bool.eq_iff_iff, isAbsolute_iff, isAbsolute_iff, hbeginning]
  unfold IsTooLong at length
  unfold origin
  simp only [hnul, hempty, length, habsolute]

/-- Names of files that have the same parts lead to the same, or fail to for the same reason. -/
lemma find_eq_of_list_eq (hx : CanNameFile x) (hy : CanNameFile y) (h : list x = list y)
    (length : IsTooLong x ↔ IsTooLong y) : w.find x = w.find y := by
  rcases hx.last with rfl | hlast
  · rw [eq_dot_of_list_eq hy h]
  rcases hy.last with rfl | hlast'
  · rw [eq_dot_of_list_eq hx h.symm]
  have hparts : (parts x).filter (· ≠ ".") = (parts y).filter (· ≠ ".") :=
    List.map_injective_iff.mpr ofText_injective (list_eq_list_iff.mp h).2
  have hsteps (start : List String) :
      (parts x).foldlM (step w.root) start = (parts y).foldlM (step w.root) start := by
    rw [foldlM_step_filter hlast, foldlM_step_filter hlast', hparts]
  unfold find
  simp [hx.no_slash, hy.no_slash, origin_eq_of_list_eq h length, hsteps]

/-- Names of files that have the same parts are read alike, failures included, if both are short
enough or none is. -/
theorem read_eq_of_list_eq (hx : CanNameFile x) (hy : CanNameFile y) (h : list x = list y)
    (length : IsTooLong x ↔ IsTooLong y) : w.read x = w.read y := by
  unfold Workplace.read
  rw [find_eq_of_list_eq hx hy h length]

/-! ### What inputs stand for -/

lemma exists_entries_of_directory? {e : Entry} (h : w.directory? x = some e) :
    ∃ entries, e = .directory entries := by
  unfold directory? at h
  split at h
  · exact ⟨_, (Option.some.inj h).symm⟩
  · cases h

/-- What plain inputs stand for can be files. -/
lemma canNameFile_of_mem_expandInput (tree : w.root.IsNamed) {input : String}
    (plain : IsPlain input) (h : x ∈ w.expandInput input) : CanNameFile x := by
  unfold expandInput at h
  cases hdirectory : w.directory? input with
  | none =>
    rw [hdirectory] at h
    rw [List.mem_singleton.mp h]
    exact canNameFile_of_isPlain plain
  | some e =>
    rw [hdirectory] at h
    obtain ⟨-, hnamed⟩ := isNamed_of_directory? tree hdirectory
    obtain ⟨f, hf, rfl⟩ := List.mem_map.mp (List.mem_filter.mp h).1
    refine canNameFile_foldl_joinNames input ?_ (hnamed.files f hf)
    obtain ⟨entries, rfl⟩ := exists_entries_of_directory? hdirectory
    rw [Entry.files] at hf
    obtain ⟨_, -, g, -, hnames⟩ := Entry.mem_filesOf hf
    simp [hnames]

/-- The inputs stand for the same files, whatever their order, if their spelling is left aside. -/
lemma perm_list_discover {inputs inputs' : List String}
    (same : ∀ input, input ∈ inputs ↔ input ∈ inputs') :
    ((w.discover inputs).map list).Perm ((w.discover inputs').map list) := by
  have hnodup (inputs : List String) : ((w.discover inputs).map list).Nodup :=
    List.pairwise_map.mpr (pairwise_distinctFileNames [] _).1
  have hmem (inputs : List String) (parts : List FileNamePart) :
      parts ∈ (w.discover inputs).map list ↔
        ∃ input ∈ inputs, ∃ x ∈ w.expandInput input, list x = parts := by
    rw [List.mem_map]
    constructor
    · rintro ⟨x, hx, rfl⟩
      obtain ⟨input, hinput, hmem⟩ := exists_input_of_mem_discover hx
      exact ⟨input, hinput, x, hmem, rfl⟩
    · rintro ⟨input, hinput, x, hx, rfl⟩
      have hfound : x ∈ inputs.flatMap w.expandInput := List.mem_flatMap.mpr ⟨input, hinput, hx⟩
      exact (exists_mem_distinctFileNames [] hfound).resolve_left List.not_mem_nil
  rw [List.perm_ext_iff_of_nodup (hnodup inputs) (hnodup inputs')]
  intro parts
  simp only [hmem, same]

end Workplace

end UnionView
