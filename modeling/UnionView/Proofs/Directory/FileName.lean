import Mathlib.Data.List.Basic
import Mathlib.Tactic.Lemma
import UnionView.Directory.Discovery
import UnionView.Proofs.Failure

/-!
# File names and where they lead

A file name is followed part by part. If it leads anywhere, it leads where its parts say
(`Workplace.place_eq`), so two file names with the same parts cannot lead to different places. The
parts of a name of something below a directory are those of the directory, and behind them the names
on the way (`FileNamePart.behind_foldl_joinNames`).
-/

namespace UnionView

/-! ### The pieces of a text -/

namespace Text

variable {separator : Char}

lemma pieces_ne_nil (cs : List Char) : pieces separator cs ≠ [] := by
  cases cs with
  | nil => simp [pieces]
  | cons c cs =>
    rw [pieces]
    split
    · simp
    · split <;> simp

/-- A separator ends one piece and begins another one. -/
lemma pieces_append_cons (as bs : List Char) :
    pieces separator (as ++ separator :: bs) = pieces separator as ++ pieces separator bs := by
  induction as with
  | nil => simp [pieces]
  | cons a as ih =>
    rw [List.cons_append, pieces, pieces, ih]
    by_cases ha : a = separator
    · simp [ha]
    · rw [if_neg ha, if_neg ha]
      cases hpieces : pieces separator as with
      | nil => exact absurd hpieces (pieces_ne_nil as)
      | cons piece more => rfl

/-- A text without separators is one piece. -/
lemma pieces_of_notMem {cs : List Char} (h : separator ∉ cs) : pieces separator cs = [cs] := by
  induction cs with
  | nil => rfl
  | cons c cs ih =>
    rw [List.mem_cons, not_or] at h
    rw [pieces, if_neg (Ne.symm h.1), ih h.2]

/-- The first piece of a text that does not begin with a separator begins as the text does. -/
lemma exists_pieces_cons {c : Char} (h : c ≠ separator) (cs : List Char) :
    ∃ piece more, pieces separator (c :: cs) = (c :: piece) :: more := by
  rw [pieces, if_neg h]
  split
  · exact ⟨[], [], rfl⟩
  · exact ⟨_, _, rfl⟩

end Text

/-! ### The parts of a file name -/

/-- The names that files and directories can have. -/
structure IsFileName (name : String) : Prop where
  ne_empty : name ≠ ""
  ne_here : name ≠ "."
  ne_parent : name ≠ ".."
  no_slash : '/' ∉ name.toList

namespace Workplace

lemma parts_append_slash (a b : String) : parts (a ++ "/" ++ b) = parts a ++ parts b := by
  have hlist : (a ++ "/" ++ b).toList = a.toList ++ '/' :: b.toList := by simp
  simp [parts, Text.splitText, hlist, Text.pieces_append_cons]

lemma parts_of_isFileName {name : String} (h : IsFileName name) : parts name = [name] := by
  simp [parts, Text.splitText, Text.pieces_of_notMem h.no_slash, h.ne_empty]

lemma exists_of_endsWithSlash {fileName : String} (h : endsWithSlash fileName = true) :
    ∃ directory, fileName = directory ++ "/" := by
  obtain ⟨cs, hcs⟩ := List.getLast?_eq_some_iff.mp (of_decide_eq_true h)
  refine ⟨String.ofList cs, String.toList_inj.mp ?_⟩
  simp [hcs]

/-- What a directory holds has one part more than the directory. -/
lemma parts_joinNames (fileName : String) {name : String} (h : IsFileName name) :
    parts (joinNames fileName name) = parts fileName ++ [name] := by
  have hname := parts_of_isFileName h
  have hempty : parts "" = [] := by
    decide
  unfold joinNames
  by_cases hnone : fileName = ""
  · simp [hnone, hname, hempty]
  by_cases hslash : endsWithSlash fileName = true
  · obtain ⟨directory, rfl⟩ := exists_of_endsWithSlash hslash
    have hdirectory : parts (directory ++ "/") = parts directory := by
      have := parts_append_slash directory ""
      rwa [String.append_empty, hempty, List.append_nil] at this
    simp only [hslash, Bool.or_true, if_true]
    rw [parts_append_slash, hname, hdirectory]
  · simp only [hnone, hslash, decide_false, Bool.or_self, if_false, Bool.false_eq_true]
    rw [parts_append_slash, hname]

/-- A file name without parts begins at the root. -/
lemma isAbsolute_of_parts_eq_nil {fileName : String} (hne : fileName ≠ "")
    (h : parts fileName = []) : isAbsolute fileName = true := by
  cases hlist : fileName.toList with
  | nil => exact absurd (String.toList_eq_nil_iff.mp hlist) hne
  | cons c cs =>
    by_contra habsolute
    have hc : c ≠ '/' := by
      rintro rfl
      exact habsolute (by simp [isAbsolute, hlist])
    obtain ⟨piece, more, hpieces⟩ := Text.exists_pieces_cons hc cs
    simp [parts, Text.splitText, hlist, hpieces] at h

lemma isAbsolute_joinNames {fileName : String} (hne : fileName ≠ "") (name : String) :
    isAbsolute (joinNames fileName name) = isAbsolute fileName := by
  cases hlist : fileName.toList with
  | nil => exact absurd (String.toList_eq_nil_iff.mp hlist) hne
  | cons c cs =>
    unfold joinNames
    split <;> simp [isAbsolute, hlist]

end Workplace

lemma joinNames_ne_empty {fileName : String} (hne : fileName ≠ "") (name : String) :
    joinNames fileName name ≠ "" := by
  unfold joinNames
  split <;> simp [hne]

namespace FileNamePart

open Workplace

/-- How a file name begins: at the root, with the directory in use written out, or with a name. -/
def beginning (fileName : String) : Option FileNamePart :=
  if isAbsolute fileName then some root
  else if (parts fileName).head? = some "." then some here
  else none

def behind (fileName : String) : List FileNamePart :=
  ((parts fileName).filter (· ≠ ".")).map ofText

lemma list_eq (fileName : String) :
    list fileName = (beginning fileName).toList ++ behind fileName := by
  unfold list beginning behind
  by_cases habsolute : isAbsolute fileName = true
  · simp [habsolute]
  by_cases hhere : (parts fileName).head? = some "."
  · simp [habsolute, hhere]
  · simp [habsolute, hhere]

lemma ofText_of_isFileName {name : String} (h : IsFileName name) :
    ofText name = .name name :=
  if_neg h.ne_parent

lemma beginning_joinNames {fileName : String} (hne : fileName ≠ "") {name : String}
    (h : IsFileName name) : beginning (joinNames fileName name) = beginning fileName := by
  unfold beginning
  rw [isAbsolute_joinNames hne, parts_joinNames fileName h]
  cases hparts : parts fileName with
  | nil => simp [isAbsolute_of_parts_eq_nil hne hparts]
  | cons part rest => rfl

lemma behind_joinNames (fileName : String) {name : String} (h : IsFileName name) :
    behind (joinNames fileName name) = behind fileName ++ [.name name] := by
  simp [behind, parts_joinNames fileName h, h.ne_here, ofText_of_isFileName h]

/-- What stands below a directory begins as the directory does. -/
lemma beginning_foldl_joinNames {fileName : String} (hne : fileName ≠ "") {names : List String}
    (h : ∀ name ∈ names, IsFileName name) :
    beginning (names.foldl joinNames fileName) = beginning fileName := by
  induction names generalizing fileName with
  | nil => rfl
  | cons name names ih =>
    obtain ⟨hname, hnames⟩ := List.forall_mem_cons.mp h
    rw [List.foldl_cons, ih (joinNames_ne_empty hne name) hnames, beginning_joinNames hne hname]

/-- What stands below a directory has the parts of the directory, and behind them the names on the
way. -/
lemma behind_foldl_joinNames (fileName : String) {names : List String}
    (h : ∀ name ∈ names, IsFileName name) :
    behind (names.foldl joinNames fileName) = behind fileName ++ names.map .name := by
  induction names generalizing fileName with
  | nil => simp
  | cons name names ih =>
    obtain ⟨hname, hnames⟩ := List.forall_mem_cons.mp h
    rw [List.foldl_cons, ih (joinNames fileName name) hnames, behind_joinNames fileName hname]
    simp

/-! ### Where parts lead -/

/-- The names from the root behind one more part. -/
def goOn (names : List String) : FileNamePart → List String
  | root => []
  | here => names
  | parent => names.dropLast
  | name text => names ++ [text]

/-- The names from the root behind several parts. -/
def follow (names : List String) (parts : List FileNamePart) : List String :=
  parts.foldl goOn names

lemma follow_names (start names : List String) :
    follow start (names.map .name) = start ++ names := by
  unfold follow
  induction names generalizing start with
  | nil => simp
  | cons name names ih => simp [ih, goOn]

end FileNamePart

namespace Workplace

open FileNamePart

variable {w : Workplace}

/-- The names from the root to what a file name leads to. -/
def place (w : Workplace) (fileName : String) : Except FileFailure (List String) := do
  let start ← w.origin fileName
  (parts fileName ++ (if endsWithSlash fileName then ["."] else [])).foldlM (step w.root) start

/-- Finding something is going to its place. -/
lemma find_eq_bind_place (w : Workplace) (fileName : String) :
    w.find fileName = w.place fileName >>= fun names =>
      match w.root.at? names with
      | some e => return e
      | none => throw .notFound := by
  unfold find place
  cases w.origin fileName <;> rfl

/-- What is found is what stands at the place that the file name leads to. -/
lemma find_eq_ok {fileName : String} {e : Entry} (h : w.find fileName = .ok e) :
    ∃ names, w.place fileName = .ok names ∧ w.root.at? names = some e := by
  rw [find_eq_bind_place] at h
  obtain ⟨names, hplace, hat⟩ := Except.bind_eq_ok_iff.mp h
  refine ⟨names, hplace, ?_⟩
  cases hentry : w.root.at? names with
  | none =>
    rw [hentry] at hat
    cases hat
  | some entry =>
    rw [hentry] at hat
    rw [Except.ok.inj hat]

lemma find_of_directory? {fileName : String} {e : Entry} (h : w.directory? fileName = some e) :
    w.find fileName = .ok e := by
  unfold directory? at h
  split at h
  · rename_i hfind
    rw [hfind, Option.some.inj h]
  · cases h

/-- Nothing is found without a name. -/
lemma ne_empty_of_find {fileName : String} {e : Entry} (h : w.find fileName = .ok e) :
    fileName ≠ "" := by
  rintro rfl
  have hnone : w.find "" = .error .notFound := rfl
  rw [hnone] at h
  cases h

/-- A step that can be taken leads where the part says. -/
lemma eq_of_step {root : Entry} {names names' : List String} {part : String}
    (h : step root names part = .ok names') :
    names' = if part = "." then names else goOn names (ofText part) := by
  unfold step at h
  split at h
  · cases h
  · cases h
  · by_cases hhere : part = "."
    · rw [if_pos hhere] at h ⊢
      exact (Except.ok.inj h).symm
    · rw [if_neg hhere] at h ⊢
      by_cases hparent : part = ".."
      · rw [if_pos hparent] at h
        rw [ofText, if_pos hparent]
        exact (Except.ok.inj h).symm
      · rw [if_neg hparent] at h
        rw [ofText, if_neg hparent]
        split at h
        · cases h
        · split at h
          · exact (Except.ok.inj h).symm
          · cases h

/-- Steps that can be taken one after the other lead where the parts say. -/
lemma eq_of_foldlM_step {root : Entry} {names names' : List String} {parts : List String}
    (h : parts.foldlM (step root) names = .ok names') :
    names' = follow names ((parts.filter (· ≠ ".")).map ofText) := by
  induction parts generalizing names with
  | nil => exact (Except.ok.inj h).symm
  | cons part parts ih =>
    rw [List.foldlM_cons] at h
    obtain ⟨between, hstep, hrest⟩ := Except.bind_eq_ok_iff.mp h
    rw [ih hrest, eq_of_step hstep]
    by_cases hhere : part = "."
    · simp [hhere]
    · simp [hhere, follow]

/-- A file name begins at the root or in the directory in use. -/
lemma eq_of_origin {fileName : String} {start : List String} (h : w.origin fileName = .ok start) :
    start = if isAbsolute fileName then [] else w.here := by
  unfold origin at h
  split at h
  · cases h
  · split at h
    · cases h
    · split at h
      · cases h
      · exact (Except.ok.inj h).symm

/-- A file name that leads anywhere leads where its parts say. -/
lemma place_eq {fileName : String} {names : List String} (h : w.place fileName = .ok names) :
    names = follow w.here (list fileName) := by
  obtain ⟨start, horigin, hsteps⟩ := Except.bind_eq_ok_iff.mp h
  have hdot : (parts fileName ++ if endsWithSlash fileName then ["."] else []).filter (· ≠ ".") =
      (parts fileName).filter (· ≠ ".") := by
    split <;> simp
  have hnames : names = follow start (behind fileName) := by
    rw [eq_of_foldlM_step hsteps, hdot, behind]
  rw [hnames, eq_of_origin horigin, list_eq, beginning]
  by_cases habsolute : isAbsolute fileName = true
  · simp [habsolute, follow, goOn]
  by_cases hhere : (parts fileName).head? = some "."
  · simp [habsolute, hhere, follow, goOn]
  · simp [habsolute, hhere]

end Workplace

end UnionView
