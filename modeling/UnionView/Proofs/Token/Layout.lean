import UnionView.Proofs.Failure
import UnionView.Proofs.Token.Spelling

/-!
# Layouts of code

A layout of some code (`Layout`) is a text in which its tokens stand one behind the other, with
blanks and ordinary comments wherever no token is changed by them. A text is read as some code
exactly if it is a layout of it and the brackets of the code match (`ofText_eq_ok_iff`), so the
lines, columns and comments of a text do not matter to what is read.
-/

namespace UnionView

open Text Lexer

/-! ### Matching brackets -/

/-- The groups that are open behind a token, innermost first, if those in front of it were open
before. -/
def Token.nest (opened : List Delimiter) : Token → Option (List Delimiter)
  | .opening d => some (d :: opened)
  | .closing d =>
    match opened with
    | [] => none
    | e :: outer => if e = d then some outer else none
  | _ => some opened

/-- The groups that are open behind some code. -/
def Code.nest (opened : List Delimiter) : Code → Option (List Delimiter)
  | [] => some opened
  | token :: code => (token.nest opened).bind fun inner => Code.nest inner code

/-- Every bracket of the code matches another one of its own kind. -/
def Code.IsBalanced (code : Code) : Prop :=
  code.nest [] = some []

lemma Code.nest_append (opened : List Delimiter) (a b : Code) :
    Code.nest opened (a ++ b) = (Code.nest opened a).bind fun inner => Code.nest inner b := by
  induction a generalizing opened with
  | nil => rfl
  | cons token a ih =>
    rw [List.cons_append, Code.nest, Code.nest, Option.bind_assoc]
    simp only [ih]

/-- Groups around some code do not matter to it. -/
lemma Code.nest_of_nest {opened inner : List Delimiter} {code : Code}
    (h : Code.nest opened code = some inner) (outer : List Delimiter) :
    Code.nest (opened ++ outer) code = some (inner ++ outer) := by
  induction code generalizing opened with
  | nil =>
    cases h
    rfl
  | cons token code ih =>
    obtain ⟨between, htoken, hcode⟩ := Option.bind_eq_some_iff.mp h
    have htoken' : token.nest (opened ++ outer) = some (between ++ outer) := by
      cases token with
      | ident | punct | literal | opening =>
        cases htoken
        rfl
      | closing d =>
        cases opened with
        | nil => cases htoken
        | cons e opened =>
          simp only [Token.nest, List.cons_append] at htoken ⊢
          split at htoken
          · cases htoken
            rw [if_pos ‹_›]
          · cases htoken
    rw [Code.nest, htoken', Option.bind_some, ih hcode]

lemma Code.IsBalanced.nest {code : Code} (h : code.IsBalanced) (opened : List Delimiter) :
    Code.nest opened code = some opened :=
  Code.nest_of_nest h opened

@[simp] lemma Code.isBalanced_nil : Code.IsBalanced [] := rfl

lemma Code.IsBalanced.append {a b : Code} (ha : a.IsBalanced) (hb : b.IsBalanced) :
    Code.IsBalanced (a ++ b) := by
  rw [Code.IsBalanced, Code.nest_append, ha.nest, Option.bind_some, hb.nest]

lemma Code.IsBalanced.group {code : Code} (h : code.IsBalanced) (d : Delimiter) :
    Code.IsBalanced (groupCode d code) := by
  rw [Code.IsBalanced, groupCode, List.cons_append, Code.nest, Token.nest, Option.bind_some,
    Code.nest_append, h.nest]
  simp [Code.nest, Token.nest]

lemma isBalanced_documentation (d : Documentation) : Code.IsBalanced d.code := by
  unfold Documentation.code
  cases d.inner <;> rfl

/-! ### Layouts -/

/-- The text is a layout of the code: its tokens stand there one behind the other, each in its own
spelling and not changed by what is behind it, or a documentation comment stands for its attribute.
Blanks and ordinary comments between them do not matter. -/
inductive Layout : Code → List Char → Prop
  | ending : Layout [] []
  | blanks {code : Code} {cs behind : List Char} (same : afterBlanks cs = afterBlanks behind)
      (more : Layout code behind) : Layout code cs
  | documentation {d : Documentation} {code : Code} {cs : List Char}
      (comment : documentation? (afterBlanks cs) = some d) (more : Layout code d.rest) :
      Layout (d.code ++ code) cs
  | token {token : Token} {code : Code} {cs : List Char}
      (read : next? (token.spelling ++ cs) = some (token, cs)) (more : Layout code cs) :
      Layout (token :: code) (token.spelling ++ cs)

namespace Lexer

/-! ### Blanks and comments -/

lemma commentRest_suffix {depth : Nat} {cs rest : List Char}
    (h : commentRest depth cs = some rest) : rest <:+ cs := by
  fun_induction commentRest depth cs with
  | case1 depth cs ih => exact (ih h).trans (List.suffix_append ['/', '*'] cs)
  | case2 =>
    cases h
    exact List.suffix_append ['*', '/'] _
  | case3 cs depth ih => exact (ih h).trans (List.suffix_append ['*', '/'] cs)
  | case4 depth c cs _ _ ih => exact (ih h).trans (List.suffix_cons c cs)
  | case5 => cases h

lemma lineRest_suffix (cs : List Char) : lineRest cs <:+ cs :=
  List.dropWhile_suffix _

/-- A comment begins with a slash and a slash or a star. -/
lemma exists_of_ordinaryComment? {cs rest : List Char} (h : ordinaryComment? cs = some rest) :
    ∃ c behind, (c = '/' ∨ c = '*') ∧ cs = '/' :: c :: behind ∧ rest <:+ behind := by
  unfold ordinaryComment? at h
  split at h
  · cases h
    refine ⟨'/', _, .inl rfl, rfl, (lineRest_suffix _).trans (List.suffix_append ['/', '/'] _)⟩
  · cases h
  · cases h
  · cases h
    exact ⟨'/', _, .inl rfl, rfl, lineRest_suffix _⟩
  · cases h
    exact ⟨'*', _, .inr rfl, rfl, List.suffix_append ['*', '/'] _⟩
  · exact ⟨'*', _, .inr rfl, rfl, commentRest_suffix h⟩
  · cases h
  · cases h
  · exact ⟨'*', _, .inr rfl, rfl, commentRest_suffix h⟩
  · cases h

lemma length_of_ordinaryComment? {cs rest : List Char} (h : ordinaryComment? cs = some rest) :
    rest.length < cs.length := by
  obtain ⟨c, behind, -, rfl, hrest⟩ := exists_of_ordinaryComment? h
  have hlength := hrest.length_le
  simp only [List.length_cons]
  omega

lemma skipBlanks_congr {n m : Nat} {cs : List Char} (hn : cs.length ≤ n) (hm : cs.length ≤ m) :
    skipBlanks n cs = skipBlanks m cs := by
  induction n generalizing m cs with
  | zero =>
    obtain rfl := List.length_eq_zero_iff.mp (Nat.le_zero.mp hn)
    cases m <;> rfl
  | succ n ih =>
    cases cs with
    | nil => cases m <;> rfl
    | cons c cs =>
      rw [List.length_cons] at hn hm
      obtain ⟨m, rfl⟩ : ∃ k, m = k + 1 := ⟨m - 1, by omega⟩
      rw [skipBlanks, skipBlanks]
      split
      · rename_i hcomment
        have hlength := length_of_ordinaryComment? hcomment
        rw [List.length_cons] at hlength
        exact ih (by omega) (by omega)
      · rw [ih (Nat.le_of_succ_le_succ hn) (Nat.le_of_succ_le_succ hm)]

lemma afterBlanks_of_comment {cs rest : List Char} (h : ordinaryComment? cs = some rest) :
    afterBlanks cs = afterBlanks rest := by
  have hlength := length_of_ordinaryComment? h
  unfold afterBlanks
  cases cs with
  | nil => cases h
  | cons c cs =>
    rw [List.length_cons, skipBlanks, h]
    rw [List.length_cons] at hlength
    exact skipBlanks_congr (Nat.le_of_lt_succ hlength) (Nat.le_refl _)

lemma afterBlanks_of_blank {c : Char} (hc : isBlank c = true) (cs : List Char) :
    afterBlanks (c :: cs) = afterBlanks cs := by
  have hcomment : ordinaryComment? (c :: cs) = none := by
    by_contra hsome
    obtain ⟨rest, hrest⟩ := Option.ne_none_iff_exists'.mp hsome
    obtain ⟨_, _, -, heq, -⟩ := exists_of_ordinaryComment? hrest
    obtain rfl := (List.cons.inj heq).1
    cases hc
  unfold afterBlanks
  rw [List.length_cons, skipBlanks, hcomment]
  simp only [hc, if_true]

lemma afterBlanks_of_front {c : Char} {cs : List Char} (hblank : isBlank c = false)
    (hcomment : ordinaryComment? (c :: cs) = none) : afterBlanks (c :: cs) = c :: cs := by
  unfold afterBlanks
  rw [List.length_cons, skipBlanks, hcomment]
  simp only [hblank, Bool.false_eq_true, if_false]

/-- Behind blanks and comments there is nothing, or something else. -/
lemma afterBlanks_cases (cs : List Char) :
    afterBlanks cs <:+ cs ∧ afterBlanks (afterBlanks cs) = afterBlanks cs := by
  induction hn : cs.length using Nat.strong_induction_on generalizing cs with
  | _ n ih =>
    subst hn
    cases cs with
    | nil => exact ⟨List.suffix_rfl, rfl⟩
    | cons c cs =>
      cases hcomment : ordinaryComment? (c :: cs) with
      | some rest =>
        rw [afterBlanks_of_comment hcomment]
        obtain ⟨hsuffix, hfront⟩ := ih _ (length_of_ordinaryComment? hcomment) rest rfl
        obtain ⟨d, behind, -, heq, hrest⟩ := exists_of_ordinaryComment? hcomment
        rw [heq]
        exact ⟨hsuffix.trans (hrest.trans (List.suffix_append ['/', d] behind)), hfront⟩
      | none =>
        cases hblank : isBlank c with
        | true =>
          rw [afterBlanks_of_blank hblank]
          obtain ⟨hsuffix, hfront⟩ := ih _ (Nat.lt_succ_self _) cs rfl
          exact ⟨hsuffix.trans (List.suffix_cons c cs), hfront⟩
        | false =>
          have hfront := afterBlanks_of_front hblank hcomment
          rw [hfront]
          exact ⟨List.suffix_rfl, hfront⟩

/-! ### The front of a text -/

/-- What begins neither a bracket nor any other token begins no token. -/
lemma next?_eq_none {c : Char} {cs : List Char} (hopen : Delimiter.ofOpener? c = none)
    (hclose : Delimiter.ofCloser? c = none) (hliteral : Literal.rest? (c :: cs) = none)
    (hmark : startsPunctuation (c :: cs) = false) (hstart : isIdentStart c = false) :
    next? (c :: cs) = none := by
  have hident : identRest? (c :: cs) = none := by
    unfold identRest?
    split
    · rename_i heq
      cases heq
      cases hstart
    · rw [wordRest?, hstart]
      rfl
  rw [next?_of_not_bracket hopen hclose]
  unfold leaf?
  simp only [hliteral, hmark, hident, Bool.false_eq_true, if_false, Option.map_none, ite_self]

/-- A blank begins no token. -/
lemma next?_of_isBlank {c : Char} (hc : isBlank c = true) (cs : List Char) :
    next? (c :: cs) = none := by
  have hdigit : isDigit c = false := eq_false_of_isBlank hc (by decide)
  refine next?_eq_none ?_ ?_ ?_ ?_ (eq_false_of_isBlank hc (by decide +kernel))
  · unfold Delimiter.ofOpener?
    split <;> first | rfl | cases hc
  · unfold Delimiter.ofCloser?
    split <;> first | rfl | cases hc
  · unfold Literal.rest?
    split <;>
      first
      | exact Literal.numberRest_eq_none hdigit cs
      | (rename_i heq; cases heq; cases hc)
  · unfold startsPunctuation
    split
    · rfl
    · rfl
    · rename_i heq
      cases heq
      exact eq_false_of_isBlank hc (by decide)
    · rfl

/-- A byte order mark begins no token. -/
lemma next?_byteOrderMark (cs : List Char) : next? (byteOrderMark :: cs) = none :=
  next?_eq_none rfl rfl (Literal.numberRest_eq_none rfl cs) rfl (by decide +kernel)

/-- The beginning of a comment begins no token. -/
lemma next?_of_comment {c : Char} (hc : c = '/' ∨ c = '*') (cs : List Char) :
    next? ('/' :: c :: cs) = none := by
  obtain rfl | rfl := hc <;> rfl

lemma afterBlanks_of_next? {cs : List Char} (h : next? cs ≠ none) : afterBlanks cs = cs := by
  cases cs with
  | nil => rfl
  | cons c cs =>
    refine afterBlanks_of_front ?_ ?_
    · by_contra hblank
      exact h (next?_of_isBlank (Bool.of_not_eq_false hblank) cs)
    · by_contra hcomment
      obtain ⟨rest, hrest⟩ := Option.ne_none_iff_exists'.mp hcomment
      obtain ⟨d, behind, hd, heq, -⟩ := exists_of_ordinaryComment? hrest
      rw [heq] at h
      exact h (next?_of_comment hd behind)

/-- A documentation comment begins with a slash and a slash or a star. -/
lemma exists_of_documentation? {cs : List Char} {d : Documentation}
    (h : documentation? cs = some d) :
    ∃ c behind, (c = '/' ∨ c = '*') ∧ cs = '/' :: c :: behind ∧ d.rest <:+ behind := by
  have hblock {inner : Bool} {cs : List Char} (h : documentationBlock? inner cs = some d) :
      d.rest <:+ cs := by
    obtain ⟨rest, hrest, rfl⟩ := Option.map_eq_some_iff.mp h
    exact commentRest_suffix hrest
  unfold documentation? at h
  simp only [Option.filter_eq_some_iff] at h
  obtain ⟨hcomment, -⟩ := h
  split at hcomment
  · cases hcomment
    exact ⟨'/', _, .inl rfl, rfl, (lineRest_suffix _).trans (List.suffix_cons '!' _)⟩
  · exact ⟨'*', _, .inr rfl, rfl, (hblock hcomment).trans (List.suffix_cons '!' _)⟩
  · cases hcomment
  · cases hcomment
    exact ⟨'/', _, .inl rfl, rfl, (lineRest_suffix _).trans (List.suffix_cons '/' _)⟩
  · cases hcomment
  · exact ⟨'*', _, .inr rfl, rfl, (hblock hcomment).trans (List.suffix_cons '*' _)⟩
  · cases hcomment

lemma documentation?_of_next? {cs : List Char} (h : next? cs ≠ none) :
    documentation? cs = none := by
  by_contra hcomment
  obtain ⟨d, hd⟩ := Option.ne_none_iff_exists'.mp hcomment
  obtain ⟨c, behind, hc, rfl, -⟩ := exists_of_documentation? hd
  exact h (next?_of_comment hc behind)

/-! ### One step of the scanner -/

section Step

variable {fuel : Nat} {opened : List (Delimiter × Position)} {p : Position} {cs : List Char}

/-- The groups that are open behind a token, each with the place of its opening bracket. -/
def nestAt (place : Position) (opened : List (Delimiter × Position)) :
    Token → Option (List (Delimiter × Position))
  | .opening d => some ((d, place) :: opened)
  | .closing d =>
    match opened with
    | [] => none
    | (e, _) :: outer => if e = d then some outer else none
  | _ => some opened

lemma map_nestAt (place : Position) (opened : List (Delimiter × Position)) (token : Token) :
    (nestAt place opened token).map (·.map Prod.fst) = token.nest (opened.map Prod.fst) := by
  cases token with
  | closing d =>
    cases opened with
    | nil => rfl
    | cons outer opened =>
      simp only [nestAt, Token.nest, List.map_cons]
      split <;> rfl
  | _ => rfl

/-- Leaves are no brackets. -/
lemma nestAt_of_leaf? {c : Char} {behind rest : List Char} {token : Token}
    (hopener : Delimiter.ofOpener? c = none) (hcloser : Delimiter.ofCloser? c = none)
    (h : leaf? (c :: behind) = some (token, rest)) (place : Position) :
    nestAt place opened token = some opened := by
  have hspelling := (leaf?_eq_some h).2.2
  cases token with
  | ident | punct | literal => rfl
  | opening d =>
    rw [(List.cons.inj hspelling).1, Delimiter.ofOpener?_opener] at hopener
    cases hopener
  | closing d =>
    rw [(List.cons.inj hspelling).1, Delimiter.ofCloser?_closer] at hcloser
    cases hcloser

/-- Where no documentation comment stands, the scanner reads one token. -/
lemma scan_succ_eq {c : Char} {behind : List Char} (hfront : afterBlanks cs = c :: behind)
    (hdoc : documentation? (c :: behind) = none) (fuel : Nat)
    (opened : List (Delimiter × Position)) (p : Position) :
    ∃ place next, scan (fuel + 1) opened p cs =
      match next? (c :: behind) with
      | none => .error place
      | some (token, rest) =>
        match nestAt place opened token with
        | none => .error place
        | some opened' => do
          let more ← scan fuel opened' next rest
          return ⟨token, place⟩ :: more := by
  -- only the first step is opened, on one side
  generalize hstep : scan fuel = step
  unfold scan
  simp only [hfront, hdoc, hstep]
  generalize p.advance (taken cs (c :: behind)) = place
  unfold next?
  by_cases herror : errorLiteral.toList.isPrefixOf (c :: behind) = true
  · refine ⟨place, place.advance errorLiteral.toList, ?_⟩
    simp only [herror, if_true, nestAt]
  simp only [if_neg herror]
  cases hopener : Delimiter.ofOpener? c with
  | some d =>
    refine ⟨place, place.step c, ?_⟩
    simp only [nestAt]
  | none =>
    cases hcloser : Delimiter.ofCloser? c with
    | some d =>
      refine ⟨place, place.step c, ?_⟩
      cases opened with
      | nil => rfl
      | cons outer opened =>
        simp only [nestAt]
        split <;> rfl
    | none =>
      cases hleaf : leaf? (c :: behind) with
      | none => exact ⟨place, place, rfl⟩
      | some read =>
        obtain ⟨token, rest⟩ := read
        refine ⟨place, place.advance (taken (c :: behind) rest), ?_⟩
        simp only [nestAt_of_leaf? hopener hcloser hleaf]

/-- What one step of the scanner reads: the end of the text, a documentation comment or a token. -/
lemma scan_succ_cases {listing : Listing} (h : scan (fuel + 1) opened p cs = .ok listing) :
    (afterBlanks cs = [] ∧ opened = [] ∧ listing = []) ∨
    (∃ d place behind more, documentation? (afterBlanks cs) = some d ∧
      scan fuel opened behind d.rest = .ok more ∧ listing = placeAll place d.code ++ more) ∨
    (∃ token rest place opened' behind more, next? (afterBlanks cs) = some (token, rest) ∧
      token.nest (opened.map Prod.fst) = some (opened'.map Prod.fst) ∧
        scan fuel opened' behind rest = .ok more ∧ listing = ⟨token, place⟩ :: more) := by
  cases hdoc : documentation? (afterBlanks cs) with
  | some d =>
    unfold scan at h
    simp only [hdoc] at h
    obtain ⟨more, hmore, h⟩ := Except.bind_eq_ok_iff.mp h
    obtain rfl := Except.pure_eq_ok_iff.mp h
    exact .inr (.inl ⟨d, _, _, more, rfl, hmore, rfl⟩)
  | none =>
    cases hfront : afterBlanks cs with
    | nil =>
      rw [hfront] at hdoc
      unfold scan at h
      simp only [hfront, hdoc] at h
      split at h
      · exact .inl ⟨rfl, rfl, (Except.ok.inj h).symm⟩
      · cases h
    | cons c behind =>
      rw [hfront] at hdoc
      obtain ⟨place, next, hscan⟩ := scan_succ_eq hfront hdoc fuel opened p
      rw [hscan] at h
      split at h
      · cases h
      rename_i token rest hnext
      split at h
      · cases h
      rename_i opened' hnest
      obtain ⟨more, hmore, h⟩ := Except.bind_eq_ok_iff.mp h
      obtain rfl := Except.pure_eq_ok_iff.mp h
      refine .inr (.inr ⟨token, rest, place, opened', next, more, hnext, ?_, hmore, rfl⟩)
      rw [← map_nestAt place, hnest, Option.map_some]

lemma scan_of_documentation {d : Documentation} {code : Code}
    (hdoc : documentation? (afterBlanks cs) = some d)
    (hrest : ∀ q, ∃ more, scan fuel opened q d.rest = .ok more ∧ more.code = code) :
    ∃ listing, scan (fuel + 1) opened p cs = .ok listing ∧ listing.code = d.code ++ code := by
  obtain ⟨more, hmore, rfl⟩ := hrest (p.advance (taken cs (afterBlanks cs)) |>.advance
    (taken (afterBlanks cs) d.rest))
  refine ⟨placeAll (p.advance (taken cs (afterBlanks cs))) d.code ++ more, ?_, ?_⟩
  · unfold scan
    simp only [hdoc, hmore]
    rfl
  · rw [Listing.code_append]
    simp [Listing.code, placeAll, Function.comp_def]

lemma scan_of_next? {token : Token} {rest : List Char} {inner : List Delimiter} {code : Code}
    (hnext : next? (afterBlanks cs) = some (token, rest))
    (hnest : token.nest (opened.map Prod.fst) = some inner)
    (hrest : ∀ opened' q, opened'.map Prod.fst = inner →
      ∃ more, scan fuel opened' q rest = .ok more ∧ more.code = code) :
    ∃ listing, scan (fuel + 1) opened p cs = .ok listing ∧ listing.code = token :: code := by
  have hdoc : documentation? (afterBlanks cs) = none :=
    documentation?_of_next? (by rw [hnext]; exact Option.some_ne_none _)
  cases hfront : afterBlanks cs with
  | nil =>
    rw [hfront] at hnext
    cases hnext
  | cons c behind =>
    rw [hfront] at hnext hdoc
    obtain ⟨place, next, hscan⟩ := scan_succ_eq hfront hdoc fuel opened p
    rw [← map_nestAt place] at hnest
    obtain ⟨opened', hopened, hinner⟩ := Option.map_eq_some_iff.mp hnest
    obtain ⟨more, hmore, rfl⟩ := hrest opened' next hinner
    refine ⟨⟨token, place⟩ :: more, ?_, rfl⟩
    rw [hscan]
    simp only [hnext, hopened, hmore]
    rfl

end Step

/-! ### Texts and their layouts -/

/-- What was read from a text is laid out there, and its brackets match. -/
lemma layout_of_scan {fuel : Nat} {opened : List (Delimiter × Position)} {p : Position}
    {cs : List Char} {listing : Listing} (h : scan fuel opened p cs = .ok listing) :
    Layout listing.code cs ∧ Code.nest (opened.map Prod.fst) listing.code = some [] := by
  induction fuel generalizing opened p cs listing with
  | zero => cases h
  | succ fuel ih =>
    obtain ⟨hfront, rfl, rfl⟩ | ⟨d, place, behind, more, hdoc, hmore, rfl⟩ |
      ⟨token, rest, place, opened', behind, more, hnext, hnest, hmore, rfl⟩ := scan_succ_cases h
    · exact ⟨.blanks (by rw [hfront]; rfl) .ending, rfl⟩
    · obtain ⟨hlayout, hbalanced⟩ := ih hmore
      have hcode : (placeAll place d.code ++ more).code = d.code ++ more.code := by
        rw [Listing.code_append]
        simp [Listing.code, placeAll, Function.comp_def]
      rw [hcode]
      refine ⟨.documentation hdoc hlayout, ?_⟩
      rw [Code.nest_append, (isBalanced_documentation d).nest, Option.bind_some, hbalanced]
    · obtain ⟨hlayout, hbalanced⟩ := ih hmore
      have hfront := (next?_eq_some hnext).2.2
      refine ⟨.blanks (afterBlanks_cases cs).2.symm ?_, ?_⟩
      · rw [hfront]
        rw [hfront] at hnext
        exact .token hnext hlayout
      · show Code.nest _ (token :: more.code) = _
        rw [Code.nest, hnest, Option.bind_some, hbalanced]

lemma documentation_rest_length {cs : List Char} {d : Documentation}
    (h : documentation? cs = some d) : d.rest.length < cs.length := by
  obtain ⟨c, behind, -, rfl, hrest⟩ := exists_of_documentation? h
  have hlength := hrest.length_le
  simp only [List.length_cons]
  omega

lemma afterBlanks_length (cs : List Char) : (afterBlanks cs).length ≤ cs.length :=
  (afterBlanks_cases cs).1.length_le

/-- A layout of code whose brackets match is read as the code. -/
lemma scan_of_layout {code : Code} {cs : List Char} (h : Layout code cs) {cs' : List Char}
    (hcs : afterBlanks cs' = afterBlanks cs) {fuel : Nat} {opened : List (Delimiter × Position)}
    (p : Position) (hfuel : (afterBlanks cs).length < fuel)
    (hnest : Code.nest (opened.map Prod.fst) code = some []) :
    ∃ listing, scan fuel opened p cs' = .ok listing ∧ listing.code = code := by
  induction h generalizing cs' fuel opened p with
  | blanks same more ih =>
    rw [same] at hcs hfuel
    exact ih hcs p hfuel hnest
  | ending =>
    obtain ⟨fuel, rfl⟩ : ∃ n, fuel = n + 1 := ⟨fuel - 1, by omega⟩
    obtain rfl : opened = [] := by simpa [Code.nest] using hnest
    refine ⟨[], ?_, rfl⟩
    have hfront : afterBlanks cs' = [] := hcs
    have hdoc : documentation? [] = none := rfl
    unfold scan
    simp only [hfront, hdoc]
  | @documentation d code cs comment more ih =>
    obtain ⟨fuel, rfl⟩ : ∃ n, fuel = n + 1 := ⟨fuel - 1, by omega⟩
    refine scan_of_documentation (hcs ▸ comment) fun q => ih rfl q ?_ ?_
    · have hlength := documentation_rest_length comment
      have hrest := afterBlanks_length d.rest
      omega
    · rw [Code.nest_append, (isBalanced_documentation d).nest, Option.bind_some] at hnest
      exact hnest
  | @token token code cs read more ih =>
    obtain ⟨fuel, rfl⟩ : ∃ n, fuel = n + 1 := ⟨fuel - 1, by omega⟩
    have hfront : afterBlanks (token.spelling ++ cs) = token.spelling ++ cs :=
      afterBlanks_of_next? (by rw [read]; exact Option.some_ne_none _)
    rw [hfront] at hcs hfuel
    obtain ⟨inner, htoken, hcode⟩ := Option.bind_eq_some_iff.mp hnest
    refine scan_of_next? (hcs ▸ read) htoken fun opened' q hopened => ih rfl q ?_ ?_
    · have hspelling := List.length_pos_iff.mpr (next?_eq_some read).2.1
      have hrest := afterBlanks_length cs
      rw [List.length_append] at hfuel
      omega
    · rw [hopened]
      exact hcode

end Lexer

/-! ### Changing a layout -/

namespace Layout

variable {token : Token} {code : Code} {c : Char} {cs rest : List Char}

lemma blank (hc : isBlank c = true) (h : Layout code cs) : Layout code (c :: cs) :=
  .blanks (afterBlanks_of_blank hc cs) h

lemma comment (hcomment : ordinaryComment? cs = some rest) (h : Layout code rest) :
    Layout code cs :=
  .blanks (afterBlanks_of_comment hcomment) h

/-- The comment of a whole line. What it begins with must not make documentation of it. -/
lemma line {line : List Char} (hline : '\n' ∉ line) (hhead : ∀ d ∈ line.head?, d ≠ '/' ∧ d ≠ '!')
    (h : Layout code cs) : Layout code ('/' :: '/' :: (line ++ '\n' :: cs)) := by
  have hrest : lineRest (line ++ '\n' :: cs) = '\n' :: cs := by
    unfold lineRest
    rw [List.dropWhile_append_of_pos]
    · rfl
    · intro d hd
      have hne : d ≠ '\n' := fun heq => hline (heq ▸ hd)
      simp [hne]
  have hcomment : ordinaryComment? ('/' :: '/' :: (line ++ '\n' :: cs)) = some ('\n' :: cs) := by
    rw [← hrest]
    cases line with
    | nil => rfl
    | cons d line =>
      obtain ⟨hslash, hmark⟩ := hhead d rfl
      unfold ordinaryComment?
      split <;> simp_all
  exact (h.blank (by decide)).comment hcomment

end Layout

/-- A text without the byte order mark in front of it. -/
def withoutMark : List Char → List Char
  | c :: rest => if c = byteOrderMark then rest else c :: rest
  | [] => []

/-- Exactly the layouts of some code whose brackets match are read as that code. -/
theorem Listing.ofText_iff_layout {text : String} {code : Code} :
    (∃ listing, ofText text = .ok listing ∧ listing.code = code) ↔
      Layout code (withoutMark text.toList) ∧ code.IsBalanced := by
  constructor
  · rintro ⟨listing, htext, rfl⟩
    unfold ofText at htext
    unfold withoutMark
    split at htext
    · rename_i hnil
      cases htext
      rw [hnil]
      exact ⟨.ending, rfl⟩
    · rename_i c rest hcons
      rw [hcons]
      simp only
      split at htext
      · rw [if_pos ‹_›]
        exact layout_of_scan htext
      · rw [if_neg ‹_›]
        exact layout_of_scan htext
  · rintro ⟨hlayout, hbalanced⟩
    have hscan {cs : List Char} (hlayout : Layout code cs) (fuel : Nat)
        (hfuel : cs.length < fuel) (p : Position) :
        ∃ listing, scan fuel [] p cs = .ok listing ∧ listing.code = code :=
      scan_of_layout hlayout rfl p (Nat.lt_of_le_of_lt (afterBlanks_length _) hfuel) hbalanced
    unfold withoutMark at hlayout
    unfold ofText
    split at hlayout
    · rename_i c rest hcons
      rw [hcons]
      simp only
      split at hlayout
      · rw [if_pos ‹_›]
        exact hscan hlayout _ (Nat.lt_succ_self _) _
      · rw [if_neg ‹_›]
        exact hscan hlayout _ (by simp) _
    · rename_i hnil
      rw [hnil]
      obtain ⟨listing, hlisting, hcode⟩ := hscan hlayout 1 Nat.one_pos Position.start
      have hempty : scan 1 [] Position.start [] = .ok [] := rfl
      rw [hempty] at hlisting
      exact ⟨listing, hlisting, hcode⟩

end UnionView
