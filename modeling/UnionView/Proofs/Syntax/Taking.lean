import UnionView.Dispatch.Match
import UnionView.Proofs.Syntax.Reader

/-!
# Reading code that is known

`Reader.Takes` says of a reader what it does with code that is known, whatever stands behind it: it
takes this code and nothing else. There is one rule for every way in which readers are put together,
so that such a statement is proved along the definition of the reader. Where the code has no names
that are not known, running the reader is enough.
-/

namespace UnionView.Reader

variable {α β : Type} {code code' rest : Code}

/-- Where `code` stands in front of `rest`, the reader takes `code` and has an answer with the
property. Nothing is left over in the groups in between. -/
def Takes (p : Reader α) (code rest : Code) (P : α → Prop) : Prop :=
  ∀ behind written, ∃ a written', p { rest := code ++ rest, behind, written } =
    .ok (a, { rest, behind, written := written' }) ∧ P a

namespace Takes

variable {p : Reader α} {P : α → Prop} {Q : β → Prop}

lemma mono {P' : α → Prop} (h : Takes p code rest P) (hP : ∀ a, P a → P' a) :
    Takes p code rest P' := by
  intro behind written
  obtain ⟨a, written', hrun, ha⟩ := h behind written
  exact ⟨a, written', hrun, hP a ha⟩

lemma pure {a : α} (h : P a) : Takes (pure a) [] rest P :=
  fun _ _ => ⟨a, _, rfl, h⟩

lemma bind {f : α → Reader β} (hp : Takes p code (code' ++ rest) P)
    (hf : ∀ a, P a → Takes (f a) code' rest Q) : Takes (p >>= f) (code ++ code') rest Q := by
  intro behind written
  obtain ⟨a, written', hfirst, ha⟩ := hp behind written
  obtain ⟨b, written'', hsecond, hb⟩ := hf a ha behind written'
  refine ⟨b, written'', ?_, hb⟩
  rw [List.append_assoc, bind_of_ok hfirst, hsecond]

/-- If the answer of the first reader does not matter. -/
lemma seq {f : α → Reader β} (hp : Takes p code (code' ++ rest) P)
    (hf : ∀ a, Takes (f a) code' rest Q) : Takes (p >>= f) (code ++ code') rest Q :=
  hp.bind fun a _ => hf a

/-- If the first reader takes nothing. -/
lemma quiet {f : α → Reader β} (hp : Takes p [] (code ++ rest) P)
    (hf : ∀ a, P a → Takes (f a) code rest Q) : Takes (p >>= f) code rest Q := by
  show Takes (p >>= f) ([] ++ code) rest Q
  exact bind hp hf

/-- If the first reader only looks. -/
lemma look {a : α} {f : α → Reader β} (hp : Takes p [] (code ++ rest) (· = a))
    (hf : Takes (f a) code rest Q) : Takes (p >>= f) code rest Q := by
  refine quiet hp ?_
  rintro _ rfl
  exact hf

lemma last {f : α → Reader β} (hp : Takes p code rest P) (hf : ∀ a, P a → Takes (f a) [] rest Q) :
    Takes (p >>= f) code rest Q := by
  have hbind : Takes (p >>= f) (code ++ []) rest Q := bind hp hf
  rwa [List.append_nil] at hbind

/-- If the reader goes on as another one does behind the front of the code. -/
lemma leads {q : Reader α} (h : ∀ behind written, ∃ written',
      p { rest := code ++ (code' ++ rest), behind, written } =
        q { rest := code' ++ rest, behind, written := written' })
    (hq : Takes q code' rest P) : Takes p (code ++ code') rest P := by
  intro behind written
  obtain ⟨written', hlead⟩ := h behind written
  rw [List.append_assoc, hlead]
  exact hq behind written'

/-- If what the reader sees of the code leads it to another reader. -/
lemma of_eq {q : Reader α} (h : ∀ c : Cursor, c.rest = code ++ rest → p c = q c)
    (hq : Takes q code rest P) : Takes p code rest P := by
  intro behind written
  rw [h _ rfl]
  exact hq behind written

lemma dropped (h : Takes p code rest P) : Takes (do let _ ← p) code rest fun _ => True :=
  h.last fun _ _ => .pure trivial

/-- A reader whose answer is dropped takes what it takes. -/
lemma of_dropped (h : Takes (do let _ ← p) code rest fun _ => True) :
    Takes p code rest fun _ => True := by
  intro behind written
  obtain ⟨_, written', hrun, -⟩ := h behind written
  obtain ⟨a, d, hp, ⟨⟩⟩ := bind_eq_ok.mp hrun
  exact ⟨a, written', hp, trivial⟩

/-- If the reader makes use of the number of tokens that are left. -/
lemma get {f : Cursor → Reader β} (hf : ∀ c, c.rest = code ++ rest → Takes (f c) code rest Q) :
    Takes (get >>= f) code rest Q :=
  fun behind written => hf _ rfl behind written

lemma write (text : Code) : Takes (write text) [] rest fun _ => True :=
  fun _ _ => ⟨_, _, rfl, trivial⟩

lemma mark : Takes mark [] rest fun _ => True :=
  fun _ _ => ⟨_, _, rfl, trivial⟩

lemma ite {b : Bool} {q : Reader α} (hp : b = true → Takes p code rest P)
    (hq : b = false → Takes q code rest P) : Takes (if b then p else q) code rest P := by
  cases b with
  | true => exact hp rfl
  | false => exact hq rfl

/-! ### Looking ahead -/

section Look

variable {f : Bool → Reader β} {t : Terminal} {b : Bool}

lemma see (h : t.fits (code ++ rest) = b) (hf : Takes (f b) code rest Q) :
    Takes (peek t >>= f) code rest Q :=
  hf.of_eq fun c hc => by rw [bind_of_ok (peek_apply t c), hc, h]

lemma seeSecond (h : t.fits (Cursor.skip { rest := code ++ rest } 1) = b)
    (hf : Takes (f b) code rest Q) : Takes (peekSecond t >>= f) code rest Q := by
  refine hf.of_eq fun c hc => ?_
  rw [← h, ← hc]
  rfl

lemma seeThird (h : t.fits (Cursor.skip { rest := code ++ rest } 2) = b)
    (hf : Takes (f b) code rest Q) : Takes (peekThird t >>= f) code rest Q := by
  refine hf.of_eq fun c hc => ?_
  rw [← h, ← hc]
  rfl

lemma seeAny {ts : List Terminal} (h : ts.any (·.fits (code ++ rest)) = b)
    (hf : Takes (f b) code rest Q) : Takes (peekAny ts >>= f) code rest Q :=
  hf.of_eq fun c hc => by rw [bind_of_ok (peekAny_apply ts c), hc, h]

lemma seeEnd (h : Cursor.isEnded { rest := code ++ rest } = b)
    (hf : Takes (f b) code rest Q) : Takes (isEnded >>= f) code rest Q := by
  refine hf.of_eq fun c hc => ?_
  rw [← h, ← hc]
  rfl

/-- A terminal that does not come next is not taken. -/
lemma refused (h : t.fits rest = false) : Takes (accept t) [] rest (· = false) :=
  .see h (.pure rfl)

lemma refuse (h : t.fits (code ++ rest) = false) (hf : Takes (f false) code rest Q) :
    Takes (accept t >>= f) code rest Q :=
  .look (.refused h) hf

end Look

/-! ### Terminals -/

lemma word (text : String) : Takes (word text) (wordCode text) rest fun _ => True := by
  intro behind written
  have hfits : (Terminal.word text).fits (wordCode text ++ rest) = true := by
    simp [Terminal.fits, wordCode]
  exact ⟨(), _, (take_of_fits hfits).trans (advance_apply _ _), trivial⟩

lemma startsWith_operatorCode (cs : List Char) :
    Code.startsWith cs (operatorCode cs ++ rest) = true := by
  induction cs with
  | nil => rfl
  | cons c cs ih =>
    cases cs with
    | nil => simp [operatorCode, Code.startsWith]
    | cons next cs => simpa [operatorCode, Code.startsWith] using ih

lemma length_operatorCode (cs : List Char) : (operatorCode cs).length = cs.length := by
  induction cs with
  | nil => rfl
  | cons c cs ih =>
    cases cs with
    | nil => rfl
    | cons next cs => exact congrArg (· + 1) ih

lemma advance_operator (text : String) (behind : Nat) (written : Code) :
    advance (.operator text) { rest := opCode text ++ rest, behind, written } =
      .ok ((), { rest, behind, written := (opCode text).reverse ++ written }) := by
  have hdrop : (opCode text ++ rest).drop text.length = rest := by
    rw [← String.length_toList, ← length_operatorCode]
    exact List.drop_left
  rw [advance_apply]
  simp only [Terminal.width, hdrop]
  rfl

/-- An operator is taken from the tokens that it is printed as. -/
lemma operator (text : String) : Takes (operator text) (opCode text) rest fun _ => True := by
  intro behind written
  have hfits : (Terminal.operator text).fits (opCode text ++ rest) = true :=
    startsWith_operatorCode _
  exact ⟨(), _, (take_of_fits hfits).trans (advance_operator text behind written), trivial⟩

/-- An operator that may be left out is taken where it is printed. -/
lemma accept {text : String} {f : Bool → Reader β} (hf : Takes (f true) code rest Q) :
    Takes (acceptOperator text >>= f) (opCode text ++ code) rest Q := by
  have haccept : Takes (acceptOperator text) (opCode text) (code ++ rest) (· = true) := by
    intro behind written
    have hfits : (Terminal.operator text).fits (opCode text ++ (code ++ rest)) = true :=
      startsWith_operatorCode _
    refine ⟨true, (opCode text).reverse ++ written, ?_, rfl⟩
    unfold acceptOperator Reader.accept
    rw [bind_of_ok (peek_apply _ _), if_pos hfits,
      bind_of_ok (advance_operator text behind written)]
    rfl
  refine haccept.bind ?_
  rintro _ rfl
  exact hf

lemma identifier {name : String} (h : Terminal.identifier.fits [.ident name] = true) :
    Takes identifier (wordCode name) rest (· = name) := by
  intro behind written
  have hfits : Terminal.identifier.fits (wordCode name ++ rest) = true := h
  refine ⟨name, .ident name :: written, ?_, rfl⟩
  unfold Reader.identifier
  rw [bind_of_ok (get_apply _), bind_of_ok ((take_of_fits hfits).trans (advance_apply _ _))]
  rfl

lemma anyIdentifier (name : String) : Takes anyIdentifier (wordCode name) rest (· = name) :=
  fun _ _ => ⟨_, _, rfl, rfl⟩

/-! ### Reading apart -/

lemma capture (h : Takes p code rest P) : Takes (capture p) code rest fun r => P r.1 := by
  intro behind written
  obtain ⟨a, written', hrun, ha⟩ := h behind []
  refine ⟨(a, written'.reverse), written, ?_, ha⟩
  simp only [Reader.capture, hrun]

lemma ahead (h : Takes p code rest P) : Takes (ahead p) [] (code ++ rest) P := by
  intro behind written
  obtain ⟨a, written', hrun, ha⟩ := h behind written
  refine ⟨a, written, ?_, ha⟩
  simp only [Reader.ahead, List.nil_append, hrun]
  rfl

lemma attempt (h : Takes p code rest P) :
    Takes (attempt p) code rest fun a? => ∃ a, a? = some a ∧ P a := by
  intro behind written
  obtain ⟨a, written', hrun, ha⟩ := h behind written
  refine ⟨some a, written', ?_, a, rfl, ha⟩
  simp only [Reader.attempt, hrun]

lemma afresh (h : Takes p code rest P) : Takes (afresh p) code rest P := by
  intro behind written
  obtain ⟨a, written', hrun, ha⟩ := h behind []
  refine ⟨a, written' ++ written, ?_, ha⟩
  exact afresh_eq_ok_iff.mpr ⟨_, hrun, rfl⟩

lemma group {d : Delimiter} (h : Takes p code (.closing d :: rest) P) :
    Takes (group d p) (groupCode d code) rest P := by
  intro behind written
  obtain ⟨a, written', hrun, ha⟩ := h behind (.opening d :: written)
  refine ⟨a, .closing d :: written', ?_, ha⟩
  have htake : take (.group d) { rest := groupCode d code ++ rest, behind, written } =
      .ok ((), { rest := code ++ .closing d :: rest
                 behind, written := .opening d :: written }) := by
    have hfits : (Terminal.group d).fits (groupCode d code ++ rest) = true := by
      simp [Terminal.fits, groupCode]
    rw [take_of_fits hfits, advance_apply]
    simp [groupCode, Terminal.width, Terminal.canonical]
  unfold Reader.group
  rw [bind_of_ok htake, bind_of_ok hrun]
  rfl

/-- A group that is closed is taken as it stands. -/
lemma rawGroup {d : Delimiter} (hcloses : Code.Closes 0 code) :
    Takes rawGroup (groupCode d code) rest fun g => g.inner = code := by
  intro behind written
  let c : Cursor := { rest := groupCode d code ++ rest, behind, written }
  have hrest : c.rest = .opening d :: (code ++ .closing d :: rest) := by simp [c, groupCode]
  obtain ⟨written', hgroup⟩ := rawGroup_of_closed hrest hcloses
  exact ⟨_, written', hgroup, rfl⟩

/-- The content of a group is read apart. -/
lemma inside {g : RawGroup} {shift : Nat → α → α} (h : Takes p g.inner [] P) :
    Takes (inside g shift p) [] rest fun a => ∃ b, a = shift g.closeAt b ∧ P b := by
  intro behind written
  obtain ⟨b, written', hrun, hb⟩ := h 0 []
  rw [List.append_nil] at hrun
  refine ⟨shift g.closeAt b, written, ?_, b, rfl, hb⟩
  unfold Reader.inside
  rw [hrun]
  rfl

lemma run (h : Takes p code [] P) : ∃ a, run p code = .ok a ∧ P a := by
  obtain ⟨a, written', hrun, ha⟩ := h 0 []
  rw [List.append_nil] at hrun
  exact ⟨a, run_eq_ok_iff.mpr ⟨_, hrun, rfl, rfl⟩, ha⟩

end Takes

/-! ### Repetition -/

/-- The steps that `step` takes in front of `rest`: each but the last takes a part of the code and
has an answer. The answers together have the property. -/
inductive TakesEach (step : Reader (Option α)) (rest : Code) : Code → (List α → Prop) → Prop
  | last {code : Code} (h : Takes step code rest (· = none)) : TakesEach step rest code (· = [])
  | cons {code code' : Code} {P : α → Prop} {Q : List α → Prop} (hne : code ≠ [])
      (h : Takes step code (code' ++ rest) fun answer => ∃ a, answer = some a ∧ P a)
      (h' : TakesEach step rest code' Q) :
      TakesEach step rest (code ++ code') fun as => ∃ a as', as = a :: as' ∧ P a ∧ Q as'

/-- A repetition takes what its steps take. -/
lemma TakesEach.collect {step : Reader (Option α)} {P : List α → Prop}
    (h : TakesEach step rest code P) : Takes (collect step) code rest P := by
  have hgo : ∀ fuel, code.length < fuel → Takes (collect.go step fuel) code rest P := by
    induction h with
    | last h =>
      intro fuel hfuel
      obtain ⟨fuel, rfl⟩ := Nat.exists_eq_succ_of_ne_zero (Nat.ne_of_gt (Nat.zero_lt_of_lt hfuel))
      refine .last h ?_
      rintro _ rfl
      exact .pure rfl
    | cons hne h _ ih =>
      intro fuel hfuel
      obtain ⟨fuel, rfl⟩ := Nat.exists_eq_succ_of_ne_zero (Nat.ne_of_gt (Nat.zero_lt_of_lt hfuel))
      have hlength := List.length_pos_iff.mpr hne
      rw [List.length_append] at hfuel
      refine .bind h ?_
      rintro _ ⟨a, rfl, ha⟩
      exact .last (ih fuel (by omega)) fun as has => .pure ⟨a, as, rfl, ha, has⟩
  intro behind written
  refine hgo _ ?_ behind written
  rw [List.length_append]
  omega

/-! ### Elements up to the end of a group -/

section Elements

variable {p : Reader α} {P : α → Prop} {d : Delimiter}

/-- The step of a repetition that ends with the group. -/
def elementStep (p : Reader α) : Reader (Option α) := do
  if ← isEnded then return none else return some (← p)

lemma TakesEach.ended (h : Cursor.isEnded { rest } = true) :
    TakesEach (elementStep p) rest [] (· = []) :=
  .last (.seeEnd h (.pure rfl))

lemma TakesEach.element {Q : List α → Prop}
    (hopen : Cursor.isEnded { rest := code ++ (code' ++ rest) } = false) (hne : code ≠ [])
    (h : Takes p code (code' ++ rest) P) (h' : TakesEach (elementStep p) rest code' Q) :
    TakesEach (elementStep p) rest (code ++ code') fun as => ∃ a as', as = a :: as' ∧ P a ∧ Q as' :=
  .cons hne (.seeEnd hopen (.last h fun a ha => .pure ⟨a, rfl, ha⟩)) h'

namespace Takes

/-- One element that ends the group. -/
lemma untilEnd_single (hopen : Cursor.isEnded { rest := code ++ .closing d :: rest } = false)
    (h : Takes p code (.closing d :: rest) P) :
    Takes (untilEnd p) code (.closing d :: rest) fun as => ∃ a, as = [a] ∧ P a := by
  have hne : code ≠ [] := by
    rintro rfl
    cases hopen
  have h' : Takes p code ([] ++ .closing d :: rest) P := h
  have heach := TakesEach.element hopen hne h' (.ended rfl)
  rw [List.append_nil] at heach
  refine heach.collect.mono ?_
  rintro _ ⟨a, _, rfl, ha, rfl⟩
  exact ⟨a, rfl, ha⟩

/-- One element without a separator behind it. -/
lemma separatedBy_single {separator : String}
    (hopen : Cursor.isEnded { rest := code ++ .closing d :: rest } = false)
    (h : Takes p code (.closing d :: rest) P) :
    Takes (separatedBy separator p) code (.closing d :: rest) fun as => ∃ a, as = [a] ∧ P a :=
  untilEnd_single hopen (.last h fun _ ha => .seeEnd rfl (.pure ha))

/-- One element with a comma behind it. -/
lemma separatedBy_comma
    (hopen : Cursor.isEnded { rest := code ++ opCode "," ++ .closing d :: rest } = false)
    (h : Takes p code (opCode "," ++ .closing d :: rest) P) :
    Takes (separatedBy "," p) (code ++ opCode ",") (.closing d :: rest)
      fun as => ∃ a, as = [a] ∧ P a := by
  refine untilEnd_single hopen (.bind h fun _ ha => .seeEnd rfl ?_)
  exact .last (P := fun _ => True) (fun _ _ => ⟨_, _, rfl, trivial⟩) fun _ _ => .pure ha

/-- Elements that are read whatever element stands behind them. `R` is what all of them need of the
code behind them. -/
lemma untilEnd {R : Code → Prop} {codes : List Code} (hrest : R rest)
    (hended : Cursor.isEnded { rest } = true)
    (hfront : ∀ c ∈ codes, ∀ behind, Cursor.isEnded { rest := c ++ behind } = false ∧
      R (c ++ behind))
    (h : ∀ c ∈ codes, ∀ behind, R behind → Takes p c behind fun _ => True) :
    Takes (untilEnd p) codes.flatten rest fun _ => True := by
  suffices heach : ∃ Q, TakesEach (elementStep p) rest codes.flatten Q by
    obtain ⟨Q, heach⟩ := heach
    exact heach.collect.mono fun _ _ => trivial
  induction codes with
  | nil => exact ⟨_, .ended hended⟩
  | cons code codes ih =>
    have hmem := List.mem_cons_self (a := code) (l := codes)
    obtain ⟨Q, heach⟩ := ih (fun c hc => hfront c (List.mem_cons_of_mem _ hc))
      fun c hc => h c (List.mem_cons_of_mem _ hc)
    have hbehind : R (codes.flatten ++ rest) := by
      cases codes with
      | nil => exact hrest
      | cons next codes =>
        rw [List.flatten_cons, List.append_assoc]
        exact (hfront next (List.mem_cons_of_mem _ List.mem_cons_self) _).2
    have hne : code ≠ [] := by
      rintro rfl
      have hnil := (hfront [] hmem []).1
      cases hnil
    exact ⟨_, .element (hfront code hmem _).1 hne (h code hmem _ hbehind) heach⟩

end Takes

end Elements

/-! ### Steps that say whether to go on -/

section While

variable {step : Reader Bool} {P : List Unit → Prop}

/-- The step of a repetition that ends when `step` says so. -/
def whileStep (step : Reader Bool) : Reader (Option Unit) := do
  if ← step then return some () else return none

lemma TakesEach.stop (h : Takes step code rest (· = false)) :
    TakesEach (whileStep step) rest code (· = []) := by
  refine .last (.last h ?_)
  rintro _ rfl
  exact .pure rfl

lemma TakesEach.goOn (hne : code ≠ []) (h : Takes step code (code' ++ rest) (· = true))
    (h' : TakesEach (whileStep step) rest code' P) :
    TakesEach (whileStep step) rest (code ++ code')
      fun as => ∃ a as', as = a :: as' ∧ True ∧ P as' := by
  refine .cons hne (.last h ?_) h'
  rintro _ rfl
  exact .pure ⟨(), rfl, trivial⟩

lemma TakesEach.repeatWhile (h : TakesEach (whileStep step) rest code P) :
    Takes (repeatWhile step) code rest fun _ => True :=
  .last h.collect fun _ _ => .pure trivial

end While

end UnionView.Reader
