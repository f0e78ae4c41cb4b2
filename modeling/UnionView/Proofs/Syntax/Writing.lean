import UnionView.Proofs.Syntax.Reader
import UnionView.Proofs.Token.Piece

/-!
# What readers write down

A reader writes down other tokens than it takes: the last character of an operator is no longer
joint, parts are moved or left out. If sound code is read and nothing is left over, what is written
down is sound again and may stand where the code stood that was taken (`Cursor.Passes`).
`Reader.Yields` says so of a reader, together with what its answers and the code it writes down have
in common, and has one rule for every way in which readers are put together. `Reader.Tidy` is the
same with nothing said about answers; its rules are instances, so that it is found along the
definition of a reader.
-/

namespace UnionView

open Text Lexer

/-! ### The code that is left -/

/-- An end of sound code, which may begin inside groups. -/
structure Code.IsSoundEnd (code : Code) : Prop where
  lexed : ∀ token ∈ code, token.IsLexed
  glued : code.IsGlued
  nested : ∃ opened, Code.nest opened code = some []

lemma Code.IsSound.isSoundEnd {code : Code} (h : code.IsSound) : code.IsSoundEnd :=
  ⟨h.lexed, h.glued, [], h.balanced⟩

lemma Code.IsSoundEnd.of_append {taken rest : Code} (h : IsSoundEnd (taken ++ rest))
    (htaken : taken.IsBalanced) : rest.IsSoundEnd := by
  refine ⟨fun token ht => h.lexed token (List.mem_append_right _ ht), h.glued.of_append, ?_⟩
  obtain ⟨opened, hnest⟩ := h.nested
  rw [Code.nest_append, htaken.nest] at hnest
  exact ⟨opened, hnest⟩

/-- The code behind a token that is no bracket. -/
lemma Code.IsSoundEnd.tail {token : Token} {rest : Code} (h : IsSoundEnd (token :: rest))
    (htoken : Code.IsBalanced [token]) : rest.IsSoundEnd :=
  of_append (show IsSoundEnd ([token] ++ rest) from h) htoken

namespace Code

lemma nest_cons (opened : List Delimiter) (token : Token) (code : Code) :
    nest opened (token :: code) = (token.nest opened).bind fun inner => nest inner code :=
  rfl

/-- The content of a group inside balanced code is balanced, and the group is closed unless the code
around it is not there. -/
lemma toClosing_of_nest {depth : Nat} {opened outer : List Delimiter} {code : Code}
    (h : nest (opened ++ outer) code = some []) (hdepth : opened.length = depth) :
    ∃ inner, code = inner ++ toClosing depth code ∧ nest opened inner = some [] ∧
      ∀ token ∈ (toClosing depth code).head?, ∃ d, token = .closing d := by
  induction code generalizing depth opened with
  | nil =>
    obtain ⟨rfl, rfl⟩ := List.append_eq_nil_iff.mp (Option.some.inj h)
    exact ⟨[], by simp [toClosing], rfl, by simp [toClosing]⟩
  | cons token code ih =>
    rw [nest_cons] at h
    cases token with
    | opening d =>
      obtain ⟨inner, hcode, hnest, hhead⟩ :=
        ih (show nest (d :: opened ++ outer) code = some [] from h) (congrArg Nat.succ hdepth)
      exact ⟨.opening d :: inner, congrArg (_ :: ·) hcode, hnest, hhead⟩
    | closing d =>
      cases depth with
      | zero => exact ⟨[], rfl, by rw [List.length_eq_zero_iff.mp hdepth]; rfl, by simp [toClosing]⟩
      | succ depth =>
        obtain ⟨e, opened, rfl⟩ := List.exists_cons_of_length_eq_add_one hdepth
        rw [List.cons_append, Token.nest] at h
        split at h
        · rename_i hsame
          obtain ⟨inner, hcode, hnest, hhead⟩ := ih h (Nat.succ.inj hdepth)
          refine ⟨.closing d :: inner, congrArg (_ :: ·) hcode, ?_, hhead⟩
          rw [nest_cons, Token.nest, if_pos hsame]
          exact hnest
        · cases h
    | ident | punct | literal =>
      obtain ⟨inner, hcode, hnest, hhead⟩ := ih h hdepth
      exact ⟨_ :: inner, congrArg (_ :: ·) hcode, hnest, hhead⟩

end Code

/-! ### Passing from one cursor to another -/

namespace Cursor

/-- The second cursor stands behind the first one in the same code. -/
def Reaches (c d : Cursor) : Prop :=
  d.rest <:+ c.rest ∧ d.behind = c.behind

namespace Reaches

variable {c d e : Cursor}

lemma rfl (c : Cursor) : c.Reaches c :=
  ⟨List.suffix_rfl, .refl _⟩

lemma trans (h : c.Reaches d) (h' : d.Reaches e) : c.Reaches e :=
  ⟨h'.1.trans h.1, h'.2.trans h.2⟩

end Reaches

end Cursor

/-- Between the two cursors balanced code was taken and `new` was written down, which is as good as
what was taken: behind any code in front that has the property `K` it may stand in its place. -/
structure Cursor.Passes (K : Code → Prop) (c d : Cursor) (new : Code) : Prop where
  taken : ∃ taken, c.rest = taken ++ d.rest ∧ taken.IsBalanced ∧ taken.IsUnquoted
  written : d.written = new.reverse ++ c.written
  lexed : ∀ token ∈ new, token.IsLexed
  balanced : new.IsBalanced
  unquoted : new.IsUnquoted
  glued : ∀ front, K front → Code.IsGlued (front ++ c.rest) →
    Code.IsGlued (front ++ (new ++ d.rest))

namespace Cursor.Passes

variable {K L : Code → Prop} {c d e : Cursor} {new more : Code}

lemma rfl (c : Cursor) : c.Passes K c [] where
  taken := ⟨[], .refl _, Code.isBalanced_nil, Code.isUnquoted_nil⟩
  written := .refl _
  lexed := nofun
  balanced := Code.isBalanced_nil
  unquoted := Code.isUnquoted_nil
  glued _ _ h := h

lemma isSoundEnd (h : c.Passes K d new) (hc : c.rest.IsSoundEnd) : d.rest.IsSoundEnd := by
  obtain ⟨taken, hrest, hbalanced, -⟩ := h.taken
  rw [hrest] at hc
  exact hc.of_append hbalanced

lemma trans (h : c.Passes K d new) (h' : d.Passes L e more)
    (hfront : ∀ front, K front → L (front ++ new)) : c.Passes K e (new ++ more) where
  taken := by
    obtain ⟨taken, hrest, hbalanced, hunquoted⟩ := h.taken
    obtain ⟨taken', hrest', hbalanced', hunquoted'⟩ := h'.taken
    refine ⟨taken ++ taken', ?_, hbalanced.append hbalanced', hunquoted.append hunquoted'⟩
    rw [hrest, hrest', List.append_assoc]
  written := by rw [h'.written, h.written, List.reverse_append, List.append_assoc]
  lexed := List.forall_mem_append.mpr ⟨h.lexed, h'.lexed⟩
  balanced := h.balanced.append h'.balanced
  unquoted := h.unquoted.append h'.unquoted
  glued front hK hglued := by
    have hmiddle := h.glued front hK hglued
    rw [← List.append_assoc] at hmiddle
    have hend := h'.glued (front ++ new) (hfront front hK) hmiddle
    rwa [List.append_assoc, ← List.append_assoc new] at hend

/-- Tokens are taken and written down as they are. -/
lemma verbatim {taken : Code} (hc : c.rest.IsSoundEnd) (hrest : c.rest = taken ++ d.rest)
    (hwritten : d.written = taken.reverse ++ c.written) (hbalanced : taken.IsBalanced)
    (hunquoted : taken.IsUnquoted) : c.Passes K d taken where
  taken := ⟨taken, hrest, hbalanced, hunquoted⟩
  written := hwritten
  lexed token ht := hc.lexed token (by rw [hrest]; exact List.mem_append_left _ ht)
  balanced := hbalanced
  unquoted := hunquoted
  glued front _ h := by rwa [← hrest]

/-- What was written down before does not matter. -/
lemma behind {written : Code} (h : { c with written := [] }.Passes K d new)
    (hwritten : written = new.reverse ++ c.written) : c.Passes K { d with written } new where
  taken := h.taken
  written := hwritten
  lexed := h.lexed
  balanced := h.balanced
  unquoted := h.unquoted
  glued := h.glued

/-- In front of what no joint character goes on with, code is closed. -/
lemma of_not_continues (h : c.Passes Code.IsClosed d new)
    (hrest : ∀ mark, ¬Code.Continues mark c.rest) : c.Passes Code.IsUnquoted d new :=
  { h with glued := fun front _ hglued => h.glued front (hglued.isClosed hrest) hglued }

lemma of_word {name : String} {rest : Code} (h : c.Passes Code.IsClosed d new)
    (hrest : c.rest = .ident name :: rest) (hc : c.rest.IsSoundEnd) :
    c.Passes Code.IsUnquoted d new :=
  { h with
    glued := fun front hfront hglued => by
      have hname : IsName name.toList :=
        hc.lexed (.ident name) (by rw [hrest]; exact List.mem_cons_self)
      have hword := hglued
      rw [hrest] at hword
      exact h.glued front (hword.isClosed_of_word hname hfront) hglued }

/-- Behind code that is closed it is enough that what was written down is glued to what is left. -/
lemma of_closed (taken : Code) (hrest : c.rest = taken ++ d.rest) (hbalanced : taken.IsBalanced)
    (hunquoted : taken.IsUnquoted) (hwritten : d.written = new.reverse ++ c.written)
    (hnew : new.IsPiece) (hglued : Code.IsGlued (new ++ d.rest)) :
    c.Passes Code.IsClosed d new where
  taken := ⟨taken, hrest, hbalanced, hunquoted⟩
  written := hwritten
  lexed := hnew.lexed
  balanced := hnew.balanced
  unquoted := hnew.unquoted
  glued _ hfront h := (hfront.isGlued h).append hglued

/-- The code that was written down can be cut off. -/
lemma isPiece (h : c.Passes Code.IsUnquoted d new) (hc : c.rest.IsSoundEnd) : new.IsPiece where
  lexed := h.lexed
  glued := by
    have hglued : Code.IsGlued (new ++ d.rest) := h.glued [] Code.isUnquoted_nil hc.glued
    exact hglued.append_operator h.unquoted (List.cons_ne_nil ',' []) (by decide)
  balanced := h.balanced
  unquoted := h.unquoted

end Cursor.Passes

namespace Reader

variable {α β : Type} {K L : Code → Prop}

/-! ### Readers -/

/-- If nothing is left over, the reader takes code from the front and passes over sound code to
another cursor, behind whatever code has the property `K`. Its answer and the code that it writes
down have the property `P`. -/
def YieldsBehind (K : Code → Prop) (p : Reader α) (P : α → Code → Prop) : Prop :=
  ∀ ⦃c a d⦄, p c = .ok (a, d) → d.leftover = none →
    c.leftover = none ∧ c.Reaches d ∧
      (c.rest.IsSoundEnd → ∃ new, c.Passes K d new ∧ P a new)

/-- The same behind any code that does not end with a lone quote. -/
abbrev Yields (p : Reader α) (P : α → Code → Prop) : Prop :=
  p.YieldsBehind Code.IsUnquoted P

/-- If nothing is left over, the reader passes over sound code to another cursor. -/
class Tidy (p : Reader α) : Prop where
  yields : p.Yields fun _ _ => True

/-- If nothing is left over, nothing was left over before, and code is taken from the front. -/
class Lasting (p : Reader α) : Prop where
  of_none : ∀ ⦃c a d⦄, p c = .ok (a, d) → d.leftover = none →
    c.leftover = none ∧ c.Reaches d

namespace YieldsBehind

variable {p : Reader α} {P : α → Code → Prop} {Q : β → Code → Prop}

lemma mono {P' : α → Code → Prop} (h : p.YieldsBehind K P) (hP : ∀ a new, P a new → P' a new) :
    p.YieldsBehind K P' := by
  intro c a d hrun hleft
  obtain ⟨hnone, hreaches, hpasses⟩ := h hrun hleft
  refine ⟨hnone, hreaches, fun hc => ?_⟩
  obtain ⟨new, hnew, ha⟩ := hpasses hc
  exact ⟨new, hnew, hP a new ha⟩

lemma pure {a : α} (h : P a []) : (pure a : Reader α).YieldsBehind K P := by
  rintro c _ d ⟨⟩ hleft
  exact ⟨hleft, .rfl _, fun _ => ⟨[], .rfl c, h⟩⟩

lemma weaken (h : p.YieldsBehind K P) (hK : ∀ front, L front → K front) :
    p.YieldsBehind L P := by
  intro c a d hrun hleft
  obtain ⟨hnone, hreaches, hpasses⟩ := h hrun hleft
  refine ⟨hnone, hreaches, fun hc => ?_⟩
  obtain ⟨new, hnew, ha⟩ := hpasses hc
  exact ⟨new, { hnew with glued := fun front hfront => hnew.glued front (hK front hfront) }, ha⟩

/-- The answers are known to have one more property. -/
lemma and_answers {Q : α → Prop} (h : p.YieldsBehind K P) (hQ : p.Answers Q) :
    p.YieldsBehind K fun a new => P a new ∧ Q a := by
  intro c a d hrun hleft
  obtain ⟨hnone, hreaches, hpasses⟩ := h hrun hleft
  refine ⟨hnone, hreaches, fun hc => ?_⟩
  obtain ⟨new, hnew, ha⟩ := hpasses hc
  exact ⟨new, hnew, ha, hQ hrun⟩

/-- The second reader goes on behind what the first one has written down, and may rely on what is
known of all its answers. -/
lemma bind_of_answers {f : α → Reader β} {R : α → Prop} (hR : p.Answers R)
    (hp : p.YieldsBehind K P)
    (hfront : ∀ front a new, K front → P a new → new.IsUnquoted → L (front ++ new))
    (hf : ∀ a, R a → (f a).YieldsBehind L fun b more => ∀ new, P a new → Q b (new ++ more)) :
    (p >>= f).YieldsBehind K Q := by
  intro c b e hrun hleft
  obtain ⟨a, d, hfirst, hsecond⟩ := bind_eq_ok.mp hrun
  obtain ⟨hmiddle, hreaches', hpasses'⟩ := hf a (hR hfirst) hsecond hleft
  obtain ⟨hnone, hreaches, hpasses⟩ := hp hfirst hmiddle
  refine ⟨hnone, hreaches.trans hreaches', fun hc => ?_⟩
  obtain ⟨new, hnew, ha⟩ := hpasses hc
  obtain ⟨more, hmore, hb⟩ := hpasses' (hnew.isSoundEnd hc)
  exact ⟨new ++ more, hnew.trans hmore fun front hK => hfront front a new hK ha hnew.unquoted,
    hb new ha⟩

/-- The second reader goes on behind what the first one has written down. -/
lemma bind_behind {f : α → Reader β} (hp : p.YieldsBehind K P)
    (hfront : ∀ front a new, K front → P a new → new.IsUnquoted → L (front ++ new))
    (hf : ∀ a, (f a).YieldsBehind L fun b more => ∀ new, P a new → Q b (new ++ more)) :
    (p >>= f).YieldsBehind K Q :=
  .bind_of_answers (R := fun _ => True) (fun _ _ _ _ => trivial) hp hfront fun a _ => hf a

lemma ite {b : Bool} {q : Reader α} (hp : p.YieldsBehind K P) (hq : q.YieldsBehind K P) :
    (if b then p else q).YieldsBehind K P := by
  split
  · exact hp
  · exact hq

lemma of_looks (h : p.Looks) (hP : ∀ a, P a []) : p.YieldsBehind K P := by
  intro c a d hrun hleft
  obtain rfl := h hrun
  exact ⟨hleft, .rfl _, fun _ => ⟨[], .rfl d, hP a⟩⟩

/-- If the first reader writes nothing down, and the second one stands behind closed code. -/
lemma bind_quiet {f : α → Reader β} {P : α → Prop} {Q : β → Code → Prop}
    (hp : p.YieldsBehind Code.IsClosed fun a new => new = [] ∧ P a)
    (hf : ∀ a, (f a).YieldsBehind Code.IsClosed fun b new => P a → Q b new) :
    (p >>= f).YieldsBehind Code.IsClosed Q := by
  refine .bind_behind hp (fun front _ _ hfront hnew _ => ?_) fun a => (hf a).mono fun b more h => ?_
  · rwa [hnew.1, List.append_nil]
  · rintro _ ⟨rfl, ha⟩
    exact h ha

/-- If the first reader only looks. -/
lemma bind_look {f : α → Reader β} (hp : p.Looks) (hf : ∀ a, (f a).YieldsBehind K Q) :
    (p >>= f).YieldsBehind K Q := by
  refine .bind_behind (P := fun _ new => new = []) (.of_looks hp fun _ => rfl)
    (fun front _ _ hfront hnew _ => ?_) fun a => (hf a).mono fun b more h => ?_
  · rwa [hnew, List.append_nil]
  · rintro _ rfl
    exact h

lemma of_ne_ok (h : ∀ c r, p c ≠ .ok r) : p.YieldsBehind K P :=
  fun c _ _ hrun => absurd hrun (h c _)

lemma bind {f : α → Reader β} (hp : p.Yields P)
    (hf : ∀ a, (f a).Yields fun b more => ∀ new, P a new → Q b (new ++ more)) :
    (p >>= f).Yields Q :=
  hp.bind_behind (fun _ _ _ hfront _ hnew => hfront.append hnew) hf

/-- If nothing is known of the first reader. -/
lemma seq [Tidy p] {f : α → Reader β}
    (hf : ∀ a, (f a).Yields fun b more => ∀ new, Q b (new ++ more)) : (p >>= f).Yields Q :=
  bind Tidy.yields fun a => (hf a).mono fun _ _ h new _ => h new

lemma tidy (h : p.Yields P) : Tidy p :=
  ⟨h.mono fun _ _ _ => trivial⟩

/-- What is written down is a piece of code. -/
lemma isPiece (h : p.Yields P) : p.Yields fun a new => P a new ∧ new.IsPiece := by
  intro c a d hrun hleft
  obtain ⟨hnone, hreaches, hpasses⟩ := h hrun hleft
  refine ⟨hnone, hreaches, fun hc => ?_⟩
  obtain ⟨new, hnew, ha⟩ := hpasses hc
  exact ⟨new, hnew, ha, hnew.isPiece hc⟩

end YieldsBehind

/-! ### Looking and failing -/

namespace Lasting

instance (p : Reader α) [Tidy p] : Lasting p := by
  refine ⟨fun _ _ _ hrun hleft => ?_⟩
  obtain ⟨hnone, hreaches, -⟩ := Tidy.yields hrun hleft
  exact ⟨hnone, hreaches⟩

instance bind (p : Reader α) (f : α → Reader β) [Lasting p] [∀ a, Lasting (f a)] :
    Lasting (p >>= f) := by
  refine ⟨fun c b e hrun hleft => ?_⟩
  obtain ⟨a, d, hfirst, hsecond⟩ := bind_eq_ok.mp hrun
  obtain ⟨hmiddle, hreaches'⟩ := of_none hsecond hleft
  obtain ⟨hnone, hreaches⟩ := of_none hfirst hmiddle
  exact ⟨hnone, hreaches.trans hreaches'⟩

instance ite (c : Prop) [Decidable c] (p q : Reader α) [hp : Lasting p] [hq : Lasting q] :
    Lasting (if c then p else q) := by
  split
  · exact hp
  · exact hq

instance write (code : Code) : Lasting (write code) := by
  refine ⟨?_⟩
  rintro c _ d ⟨⟩ hleft
  exact ⟨hleft, .rfl _⟩

instance capture (p : Reader α) [Lasting p] : Lasting (capture p) := by
  refine ⟨fun c r d hrun hleft => ?_⟩
  simp only [Reader.capture] at hrun
  cases h : p { c with written := [] } with
  | error fault =>
    rw [h] at hrun
    cases hrun
  | ok s =>
    obtain ⟨a, e⟩ := s
    rw [h] at hrun
    cases hrun
    have hnone := of_none h
    exact hnone hleft

end Lasting

namespace Tidy

instance pure (a : α) : Tidy (pure a : Reader α) := ⟨.pure trivial⟩

instance bind (p : Reader α) (f : α → Reader β) [Tidy p] [∀ a, Tidy (f a)] : Tidy (p >>= f) :=
  ⟨.seq fun _ => yields.mono fun _ _ _ _ => trivial⟩

/-- For a reader that goes on with a distinction of cases. -/
lemma seq {p : Reader α} {f : α → Reader β} [Tidy p] (hf : ∀ a, Tidy (f a)) : Tidy (p >>= f) :=
  bind p f

/-- What is known of the answers of the first reader is known to the second one. -/
lemma bind_of_answers {p : Reader α} {f : α → Reader β} {R : α → Prop} [Tidy p] (hR : p.Answers R)
    (hf : ∀ a, R a → Tidy (f a)) : Tidy (p >>= f) := by
  refine (YieldsBehind.bind_of_answers (Q := fun _ _ => True) hR yields
    (fun _ _ _ hfront _ hnew => hfront.append hnew) fun a ha => ?_).tidy
  have hsecond := hf a ha
  exact yields.mono fun _ _ _ _ _ => trivial

instance ite (c : Prop) [Decidable c] (p q : Reader α) [hp : Tidy p] [hq : Tidy q] :
    Tidy (if c then p else q) := by
  split
  · exact hp
  · exact hq

lemma branch {b : Bool} {p q : Reader α} (hp : Tidy p) (hq : Tidy q) : Tidy (if b then p else q) :=
  ite _ p q

lemma of_looks {p : Reader α} (h : p.Looks) : Tidy p := ⟨.of_looks h fun _ => trivial⟩

lemma of_ne_ok {p : Reader α} (h : ∀ c r, p c ≠ .ok r) : Tidy p := ⟨.of_ne_ok h⟩

instance get : Tidy (get : Reader Cursor) := by
  refine .of_looks ?_
  rintro c a d ⟨⟩
  rfl

instance mark : Tidy mark := .bind _ _

instance isEnded : Tidy isEnded := .bind _ _

instance peek (t : Terminal) : Tidy (peek t) := .of_looks (looks_peek t)

instance peekSecond (t : Terminal) : Tidy (peekSecond t) := .of_looks (looks_peekSecond t)

instance peekThird (t : Terminal) : Tidy (peekThird t) := .of_looks (looks_peekThird t)

instance peekWord (text : String) : Tidy (peekWord text) := peek _

instance peekOperator (text : String) : Tidy (peekOperator text) := peek _

instance peekAny (ts : List Terminal) : Tidy (peekAny ts) := .of_looks (looks_peekAny ts)

instance peekAnyWord : Tidy peekAnyWord := by
  refine @bind _ _ _ _ get fun c => ?_
  generalize c.rest = rest
  split <;> exact pure _

instance ahead (p : Reader α) : Tidy (ahead p) := .of_looks (looks_ahead p)

instance failAt (place : Mark) (cause : Cause) : Tidy (failAt place cause : Reader α) :=
  .of_ne_ok (failAt_ne_ok place cause)

instance fail (cause : Cause) : Tidy (fail cause : Reader α) := .of_ne_ok (fail_ne_ok cause)

instance expected (what : String) : Tidy (expected what : Reader α) :=
  .of_ne_ok (expected_ne_ok what)

instance unexpected (ts : List Terminal) : Tidy (unexpected ts : Reader α) :=
  .of_ne_ok (unexpected_ne_ok ts)

instance noIdentifier : Tidy (noIdentifier : Reader α) := .of_ne_ok noIdentifier_ne_ok

end Tidy

end Reader

/-! ### Terminals -/

namespace Terminal

/-- Whether the terminal is made of tokens that are no brackets, and no lifetime in disguise. -/
def isLeaf : Terminal → Bool
  | operator text => !text.toList.isEmpty && !text.toList.contains '\''
  | group _ => false
  | _ => true

/-- The terminal is made of tokens that are no brackets, and no lifetime in disguise. -/
class IsLeaf (t : Terminal) : Prop where
  eq : t.isLeaf = true

instance (text : String) : IsLeaf (.word text) := ⟨rfl⟩
instance : IsLeaf .identifier := ⟨rfl⟩
instance : IsLeaf .lifetime := ⟨rfl⟩
instance : IsLeaf .literal := ⟨rfl⟩
instance : IsLeaf .string := ⟨rfl⟩

lemma exists_of_fits_lifetime {code : Code} (h : lifetime.fits code = true) :
    ∃ name rest, code = .punct '\'' .joint :: .ident name :: rest := by
  unfold fits at h
  split at h
  all_goals first
    | exact ⟨_, _, rfl⟩
    | contradiction

lemma exists_of_fits_literal {code : Code} (h : literal.fits code = true) :
    ∃ rest, (∃ text, code = .literal text :: rest) ∨ (∃ name, code = .ident name :: rest) ∨
      ∃ spacing text, code = .punct '-' spacing :: .literal text :: rest := by
  unfold fits at h
  split at h
  all_goals first
    | exact ⟨_, .inl ⟨_, rfl⟩⟩
    | exact ⟨_, .inr (.inl ⟨_, rfl⟩)⟩
    | exact ⟨_, .inr (.inr ⟨_, _, rfl⟩)⟩
    | contradiction

lemma exists_of_fits_group {d : Delimiter} {code : Code} (h : (group d).fits code = true) :
    ∃ rest, code = .opening d :: rest := by
  cases code with
  | nil => cases h
  | cons token rest =>
    cases token with
    | opening found =>
      obtain rfl : found = d := by simpa [fits] using h
      exact ⟨rest, rfl⟩
    | _ => cases h

end Terminal

namespace Code

lemma isUnquoted_mark {c : Char} (hquote : c ≠ '\'') (spacing : Spacing) :
    IsUnquoted [.punct c spacing] := by
  intro h
  cases h
  exact hquote rfl

/-- An operator may stand where its characters stood, whether or not the last one was joint. -/
lemma startsWith_spec {marks : List Char} {code : Code} (h : code.startsWith marks = true)
    (hne : marks ≠ []) (hquote : '\'' ∉ marks) (hlexed : ∀ token ∈ code, token.IsLexed)
    (hglued : code.IsGlued) : ∃ taken, code = taken ++ code.drop marks.length ∧
      taken.IsBalanced ∧ taken.IsUnquoted ∧ (∀ token ∈ operatorCode marks, token.IsLexed) ∧
      IsGlued (operatorCode marks ++ code.drop marks.length) ∧
      ∀ mark, Continues mark code →
        Continues mark (operatorCode marks ++ code.drop marks.length) := by
  induction marks generalizing code with
  | nil => exact absurd rfl hne
  | cons c marks ih =>
    have hc : c ≠ '\'' := fun heq => hquote (heq ▸ List.mem_cons_self)
    cases code with
    | nil => cases marks <;> cases h
    | cons token rest =>
      cases token with
      | punct mark spacing =>
        obtain ⟨htoken, hrest⟩ := List.forall_mem_cons.mp hlexed
        cases marks with
        | nil =>
          obtain rfl : mark = c := by simpa [startsWith] using h
          have halone : (Token.punct mark .alone).IsLexed := ⟨htoken.1, fun heq => absurd heq hc⟩
          exact ⟨[.punct mark spacing], rfl, rfl, isUnquoted_mark hc spacing,
            List.forall_mem_singleton.mpr halone, ⟨by rintro _ ⟨⟩, hglued.2⟩,
            fun _ hcontinues => hcontinues.of_mark _ _⟩
        | cons d marks =>
          simp only [startsWith, Bool.and_eq_true, beq_iff_eq] at h
          obtain ⟨⟨rfl, rfl⟩, hstarts⟩ := h
          obtain ⟨taken, hcode, hbalanced, hunquoted, hoperator, hmore, hcontinues⟩ :=
            ih hstarts (List.cons_ne_nil d marks) (fun hmem => hquote (List.mem_cons_of_mem _ hmem))
              hrest hglued.2
          refine ⟨.punct mark .joint :: taken, congrArg (_ :: ·) hcode,
            IsBalanced.append (a := [.punct mark .joint]) rfl hbalanced,
            (isUnquoted_mark hc .joint).append hunquoted,
            List.forall_mem_cons.mpr ⟨htoken, hoperator⟩, ⟨?_, hmore⟩,
            fun _ hcontinues => hcontinues.of_mark _ _⟩
          rintro _ ⟨⟩
          exact hcontinues mark (hglued.1 mark rfl)
      | _ => cases marks <;> cases h

end Code

namespace Reader

variable {α β : Type} {K : Code → Prop}

section Leaf

variable {t : Terminal} {c : Cursor}

/-- A leaf that is printed as it was written may stand in its place. -/
lemma passes_advance_of_same (hc : c.rest.IsSoundEnd) (taken : Code) {rest : Code}
    (hcode : c.rest = taken ++ rest) (hdrop : c.rest.drop (t.width c.rest) = rest)
    (hcanonical : t.canonical c.rest = taken) (hbalanced : taken.IsBalanced) (hends : taken.Ends) :
    c.Passes Code.IsUnquoted { c with
      rest := c.rest.drop (t.width c.rest)
      written := (t.canonical c.rest).reverse ++ c.written } (t.canonical c.rest) ∧
    (t.canonical c.rest).Ends := by
  rw [hcanonical, hdrop]
  exact ⟨.verbatim hc hcode rfl hbalanced hends.isClosed.isUnquoted, hends⟩

/-- An operator is printed with its tokens joint, but for the last, and may stand in its place. -/
lemma passes_advance_operator {text : String} [ht : (Terminal.operator text).IsLeaf]
    (hfits : (Terminal.operator text).fits c.rest = true) (hc : c.rest.IsSoundEnd) :
    c.Passes Code.IsUnquoted { c with
      rest := c.rest.drop ((Terminal.operator text).width c.rest)
      written := (operatorCode text.toList).reverse ++ c.written } (operatorCode text.toList) ∧
    (operatorCode text.toList).Ends := by
  have hleaf := ht.eq
  simp only [Terminal.isLeaf, Bool.and_eq_true, Bool.not_eq_true', List.isEmpty_eq_false_iff,
    List.contains_eq_mem, decide_eq_false_iff_not] at hleaf
  obtain ⟨hne, hquote⟩ := hleaf
  obtain ⟨taken, hcode, hbalanced, hunquoted, hlexed, hglued, hcontinues⟩ :=
    Code.startsWith_spec hfits hne hquote hc.lexed hc.glued
  have hends := Code.ends_operator hne
  refine ⟨⟨⟨taken, hcode, hbalanced, hunquoted⟩, rfl, hlexed, Code.isBalanced_operator _,
    hends.isClosed.isUnquoted, fun front _ h => ?_⟩, hends⟩
  exact h.append_of hglued fun mark _ => hcontinues mark

/-- What is written down for a leaf may stand in its place. -/
lemma passes_advance [ht : t.IsLeaf] (hfits : t.fits c.rest = true) (hc : c.rest.IsSoundEnd) :
    c.Passes Code.IsUnquoted { c with
      rest := c.rest.drop (t.width c.rest)
      written := (t.canonical c.rest).reverse ++ c.written } (t.canonical c.rest) ∧
    (t.canonical c.rest).Ends := by
  have hsame := passes_advance_of_same (t := t) hc
  obtain ⟨code, behind, written, leftover⟩ := c
  dsimp only at hfits hc hsame ⊢
  cases t with
  | word text =>
    obtain ⟨rest, rfl⟩ := fits_word_iff.mp hfits
    exact hsame [.ident text] rfl rfl rfl rfl (Code.ends_single not_false)
  | identifier | string =>
    cases code with
    | nil => cases hfits
    | cons token rest =>
      cases token with
      | ident | literal =>
        first
        | contradiction
        | exact hsame [_] rfl rfl rfl rfl (Code.ends_single not_false)
      | _ => cases hfits
  | lifetime =>
    obtain ⟨name, rest, rfl⟩ := Terminal.exists_of_fits_lifetime hfits
    exact hsame [.punct '\'' .joint, .ident name] rfl rfl rfl rfl
      (Code.Ends.append [.punct '\'' .joint] (Code.ends_single not_false))
  | literal =>
    obtain ⟨rest, ⟨text, rfl⟩ | ⟨name, rfl⟩ | ⟨spacing, text, rfl⟩⟩ :=
      Terminal.exists_of_fits_literal hfits
    · exact hsame [.literal text] rfl rfl rfl rfl (Code.ends_single not_false)
    · exact hsame [.ident name] rfl rfl rfl rfl (Code.ends_single not_false)
    · -- the sign of a number is printed alone
      have hends : Code.Ends [.punct '-' .alone, .literal text] :=
        Code.Ends.append [.punct '-' .alone] (Code.ends_single not_false)
      refine ⟨⟨⟨[.punct '-' spacing, .literal text], rfl, rfl, ?_⟩, rfl, ?_, rfl,
        hends.isClosed.isUnquoted, fun front _ h => ?_⟩, hends⟩
      · exact (Code.Ends.append [.punct '-' spacing] (Code.ends_single
          (show ¬(Token.literal text).IsJoint from not_false))).isClosed.isUnquoted
      · exact List.forall_mem_cons.mpr ⟨⟨rfl, nofun⟩, fun token ht => hc.lexed token (by
          exact List.mem_cons_of_mem _ (List.mem_singleton.mp ht ▸ List.mem_cons_self))⟩
      · exact h.append_of ⟨nofun, hc.glued.2⟩ fun mark _ hcontinues => hcontinues.of_mark _ _
  | operator text => exact passes_advance_operator hfits hc
  | group d => cases ht.eq

end Leaf

lemma yields_take (t : Terminal) [t.IsLeaf] : (take t).Yields fun _ new => new.Ends := by
  intro c a d hrun hleft
  obtain ⟨hfits, ⟨⟩⟩ := take_eq_ok.mp hrun
  exact ⟨hleft, ⟨List.drop_suffix _ _, rfl⟩, fun hc => ⟨_, passes_advance hfits hc⟩⟩

/-- An operator is written down as it is printed. -/
lemma yields_operator (text : String) [(Terminal.operator text).IsLeaf] :
    (operator text).Yields fun _ new => new = operatorCode text.toList ∧ new.Ends := by
  intro c a d hrun hleft
  obtain ⟨hfits, ⟨⟩⟩ := take_eq_ok.mp hrun
  exact ⟨hleft, ⟨List.drop_suffix _ _, rfl⟩, fun hc =>
    ⟨_, (passes_advance hfits hc).1, rfl, (passes_advance hfits hc).2⟩⟩

/-- A terminal that is not taken leaves nothing behind. -/
lemma yields_accept (t : Terminal) [t.IsLeaf] :
    (accept t).Yields fun taken new => if taken then new.Ends else new = [] := by
  intro c a d hrun hleft
  unfold accept at hrun
  rw [bind_of_ok (peek_apply t c)] at hrun
  split at hrun
  · rename_i hfits
    obtain ⟨_, _, ⟨⟩, ⟨⟩⟩ := bind_eq_ok.mp hrun
    exact ⟨hleft, ⟨List.drop_suffix _ _, rfl⟩, fun hc => ⟨_, passes_advance hfits hc⟩⟩
  · cases hrun
    exact ⟨hleft, .rfl _, fun _ => ⟨[], .rfl c, rfl⟩⟩

lemma yields_identifier : identifier.Yields fun name new =>
    IsName name.toList ∧ new = [.ident name] := by
  intro c name d hrun hleft
  have hrest := identifier_eq_ok hrun
  obtain ⟨_, _, ⟨⟩, hrun⟩ := bind_eq_ok.mp hrun
  obtain ⟨_, _, htake, ⟨⟩⟩ := bind_eq_ok.mp hrun
  obtain ⟨hfits, ⟨⟩⟩ := take_eq_ok.mp htake
  refine ⟨hleft, ⟨List.drop_suffix _ _, rfl⟩, fun hc => ⟨_, (passes_advance hfits hc).1, ?_, ?_⟩⟩
  · exact hc.lexed (.ident _) (by rw [hrest]; exact List.mem_cons_self)
  · show c.rest.take 1 = _
    rw [hrest]
    rfl

lemma yields_anyIdentifier : anyIdentifier.Yields fun name new =>
    IsName name.toList ∧ new = [.ident name] := by
  rintro ⟨code, behind, written, leftover⟩ name d hrun hleft
  obtain ⟨_, _, ⟨⟩, hrun⟩ := bind_eq_ok.mp hrun
  cases code with
  | nil => exact absurd hrun (expected_ne_ok _ _ _)
  | cons token rest =>
    cases token with
    | ident text =>
      obtain ⟨_, _, ⟨⟩, ⟨⟩⟩ := bind_eq_ok.mp hrun
      have hfits : (Terminal.word name).fits (.ident name :: rest) = true := by simp [Terminal.fits]
      exact ⟨hleft, ⟨List.suffix_cons _ _, rfl⟩, fun hc => ⟨_, (passes_advance hfits hc).1,
        hc.lexed (.ident name) List.mem_cons_self, rfl⟩⟩
    | _ => exact absurd hrun (expected_ne_ok _ _ _)

namespace Tidy

instance take (t : Terminal) [t.IsLeaf] : Tidy (take t) := (yields_take t).tidy

instance accept (t : Terminal) [t.IsLeaf] : Tidy (accept t) := (yields_accept t).tidy

instance word (text : String) : Tidy (word text) := take _

instance operator (text : String) [(Terminal.operator text).IsLeaf] : Tidy (operator text) := take _

instance acceptWord (text : String) : Tidy (acceptWord text) := accept _

instance acceptOperator (text : String) [(Terminal.operator text).IsLeaf] :
    Tidy (acceptOperator text) := accept _

instance identifier : Tidy identifier := yields_identifier.tidy

instance anyIdentifier : Tidy anyIdentifier := yields_anyIdentifier.tidy

instance lifetime : Tidy lifetime := take _

instance literal : Tidy literal := take _

end Tidy

/-! ### Trying and capturing -/

lemma yields_attempt {p : Reader α} {P : α → Code → Prop} (hp : p.Yields P) :
    (attempt p).Yields fun a? new => ∀ a, a? = some a → P a new := by
  intro c a? d hrun hleft
  simp only [attempt] at hrun
  cases h : p c with
  | error fault =>
    rw [h] at hrun
    cases hrun
    exact ⟨hleft, .rfl _, fun _ => ⟨[], .rfl c, nofun⟩⟩
  | ok r =>
    rw [h] at hrun
    cases hrun
    obtain ⟨hnone, hreaches, hpasses⟩ := hp h hleft
    refine ⟨hnone, hreaches, fun hc => ?_⟩
    obtain ⟨new, hnew, ha⟩ := hpasses hc
    refine ⟨new, hnew, ?_⟩
    rintro _ ⟨⟩
    exact ha

/-- What is handed over may stand where the code stood that was taken. -/
lemma capture_eq_ok {p : Reader α} {P : α → Code → Prop} (hp : p.YieldsBehind K P) {c d : Cursor}
    {a : α} {code : Code} (h : capture p c = .ok ((a, code), d)) (hleft : d.leftover = none) :
    c.leftover = none ∧ c.Reaches d ∧ d.written = c.written ∧ (c.rest.IsSoundEnd →
      c.Passes K { d with written := code.reverse ++ c.written } code ∧ P a code) := by
  simp only [capture] at h
  cases hrun : p { c with written := [] } with
  | error fault =>
    rw [hrun] at h
    cases h
  | ok r =>
    obtain ⟨b, e⟩ := r
    rw [hrun] at h
    cases h
    obtain ⟨hnone, hreaches, hpasses⟩ := hp hrun hleft
    refine ⟨hnone, hreaches, rfl, fun hc => ?_⟩
    obtain ⟨new, hnew, ha⟩ := hpasses hc
    have hcode : e.written.reverse = new := by
      have hwritten : e.written = new.reverse ++ [] := hnew.written
      rw [hwritten, List.append_nil, List.reverse_reverse]
    rw [hcode]
    exact ⟨hnew.behind rfl, ha⟩

/-- Behind closed code something can be taken without being written down. -/
lemma yields_capture {p : Reader α} {P : α → Code → Prop} (hp : p.Yields P) :
    (capture p).YieldsBehind Code.IsClosed fun r new => new = [] ∧ P r.1 r.2 ∧ r.2.IsPiece := by
  rintro c ⟨a, code⟩ d hrun hleft
  obtain ⟨hnone, hreaches, hwritten, hpasses⟩ := capture_eq_ok hp hrun hleft
  refine ⟨hnone, hreaches, fun hc => ?_⟩
  obtain ⟨hcode, ha⟩ := hpasses hc
  obtain ⟨taken, hrest, hbalanced, hunquoted⟩ := hcode.taken
  have hd : Code.IsSoundEnd d.rest := hcode.isSoundEnd hc
  exact ⟨[], .of_closed _ hrest hbalanced hunquoted hwritten Code.isSound_nil.isPiece hd.glued, rfl,
    ha, hcode.isPiece hc⟩

/-- Sound code may be written down behind closed code. -/
lemma yields_write {code : Code} (h : code.IsSound) :
    (write code).YieldsBehind Code.IsClosed fun _ new => new = code := by
  rintro c _ d ⟨⟩ hleft
  refine ⟨hleft, .rfl _, fun hc => ⟨code, .of_closed [] rfl Code.isBalanced_nil
    Code.isUnquoted_nil rfl h.isPiece (h.glued.append hc.glued), rfl⟩⟩

/-- A keyword is handed over as it is. -/
lemma YieldsBehind.capture_word {text : String} {f : Unit × Code → Reader β} {Q : β → Code → Prop}
    (hf : (f ((), [.ident text])).YieldsBehind Code.IsClosed Q) :
    (Reader.capture (word text) >>= f).YieldsBehind Code.IsClosed Q := by
  intro c b e hrun hleft
  obtain ⟨⟨_, code⟩, d, hcapture, hrun⟩ := bind_eq_ok.mp hrun
  obtain rfl : code = [.ident text] := by
    simp only [Reader.capture] at hcapture
    cases hword : word text { c with written := [] } with
    | error fault =>
      rw [hword] at hcapture
      cases hcapture
    | ok r =>
      rw [hword] at hcapture
      obtain ⟨hfits, ⟨⟩⟩ := take_eq_ok.mp hword
      obtain ⟨rest, hrest⟩ := fits_word_iff.mp hfits
      cases hcapture
      show ((c.rest.take 1).reverse ++ []).reverse = _
      rw [show c.rest = .ident text :: rest from hrest]
      rfl
  obtain ⟨hmiddle, hreaches', hpasses⟩ := hf hrun hleft
  obtain ⟨hnone, hreaches, hquiet⟩ := yields_capture Tidy.yields hcapture hmiddle
  refine ⟨hnone, hreaches.trans hreaches', fun hc => ?_⟩
  obtain ⟨_, hnew, rfl, -⟩ := hquiet hc
  obtain ⟨more, hmore, hb⟩ := hpasses (hnew.isSoundEnd hc)
  refine ⟨more, hnew.trans hmore fun front hfront => ?_, hb⟩
  rwa [List.append_nil]

/-- What begins with a keyword stands behind closed code. -/
lemma YieldsBehind.unless_word {text : String} {p q : Reader α} {P : α → Code → Prop}
    (hq : q.Yields P) (hp : p.YieldsBehind Code.IsClosed P) :
    (peekWord text >>= fun word => if !word then q else p).Yields P := by
  intro c a d hrun hleft
  obtain ⟨_, _, ⟨⟩, hrun⟩ := bind_eq_ok.mp hrun
  split at hrun
  · exact hq hrun hleft
  rename_i hword
  obtain ⟨rest, hrest⟩ := fits_word_iff.mp (by simpa using hword)
  obtain ⟨hnone, hreaches, hpasses⟩ := hp hrun hleft
  refine ⟨hnone, hreaches, fun hc => ?_⟩
  obtain ⟨new, hnew, ha⟩ := hpasses hc
  exact ⟨new, hnew.of_word hrest hc, ha⟩

/-- What is captured and then written down. -/
lemma YieldsBehind.capture_write {p : Reader α} {f : α × Code → Reader β} {P : α → Code → Prop}
    {Q : β → Code → Prop} (hp : p.Yields P)
    (hf : ∀ a code, (f (a, code)).Yields fun b more =>
      P a code → code.IsPiece → Q b (code ++ more)) :
    (Reader.capture p >>= fun r => write r.2 >>= fun _ => f r).Yields Q := by
  intro c b e hrun hleft
  obtain ⟨⟨a, code⟩, d, hcapture, hrun⟩ := bind_eq_ok.mp hrun
  obtain ⟨_, d', ⟨⟩, hrun⟩ := bind_eq_ok.mp hrun
  obtain ⟨hmiddle, hreaches', hpasses'⟩ := hf a code hrun hleft
  obtain ⟨hnone, hreaches, hwritten, hpasses⟩ := capture_eq_ok hp hcapture hmiddle
  refine ⟨hnone, hreaches.trans hreaches', fun hc => ?_⟩
  obtain ⟨hcode, ha⟩ := hpasses hc
  rw [← hwritten] at hcode
  obtain ⟨more, hmore, hb⟩ := hpasses' (hcode.isSoundEnd hc)
  exact ⟨code ++ more, hcode.trans hmore fun _ hfront => hfront.append hcode.unquoted,
    hb ha (hcode.isPiece hc)⟩

lemma Tidy.capture_write {p : Reader α} {f : α × Code → Reader β} (hp : p.Tidy)
    (hf : ∀ a code, (f (a, code)).Tidy) :
    Tidy (Reader.capture p >>= fun r => write r.2 >>= fun _ => f r) := by
  refine (YieldsBehind.capture_write (Q := fun _ _ => True) hp.yields fun a code => ?_).tidy
  exact (hf a code).yields.mono fun _ _ _ _ _ => trivial

lemma yields_verbatimIf {p : Reader α} {P : α → Prop} (asWritten : α → Bool)
    (hp : p.Yields fun a _ => P a) : (verbatimIf asWritten p).Yields fun a _ => P a := by
  intro c a e hrun hleft
  simp only [verbatimIf] at hrun
  cases h : p c with
  | error fault =>
    rw [h] at hrun
    cases hrun
  | ok r =>
    obtain ⟨b, d⟩ := r
    rw [h] at hrun
    dsimp only at hrun
    split at hrun
    · cases hrun
      obtain ⟨hnone, hreaches, hpasses⟩ := hp h hleft
      refine ⟨hnone, hreaches, fun hc => ?_⟩
      obtain ⟨new, hnew, ha⟩ := hpasses hc
      obtain ⟨taken, hrest, hbalanced, hunquoted⟩ := hnew.taken
      refine ⟨taken, .verbatim hc hrest ?_ hbalanced hunquoted, ha⟩
      rw [hrest, Code.before_append]
    · cases hrun
      exact hp h hleft

/-! ### Groups -/

lemma take_group_eq_ok {delimiter : Delimiter} {c d : Cursor}
    (h : take (.group delimiter) c = .ok ((), d)) : c.rest = .opening delimiter :: d.rest ∧
      d.written = .opening delimiter :: c.written ∧ d.leftover = c.leftover := by
  obtain ⟨hfits, ⟨⟩⟩ := take_eq_ok.mp h
  obtain ⟨rest, hrest⟩ := Terminal.exists_of_fits_group hfits
  refine ⟨?_, ?_, rfl⟩
  · show c.rest = .opening delimiter :: c.rest.drop 1
    rw [hrest]
    rfl
  · show (c.rest.take 1).reverse ++ c.written = _
    rw [hrest]
    rfl

/-- If nothing is left over, a group is closed where its content ends. -/
lemma closeGroup_eq_ok {delimiter : Delimiter} {c d : Cursor}
    (h : closeGroup delimiter c = .ok ((), d)) (hleft : d.leftover = none) :
    c.leftover = none ∧ c.isEnded = true ∧ d.written = .closing delimiter :: c.written ∧
      ∀ found behind, c.rest = .closing found :: behind → d.rest = behind := by
  cases h
  obtain ⟨hnone, hended⟩ := Option.or_eq_none_iff.mp hleft
  refine ⟨hnone, by simpa using hended, rfl, fun found behind hrest => ?_⟩
  show (Code.toClosing 0 c.rest).drop 1 = behind
  rw [hrest]
  rfl

/-- Between the brackets of a group stands what was written down for its content. -/
lemma passes_group {delimiter : Delimiter} {c d e f : Cursor}
    (htake : take (.group delimiter) c = .ok ((), d))
    (hclose : closeGroup delimiter e = .ok ((), f)) (hleft : f.leftover = none)
    (hc : c.rest.IsSoundEnd) : d.rest.IsSoundEnd ∧ ∀ new, d.Passes Code.IsUnquoted e new →
      c.Passes Code.IsUnquoted f (groupCode delimiter new) := by
  obtain ⟨hrest, hwritten, -⟩ := take_group_eq_ok htake
  obtain ⟨-, hended, hwritten', hbehind⟩ := closeGroup_eq_ok hclose hleft
  rw [hrest] at hc
  obtain ⟨opened, hnest⟩ := hc.nested
  have hnest : Code.nest (delimiter :: opened) d.rest = some [] := hnest
  refine ⟨⟨fun token ht => hc.lexed token (List.mem_cons_of_mem _ ht), hc.glued.2, _, hnest⟩,
    fun new hnew => ?_⟩
  obtain ⟨taken, htaken, hbalanced, -⟩ := hnew.taken
  -- the group ends with a bracket of its own kind, because the brackets around it match
  rw [htaken, Code.nest_append, hbalanced.nest, Option.bind_some] at hnest
  have hclosing : e.rest = .closing delimiter :: f.rest := by
    unfold Cursor.isEnded at hended
    split at hended
    · rename_i hnil
      rw [hnil] at hnest
      cases hnest
    · rename_i found behind hclosing
      rw [hclosing, Code.nest_cons, Token.nest] at hnest
      split at hnest
      · rename_i hsame
        rw [hbehind found behind hclosing, hclosing, hsame]
      · cases hnest
    · cases hended
  exact {
    taken := ⟨groupCode delimiter taken, by rw [hrest, htaken, hclosing]; simp [groupCode],
      hbalanced.group delimiter, (Code.ends_group delimiter taken).isClosed.isUnquoted⟩
    written := by rw [hwritten', hnew.written, hwritten]; simp [groupCode]
    lexed := by
      refine List.forall_mem_cons.mpr ⟨trivial, List.forall_mem_append.mpr ⟨hnew.lexed, ?_⟩⟩
      exact List.forall_mem_singleton.mpr trivial
    balanced := hnew.balanced.group delimiter
    unquoted := (Code.ends_group delimiter new).isClosed.isUnquoted
    glued := fun front hfront hglued => by
      have hopen : Code.IsUnquoted [.opening delimiter] := by rintro ⟨⟩
      have hcontent := hnew.glued (front ++ [.opening delimiter]) (hfront.append hopen) (by
        rw [List.append_assoc, List.singleton_append, ← hrest]
        exact hglued)
      rw [hclosing] at hcontent
      simpa [groupCode] using hcontent }

lemma yields_group {p : Reader α} {P : α → Code → Prop} (delimiter : Delimiter) (hp : p.Yields P) :
    (group delimiter p).Yields
      fun a new => ∃ inner, new = groupCode delimiter inner ∧ P a inner := by
  intro c a f hrun hleft
  obtain ⟨_, d, htake, hrun⟩ := bind_eq_ok.mp hrun
  obtain ⟨_, e, hcontent, hrun⟩ := bind_eq_ok.mp hrun
  obtain ⟨_, _, hclose, ⟨⟩⟩ := bind_eq_ok.mp hrun
  obtain ⟨hend, -⟩ := closeGroup_eq_ok hclose hleft
  obtain ⟨hnone, hreaches, hpasses⟩ := hp hcontent hend
  rw [(take_group_eq_ok htake).2.2] at hnone
  have hopened : c.Reaches d := Forward.take _ htake
  have hclosed := hopened.trans (hreaches.trans (Forward.closeGroup _ hclose))
  refine ⟨hnone, hclosed, fun hc => ?_⟩
  obtain ⟨hd, hgroup⟩ := passes_group htake hclose hleft hc
  obtain ⟨inner, hinner, ha⟩ := hpasses hd
  exact ⟨_, hgroup inner hinner, inner, rfl, ha⟩

/-- The content of a group that is taken as it stands is sound. -/
lemma yields_rawContent : rawContent.Yields fun inner _ => inner.IsSound := by
  rintro c _ d ⟨⟩ hleft
  refine ⟨hleft, ⟨Code.toClosing_suffix _ _, rfl⟩, fun hc => ?_⟩
  obtain ⟨opened, hnest⟩ := hc.nested
  obtain ⟨inner, hrest, hbalanced, hhead⟩ :=
    Code.toClosing_of_nest (show Code.nest ([] ++ opened) c.rest = some [] from hnest) rfl
  have hinner : c.rest.before (Code.toClosing 0 c.rest) = inner := by
    conv => enter [1, 1]; rw [hrest]
    exact Code.before_append _ _
  have hglued := hc.glued
  rw [hrest] at hglued
  have hclosed : inner.IsClosed := hglued.isClosed fun mark hcontinues => by
    obtain ⟨token, htoken, hjoins⟩ := hcontinues
    obtain ⟨d, rfl⟩ := hhead token htoken
    exact (Token.not_joins_bracket mark d).2 hjoins
  rw [hinner]
  refine ⟨inner, .verbatim hc hrest rfl hbalanced hclosed.isUnquoted, ?_, hclosed.isGlued hglued,
    hbalanced⟩
  exact fun token ht => hc.lexed token (by rw [hrest]; exact List.mem_append_left _ ht)

/-- A group that is taken as it stands is sound. -/
lemma yields_rawGroup : rawGroup.Yields fun g new => g.inner.IsSound ∧ new.Ends := by
  rintro ⟨code, behind, written, leftover⟩ g f hrun hleft
  obtain ⟨_, _, ⟨⟩, hrun⟩ := bind_eq_ok.mp hrun
  obtain ⟨_, _, ⟨⟩, hrun⟩ := bind_eq_ok.mp hrun
  dsimp only at hrun
  split at hrun
  · obtain ⟨_, d, htake, hrun⟩ := bind_eq_ok.mp hrun
    obtain ⟨inner, e, hcontent, hrun⟩ := bind_eq_ok.mp hrun
    obtain ⟨_, _, ⟨⟩, hrun⟩ := bind_eq_ok.mp hrun
    obtain ⟨_, _, hclose, ⟨⟩⟩ := bind_eq_ok.mp hrun
    obtain ⟨hend, -⟩ := closeGroup_eq_ok hclose hleft
    obtain ⟨hnone, hreaches, hpasses⟩ := yields_rawContent hcontent hend
    rw [(take_group_eq_ok htake).2.2] at hnone
    have hopened : Cursor.Reaches _ d := Forward.take _ htake
    have hclosed := hopened.trans (hreaches.trans (Forward.closeGroup _ hclose))
    refine ⟨hnone, hclosed, fun hc => ?_⟩
    obtain ⟨hd, hgroup⟩ := passes_group htake hclose hleft hc
    obtain ⟨new, hnew, hsound⟩ := hpasses hd
    exact ⟨_, hgroup new hnew, hsound, Code.ends_group _ new⟩
  · exact absurd hrun (expected_ne_ok _ _ _)

/-! ### Reading apart -/

lemma yields_afresh {p : Reader α} {P : α → Code → Prop} (hp : p.Yields P) :
    (afresh p).Yields P := by
  intro c a d hrun hleft
  obtain ⟨e, hrest, rfl⟩ := afresh_eq_ok_iff.mp hrun
  obtain ⟨hc, he⟩ := Option.or_eq_none_iff.mp hleft
  obtain ⟨-, hreaches, hpasses⟩ := hp hrest he
  refine ⟨hc, hreaches, fun hsound => ?_⟩
  obtain ⟨new, hnew, ha⟩ := hpasses hsound
  refine ⟨new, ⟨hnew.taken, ?_, hnew.lexed, hnew.balanced, hnew.unquoted, hnew.glued⟩, ha⟩
  show e.written ++ c.written = _
  rw [hnew.written, List.append_nil]

/-- The content of a group is read apart, if it is sound. -/
lemma yields_inside {g : RawGroup} {shift : Nat → α → α} {p : Reader α} {P : α → Prop}
    (hp : p.Yields fun a _ => P a) :
    (inside g shift p).Yields fun a _ => g.inner.IsSound → ∃ b, a = shift g.closeAt b ∧ P b := by
  intro c a d hrun hleft
  obtain ⟨b, e, hrest, -, he, rfl, rfl, hc⟩ := inside_eq_ok_iff.mp ⟨hrun, hleft⟩
  refine ⟨hc, .rfl _, fun _ => ⟨[], .rfl d, fun hsound => ⟨b, rfl, ?_⟩⟩⟩
  obtain ⟨-, -, hpasses⟩ := hp hrest he
  obtain ⟨new, -, hb⟩ := hpasses hsound.isSoundEnd
  exact hb

namespace Tidy

instance attempt (p : Reader α) [Tidy p] : Tidy (attempt p) := (yields_attempt yields).tidy

instance verbatimIf (asWritten : α → Bool) (p : Reader α) [Tidy p] :
    Tidy (verbatimIf asWritten p) :=
  (yields_verbatimIf asWritten (P := fun _ => True) yields).tidy

instance group (d : Delimiter) (p : Reader α) [Tidy p] : Tidy (group d p) :=
  (yields_group d yields).tidy

instance rawContent : Tidy rawContent := yields_rawContent.tidy

instance rawGroup : Tidy rawGroup := yields_rawGroup.tidy

instance afresh (p : Reader α) [Tidy p] : Tidy (afresh p) := (yields_afresh yields).tidy

end Tidy

/-! ### Repetition -/

/-- What every step answers holds of all answers; what all steps write down has the property `E` of
what each of them does. -/
lemma YieldsBehind.collect {step : Reader (Option α)} {P : α → Prop} {E : Code → Prop} (hnil : E [])
    (happend : ∀ {a b}, E a → E b → E (a ++ b))
    (hfront : ∀ {front new}, K front → E new → new.IsUnquoted → K (front ++ new))
    (hstep : step.YieldsBehind K fun answer new => (∀ a, answer = some a → P a) ∧ E new) :
    (collect step).YieldsBehind K fun as new => (∀ a ∈ as, P a) ∧ E new := by
  have hgo : ∀ fuel, (collect.go step fuel).YieldsBehind K fun as new =>
      (∀ a ∈ as, P a) ∧ E new := by
    intro fuel
    induction fuel with
    | zero => exact .pure ⟨nofun, hnil⟩
    | succ fuel ih =>
      refine .bind_behind hstep (fun _ _ _ hK h => hfront hK h.2) fun answer => ?_
      cases answer with
      | none => exact .pure fun new h => ⟨nofun, by rw [List.append_nil]; exact h.2⟩
      | some a =>
        refine .bind_behind ih (fun _ _ _ hK h => hfront hK h.2) fun as => ?_
        refine .pure fun more hmore new hnew => ?_
        rw [List.append_nil]
        exact ⟨List.forall_mem_cons.mpr ⟨hnew.1 a rfl, hmore.1⟩, happend hnew.2 hmore.2⟩
  intro c as d hrun hleft
  exact hgo _ hrun hleft

/-- The same if only the answers matter. -/
lemma YieldsBehind.collectAnswers {step : Reader (Option α)} {P : α → Prop}
    (hstep : step.Yields fun answer _ => ∀ a, answer = some a → P a) :
    (Reader.collect step).Yields fun as _ => ∀ a ∈ as, P a := by
  have hall : step.Yields fun answer _ => (∀ a, answer = some a → P a) ∧ True :=
    hstep.mono fun _ _ h => ⟨h, trivial⟩
  exact (YieldsBehind.collect (E := fun _ => True) trivial (fun _ _ => trivial)
    (fun hfront _ hnew => hfront.append hnew) hall).mono fun _ _ h => h.1

instance Tidy.collect (step : Reader (Option α)) [Tidy step] : Tidy (collect step) :=
  (YieldsBehind.collectAnswers (P := fun _ => True)
    (Tidy.yields.mono fun _ _ _ _ _ => trivial)).tidy

instance Tidy.repeatWhile (step : Reader Bool) [Tidy step] : Tidy (repeatWhile step) := by
  unfold Reader.repeatWhile
  infer_instance

instance Tidy.untilEnd (p : Reader α) [Tidy p] : Tidy (untilEnd p) := by
  unfold Reader.untilEnd
  infer_instance

instance : (Terminal.operator ",").IsLeaf := ⟨by decide⟩

instance Tidy.separatedBy (p : Reader α) [Tidy p] : Tidy (separatedBy "," p) := by
  unfold Reader.separatedBy
  infer_instance

lemma YieldsBehind.untilEnd {p : Reader α} {P : α → Prop} (hp : p.Yields fun a _ => P a) :
    (untilEnd p).Yields fun as _ => ∀ a ∈ as, P a := by
  refine .collectAnswers (.seq fun ended => .ite (.pure fun _ => nofun) ?_)
  refine .bind hp fun a => .pure fun _ ha _ => ?_
  rintro _ ⟨⟩
  exact ha

lemma YieldsBehind.separatedBy {p : Reader α} {P : α → Prop} (hp : p.Yields fun a _ => P a) :
    (separatedBy "," p).Yields fun as _ => ∀ a ∈ as, P a := by
  refine .untilEnd (.bind hp fun a => .seq fun _ => .ite ?_ (.pure fun _ _ ha => ha))
  exact .seq fun _ => .pure fun _ _ _ ha => ha

lemma Tidy.forIn_of_mem {σ : Type} {xs : List β} (s : σ) {f : β → σ → Reader (ForInStep σ)}
    (hf : ∀ x ∈ xs, ∀ s, Tidy (f x s)) : Tidy (forIn xs s f) := by
  induction xs generalizing s with
  | nil => exact .pure s
  | cons x xs ih =>
    obtain ⟨hx, hxs⟩ := List.forall_mem_cons.mp hf
    have hfirst := hx s
    rw [List.forIn_cons]
    refine .seq fun r => ?_
    cases r with
    | done s => exact .pure s
    | yield s => exact ih s hxs

instance Tidy.forIn {σ : Type} (xs : List β) (s : σ) (f : β → σ → Reader (ForInStep σ))
    [∀ x s, Tidy (f x s)] : Tidy (forIn xs s f) :=
  forIn_of_mem s fun _ _ _ => inferInstance

end Reader

end UnionView
