import UnionView.Proofs.Grammar.Declaration
import UnionView.Union.Extraction

/-!
# The keyword of an item

A message about an item that is no union points at the keyword of the item, which stands behind its
attributes, or, for a few kinds of items, at the place where the item begins, attributes included.
What is read of an item does not depend on what stands in front of it: other attributes and another
beginning are put into the same item (`Read.item_isUniform`). So the place of a keyword is always
the same, and the other places move.
-/

namespace UnionView

/-! ### Keywords -/

/-- The keyword that a message about an item of this kind points at. -/
def NamedKind.keyword : NamedKind → String
  | struct => "struct"
  | union => "union"
  | function => "fn"
  | trait => "trait"
  | traitAlias => "trait"
  | typeAlias => "type"
  | constant => "const"
  | static => "static"
  | externCrate => "crate"

/-- The keyword that a message about an item of this kind points at, if it points at one. -/
def UnnamedKind.keyword? : UnnamedKind → Option String
  | implBlock => some "impl"
  | useDeclaration => some "use"
  | externBlock => none
  | invocation => none

/-- The keyword that a message about the item points at, if it points at one. -/
def Item.keyword? : Item → Option String
  | enumeration _ => some "enum"
  | module _ _ _ _ => some "mod"
  | named kind _ _ _ => some kind.keyword
  | unnamed kind _ _ => kind.keyword?
  | unclassified _ => none

/-- An item that is made of the place where it begins and the attributes in front of it. It is a
union, or the error of it points at a keyword that was found and depends on neither, or it points at
the place where the item begins. -/
inductive Item.IsPlaced (found : String → Mark → Prop) :
    (Mark → List Attribute → Item) → Prop
  | union {build : Mark → List Attribute → Item} (e : Mark → List Attribute → Enumeration)
      (item : ∀ start attributes, build start attributes = .enumeration (e start attributes)) :
      IsPlaced found build
  | keyword {build : Mark → List Attribute → Item} {text : String} {e : NotAUnion}
      (known : found text e.mark)
      (item : ∀ start attributes, (build start attributes).keyword? = some text)
      (error : ∀ start attributes, (build start attributes).extract = .error e) :
      IsPlaced found build
  | beginning {build : Mark → List Attribute → Item} (kind : String)
      (item : ∀ start attributes, (build start attributes).keyword? = none)
      (error : ∀ start attributes,
        (build start attributes).extract = .error (.unnamed kind start)) :
      IsPlaced found build

namespace Item.IsPlaced

variable {found found' : String → Mark → Prop} {place : Mark}
  {own : List Attribute → List Attribute} {build : Mark → List Attribute → Item}

lemma mono (h : IsPlaced found build)
    (hfound : ∀ text place, found text place → found' text place) : IsPlaced found' build := by
  cases h with
  | union e item => exact .union e item
  | keyword known item error => exact .keyword (hfound _ _ known) item error
  | beginning kind item error => exact .beginning kind item error

lemma module {name : String} {contents : Option (List Item)} (known : found "mod" place) :
    IsPlaced found fun _ attributes => .module (own attributes) place name contents :=
  .keyword (e := .named "module" name place) known (fun _ _ => rfl) (fun _ _ => rfl)

lemma named {kind : NamedKind} {name : String} (known : found kind.keyword place) :
    IsPlaced found fun _ attributes => .named kind (own attributes) place name :=
  .keyword (e := .named kind.text name place) known (fun _ _ => rfl) (fun _ _ => rfl)

lemma implBlock (known : found "impl" place) :
    IsPlaced found fun _ attributes => .unnamed .implBlock (own attributes) place :=
  .keyword (e := .unnamed UnnamedKind.implBlock.text place) known (fun _ _ => rfl)
    (fun _ _ => rfl)

lemma useDeclaration (known : found "use" place) :
    IsPlaced found fun _ attributes => .unnamed .useDeclaration (own attributes) place :=
  .keyword (e := .unnamed UnnamedKind.useDeclaration.text place) known (fun _ _ => rfl)
    (fun _ _ => rfl)

lemma externBlock :
    IsPlaced found fun start attributes => .unnamed .externBlock (own attributes) start :=
  .beginning UnnamedKind.externBlock.text (fun _ _ => rfl) (fun _ _ => rfl)

lemma invocation :
    IsPlaced found fun start attributes => .unnamed .invocation (own attributes) start :=
  .beginning UnnamedKind.invocation.text (fun _ _ => rfl) (fun _ _ => rfl)

lemma unclassified : IsPlaced found fun start _ => .unclassified start :=
  .beginning "item" (fun _ _ => rfl) (fun _ _ => rfl)

lemma ite {b : Bool} {build' : Mark → List Attribute → Item} (h : IsPlaced found build)
    (h' : IsPlaced found build') :
    IsPlaced found fun start attributes =>
      if b then build start attributes else build' start attributes := by
  cases b with
  | false => exact h'
  | true => exact h

end Item.IsPlaced

/-! ### Words that are to be read -/

/-- The word stands somewhere in the code that is to be read, and the mark points at it. -/
def Cursor.HasWord (c : Cursor) (text : String) (place : Mark) : Prop :=
  ∃ behind, Token.ident text :: behind <:+ c.rest ∧ place = behind.length + 1 + c.behind

namespace Reader

variable {α β : Type}

lemma Forward.hasWord {p : Reader α} (hp : p.Forward) {c d : Cursor} {a : α}
    (h : p c = .ok (a, d)) {text : String} {place : Mark} (hword : d.HasWord text place) :
    c.HasWord text place := by
  obtain ⟨hrest, hbehind⟩ := hp h
  obtain ⟨behind, hsuffix, hplace⟩ := hword
  exact ⟨behind, hsuffix.trans hrest, hbehind ▸ hplace⟩

/-- Where a word is taken it stands. -/
lemma hasWord_of_word {text : String} {c d : Cursor} (h : word text c = .ok ((), d)) :
    c.HasWord text c.mark := by
  have hrest := word_eq_ok h
  refine ⟨d.rest, ?_, ?_⟩
  · exact ⟨[], hrest.symm⟩
  · rw [Cursor.mark, hrest, List.length_cons]

/-- The answer of the reader holds the place of a word that it takes. -/
def Points (text : String) (place : α → Mark) (p : Reader α) : Prop :=
  ∀ ⦃c a d⦄, p c = .ok (a, d) → c.HasWord text (place a)

lemma Points.bind {text : String} {place : α → Mark} {q : Reader β} {f : β → Reader α}
    (hq : q.Forward) (hf : ∀ b, Points text place (f b)) : Points text place (q >>= f) := by
  intro c a d h
  obtain ⟨b, c', hfirst, hsecond⟩ := bind_eq_ok.mp h
  exact hq.hasWord hfirst (hf b hsecond)

lemma Points.marked {text : String} {place : α → Mark} {f : Mark → Unit → Reader α}
    (hf : ∀ start u, (f start u).Answers fun a => place a = start) :
    Points text place (mark >>= fun start => word text >>= f start) := by
  intro c a d h
  obtain ⟨_, _, ⟨⟩, h⟩ := bind_eq_ok.mp h
  obtain ⟨_, c', hword, h⟩ := bind_eq_ok.mp h
  rw [hf _ _ h]
  exact hasWord_of_word hword

/-! ### Readers that do not look at what stands in front -/

/-- On the cursor, the readers for all beginnings and all attributes in front take the same tokens,
and what they answer is placed. -/
def UniformOn (c : Cursor) (found : String → Mark → Prop)
    (p : Mark → List Attribute → Reader Item) : Prop :=
  ∀ ⦃start attributes item d⦄, p start attributes c = .ok (item, d) →
    ∃ build, (∀ start' attributes', p start' attributes' c = .ok (build start' attributes', d)) ∧
      Item.IsPlaced found build

/-- The readers are uniform once the keyword was found. -/
def Uniform (found : String → Mark → Prop) (p : Mark → List Attribute → Reader Item) : Prop :=
  ∀ c, UniformOn c found p

/-- The readers are uniform, and find the keyword in the code that they read. -/
def IsUniform (p : Mark → List Attribute → Reader Item) : Prop :=
  ∀ c, UniformOn c c.HasWord p

/-- What comes first does not look at what stands in front of the item. -/
lemma UniformOn.bind {c : Cursor} {found : String → Mark → Prop} {r : Reader β}
    {f : Mark → List Attribute → β → Reader Item}
    (hf : ∀ b c', r c = .ok (b, c') →
      UniformOn c' found fun start attributes => f start attributes b) :
    UniformOn c found fun start attributes => r >>= f start attributes := by
  intro start attributes item d h
  obtain ⟨b, c', hfirst, hsecond⟩ := bind_eq_ok.mp h
  obtain ⟨build, hbuild, hplaced⟩ := hf b c' hfirst hsecond
  refine ⟨build, ?_, hplaced⟩
  intro start' attributes'
  exact (bind_of_ok hfirst _).trans (hbuild start' attributes')

lemma UniformOn.mono {c : Cursor} {found found' : String → Mark → Prop}
    {p : Mark → List Attribute → Reader Item} (h : UniformOn c found p)
    (hfound : ∀ text place, found text place → found' text place) : UniformOn c found' p := by
  intro start attributes item d hrun
  obtain ⟨build, hbuild, hplaced⟩ := h hrun
  exact ⟨build, hbuild, hplaced.mono hfound⟩

namespace Uniform

variable {found : String → Mark → Prop} {p q : Mark → List Attribute → Reader Item}

lemma pure {build : Mark → List Attribute → Item} (h : Item.IsPlaced found build) :
    Uniform found fun start attributes => pure (build start attributes) := by
  rintro c start attributes _ d ⟨⟩
  exact ⟨build, fun _ _ => rfl, h⟩

lemma bind {r : Reader β} {f : Mark → List Attribute → β → Reader Item}
    (hf : ∀ b, Uniform found fun start attributes => f start attributes b) :
    Uniform found fun start attributes => r >>= f start attributes :=
  fun _ => .bind fun b c' _ => hf b c'

lemma ite {b : Bool} (hp : Uniform found p) (hq : Uniform found q) :
    Uniform found fun start attributes =>
      if b then p start attributes else q start attributes := by
  cases b with
  | false => exact hq
  | true => exact hp

/-- Whichever of two readers comes first, the same is read behind it. -/
lemma bind_either {b : Bool} {r r' : Reader β} {f : Mark → List Attribute → β → Reader Item}
    (hf : ∀ x, Uniform found fun start attributes => f start attributes x) :
    Uniform found fun start attributes =>
      if b then r >>= f start attributes else r' >>= f start attributes :=
  ite (bind hf) (bind hf)

/-- What is read only under a condition does not change what follows it. -/
lemma optional {b : Bool} (hq : Uniform found q) (hp : Uniform found q → Uniform found p) :
    Uniform found fun start attributes =>
      if b then p start attributes else q start attributes :=
  ite (hp hq) hq

lemma of_failing (h : ∀ start attributes c r, p start attributes c ≠ .ok r) :
    Uniform found p := fun c start attributes _ _ hrun => absurd hrun (h start attributes c _)

lemma unexpected (ts : List Terminal) : Uniform found fun _ _ => unexpected ts :=
  of_failing fun _ _ => unexpected_ne_ok ts

lemma failAt (place : Mark) (cause : Cause) : Uniform found fun _ _ => failAt place cause :=
  of_failing fun _ _ => failAt_ne_ok place cause

end Uniform

namespace IsUniform

variable {p q : Mark → List Attribute → Reader Item}

lemma of_uniform (h : ∀ found, Uniform found p) : IsUniform p :=
  fun c => h c.HasWord c

lemma bind {r : Reader β} {f : Mark → List Attribute → β → Reader Item} (hr : r.Forward)
    (hf : ∀ b, IsUniform fun start attributes => f start attributes b) :
    IsUniform fun start attributes => r >>= f start attributes :=
  fun _ => .bind fun b c' hfirst => (hf b c').mono fun _ _ => hr.hasWord hfirst

lemma look {r : Reader β} {f : Mark → List Attribute → β → Reader Item} (hr : r.Looks)
    (hf : ∀ b, IsUniform fun start attributes => f start attributes b) :
    IsUniform fun start attributes => r >>= f start attributes :=
  bind (.of_looks hr) hf

/-- The keyword is taken first, and its place is kept. -/
lemma marked {text : String} {f : Mark → List Attribute → Mark → Unit → Reader Item}
    (hf : ∀ (found : String → Mark → Prop) place u, found text place →
      Uniform found fun start attributes => f start attributes place u) :
    IsUniform fun start attributes =>
      mark >>= fun place => word text >>= f start attributes place := by
  intro c
  apply UniformOn.bind
  rintro _ _ ⟨⟩
  apply UniformOn.bind
  intro u c' hword
  exact hf c.HasWord c.mark u (hasWord_of_word hword) c'

/-- The keyword is taken by a reader that hands over its place. -/
lemma bind_points {r : Reader β} {text : String} {place : β → Mark} (hr : r.Points text place)
    {f : Mark → List Attribute → β → Reader Item}
    (hf : ∀ (found : String → Mark → Prop) b, found text (place b) →
      Uniform found fun start attributes => f start attributes b) :
    IsUniform fun start attributes => r >>= f start attributes :=
  fun c => .bind fun b c' hfirst => hf c.HasWord b (hr hfirst) c'

lemma ite {b : Bool} (hp : IsUniform p) (hq : IsUniform q) :
    IsUniform fun start attributes => if b then p start attributes else q start attributes := by
  cases b with
  | false => exact hq
  | true => exact hp

end IsUniform

end Reader

namespace Read

open Reader

variable (g : Grammar)

/-! ### Structs, unions and small items -/

lemma struct_isUniform : IsUniform fun _ attributes => struct g attributes := by
  apply IsUniform.marked
  intro found place _ known
  exact .bind fun _ => .bind fun _ => .bind fun _ => .pure (.named known)

lemma union_isUniform : IsUniform fun _ attributes => union g attributes := by
  apply IsUniform.marked
  intro found place _ known
  exact .bind fun _ => .bind fun _ => .bind fun _ => .bind fun _ => .pure (.named known)

lemma useDeclaration_isUniform : IsUniform (useDeclaration g) := by
  apply IsUniform.marked
  intro found place _ known
  refine .bind fun _ => .bind fun _ => .bind fun _ => .pure ?_
  exact .ite (.useDeclaration known) .unclassified

lemma staticItem_isUniform : IsUniform (staticItem g) := by
  apply IsUniform.marked
  intro found place _ known
  refine .bind fun _ => .bind fun _ => .bind fun _ => .ite ?_ ?_
  · exact .bind fun _ => .bind fun _ => .pure .unclassified
  · exact .bind fun _ => .bind fun _ => .bind fun _ => .ite (.pure .unclassified)
      (.bind fun _ => .bind fun _ => .bind fun _ => .pure (.named known))

lemma constant_isUniform : IsUniform (constant g) := by
  apply IsUniform.marked
  intro found place _ known
  exact .bind fun _ => .pure (.ite (.named known) .unclassified)

lemma typeAlias_points : (typeAlias g .beforeDefinition).Points "type" TypeAlias.mark := by
  apply Points.marked
  intro place _
  refine .bind fun _ => .bind fun _ => .bind fun bounded => ?_
  -- behind every optional part the reader goes on with a part of its own
  extract_lets behindEarly behindBounds
  have hearly : ∀ early, (behindEarly early).Answers fun declared => declared.mark = place := by
    intro early
    refine .bind fun defined => ?_
    extract_lets behindPredicates behindType
    have hpredicates : ∀ u, (behindPredicates u).Answers fun declared => declared.mark = place :=
      fun _ => .bind fun _ => .pure rfl
    have htype : ∀ u, (behindType u).Answers fun declared => declared.mark = place := fun _ =>
      .ite (.bind fun _ => hpredicates ()) (hpredicates ())
    exact .ite (.bind fun _ => htype ()) (htype ())
  have hbounds : ∀ u, (behindBounds u).Answers fun declared => declared.mark = place := fun _ =>
    .ite (.bind hearly) (.bind hearly)
  exact .ite (.bind hbounds) (hbounds ())

lemma typeItem_isUniform : IsUniform (typeItem g) := by
  apply IsUniform.bind_points (typeAlias_points g)
  intro found declared known
  exact .ite (.pure (.named known)) (.pure .unclassified)

lemma externCrate_isUniform : IsUniform fun _ attributes => externCrate attributes := by
  apply IsUniform.bind (.take _)
  intro _
  apply IsUniform.marked
  intro found place _ known
  refine .bind fun _ => .bind_either fun _ => .bind fun _ => .optional ?_ fun h => ?_
  · exact .bind fun _ => .pure (.named known)
  · exact .bind fun _ => .ite (.bind fun _ => h) (.bind fun _ => h)

lemma convention_forward : convention.Forward :=
  .bind (.accept _) fun _ => .ite (.bind (.accept _) fun _ => .pure _) (.pure _)

lemma signature_points : (signature g false).Points "fn" Prod.fst := by
  apply Points.bind (.accept _)
  intro _
  apply Points.bind (.accept _)
  intro _
  apply Points.bind (.accept _)
  intro _
  extract_lets behindModifiers
  have hmodifiers : ∀ u, (behindModifiers u).Points "fn" Prod.fst := by
    intro u
    apply Points.bind convention_forward
    intro _
    apply Points.marked
    intro place _
    exact .bind fun _ => .bind fun _ => .bind fun _ => .bind fun _ => .bind fun _ => .pure rfl
  split
  · exact .bind (.accept _) fun _ => hmodifiers ()
  · exact hmodifiers ()

lemma function_isUniform : IsUniform (function g) := by
  apply IsUniform.bind_points (signature_points g)
  intro found declared known
  refine .bind fun _ => .ite (.pure .unclassified) (.bind fun inner => ?_)
  exact .pure (.named known)

lemma module_isUniform : IsUniform fun _ attributes => module g attributes := by
  apply IsUniform.bind (.accept _)
  intro _
  apply IsUniform.marked
  intro found place _ known
  refine .bind fun _ => .bind_either fun _ => .bind fun _ => .ite (.pure (.module known)) ?_
  refine .bind fun _ => .ite (.bind fun inner => ?_) (.unexpected _)
  exact .pure (.module known)

lemma definition_isUniform : IsUniform fun start _ => definition start := by
  apply IsUniform.of_uniform
  intro found
  refine .bind fun _ => .bind fun _ => .bind fun _ => .optional ?_ fun h => .bind fun _ => h
  exact .bind fun _ => .ite (.bind fun _ => .pure .unclassified)
    (.ite (.unexpected _) (.unexpected _))

/-! ### Traits and implementations -/

lemma traitRest_uniform {found : String → Mark → Prop} {place : Mark} (name : String)
    (known : found "trait" place) :
    Uniform found fun _ attributes => traitRest g attributes place name := by
  refine .bind fun _ => .optional ?_ fun h => .bind fun _ => h
  refine .bind fun _ => .bind fun inner => ?_
  exact .pure (.named known)

lemma modifiedTrait_isUniform : IsUniform fun _ attributes => modifiedTrait g attributes := by
  apply IsUniform.bind (.accept _)
  intro _
  apply IsUniform.bind (.accept _)
  intro _
  apply IsUniform.marked
  intro found place _ known
  exact .bind fun name => .bind fun _ => traitRest_uniform g name known

lemma trait_isUniform : IsUniform fun _ attributes => trait g attributes := by
  apply IsUniform.marked
  intro found place _ known
  refine .bind fun name => .bind fun _ => .bind fun _ => ?_
  refine .ite (traitRest_uniform g name known) (.bind fun _ => .ite ?_ (.unexpected _))
  exact .bind fun _ => .bind fun _ => .bind fun _ => .pure (.named known)

lemma implementation_isUniform (visible : Bool) :
    IsUniform fun start attributes => implementation g start attributes visible := by
  apply IsUniform.bind (.accept _)
  intro _
  apply IsUniform.bind (.accept _)
  intro _
  apply IsUniform.marked
  intro found place _ known
  refine .bind fun _ => .optional ?_ fun h => .bind fun _ => h
  refine .bind fun _ => .bind fun _ => .bind fun _ => .optional ?_
    fun h => .bind fun _ => .bind fun _ => h
  refine .bind fun _ => .bind fun _ => .bind fun _ => .bind_either fun negative => ?_
  refine .bind fun _ => .bind fun forType => ?_
  refine .ite (.bind fun _ => ?_) (.optional ?_ fun h => .bind fun _ => h)
  all_goals
    refine .bind fun _ => .bind fun inner => .pure (.ite .unclassified ?_)
    exact .implBlock known

/-! ### Foreign declarations -/

lemma externBlock_isUniform : IsUniform (externBlock g) := by
  apply IsUniform.of_uniform
  intro found
  refine .bind fun _ => .bind fun _ => .optional ?_ fun h => .bind fun _ => h
  refine .bind fun _ => .bind fun inner => ?_
  exact .pure .externBlock

lemma externItem_isUniform (visible : Option Mark) :
    IsUniform fun start attributes => externItem g start attributes visible := by
  apply IsUniform.look (looks_ahead _)
  intro second
  cases second with
  | none =>
    exact .of_uniform fun _ => .bind fun _ => .bind fun _ => .ite (.unexpected _) (.unexpected _)
  | some crate =>
    cases crate with
    | true => exact externCrate_isUniform
    | false =>
      cases visible with
      | some place => exact .of_uniform fun _ => .failAt _ _
      | none => exact externBlock_isUniform g

/-! ### All items -/

lemma enumeration_isUniform (written : Code) :
    IsUniform fun _ attributes => enumeration g attributes written := by
  apply IsUniform.of_uniform
  intro found
  refine .bind fun _ => .bind fun _ => .bind fun _ => .bind fun _ => .bind fun _ => .bind fun _ =>
    .bind fun _ => .pure ?_
  exact .union _ fun _ _ => rfl

lemma unsafeItem_isUniform (visible : Option Mark) :
    IsUniform fun start attributes => unsafeItem g start attributes visible := by
  refine .look (looks_peekSecond _) fun _ => .look (looks_peekSecond _) fun _ =>
    .look (looks_peekThird _) fun _ => .ite (modifiedTrait_isUniform g) ?_
  refine .look (looks_peekSecond _) fun _ => .ite (implementation_isUniform g _) ?_
  refine .look (looks_peekSecond _) fun _ => .ite ?_ ?_
  · cases visible with
    | some place => exact .of_uniform fun _ => .failAt _ _
    | none => exact externBlock_isUniform g
  · refine .look (looks_peekSecond _) fun _ => .ite (module_isUniform g) ?_
    exact .of_uniform fun _ => .bind fun _ => .unexpected _

/-- An item does not look at what stands in front of it. -/
lemma item_isUniform : IsUniform (item g) := by
  have hpeek (text : String) : (peekWord text).Looks := looks_peek _
  refine .look looks_mark fun place => .bind forward_visibility fun written => ?_
  refine .look (looks_startsSignature _) fun _ => .ite (function_isUniform g) ?_
  refine .look (hpeek _) fun _ => .ite (externItem_isUniform g _) ?_
  refine .look (hpeek _) fun _ => .ite (useDeclaration_isUniform g) ?_
  refine .look (hpeek _) fun _ => .ite (staticItem_isUniform g) ?_
  refine .look (hpeek _) fun _ => .ite (constant_isUniform g) ?_
  refine .look (hpeek _) fun _ => .ite (unsafeItem_isUniform g _) ?_
  refine .look (hpeek _) fun _ => .ite (module_isUniform g) ?_
  refine .look (hpeek _) fun _ => .ite (typeItem_isUniform g) ?_
  refine .look (hpeek _) fun _ => .ite (struct_isUniform g) ?_
  refine .look (hpeek _) fun _ => .ite (enumeration_isUniform g written) ?_
  refine .look (hpeek _) fun _ => .look (looks_peekSecond _) fun _ => .ite (union_isUniform g) ?_
  refine .look (hpeek _) fun _ => .ite (trait_isUniform g) ?_
  refine .look (hpeek _) fun _ => .look (looks_peekSecond _) fun _ =>
    .ite (modifiedTrait_isUniform g) ?_
  refine .look (hpeek _) fun _ => .look (hpeek _) fun _ => .look (looks_peekSecond _) fun _ =>
    .ite (implementation_isUniform g _) ?_
  refine .look (hpeek _) fun _ => .ite definition_isUniform ?_
  refine .look (looks_peekAny _) fun _ => .ite ?_ (.of_uniform fun _ => .unexpected _)
  exact .of_uniform fun _ => .bind fun _ => .pure (.invocation)

end Read

end UnionView
