import UnionView.Syntax.Fault

/-!
# Readers

A reader takes tokens from the front of some code. It sees tokens only, never their places:
where something stands is remembered as a mark, the number of tokens from there to the end.

While it reads, a reader writes down the tokens in the form in which they are printed again
(`Cursor.written`). Groups are read with `group`: if their content is not read to its end, the
first token left over is kept and reported once the whole code has been read, and only then.
-/

namespace UnionView

/-- A token that was left over at the end of a group. -/
structure Leftover where
  mark : Mark
  inside : Delimiter
deriving DecidableEq, Repr

/-- The same token with more tokens behind the code. -/
def Leftover.shift (behind : Nat) (left : Leftover) : Leftover :=
  { left with mark := left.mark + behind }

/-- The state of a reader. -/
structure Cursor where
  /-- The tokens to be read. -/
  rest : Code
  /-- How many tokens stand behind them in the whole code. -/
  behind : Nat := 0
  /-- The tokens read so far as they are printed, the last one first. -/
  written : Code := []
  /-- The first token that was left over in a group. -/
  leftover : Option Leftover := none
deriving Repr

/-- A function that takes tokens from the front of some code, or finds a fault. -/
abbrev Reader (α : Type) := StateT Cursor (Except Fault) α

namespace Cursor

/-- The place of the next token. -/
def mark (c : Cursor) : Mark :=
  c.rest.length + c.behind

/-- Whether the innermost group is read to its end. -/
def isEnded (c : Cursor) : Bool :=
  match c.rest with
  | [] => true
  | .closing _ :: _ => true
  | _ => false

/-- The code behind the next `n` token trees. -/
def skip (c : Cursor) : Nat → Code
  | 0 => c.rest
  | n + 1 => go n c.rest
where
  /-- Drops one more tree than it is told, but none across the end of a group. -/
  go : Nat → Code → Code
    | _, [] => []
    | _, .closing d :: rest => .closing d :: rest
    | 0, code => code.dropTree
    | n + 1, code => go n code.dropTree

end Cursor

namespace Reader

variable {α β : Type}

/-! ### Looking ahead -/

/-- The place of the next token. -/
def mark : Reader Mark := do
  return (← get).mark

/-- Whether the innermost group is read to its end. -/
def isEnded : Reader Bool := do
  return (← get).isEnded

def peek (terminal : Terminal) : Reader Bool := do
  return terminal.fits (← get).rest

/-- Whether the terminal comes behind the next token tree. -/
def peekSecond (terminal : Terminal) : Reader Bool := do
  return terminal.fits ((← get).skip 1)

/-- Whether the terminal comes behind the next two token trees. -/
def peekThird (terminal : Terminal) : Reader Bool := do
  return terminal.fits ((← get).skip 2)

/-- Whether the keyword comes next. -/
def peekWord (text : String) : Reader Bool := peek (.word text)

def peekOperator (text : String) : Reader Bool := peek (.operator text)

/-- Whether one of the terminals comes next. -/
def peekAny (terminals : List Terminal) : Reader Bool := do
  let rest := (← get).rest
  return terminals.any (·.fits rest)

/-- Whether any identifier, reserved or not, comes next. -/
def peekAnyWord : Reader Bool := do
  match (← get).rest with
  | .ident _ :: _ => return true
  | _ => return false

/-! ### Faults -/

/-- A fault at a place that is known. -/
def failAt (mark : Mark) (cause : Cause) : Reader α :=
  throw { cause, mark }

/-- A fault at the next token. -/
def fail (cause : Cause) : Reader α := do
  let c ← get
  throw { cause, mark := c.mark, ended := c.isEnded }

/-- A fault at the next token: something else was expected. -/
def expected (what : String) : Reader α :=
  fail (.expected [what])

/-- A fault at the next token: none of the terminals comes next. -/
def unexpected (terminals : List Terminal) : Reader α := do
  let rest := (← get).rest
  fail (.expected ((terminals.filter fun t => !t.fits rest).map Terminal.description))

/-! ### Taking tokens -/

/-- Writes down tokens that are printed here. -/
def write (code : Code) : Reader Unit :=
  modify fun c => { c with written := code.reverse ++ c.written }

/-- Takes the terminal, which fits. -/
def advance (terminal : Terminal) : Reader Unit :=
  modify fun c =>
    { c with
      rest := c.rest.drop (terminal.width c.rest)
      written := (terminal.canonical c.rest).reverse ++ c.written }

/-- The fault of a missing identifier: a reserved word in its place is named. -/
def noIdentifier : Reader α := do
  match (← get).rest with
  | .ident found :: _ => fail (.reservedWord found)
  | _ => expected Terminal.identifier.description

/-- Takes the terminal or finds a fault. A missing operator is reported without regard to the end
of the code. -/
def take (terminal : Terminal) : Reader Unit := do
  if ← peek terminal then advance terminal
  else match terminal with
    | .operator _ => failAt (← mark) (.expected [terminal.description])
    | .identifier => noIdentifier
    | _ => expected terminal.description

def word (text : String) : Reader Unit := take (.word text)

def operator (text : String) : Reader Unit := take (.operator text)

/-- Takes the terminal if it comes next, and says whether it did. -/
def accept (terminal : Terminal) : Reader Bool := do
  if ← peek terminal then
    advance terminal
    return true
  else return false

/-- Takes the keyword if it comes next. -/
def acceptWord (text : String) : Reader Bool := accept (.word text)

/-- Takes the operator if it comes next. -/
def acceptOperator (text : String) : Reader Bool := accept (.operator text)

def nameAt : Code → String
  | .ident text :: _ => text
  | _ => ""

/-- Takes an identifier that is no reserved word. -/
def identifier : Reader String := do
  let name := nameAt (← get).rest
  take .identifier
  return name

def anyIdentifier : Reader String := do
  match (← get).rest with
  | .ident text :: _ =>
    advance (.word text)
    return text
  | _ => expected "ident"

def lifetime : Reader Unit := take .lifetime

def literal : Reader Unit := take .literal

/-! ### Trying -/

/-- Reads ahead: the answer is kept, what was read is not. -/
def ahead (p : Reader α) : Reader α := fun c =>
  (p c).map fun r => (r.1, c)

/-- Reads, or leaves everything as it was if there is a fault. -/
def attempt (p : Reader α) : Reader (Option α) := fun c =>
  match p c with
  | .ok (a, c) => .ok (some a, c)
  | .error _ => .ok (none, c)

/-- Reads, and hands over what was to be printed instead of writing it down. -/
def capture (p : Reader α) : Reader (α × Code) := fun c =>
  match p { c with written := [] } with
  | .ok (a, d) => .ok ((a, d.written.reverse), { d with written := c.written })
  | .error fault => .error fault

/-- Reads. If the result is one that is printed as it stands in the source, writes down the
tokens of the source. -/
def verbatimIf (asWritten : α → Bool) (p : Reader α) : Reader α := fun c =>
  match p c with
  | .ok (a, d) =>
    if asWritten a then .ok (a, { d with written := (c.rest.before d.rest).reverse ++ c.written })
    else .ok (a, d)
  | .error fault => .error fault

/-! ### Groups -/

/-- Ends the group that is being read. What is left of its content is remembered. -/
def closeGroup (d : Delimiter) : Reader Unit :=
  modify fun c =>
    let leftover := if c.isEnded then none else some { mark := c.mark, inside := d }
    { c with
      rest := (Code.toClosing 0 c.rest).drop 1
      written := .closing d :: c.written
      leftover := c.leftover.or leftover }

def group (d : Delimiter) (content : Reader α) : Reader α := do
  take (.group d)
  let a ← content
  closeGroup d
  return a

/-- Takes the content of a group as it stands. -/
def rawContent : Reader Code := fun c =>
  let rest := Code.toClosing 0 c.rest
  let inner := c.rest.before rest
  .ok (inner, { c with rest, written := inner.reverse ++ c.written })

/-- A group that was taken as it stands: its kind, its content and where it opens and closes. -/
structure RawGroup where
  delimiter : Delimiter
  openAt : Mark
  inner : Code
  closeAt : Mark
deriving Repr, DecidableEq

/-- Takes a group of any kind as it stands. -/
def rawGroup : Reader RawGroup := do
  let openAt ← mark
  match (← get).rest with
  | .opening delimiter :: _ =>
    take (.group delimiter)
    let inner ← rawContent
    let closeAt ← mark
    closeGroup delimiter
    return { delimiter, openAt, inner, closeAt }
  | _ => expected "delimiter"

/-! ### Reading apart -/

/-- Reads the content of a group that was taken as it stands, apart from everything around the
group. The marks in the answer count from the end of the content until `shift` moves them. -/
def inside (g : RawGroup) (shift : Nat → α → α) (p : Reader α) : Reader α := fun c =>
  match p { rest := g.inner } with
  | .ok (a, d) =>
    let left := if d.isEnded then none else some { mark := d.mark, inside := g.delimiter }
    .ok (shift g.closeAt a,
      { c with leftover := c.leftover.or ((d.leftover.or left).map (Leftover.shift g.closeAt)) })
  | .error fault => .error (fault.shift g.closeAt)

/-- Reads apart from everything that was read before. What was written down and left over before
is kept in front. -/
def afresh (p : Reader α) : Reader α := fun c =>
  match p { rest := c.rest, behind := c.behind } with
  | .ok (a, d) =>
    .ok (a, { d with
      written := d.written ++ c.written
      leftover := c.leftover.or d.leftover })
  | .error fault => .error fault

/-! ### Repetition -/

/-- Runs `step` until it answers `none`. Every step but the last takes a token or more, so the
number of tokens bounds the number of steps. -/
def collect (step : Reader (Option α)) : Reader (List α) := do
  go ((← get).rest.length + 1)
where
  /-- The same with a bound on the number of steps. -/
  go : Nat → Reader (List α)
    | 0 => return []
    | fuel + 1 => do
      match ← step with
      | none => return []
      | some a => return a :: (← go fuel)

/-- Runs `step`, which says whether to go on. -/
def repeatWhile (step : Reader Bool) : Reader Unit := do
  let _ ← collect do
    if ← step then return some () else return none
  return ()

/-- Everything up to the end of the group. -/
def untilEnd (p : Reader α) : Reader (List α) :=
  collect do
    if ← isEnded then return none else return some (← p)

/-- Elements up to the end of the group, with the operator between them and allowed at the end. -/
def separatedBy (separator : String) (p : Reader α) : Reader (List α) :=
  untilEnd do
    let a ← p
    if !(← isEnded) then operator separator
    return a

/-! ### Running -/

/-- Reads all of `code`, which has `behind` more tokens behind it in the whole. Whatever is left,
in a group or at the end, is a fault. -/
def run (p : Reader α) (code : Code) (behind : Nat := 0) : Except Fault α := do
  let (a, c) ← p { rest := code, behind }
  match c.leftover with
  | some left => throw { cause := .leftover left.inside, mark := left.mark }
  | none =>
    if c.rest.isEmpty then return a
    else throw { cause := .leftover none, mark := c.mark }

end Reader

end UnionView
