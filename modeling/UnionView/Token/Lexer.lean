import UnionView.Text.Quoted
import UnionView.Token.Basic
import UnionView.Token.Literal

/-!
# Reading tokens

`Listing.ofText` splits a text into placed tokens and checks that its brackets match. Blanks and
ordinary comments vanish; a documentation comment becomes the attribute that it stands for. What
cannot be read is reported by its position alone: the token that is none, the closing bracket
that matches nothing or the wrong opener, or the innermost opener that is never closed.
-/

namespace UnionView.Lexer

open Text

/-- The characters of `cs` in front of its end `rest`. -/
def taken (cs rest : List Char) : List Char :=
  cs.take (cs.length - rest.length)

/-! ### Blanks and comments -/

/-- Behind a block comment, `depth` comments deep. Comments nest. -/
def commentRest (depth : Nat) : List Char → Option (List Char)
  | '/' :: '*' :: rest => commentRest (depth + 1) rest
  | '*' :: '/' :: rest =>
    match depth with
    | 0 => some rest
    | depth + 1 => commentRest depth rest
  | _ :: rest => commentRest depth rest
  | [] => none

/-- Behind the line at the front, up to its line feed. -/
def lineRest (cs : List Char) : List Char :=
  cs.dropWhile (· ≠ '\n')

/-- Behind the ordinary comment at the front of a text, if one stands there. -/
def ordinaryComment? : List Char → Option (List Char)
  | '/' :: '/' :: '/' :: '/' :: rest => some (lineRest rest)
  | '/' :: '/' :: '/' :: _ => none
  | '/' :: '/' :: '!' :: _ => none
  | '/' :: '/' :: rest => some (lineRest rest)
  | '/' :: '*' :: '*' :: '/' :: rest => some rest
  | '/' :: '*' :: '*' :: '*' :: rest => commentRest 0 ('*' :: '*' :: rest)
  | '/' :: '*' :: '*' :: _ => none
  | '/' :: '*' :: '!' :: _ => none
  | '/' :: '*' :: rest => commentRest 0 rest
  | _ => none

/-- What is left behind blanks and ordinary comments. Each step takes a character or more. -/
def skipBlanks : Nat → List Char → List Char
  | 0, cs => cs
  | _ + 1, [] => []
  | fuel + 1, c :: rest =>
    match ordinaryComment? (c :: rest) with
    | some rest => skipBlanks fuel rest
    | none => if isBlank c then skipBlanks fuel rest else c :: rest

/-- What is left of a text behind blanks and ordinary comments. -/
def afterBlanks (cs : List Char) : List Char :=
  skipBlanks cs.length cs

/-! ### Documentation comments -/

/-- A documentation comment: whether it documents what is around it, its text, and what is left
behind it. -/
structure Documentation where
  inner : Bool
  text : List Char
  rest : List Char

/-- The text of a line comment: without its line break. -/
def lineText (cs : List Char) : List Char :=
  let line := cs.takeWhile (· ≠ '\n')
  if (lineRest cs).isEmpty then line
  else match line.reverse with
    | '\r' :: reversed => reversed.reverse
    | _ => line

/-- The documentation comment that has the given characters behind its opening mark. -/
def documentationLine (inner : Bool) (cs : List Char) : Documentation :=
  { inner, text := lineText cs, rest := lineRest cs }

/-- The same for a comment that ends at its closing mark. -/
def documentationBlock? (inner : Bool) (cs : List Char) : Option Documentation :=
  (commentRest 0 cs).map fun rest =>
    let body := taken cs rest
    { inner, text := body.take (body.length - 2), rest }

/-- A carriage return without a line feed may not stand in a documentation comment. -/
def hasBareReturn : List Char → Bool
  | '\r' :: '\n' :: rest => hasBareReturn rest
  | '\r' :: _ => true
  | _ :: rest => hasBareReturn rest
  | [] => false

/-- The documentation comment at the front of a text, if one stands there. -/
def documentation? (cs : List Char) : Option Documentation :=
  let comment :=
    match cs with
    | '/' :: '/' :: '!' :: rest => some (documentationLine true rest)
    | '/' :: '*' :: '!' :: rest => documentationBlock? true rest
    | '/' :: '/' :: '/' :: '/' :: _ => none
    | '/' :: '/' :: '/' :: rest => some (documentationLine false rest)
    | '/' :: '*' :: '*' :: '*' :: _ => none
    | '/' :: '*' :: '*' :: rest => documentationBlock? false rest
    | _ => none
  comment.filter fun c => !hasBareReturn c.text

/-- The attribute that a documentation comment stands for. -/
def Documentation.code (d : Documentation) : Code :=
  .punct '#' .alone :: (if d.inner then [.punct '!' .alone] else []) ++
    groupCode .square [.ident "doc", .punct '=' .alone, .literal (quoteLiteral d.text)]

/-! ### Single tokens -/

/-- Behind the plain identifier at the front of a text. -/
def wordRest? : List Char → Option (List Char)
  | [] => none
  | c :: rest => if isIdentStart c then some (Literal.identTail rest) else none

/-- The names that have no raw spelling. -/
def unrawable : List String :=
  ["_", "super", "self", "Self", "crate"]

/-- Behind the identifier at the front of a text, plain or raw. -/
def identRest? : List Char → Option (List Char)
  | 'r' :: '#' :: cs =>
    (wordRest? cs).filter fun rest => !unrawable.contains (String.ofList (taken cs rest))
  | cs => wordRest? cs

/-- Beginnings of literals. Text that begins so is no identifier, even if no literal follows. -/
def literalStarts : List String :=
  ["r\"", "r#\"", "r##", "b\"", "b'", "br\"", "br#", "c\"", "cr\"", "cr#"]

/-- Whether a punctuation character stands at the front. The start of a comment is none. -/
def startsPunctuation : List Char → Bool
  | '/' :: '/' :: _ => false
  | '/' :: '*' :: _ => false
  | c :: _ => isPunctuation c
  | [] => false

/-- The quote of a lifetime is followed by an identifier that no second quote follows. -/
def startsLifetime (cs : List Char) : Bool :=
  match identRest? cs with
  | none => false
  | some ('\'' :: _) => false
  | some ('#' :: _) => ['r', '#'].isPrefixOf cs
  | some _ => true

/-- A literal that other tools leave in place of something they could not print. -/
def errorLiteral : String :=
  "(/*ERROR*/)"

/-- The token at the front of a text, brackets apart, and what is left behind it. A punctuation
character is joint if another one follows; the quote of a lifetime always is. -/
def leaf? (cs : List Char) : Option (Token × List Char) :=
  match Literal.rest? cs with
  | some rest => some (.literal (String.ofList (taken cs rest)), rest)
  | none =>
    if startsPunctuation cs then
      match cs with
      | '\'' :: rest => if startsLifetime rest then some (.punct '\'' .joint, rest) else none
      | c :: rest => some (.punct c (if startsPunctuation rest then .joint else .alone), rest)
      | [] => none
    else if literalStarts.any fun start => start.toList.isPrefixOf cs then none
    else (identRest? cs).map fun rest => (.ident (String.ofList (taken cs rest)), rest)

/-! ### Whole texts -/

/-- Places tokens that all come from one point of the text. -/
def placeAll (p : Position) (code : Code) : Listing :=
  code.map fun token => { token, place := p }

/-- Reads `cs`, which starts at position `p` inside the groups `opened`, innermost first. Each
step takes a character or more. -/
def scan : Nat → List (Delimiter × Position) → Position → List Char → Except Position Listing
  | 0, _, p, _ => .error p
  | fuel + 1, opened, p, cs =>
    let front := afterBlanks cs
    let p := p.advance (taken cs front)
    match documentation? front with
    | some doc => do
      let more ← scan fuel opened (p.advance (taken front doc.rest)) doc.rest
      return placeAll p doc.code ++ more
    | none =>
      match front with
      | [] =>
        match opened with
        | [] => .ok []
        | (_, place) :: _ => .error place
      | c :: rest =>
        if errorLiteral.toList.isPrefixOf front then do
          let rest := front.drop errorLiteral.length
          let more ← scan fuel opened (p.advance errorLiteral.toList) rest
          return { token := .literal errorLiteral, place := p } :: more
        else match Delimiter.ofOpener? c, Delimiter.ofCloser? c with
          | some d, _ => do
            let more ← scan fuel ((d, p) :: opened) (p.step c) rest
            return { token := .opening d, place := p } :: more
          | none, some d =>
            match opened with
            | [] => .error p
            | (opener, _) :: outer =>
              if opener = d then do
                let more ← scan fuel outer (p.step c) rest
                return { token := .closing d, place := p } :: more
              else .error p
          | none, none =>
            match leaf? front with
            | none => .error p
            | some (token, rest) => do
              let more ← scan fuel opened (p.advance (taken front rest)) rest
              return { token, place := p } :: more

end UnionView.Lexer

namespace UnionView

/-- The mark that some editors write at the very start of a text. -/
def byteOrderMark : Char := '\uFEFF'

/-- The placed tokens of a text, or the position of what cannot be read. A byte order mark in
front is skipped, but takes up a column. -/
def Listing.ofText (text : String) : Except Position Listing :=
  match text.toList with
  | [] => .ok []
  | c :: rest =>
    if c = byteOrderMark then Lexer.scan (rest.length + 1) [] (Position.start.step c) rest
    else Lexer.scan (rest.length + 2) [] Position.start (c :: rest)

end UnionView
