import UnionView.Text.CharClass

/-!
# Literals

Where a literal at the front of a text ends. Every function here takes the characters from some
point of a literal on and answers what is left behind it, or `none` when the characters do not
form a literal.

A quotation is one of three kinds: text, bytes (ASCII, no `\u`) or a text that is ended by NUL
and therefore cannot hold one. Each has a plain form with escapes and a raw form between `#`s.
-/

namespace UnionView.Literal

open Text

/-- What stands between the quotes. -/
inductive Kind
  | text
  | bytes
  | terminated
deriving DecidableEq, Repr

/-- Whether a quotation of this kind may hold the character as it is. -/
def Kind.allows (kind : Kind) (c : Char) : Bool :=
  match kind with
  | .text => true
  | .bytes => c.toNat < 128
  | .terminated => c ≠ '\x00'

/-- Whether two hexadecimal digits behind `\x` name a value of this kind. -/
def Kind.allowsHex (kind : Kind) (high low : Char) : Bool :=
  match kind with
  | .text => '0' ≤ high && high ≤ '7' && isHexDigit low
  | .bytes => isHexDigit high && isHexDigit low
  | .terminated => isHexDigit high && isHexDigit low && !(high = '0' && low = '0')

/-- Behind the brace of `\u`: one to six digits, with underscores between, and a brace. -/
def unicodeRest (value digits : Nat) : List Char → Option (Nat × List Char)
  | [] => none
  | c :: rest =>
    match hexValue? c with
    | some d => if digits = 6 then none else unicodeRest (value * 16 + d) (digits + 1) rest
    | none =>
      if digits = 0 then none
      else if c = '_' then unicodeRest value digits rest
      else if c = '}' && (value < 0xD800 || (0xE000 ≤ value && value ≤ 0x10FFFF)) then
        some (value, rest)
      else none

/-- Behind the backslash of an escape that stands for one value. -/
def escapeRest (kind : Kind) : List Char → Option (List Char)
  | 'x' :: high :: low :: rest => if kind.allowsHex high low then some rest else none
  | 'u' :: '{' :: rest =>
    if kind = .bytes then none
    else match unicodeRest 0 0 rest with
      | some (value, rest) => if kind = .terminated && value = 0 then none else some rest
      | none => none
  | '0' :: rest => if kind = .terminated then none else some rest
  | c :: rest => if ['n', 'r', 't', '\\', '\'', '"'].contains c then some rest else none
  | [] => none

/-- Behind a line break that a backslash removes: the blanks of the next lines go too. A carriage
return, which `afterReturn` says was just seen, must be followed by a line feed. -/
def continuationRest (afterReturn : Bool) : List Char → Option (List Char)
  | [] => none
  | c :: rest =>
    if afterReturn then if c = '\n' then continuationRest false rest else none
    else if c = '\r' then continuationRest true rest
    else if c = ' ' || c = '\t' || c = '\n' then continuationRest false rest
    else some (c :: rest)

/-- Behind the opening quote of a plain quotation. Each step takes a character or more. -/
def quotedRest (kind : Kind) : Nat → List Char → Option (List Char)
  | 0, _ => none
  | _ + 1, [] => none
  | fuel + 1, c :: rest =>
    if c = '"' then some rest
    else if c = '\r' then
      match rest with
      | '\n' :: rest => quotedRest kind fuel rest
      | _ => none
    else if c = '\\' then
      match rest with
      | '\n' :: rest => (continuationRest false rest).bind (quotedRest kind fuel)
      | '\r' :: rest => (continuationRest true rest).bind (quotedRest kind fuel)
      | _ => (escapeRest kind rest).bind (quotedRest kind fuel)
    else if kind.allows c then quotedRest kind fuel rest
    else none

/-- Behind the opening quote of a raw quotation, which ends at a quote and as many `#`. -/
def rawRest (kind : Kind) (hashes : Nat) : List Char → Option (List Char)
  | [] => none
  | '"' :: rest =>
    if rest.take hashes = List.replicate hashes '#' then some (rest.drop hashes)
    else rawRest kind hashes rest
  | '\r' :: '\n' :: rest => rawRest kind hashes rest
  | '\r' :: _ => none
  | c :: rest => if kind.allows c then rawRest kind hashes rest else none

/-- What is left behind the characters that go on an identifier. -/
def identTail (cs : List Char) : List Char :=
  cs.dropWhile isIdentContinue

/-- A literal may be followed directly by an identifier, its suffix. -/
def suffixRest : List Char → List Char
  | [] => []
  | c :: rest => if isIdentStart c then identTail rest else c :: rest

/-- Behind the `r` of a raw quotation: `#`s, a quote, and the quotation. -/
def rawOpened (kind : Kind) (cs : List Char) : Option (List Char) :=
  let hashes := (cs.takeWhile (· == '#')).length
  match cs.drop hashes with
  | '"' :: rest => if hashes ≤ 255 then (rawRest kind hashes rest).map suffixRest else none
  | _ => none

/-- Behind the opening quote of a plain quotation, with the suffix. -/
def quotedOpened (kind : Kind) (cs : List Char) : Option (List Char) :=
  (quotedRest kind (cs.length + 1) cs).map suffixRest

/-- Behind the opening single quote: one value, a single quote and the suffix. -/
def singleOpened (kind : Kind) (cs : List Char) : Option (List Char) :=
  let value :=
    match cs with
    | '\\' :: rest => escapeRest kind rest
    | c :: rest => if kind.allows c then some rest else none
    | [] => none
  match value with
  | some ('\'' :: rest) => some (suffixRest rest)
  | _ => none

/-- Digits and the underscores between them. -/
def dropDigits (cs : List Char) : List Char :=
  cs.dropWhile fun c => isDigit c || c == '_'

/-- Behind the `e` of an exponent, which may be signed and must have a digit. -/
def exponentRest (signed valued : Bool) : List Char → Option (List Char)
  | [] => if valued then some [] else none
  | c :: rest =>
    if c = '+' || c = '-' then
      if valued then some (c :: rest) else if signed then none else exponentRest true valued rest
    else if isDigit c then exponentRest signed true rest
    else if c = '_' then exponentRest signed valued rest
    else if valued then some (c :: rest) else none

/-- The digits of a number with a point or an exponent. An `e` that starts no exponent starts a
suffix, if there is a point before it. -/
def fractionRest (cs : List Char) : Option (List Char) :=
  match cs with
  | [] => none
  | c :: rest =>
    if !isDigit c then none
    else match dropDigits rest with
      | '.' :: rest =>
        if rest.head?.any (fun d => d = '.' || isIdentStart d) then none
        else match dropDigits rest with
          | e :: rest =>
            if e = 'e' || e = 'E' then
              (exponentRest false false rest).orElse fun _ => some (e :: rest)
            else some (e :: rest)
          | [] => some []
      | e :: rest => if e = 'e' || e = 'E' then exponentRest false false rest else none
      | [] => none

/-- The digits of a whole number in a base. `bare` says that no digit has been seen yet. -/
def wholeRest (base : Nat) (bare : Bool) : List Char → Option (List Char)
  | [] => if bare then none else some []
  | c :: rest =>
    if isDigit c then if c.toNat - 48 ≥ base then none else wholeRest base false rest
    else if c = '_' then if bare && base = 10 then none else wholeRest base bare rest
    else match hexValue? c with
      | some d =>
        if d < base then wholeRest base false rest else if bare then none else some (c :: rest)
      | none => if bare then none else some (c :: rest)

/-- The digits of a whole number, with `0x`, `0o` or `0b` in front for another base. -/
def integerRest : List Char → Option (List Char)
  | '0' :: 'x' :: rest => wholeRest 16 true rest
  | '0' :: 'o' :: rest => wholeRest 8 true rest
  | '0' :: 'b' :: rest => wholeRest 2 true rest
  | cs => wholeRest 10 true cs

/-- A number takes its suffix along and must not run into another word. -/
def endOfNumber (cs : List Char) : Option (List Char) :=
  match suffixRest cs with
  | [] => some []
  | c :: rest => if isIdentContinue c then none else some (c :: rest)

/-- What is left behind the number at the front of a text. -/
def numberRest (cs : List Char) : Option (List Char) :=
  ((fractionRest cs).bind endOfNumber).orElse fun _ => (integerRest cs).bind endOfNumber

/-- What is left behind the literal at the front of a text. -/
def rest? : List Char → Option (List Char)
  | '"' :: cs => quotedOpened .text cs
  | '\'' :: cs => singleOpened .text cs
  | 'r' :: cs => rawOpened .text cs
  | 'b' :: '"' :: cs => quotedOpened .bytes cs
  | 'b' :: 'r' :: cs => rawOpened .bytes cs
  | 'b' :: '\'' :: cs => singleOpened .bytes cs
  | 'c' :: '"' :: cs => quotedOpened .terminated cs
  | 'c' :: 'r' :: cs => rawOpened .terminated cs
  | cs => numberRest cs

/-- Whether the text of a literal is a string, plain or raw. -/
def isString (text : String) : Bool :=
  match text.toList with
  | '"' :: _ => true
  | 'r' :: _ => true
  | _ => false

/-- Whether the text of a literal is a number with a point or an exponent. -/
def isFraction (text : String) : Bool :=
  (fractionRest text.toList).isSome

def isNumber (text : String) : Bool :=
  text.toList.head?.any isDigit

end UnionView.Literal
