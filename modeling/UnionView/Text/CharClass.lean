import UnionView.Text.Ranges

/-!
# Classes of characters

The classes that decide where a token ends: identifier characters, blanks, digits and
punctuation. ASCII is decided here; beyond ASCII the tables of `UnionView.Text.Ranges` decide.
-/

namespace UnionView.Text

def isLetter (c : Char) : Bool :=
  ('a' ≤ c && c ≤ 'z') || ('A' ≤ c && c ≤ 'Z')

def isDigit (c : Char) : Bool :=
  '0' ≤ c && c ≤ '9'

/-- Whether an identifier may start with the character: a letter or the underscore. -/
def isIdentStart (c : Char) : Bool :=
  if c.toNat < 128 then isLetter c || c == '_' else Ranges.contains Ranges.identifierStart c.toNat

/-- Whether an identifier may go on with the character: also digits and combining marks. -/
def isIdentContinue (c : Char) : Bool :=
  isIdentStart c ||
    (if c.toNat < 128 then isDigit c else Ranges.contains Ranges.identifierContinueOnly c.toNat)

def isWhiteSpace (c : Char) : Bool :=
  let n := c.toNat
  (9 ≤ n && n ≤ 13) || n == 0x20 || n == 0x85 || n == 0xA0 || n == 0x1680 ||
    (0x2000 ≤ n && n ≤ 0x200A) || n == 0x2028 || n == 0x2029 || n == 0x202F || n == 0x205F ||
    n == 0x3000

/-- The characters that separate tokens: white space and the two direction marks. -/
def isBlank (c : Char) : Bool :=
  isWhiteSpace c || c.toNat == 0x200E || c.toNat == 0x200F

/-- The characters that are tokens of their own. -/
def isPunctuation (c : Char) : Bool :=
  ['~', '!', '@', '#', '$', '%', '^', '&', '*', '-', '=', '+', '|', ';', ':', ',', '<', '.', '>',
    '/', '?', '\''].contains c

/-- The value of a hexadecimal digit of either case. -/
def hexValue? (c : Char) : Option Nat :=
  if isDigit c then some (c.toNat - 48)
  else if 'a' ≤ c && c ≤ 'f' then some (c.toNat - 87)
  else if 'A' ≤ c && c ≤ 'F' then some (c.toNat - 55)
  else none

/-- A hexadecimal digit of either case. -/
def isHexDigit (c : Char) : Bool :=
  (hexValue? c).isSome

/-- A character that changes how the one before it is drawn. -/
def isGraphemeExtending (c : Char) : Bool :=
  c.toNat ≥ 128 && Ranges.contains Ranges.graphemeExtending c.toNat

/-- A character that leaves a mark of its own on the page, or the space. -/
def isPrintable (c : Char) : Bool :=
  if c.toNat < 128 then ' ' ≤ c && c.toNat < 127
  else !Ranges.contains Ranges.nonPrinting c.toNat

/-- Whatever starts an identifier may also continue one. -/
theorem isIdentContinue_of_isIdentStart {c : Char} (h : isIdentStart c = true) :
    isIdentContinue c = true := by
  simp [isIdentContinue, h]

/-- The text without white space at either end. -/
def trim (cs : List Char) : List Char :=
  trimEnd (cs.dropWhile isWhiteSpace)
where
  /-- The text without white space at its end. -/
  trimEnd (cs : List Char) : List Char :=
    (cs.reverse.dropWhile isWhiteSpace).reverse

/-- The text without white space at its end. -/
def trimEnd (s : String) : String :=
  String.ofList (trim.trimEnd s.toList)

/-- The text without white space at either end. -/
def trimText (s : String) : String :=
  String.ofList (trim s.toList)

/-- The pieces between the places where a character stands. There is always one more of them than
there are such places. -/
def pieces (separator : Char) : List Char → List (List Char)
  | [] => [[]]
  | c :: rest =>
    if c = separator then [] :: pieces separator rest
    else match pieces separator rest with
      | [] => [[c]]
      | piece :: more => (c :: piece) :: more

/-- The pieces of a text between the places where a character stands. -/
def splitText (separator : Char) (s : String) : List String :=
  (pieces separator s.toList).map String.ofList

end UnionView.Text
