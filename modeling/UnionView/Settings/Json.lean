import UnionView.Decimal.Shortest
import UnionView.Settings.File
import UnionView.Text.Quoted

/-!
# Settings as JSON

A settings file is a JSON object with the optional fields `runtime` and `renderers`, or an array
with the same values in this order. The reader stops at the first fault. A position is a line and
the number of bytes of this line up to the fault: up to and with the byte that was looked at, or
up to the end of what was taken.
-/

namespace UnionView

/-- Why a text is not a settings file. -/
inductive JsonCause
  | endInList
  | endInObject
  | endInString
  | endInValue
  | expectedColon
  | expectedListEnd
  | expectedObjectEnd
  | expectedWord
  | expectedValue
  | invalidEscape
  | invalidNumber
  | numberOutOfRange
  | controlCharacter
  | keyNotString
  | loneSurrogate
  | unfinishedSurrogate
  | trailingComma
  | trailingCharacters
  | invalidType (found expected : String)
  | unknownField (name : String)
  | duplicateField (name : String)
deriving DecidableEq, Repr

def JsonCause.wording : JsonCause → String
  | endInList => "EOF while parsing a list"
  | endInObject => "EOF while parsing an object"
  | endInString => "EOF while parsing a string"
  | endInValue => "EOF while parsing a value"
  | expectedColon => "expected `:`"
  | expectedListEnd => "expected `,` or `]`"
  | expectedObjectEnd => "expected `,` or `\x7d`"
  | expectedWord => "expected ident"
  | expectedValue => "expected value"
  | invalidEscape => "invalid escape"
  | invalidNumber => "invalid number"
  | numberOutOfRange => "number out of range"
  | controlCharacter =>
    "control character (\\u0000-\\u001F) found while parsing a string"
  | keyNotString => "key must be a string"
  | loneSurrogate => "lone leading surrogate in hex escape"
  | unfinishedSurrogate => "unexpected end of hex escape"
  | trailingComma => "trailing comma"
  | trailingCharacters => "trailing characters"
  | invalidType found expected => s!"invalid type: {found}, expected {expected}"
  | unknownField name => s!"unknown field `{name}`, expected `runtime` or `renderers`"
  | duplicateField name => s!"duplicate field `{name}`"

/-- A fault in a settings file. The line counts from one, the column from zero. -/
structure JsonError where
  cause : JsonCause
  line : Nat
  column : Nat
deriving DecidableEq, Repr

/-- The text of the fault with its position. -/
def JsonError.message (e : JsonError) : String :=
  s!"{e.cause.wording} at line {e.line} column {e.column}"

namespace Json

/-! ### The reader -/

/-- What is left of the text and how far it has been read. -/
structure Cursor where
  rest : List Char
  line : Nat := 1
  column : Nat := 0

namespace Cursor

/-- Takes `bytes` bytes of the character `c`. -/
def past (cur : Cursor) (c : Char) (bytes : Nat) : Cursor :=
  if c = '\n' then { cur with line := cur.line + 1, column := 0 }
  else { cur with column := cur.column + bytes }

def next? (cur : Cursor) : Option (Char × Cursor) :=
  match cur.rest with
  | [] => none
  | c :: rest => some (c, { cur with rest }.past c c.utf8Size)

/-- The next character, which is not taken. -/
def peek? (cur : Cursor) : Option Char :=
  cur.rest.head?

/-- Takes the next character, if there is one. -/
def drop (cur : Cursor) : Cursor :=
  match cur.next? with
  | some (_, cur) => cur
  | none => cur

/-- A fault behind what was taken. -/
def error {α : Type} (cur : Cursor) (cause : JsonCause) : Except JsonError α :=
  .error { cause, line := cur.line, column := cur.column }

def errorAtNext {α : Type} (cur : Cursor) (cause : JsonCause) : Except JsonError α :=
  match cur.rest with
  | [] => cur.error cause
  | c :: _ => (cur.past c 1).error cause

end Cursor

/-- A function that takes characters from the front of a text, or finds a fault. -/
abbrev JsonReader (α : Type) := StateT Cursor (Except JsonError) α

/-- A fault behind what was taken. -/
def fail {α : Type} (cause : JsonCause) : JsonReader α := do
  (← get).error cause

def failAtNext {α : Type} (cause : JsonCause) : JsonReader α := do
  (← get).errorAtNext cause

/-- The next character, which is not taken. -/
def peek : JsonReader (Option Char) := do
  return (← get).peek?

def next : JsonReader (Option Char) := do
  match (← get).next? with
  | some (c, cur) =>
    set cur
    return some c
  | none => return none

/-- Takes a character that was looked at before. -/
def skip : JsonReader Unit :=
  modify Cursor.drop

/-- What may stand between the parts of a document. -/
def isSpace (c : Char) : Bool :=
  c = ' ' || c = '\n' || c = '\t' || c = '\r'

def Cursor.afterSpaces : List Char → Cursor → Cursor
  | [], cur => cur
  | c :: rest, cur => if isSpace c then afterSpaces rest cur.drop else cur

/-- Takes spaces and looks at what follows. -/
def peekBehindSpaces : JsonReader (Option Char) := do
  modify fun cur => cur.afterSpaces cur.rest
  peek

/-- Takes the characters that must follow. -/
def word : List Char → JsonReader Unit
  | [] => pure ()
  | expected :: rest => do
    match ← next with
    | none => fail .endInValue
    | some c => if c = expected then word rest else fail .expectedWord

/-! ### Strings -/

/-- Takes four bytes that are hexadecimal digits. -/
def hexDigits : JsonReader Nat := do
  let cur ← get
  if (String.ofList cur.rest).utf8ByteSize < 4 then
    set (cur.rest.foldl (fun cur c => cur.past c c.utf8Size) cur)
    fail .endInString
  else
    go 4 0 true
where
  /-- Takes what is left of the bytes. A character may reach beyond them. -/
  go : Nat → Nat → Bool → JsonReader Nat
    | 0, value, valid => if valid then return value else fail .invalidEscape
    | bytes + 1, value, valid => do
      let cur ← get
      match cur.rest with
      | [] => fail .invalidEscape
      | c :: rest =>
        let size := min c.utf8Size (bytes + 1)
        set ({ cur with rest }.past c size)
        match Text.hexValue? c with
        | some d => go bytes (value * 16 + d) valid
        | none => go (bytes + 1 - size) value false
  termination_by bytes => bytes
  decreasing_by
    · omega
    · have := c.utf8Size_pos
      omega

/-- The second half of a character that is written as two escapes. -/
def trailingSurrogate (leading : Nat) : JsonReader Char := do
  for expected in ['\\', 'u'] do
    match ← peek with
    | none => fail .endInString
    | some c =>
      skip
      if c ≠ expected then fail .unfinishedSurrogate
  let trailing ← hexDigits
  if trailing < 0xDC00 || 0xDFFF < trailing then fail .loneSurrogate
  else return Char.ofNat ((leading - 0xD800) * 1024 + (trailing - 0xDC00) + 0x10000)

/-- The character that an escape stands for. -/
def escape : JsonReader Char := do
  match ← next with
  | none => fail .endInString
  | some 'b' => return '\x08'
  | some 'f' => return '\x0c'
  | some 'n' => return '\n'
  | some 'r' => return '\r'
  | some 't' => return '\t'
  | some 'u' =>
    let unit ← hexDigits
    if 0xDC00 ≤ unit && unit ≤ 0xDFFF then fail .loneSurrogate
    else if 0xD800 ≤ unit && unit ≤ 0xDBFF then trailingSurrogate unit
    else return Char.ofNat unit
  | some c => if c = '"' || c = '\\' || c = '/' then return c else fail .invalidEscape

/-- The characters of a string behind its opening quote. Each step takes one or more. -/
def stringTail : Nat → JsonReader (List Char)
  | 0 => fail .endInString
  | fuel + 1 => do
    match ← next with
    | none => fail .endInString
    | some '"' => return []
    | some '\\' =>
      let c ← escape
      return c :: (← stringTail fuel)
    | some c =>
      if c.toNat < 0x20 then fail .controlCharacter
      else return c :: (← stringTail fuel)

/-- The string whose opening quote was looked at. -/
def string : JsonReader String := do
  skip
  return String.ofList (← stringTail ((← get).rest.length + 1))

/-! ### Numbers -/

/-- A number as far as a message names it. -/
inductive Number
  | integer (negative : Bool) (value : Nat)
  | float (negative : Bool) (value : Double)

def signText (negative : Bool) : String :=
  if negative then "-" else ""

/-- How a message names a number. -/
def Number.text : Number → String
  | integer negative value => s!"integer `{signText negative}{value}`"
  | float negative value => s!"floating point `{signText negative}{value.text}`"

/-- The largest significand that is kept exactly. -/
def maxSignificand : Nat := UInt64.size - 1

/-- The largest power of ten that is kept. -/
def maxExponent : Nat := Nat.pow 2 31 - 1

/-- Takes digits and drops them; the answer is how many there were. -/
def dropDigits : Nat → JsonReader Nat
  | 0 => return 0
  | fuel + 1 => do
    match ← peek with
    | some c =>
      if Text.isDigit c then
        skip
        return (← dropDigits fuel) + 1
      else return 0
    | none => return 0

/-- Takes digits as long as the value stays within `limit`; the answer is the value and how many
digits were taken. -/
def takeDigits (limit : Nat) : Nat → Nat → JsonReader (Nat × Nat)
  | 0, value => return (value, 0)
  | fuel + 1, value => do
    match ← peek with
    | some c =>
      let more := value * 10 + (c.toNat - 48)
      if Text.isDigit c && more ≤ limit then
        skip
        let (value, count) ← takeDigits limit fuel more
        return (value, count + 1)
      else return (value, 0)
    | none => return (value, 0)

def peekDigit : JsonReader Bool := do
  return (← peek).any Text.isDigit

/-- The number of steps that suffice to take what is left. -/
def steps : JsonReader Nat := do
  return (← get).rest.length + 1

/-- A significand times a power of ten. -/
def float (significand : Nat) (exponent : Int) : JsonReader Double := do
  match Double.ofDecimal? significand exponent with
  | some x => return x
  | none => fail .numberOutOfRange

/-- An exponent whose `e` was looked at, applied to a significand and the power so far. -/
def exponentTail (significand : Nat) (power : Int) : JsonReader Double := do
  skip
  let negative ←
    match ← peek with
    | some '+' => do
      skip
      pure false
    | some '-' => do
      skip
      pure true
    | _ => pure false
  match ← next with
  | none => fail .endInValue
  | some c =>
    if !Text.isDigit c then fail .invalidNumber
    else
      let (value, _) ← takeDigits maxExponent (← steps) (c.toNat - 48)
      if ← peekDigit then
        skip
        if significand ≠ 0 && !negative then fail .numberOutOfRange
        let _ ← dropDigits (← steps)
        return { mantissa := 0, exponent := Double.minExponent }
      else
        let exponent := if negative then power - value else power + value
        float significand (max (-(maxExponent + 1)) (min exponent maxExponent))

/-- What may follow the digits of a significand: an exponent. -/
def exponentOrEnd (significand : Nat) (power : Int) : JsonReader Double := do
  match ← peek with
  | some c =>
    if c = 'e' || c = 'E' then exponentTail significand power else float significand power
  | none => float significand power

/-- The digits behind a point that was looked at. Those that do not fit are dropped. -/
def fractionTail (significand : Nat) (power : Int) : JsonReader Double := do
  skip
  let (value, count) ← takeDigits maxSignificand (← steps) significand
  if ← peekDigit then
    let _ ← dropDigits (← steps)
    exponentOrEnd value (power - count)
  else if count = 0 then
    if (← peek).isSome then failAtNext .invalidNumber else failAtNext .endInValue
  else exponentOrEnd value (power - count)

/-- What follows the digits before the point, of which `dropped` did not fit. -/
def numberTail (negative : Bool) (significand dropped : Nat) : JsonReader Number := do
  match ← peek with
  | some '.' => return .float negative (← fractionTail significand dropped)
  | some c =>
    if c = 'e' || c = 'E' then return .float negative (← exponentTail significand dropped)
    else whole
  | none => whole
where
  /-- A number without a point and an exponent. -/
  whole : JsonReader Number := do
    if dropped ≠ 0 then return .float negative (← float significand dropped)
    else if negative && (significand = 0 || Nat.pow 2 63 < significand) then
      return .float true (← float significand 0)
    else return .integer negative significand

/-- A number behind its sign. -/
def number (negative : Bool) : JsonReader Number := do
  match ← next with
  | none => fail .endInValue
  | some '0' =>
    if ← peekDigit then failAtNext .invalidNumber else numberTail negative 0 0
  | some c =>
    if !Text.isDigit c then fail .invalidNumber
    else
      let (value, _) ← takeDigits maxSignificand (← steps) (c.toNat - 48)
      numberTail negative value (← dropDigits (← steps))

/-! ### Documents -/

/-- The fault of a value that has another type than the expected one. -/
def wrongType {α : Type} (expected : String) : JsonReader α := do
  match ← peek with
  | some 'n' =>
    word ['n', 'u', 'l', 'l']
    fail (.invalidType "null" expected)
  | some 't' =>
    word ['t', 'r', 'u', 'e']
    fail (.invalidType "boolean `true`" expected)
  | some 'f' =>
    word ['f', 'a', 'l', 's', 'e']
    fail (.invalidType "boolean `false`" expected)
  | some '-' =>
    skip
    let n ← number true
    fail (.invalidType n.text expected)
  | some '"' =>
    let s ← string
    fail (.invalidType s!"string {Text.quote s}" expected)
  | some '[' => fail (.invalidType "sequence" expected)
  | some '\x7b' => fail (.invalidType "map" expected)
  | some c =>
    if Text.isDigit c then
      let n ← number false
      fail (.invalidType n.text expected)
    else failAtNext .expectedValue
  | none => failAtNext .expectedValue

def stringValue : JsonReader String := do
  match ← peekBehindSpaces with
  | none => failAtNext .endInValue
  | some '"' => string
  | some _ => wrongType "a string"

def optionalString : JsonReader (Option String) := do
  match ← peekBehindSpaces with
  | some 'n' =>
    word ['n', 'u', 'l', 'l']
    return none
  | _ => return some (← stringValue)

/-- Whether another key of an object follows, which is then looked at. -/
def nextKey (first : Bool) : JsonReader Bool := do
  match ← peekBehindSpaces with
  | none => failAtNext .endInObject
  | some '\x7d' => return false
  | some c =>
    if first then if c = '"' then return true else failAtNext .keyNotString
    else if c ≠ ',' then failAtNext .expectedObjectEnd
    else
      skip
      match ← peekBehindSpaces with
      | none => failAtNext .endInValue
      | some '"' => return true
      | some '\x7d' => failAtNext .trailingComma
      | some _ => failAtNext .keyNotString

def colon : JsonReader Unit := do
  match ← peekBehindSpaces with
  | some ':' => skip
  | some _ => failAtNext .expectedColon
  | none => failAtNext .endInObject

def endObject : JsonReader Unit := do
  match ← peekBehindSpaces with
  | some '\x7d' => skip
  | some ',' => failAtNext .trailingComma
  | some _ => failAtNext .trailingCharacters
  | none => failAtNext .endInObject

/-- The renderers inside their object. -/
def rendererEntries : Nat → Bool → NameMap String → JsonReader (NameMap String)
  | 0, _, m => return m
  | fuel + 1, first, m => do
    if ← nextKey first then
      let name ← string
      colon
      let renderer ← stringValue
      rendererEntries fuel false (m.insert name renderer)
    else return m

/-- An object of strings. -/
def renderers : JsonReader (NameMap String) := do
  match ← peekBehindSpaces with
  | none => failAtNext .endInValue
  | some '\x7b' =>
    skip
    let m ← rendererEntries (← steps) true .empty
    endObject
    return m
  | some _ => wrongType "a map"

/-- A fault that concerns a whole object. It is reported behind the brace that ends the object,
if the brace is next. -/
def failInObject {α : Type} (cause : JsonCause) : JsonReader α := do
  if (← peekBehindSpaces) = some '\x7d' then skip
  fail cause

/-- The fields of a settings file, each at most once. -/
def fields : Nat → Bool → Option (Option String) → Option (NameMap String) →
    JsonReader SettingsFile
  | 0, _, runtime, renderers => finish runtime renderers
  | fuel + 1, first, runtime, renderers => do
    if ← nextKey first then
      let name ← string
      if name = "runtime" then
        if runtime.isSome then failInObject (.duplicateField name)
        colon
        fields fuel false (some (← optionalString)) renderers
      else if name = "renderers" then
        if renderers.isSome then failInObject (.duplicateField name)
        colon
        fields fuel false runtime (some (← Json.renderers))
      else failInObject (.unknownField name)
    else finish runtime renderers
where
  /-- Fields that are missing have no value. -/
  finish (runtime : Option (Option String)) (renderers : Option (NameMap String)) :
      JsonReader SettingsFile :=
    return { runtime := runtime.join, renderers := renderers.getD .empty }

/-- Whether another element of an array follows. -/
def nextElement (first : Bool) : JsonReader Bool := do
  match ← peekBehindSpaces with
  | none => failAtNext .endInList
  | some ']' => return false
  | some c =>
    if first then return true
    else if c ≠ ',' then failAtNext .expectedListEnd
    else
      skip
      match ← peekBehindSpaces with
      | none => failAtNext .endInValue
      | some ']' => failAtNext .trailingComma
      | some _ => return true

def endList : JsonReader Unit := do
  match ← peekBehindSpaces with
  | some ']' => skip
  | some ',' =>
    skip
    if (← peekBehindSpaces) = some ']' then failAtNext .trailingComma
    else failAtNext .trailingCharacters
  | some _ => failAtNext .trailingCharacters
  | none => failAtNext .endInList

/-- The values of a settings file in order, as many as there are. -/
def elements : JsonReader SettingsFile := do
  if !(← nextElement true) then return {}
  let runtime ← optionalString
  if !(← nextElement false) then return { runtime }
  return { runtime, renderers := ← renderers }

def settingsFile : JsonReader SettingsFile := do
  match ← peekBehindSpaces with
  | none => failAtNext .endInValue
  | some '[' =>
    skip
    let file ← elements
    endList
    return file
  | some '\x7b' =>
    skip
    let file ← fields (← steps) true none none
    endObject
    return file
  | some _ => wrongType "struct ConfigFile"

def document : JsonReader SettingsFile := do
  let file ← settingsFile
  if (← peekBehindSpaces).isSome then failAtNext .trailingCharacters
  else return file

end Json

def SettingsFile.ofJson (text : String) : Except JsonError SettingsFile :=
  Json.document.run' { rest := text.toList }

end UnionView
