import UnionView.Text.CharClass

/-!
# Quoted text

A quoted text stands between double quotes. Inside, a character that cannot be seen or would end
the quotation is written as an escape: `\0`, `\t`, `\r`, `\n`, `\\`, `\"` or `\u` with the code
point in braces. The single quote stands for itself, except in the name of a file.
-/

namespace UnionView.Text

/-- Hexadecimal digits of a number, lower case, without leading zeros. -/
def hexDigits (n : Nat) : List Char :=
  Nat.toDigits 16 n

/-- A character as it is written between double quotes. -/
def escape (c : Char) : List Char :=
  if c = '\x00' then ['\\', '0']
  else if c = '\t' then ['\\', 't']
  else if c = '\r' then ['\\', 'r']
  else if c = '\n' then ['\\', 'n']
  else if c = '\\' then ['\\', '\\']
  else if c = '"' then ['\\', '"']
  else if isGraphemeExtending c || !isPrintable c then
    ['\\', 'u', '{'] ++ hexDigits c.toNat ++ ['}']
  else [c]

/-- The text between double quotes, every character escaped by itself. -/
def quote (s : String) : String :=
  String.ofList ('"' :: s.toList.flatMap escape ++ ['"'])

/-- The same for the name of a file, in which a single quote is escaped as well. -/
def quoteFileName (s : String) : String :=
  String.ofList
    ('"' :: s.toList.flatMap (fun c => if c = '\'' then ['\\', c] else escape c) ++ ['"'])

/-- Escapes for a literal of source code. A NUL before an octal digit is written `\x00`, so that
the digit cannot be taken for a part of the escape. -/
def escapeLiteral : List Char → List Char
  | [] => []
  | c :: rest =>
    let written :=
      if c = '\x00' && rest.head?.any (fun d => '0' ≤ d && d ≤ '7') then ['\\', 'x', '0', '0']
      else escape c
    written ++ escapeLiteral rest

/-- A string literal of source code that stands for the text. -/
def quoteLiteral (cs : List Char) : String :=
  String.ofList ('"' :: escapeLiteral cs ++ ['"'])

end UnionView.Text
