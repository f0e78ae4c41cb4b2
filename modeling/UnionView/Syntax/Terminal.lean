import UnionView.Token.Literal
import UnionView.Token.Basic

/-!
# Terminals

A terminal is what a reader can ask for at one point of the code: a keyword, an operator, a class
of tokens or a delimited group. It can be tested without being read (`Terminal.fits`) and has a
description for messages.

An operator of several characters fits if its characters follow each other and all but the last
are joint. So a one-character operator also fits at the front of a longer one.
-/

namespace UnionView

/-- The words that cannot be plain identifiers, the underscore included. -/
def reservedWords : List String :=
  ["_", "abstract", "as", "async", "await", "become", "box", "break", "const", "continue", "crate",
    "do", "dyn", "else", "enum", "extern", "false", "final", "fn", "for", "if", "impl", "in",
    "let", "loop", "macro", "match", "mod", "move", "mut", "override", "priv", "pub", "ref",
    "return", "Self", "self", "static", "struct", "super", "trait", "true", "try", "type",
    "typeof", "unsafe", "unsized", "use", "virtual", "where", "while", "yield"]

/-- Something that a reader can ask for at one point of the code. -/
inductive Terminal
  /-- A keyword. -/
  | word (text : String)
  | operator (text : String)
  /-- An identifier that is no reserved word. -/
  | identifier
  | lifetime
  | literal
  /-- A literal that is a string. -/
  | string
  | group (delimiter : Delimiter)
deriving DecidableEq, Repr

/-- Whether `code` begins with an operator. -/
def Code.startsWith : List Char → Code → Bool
  | [], _ => true
  | [c], .punct mark _ :: _ => mark == c
  | c :: cs, .punct mark spacing :: rest =>
    mark == c && spacing == .joint && startsWith cs rest
  | _, _ => false

namespace Terminal

/-- Whether the terminal stands at the front of `code`. A minus in front of a number belongs to
the literal, and so do the two truth values. -/
def fits : Terminal → Code → Bool
  | word text, .ident found :: _ => found == text
  | operator text, code => code.startsWith text.toList
  | identifier, .ident found :: _ => !reservedWords.contains found
  | lifetime, .punct '\'' .joint :: .ident _ :: _ => true
  | literal, .literal _ :: _ => true
  | literal, .ident found :: _ => found == "true" || found == "false"
  | literal, .punct '-' _ :: .literal text :: _ => Literal.isNumber text
  | string, .literal text :: _ => Literal.isString text
  | group delimiter, .opening found :: _ => found == delimiter
  | _, _ => false

/-- How a message names the terminal. -/
def description : Terminal → String
  | word text => "`" ++ text ++ "`"
  | operator text => "`" ++ text ++ "`"
  | identifier => "identifier"
  | lifetime => "lifetime"
  | literal => "literal"
  | string => "string literal"
  | group .round => "parentheses"
  | group .square => "square brackets"
  | group .curly => "curly braces"

/-- How many tokens the terminal takes, its content apart if it is a group. -/
def width : Terminal → Code → Nat
  | operator text, _ => text.length
  | lifetime, _ => 2
  | literal, .punct _ _ :: _ => 2
  | _, _ => 1

/-- The tokens that the terminal puts into printed code. Those of an operator are joint but for
the last, whatever they were in the source. -/
def canonical : Terminal → Code → Code
  | operator text, _ => operatorCode text.toList
  | literal, .punct mark _ :: value :: _ => [.punct mark .alone, value]
  | terminal, code => code.take (terminal.width code)

end Terminal

end UnionView
