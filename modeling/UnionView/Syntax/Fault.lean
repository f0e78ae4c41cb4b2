import UnionView.Syntax.Terminal

/-!
# Faults in the code

A fault is why some code could not be read, together with the mark of the place it points at.
The wording of every fault is in one function, `Fault.message`.
-/

namespace UnionView

/-- Why some code could not be read. -/
inductive Cause
  /-- Something else was expected, one of several alternatives. -/
  | expected (alternatives : List String)
  /-- A reserved word stands where an identifier belongs. -/
  | reservedWord (word : String)
  /-- A group, or the whole code, goes on behind its content. -/
  | leftover (inside : Option Delimiter)
  | statementNotEnded
  | chainedComparison
  | castFollowedBy (what : String)
  | attributeInAttribute
  | parametersOnWhere
  | secondReceiver
  | lateReceiver
  | captureNotAllowed
  | boundNotAllowed (modifier : String)
  | noTraitInObject
  | noTraitInImpl
  | negativeInherentImpl
  | attributeOnRange
  | labelNeedsParentheses
  | openRangeInSlice
  | indexWithSuffix
  | notAnIdentifierPath
  | noArgumentsInParentheses (name : String)
  | noValue (name : String)
  | valueOfAttribute
  | unknownArgument
  | repeatedRuntime
  | repeatedRenderer (name : String)
  | repeatedAttribute
  /-- The text could not be split into tokens. -/
  | unreadable
deriving DecidableEq, Repr

/-- A fault and the place it points at. `ended` says that nothing was left to read there. -/
structure Fault where
  cause : Cause
  mark : Mark
  ended : Bool := false
deriving DecidableEq, Repr

/-- Alternatives as a message lists them. -/
def listAlternatives : List String → String
  | [] => ""
  | [a] => s!"expected {a}"
  | [a, b] => s!"expected {a} or {b}"
  | all => "expected one of: " ++ String.intercalate ", " all

/-- What is said of a declaration that carries the attribute twice. -/
def repeatedAttributeMessage : String :=
  "`#[with_switch_case_view]` is applied more than once; the view would be generated twice"

namespace Cause

/-- The wording of a cause, the end of the code apart. -/
def wording : Cause → String
  | expected [] => "unexpected token"
  | expected alternatives => listAlternatives alternatives
  | reservedWord word => s!"expected identifier, found keyword `{word}`"
  | leftover none => "unexpected token"
  | leftover (some .round) => "unexpected token, expected `)`"
  | leftover (some .square) => "unexpected token, expected `]`"
  | leftover (some .curly) => "unexpected token, expected `\x7d`"
  | statementNotEnded => "unexpected token, expected `;`"
  | chainedComparison => "comparison operators cannot be chained"
  | castFollowedBy what => s!"casts cannot be followed by {what}"
  | attributeInAttribute => "unexpected attribute inside of attribute"
  | parametersOnWhere => "generic parameters on `where` clauses are reserved for future use"
  | secondReceiver => "unexpected second method receiver"
  | lateReceiver => "unexpected method receiver"
  | captureNotAllowed => "`use<...>` precise capturing syntax is not allowed here"
  | boundNotAllowed modifier => s!"`{modifier}` is not allowed here"
  | noTraitInObject => "at least one trait is required for an object type"
  | noTraitInImpl => "at least one trait must be specified"
  | negativeInherentImpl => "inherent impls cannot be negative"
  | attributeOnRange => "attributes are not allowed on range expressions starting with `..`"
  | labelNeedsParentheses => "parentheses required"
  | openRangeInSlice => "range pattern is not allowed unparenthesized inside slice pattern"
  | indexWithSuffix => "expected unsuffixed integer"
  | notAnIdentifierPath => "expected this path to be an identifier"
  | noArgumentsInParentheses name =>
    s!"expected attribute arguments in parentheses: `{name}(...)`"
  | noValue name => s!"expected a value for this attribute: `{name} = ...`"
  | valueOfAttribute =>
    "expected `#[with_switch_case_view]` or `#[with_switch_case_view(...)]`"
  | unknownArgument =>
    "unknown argument, expected `runtime = path` or `renderers(Type = path, ...)`"
  | repeatedRuntime => "duplicate `runtime` argument"
  | repeatedRenderer name => s!"renderer for `{name}` given more than once"
  | repeatedAttribute => repeatedAttributeMessage
  | unreadable => "cannot parse string into token stream"

end Cause

namespace Fault

def message (fault : Fault) : String :=
  if fault.ended then
    match fault.cause with
    | .expected [] => "unexpected end of input"
    | cause => "unexpected end of input, " ++ cause.wording
  else fault.cause.wording

/-- The fault with more tokens behind the code that it was found in. -/
def shift (behind : Nat) (fault : Fault) : Fault :=
  { fault with mark := fault.mark + behind }

/-- What stands behind the code does not change what is said of it. -/
@[simp] theorem message_shift (behind : Nat) (fault : Fault) :
    (fault.shift behind).message = fault.message := rfl

end Fault

end UnionView
