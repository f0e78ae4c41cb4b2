import UnionView.Diagnostic
import UnionView.Union.Basic

/-!
# Validation

A union without variants is legal, but its dispatcher renders nothing, which is worth a warning.
-/

namespace UnionView

/-- What is said of a union without variants. -/
def emptyUnionMessage : String :=
  "union has no variants; generated dispatcher renders nothing"

/-- A union that has been checked, with the warning if there is one. -/
inductive Validated
  | proceed (union : TaggedUnion)
  | proceedWithWarning (union : TaggedUnion) (warning : Finding)
deriving DecidableEq, Repr

namespace Validated

def union : Validated → TaggedUnion
  | proceed u => u
  | proceedWithWarning u _ => u

def warning? : Validated → Option Finding
  | proceed _ => none
  | proceedWithWarning _ w => some w

end Validated

namespace TaggedUnion

/-- The warning about a union without variants. It points at the keyword. -/
def emptyWarning (u : TaggedUnion) : Finding :=
  { severity := .warning
    message := emptyUnionMessage
    declaration := u.name
    mark := u.keyword }

/-- Checks a union. This never fails. -/
def validate (u : TaggedUnion) : Validated :=
  if u.variants.isEmpty then .proceedWithWarning u u.emptyWarning else .proceed u

/-- Checking does not change the union. -/
@[simp] theorem union_validate (u : TaggedUnion) : u.validate.union = u := by
  unfold validate
  split <;> rfl

end TaggedUnion

end UnionView
