import UnionView.Settings.Loading

/-!
# Errors that end the command

When the settings cannot be had or the output cannot be written, the command ends with one line
that shows the error with everything that is known of it.
-/

namespace UnionView

/-- Fields of an error with their values, in braces. -/
def showFields (name : String) (fields : List (String × String)) : String :=
  let shown := String.intercalate ", " (fields.map fun f => s!"{f.1}: {f.2}")
  s!"{name} \x7b {shown} \x7d"

/-- An error with everything that is known of it. -/
def InvalidSettings.details : InvalidSettings → String
  | runtimePath path reason =>
    showFields "InvalidRuntimePath" [("path", Text.quote path), ("reason", Text.quote reason)]
  | typeName name => s!"InvalidTypeName({Text.quote name})"
  | rendererPath payload path reason =>
    showFields "InvalidRendererPath"
      [("payload", Text.quote payload), ("path", Text.quote path), ("reason", Text.quote reason)]
  | assignment text => s!"InvalidAssignment({Text.quote text})"

/-- A fault with everything that is known of it. -/
def JsonError.details (e : JsonError) : String :=
  s!"Error({Text.quote e.cause.wording}, line: {e.line}, column: {e.column})"

def FileFailure.detailsOf (name fileName : String) (failure : FileFailure) : String :=
  showFields name [("path", Text.quoteFileName fileName), ("source", failure.details)]

/-- An error with everything that is known of it. -/
def SettingsError.details : SettingsError → String
  | invalid cause => cause.details
  | unreadable fileName failure => failure.detailsOf "Io" fileName
  | malformed fault => s!"Json({fault.details})"

namespace Command

/-- Why the command ends early. -/
inductive CommandError
  | settings (error : SettingsError)
  | unwritable (fileName : String) (failure : FileFailure)
deriving DecidableEq, Repr

/-- An error with everything that is known of it. -/
def CommandError.details : CommandError → String
  | settings error => s!"Config({error.details})"
  | unwritable fileName failure => failure.detailsOf "Write" fileName

def CommandError.line (e : CommandError) : String :=
  s!"Error: {e.details}"

end Command

end UnionView
