import UnionView.Command.Arguments

/-!
# Texts about the command

What the command says of itself, and of arguments that it cannot use.
-/

namespace UnionView.Command

def name : String := "caseview"

def version : String := "0.1.0"

/-- The line that the command answers when it is asked for its version. -/
def versionText : String := s!"{name} {version}\n"

/-- How the command is called. -/
def usageLine : String := s!"Usage: {name} [OPTIONS] <INPUTS>..."

/-- The text that the command answers when it is asked for help. -/
def helpText : String :=
  String.intercalate "\n"
    [ "caseview - generate switch-case views for tagged unions"
    , ""
    , usageLine
    , ""
    , "Arguments:"
    , "  <INPUTS>...  Source files, or directories to search for `.rs` files"
    , ""
    , "Options:"
    , "  -t, --type <NAME>           Also generate for the enum with this name"
    , "      --runtime <PATH>        Path of the runtime the generated code refers to"
    , "  -r, --renderer <TYPE=PATH>  Explicit renderer for a payload type"
    , "  -c, --config <FILE>         JSON config file; options override its values"
    , "  -o, --output <FILE>         Write the generated code to this file"
    , "      --raw                   Write the generated code as it is"
    , "      --deny-warnings         Fail when any warning is reported"
    , "  -j, --jobs <JOBS>           Number of worker threads"
    , "  -v, --verbose...            More logging"
    , "  -h, --help                  Print help"
    , "  -V, --version               Print version"
    , "" ]

/-- What is wrong with the arguments. -/
def UsageError.message : UsageError → String
  | noInputs => "the following required arguments were not provided: <INPUTS>..."
  | unknownOption text => s!"unexpected argument '{text}' found"
  | repeatedOption => "an option cannot be used multiple times"
  | noValue => "a value is required for an option but none was supplied"
  | badNumber text => s!"invalid number '{text}'"
  | unneededValue => "unexpected value for an option that takes none"
  | helpWanted => "help was asked for"
  | versionWanted => "the version was asked for"

end UnionView.Command
