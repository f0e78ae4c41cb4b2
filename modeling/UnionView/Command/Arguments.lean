import UnionView.Settings.Loading

/-!
# Arguments of the command

The command takes inputs and options. An option has a long name behind two dashes, and some have
a letter behind one; letters can stand together. A value stands behind the option or is attached
to it, with or without `=` behind a letter and with `=` behind a long name. Two dashes end the
options.

A value that is not attached is checked only when the next option or the end is reached; so an
unknown option is reported before a bad value in front of it.
-/

namespace UnionView.Command

/-- The arguments of the command. -/
structure Arguments where
  inputs : List String := []
  /-- The names of declarations that need not have the attribute. -/
  names : List String := []
  runtime : Option String := none
  /-- Renderers that are written `Type=path`. -/
  renderers : List String := []
  settingsFile : Option String := none
  output : Option String := none
  /-- Whether the generated code is written as it is. -/
  raw : Bool := false
  denyWarnings : Bool := false
  jobs : Option Nat := none
  /-- How often more logging was asked for, up to 255. -/
  verbosity : Nat := 0
deriving DecidableEq, Repr

/-- Why the arguments are not used: something is wrong with them, or they only ask for a text. -/
inductive UsageError
  | noInputs
  | unknownOption (text : String)
  | repeatedOption
  | noValue
  | badNumber (text : String)
  | unneededValue
  | helpWanted
  | versionWanted
deriving DecidableEq, Repr

inductive ValueOption
  | name
  | runtime
  | renderer
  | settingsFile
  | output
  | jobs
deriving DecidableEq, Repr

/-- The options that take no value. -/
inductive Flag
  | raw
  | denyWarnings
  | verbose
  | help
  | version
deriving DecidableEq, Repr

/-- An option of the command. -/
inductive Choice
  | value (option : ValueOption)
  | flag (flag : Flag)
deriving DecidableEq, Repr

namespace Choice

def ofLong? : String → Option Choice
  | "type" => some (value .name)
  | "runtime" => some (value .runtime)
  | "renderer" => some (value .renderer)
  | "config" => some (value .settingsFile)
  | "output" => some (value .output)
  | "jobs" => some (value .jobs)
  | "raw" => some (flag .raw)
  | "deny-warnings" => some (flag .denyWarnings)
  | "verbose" => some (flag .verbose)
  | "help" => some (flag .help)
  | "version" => some (flag .version)
  | _ => none

def ofLetter? : Char → Option Choice
  | 't' => some (value .name)
  | 'r' => some (value .renderer)
  | 'c' => some (value .settingsFile)
  | 'o' => some (value .output)
  | 'j' => some (value .jobs)
  | 'v' => some (flag .verbose)
  | 'h' => some (flag .help)
  | 'V' => some (flag .version)
  | _ => none

end Choice

/-- Values that are not checked yet. -/
inductive Pending
  | nothing
  | inputs (values : List String)
  /-- An option that takes a value, and the value if it has been met. -/
  | option (option : ValueOption) (value : Option String)
deriving DecidableEq, Repr

/-- What is known behind some of the words. -/
structure Progress where
  arguments : Arguments := {}
  pending : Pending := .nothing
  /-- Whether only inputs can follow. -/
  optionsEnded : Bool := false
deriving DecidableEq, Repr

/-! ### Checking values -/

def maxJobs : Nat := UInt64.size - 1

/-- The number that a text is: digits, perhaps behind a plus sign. -/
def readNumber? (text : String) : Option Nat :=
  let digits :=
    match text.toList with
    | '+' :: rest => rest
    | cs => cs
  if digits.isEmpty || digits.any (!Char.isDigit ·) then none
  else
    let n := digits.foldl (fun n c => 10 * n + (c.toNat - '0'.toNat)) 0
    if n ≤ maxJobs then some n else none

/-- A file name, which cannot be empty. -/
def checkFileName (text : String) : Except UsageError String :=
  if text = "" then .error .noValue else .ok text

/-- A value in a place that had none. A second value for the option is an error, whatever it is. -/
def fill {α β : Type} (old : Option α) (value : Except UsageError β) : Except UsageError β :=
  if old.isSome then .error .repeatedOption else value

namespace Arguments

def withValue (a : Arguments) (option : ValueOption) (text : String) :
    Except UsageError Arguments := do
  match option with
  | .name => return { a with names := a.names ++ [text] }
  | .runtime => return { a with runtime := some (← fill a.runtime (.ok text)) }
  | .renderer => return { a with renderers := a.renderers ++ [text] }
  | .settingsFile =>
    return { a with settingsFile := some (← fill a.settingsFile (checkFileName text)) }
  | .output => return { a with output := some (← fill a.output (checkFileName text)) }
  | .jobs =>
    let number : Except UsageError Nat :=
      match readNumber? text with
      | some n => .ok n
      | none => .error (.badNumber text)
    return { a with jobs := some (← fill a.jobs number) }

/-- Takes an option without a value. -/
def withFlag (a : Arguments) : Flag → Except UsageError Arguments
  | .raw => if a.raw then .error .repeatedOption else .ok { a with raw := true }
  | .denyWarnings =>
    if a.denyWarnings then .error .repeatedOption else .ok { a with denyWarnings := true }
  | .verbose => .ok { a with verbosity := min 255 (a.verbosity + 1) }
  | .help => .error .helpWanted
  | .version => .error .versionWanted

end Arguments

/-! ### Reading words -/

namespace Progress

/-- Checks the values that have not been checked yet. -/
def settle (p : Progress) : Except UsageError Progress := do
  let arguments ←
    match p.pending with
    | .nothing => pure p.arguments
    | .inputs values =>
      pure { p.arguments with inputs := p.arguments.inputs ++ (← values.mapM checkFileName) }
    | .option option (some text) => p.arguments.withValue option text
    | .option _ none => throw .noValue
  return { p with arguments, pending := .nothing }

/-- Takes a word that is no option. -/
def takeWord (p : Progress) (word : String) : Except UsageError Progress := do
  match p.pending with
  | .option option none =>
    if p.optionsEnded then throw .noValue
    else return { p with pending := .option option (some word) }
  | .inputs values => return { p with pending := .inputs (values ++ [word]) }
  | _ => return { (← p.settle) with pending := .inputs [word] }

/-- Takes an option that takes a value, which may be attached to it. -/
def takeOption (p : Progress) (option : ValueOption) (attached : Option String) :
    Except UsageError Progress := do
  let p ← p.settle
  match attached with
  | some text => return { p with arguments := ← p.arguments.withValue option text }
  | none => return { p with pending := .option option none }

/-- Takes an option without a value. -/
def takeFlag (p : Progress) (flag : Flag) : Except UsageError Progress := do
  let p ← p.settle
  return { p with arguments := ← p.arguments.withFlag flag }

/-- Takes an option by its long name, with what stands behind an equals sign. -/
def takeLong (p : Progress) (long : String) (attached : Option String) :
    Except UsageError Progress :=
  match Choice.ofLong? long, attached with
  | some (.value option), _ => p.takeOption option attached
  | some (.flag _), some _ => .error .unneededValue
  | some (.flag flag), none => p.takeFlag flag
  | none, _ => .error (.unknownOption s!"--{long}")

/-- The value that is attached to a letter. An equals sign in front does not belong to it. -/
def attachedValue : List Char → Option String
  | [] => none
  | '=' :: rest => some (String.ofList rest)
  | rest => some (String.ofList rest)

/-- Takes options by their letters. What follows the letter of an option with a value is the
value. -/
def takeLetters (p : Progress) : List Char → Except UsageError Progress
  | [] => .ok p
  | c :: rest =>
    match Choice.ofLetter? c with
    | some (.value option) => p.takeOption option (attachedValue rest)
    | some (.flag flag) => do (← p.takeFlag flag).takeLetters rest
    | none => .error (.unknownOption s!"-{c}")

def take (p : Progress) (word : String) : Except UsageError Progress :=
  if p.optionsEnded then p.takeWord word
  else
    match word.toList with
    | ['-', '-'] => .ok { p with optionsEnded := true }
    | '-' :: '-' :: rest =>
      let attached :=
        match rest.dropWhile (· ≠ '=') with
        | [] => none
        | _ :: value => some (String.ofList value)
      p.takeLong (String.ofList (rest.takeWhile (· ≠ '='))) attached
    | '-' :: c :: rest => p.takeLetters (c :: rest)
    | _ => p.takeWord word

end Progress

namespace Arguments

def ofWords (words : List String) : Except UsageError Arguments := do
  let p ← (← words.foldlM Progress.take {}).settle
  if p.arguments.inputs.isEmpty then throw .noInputs else return p.arguments

/-- The least severe messages that are logged. -/
def logLevel (a : Arguments) : String :=
  match a.verbosity with
  | 0 => "warn"
  | 1 => "info"
  | 2 => "debug"
  | _ => "trace"

/-- The settings file that the arguments name, with what the arguments say laid over it. -/
def settings (a : Arguments) (w : Workplace) : Except SettingsError SettingsFile := do
  let file : SettingsFile ←
    match a.settingsFile with
    | some fileName => w.loadSettings fileName
    | none => pure {}
  let edited : Except InvalidSettings SettingsFile := do
    let file ←
      match a.runtime with
      | some runtime => file.setRuntime runtime
      | none => pure file
    a.renderers.foldlM SettingsFile.setRenderer file
  edited.mapError .invalid

end Arguments

end UnionView.Command
