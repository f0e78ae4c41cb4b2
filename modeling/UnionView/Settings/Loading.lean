import UnionView.Directory.Basic
import UnionView.Settings.Json

/-!
# Loading settings

Settings come from a document or a file. Loading a file does not validate what it says; building
the settings does.
-/

namespace UnionView

inductive SettingsError
  | invalid (cause : InvalidSettings)
  | unreadable (fileName : String) (failure : FileFailure)
  | malformed (fault : JsonError)
deriving DecidableEq, Repr

def SettingsError.message : SettingsError → String
  | invalid cause => cause.message
  | unreadable fileName failure => s!"failed to read config file {fileName}: {failure.message}"
  | malformed fault => s!"malformed config file: {fault.message}"

/-- The settings that are written down, where other errors are possible as well. -/
def SettingsFile.build (file : SettingsFile) : Except SettingsError Settings :=
  file.settings?.mapError .invalid

def Settings.ofJson (text : String) : Except SettingsError Settings := do
  (← (SettingsFile.ofJson text).mapError .malformed).build

namespace Workplace

/-- What is written down in a file. -/
def loadSettings (w : Workplace) (fileName : String) : Except SettingsError SettingsFile := do
  let text ← (w.read fileName).mapError (.unreadable fileName)
  (SettingsFile.ofJson text).mapError .malformed

def settings (w : Workplace) (fileName : String) : Except SettingsError Settings := do
  (← w.loadSettings fileName).build

end Workplace

end UnionView
