import UnionView.Attribute.Arguments
import UnionView.Dispatch.Evaluation
import UnionView.Dispatch.Expansion

/-!
# Panels

An example of unions that are drawn by their generated dispatchers: the sheets and panels of a
window. The dispatchers come from the declarations below; the renderers of the payloads are given
by hand.
-/

namespace UnionView.Example

/-! ### The unions -/

inductive PanelUnion
  | sheet
  | panel
  | sidebar
  | wrapper
  | detail
deriving DecidableEq, Repr

namespace PanelUnion

def argumentsText : PanelUnion → String
  | sidebar => "renderers(Info = CompactInfo)"
  | detail => "runtime = crate::ui"
  | _ => ""

def declarationText : PanelUnion → String
  | sheet => "enum Sheet \x7b Info(Info), Settings(Settings) \x7d"
  | panel =>
    "enum Panel \x7b Settings \x7b settings: Settings, dirty: bool \x7d, Both(Info, Settings), " ++
      "Closed, Nothing(), NoFields \x7b\x7d, Coordinates((i64, i64)), Sheet(Sheet), " ++
      "List \x7b items: List \x7d \x7d"
  | sidebar => "enum Sidebar \x7b Info(Info), Settings(Settings) \x7d"
  | wrapper => "enum Wrapper<T: Display> \x7b Value(Held<T>), Missing \x7d"
  | detail => "enum Detail \x7b Info(Info) \x7d"

/-- The settings for a union: those by default under the arguments of its attribute. -/
def settings (u : PanelUnion) : Settings :=
  match readText AttributeArguments.ofCode u.argumentsText with
  | .ok (_, arguments) => arguments.applyTo {}
  | .error _ => {}

def artifact? (u : PanelUnion) : Option Artifact :=
  match readText Code.item? u.declarationText with
  | .ok (_, item) => (item.expand u.settings).artifact
  | .error _ => none

end PanelUnion

/-! ### The renderers -/

/-- A payload as far as views are concerned: what the renderer of a name draws of it. -/
abbrev Payload := (renderer : String) → Element

def drawPayload (renderer : Path) (store : Store Payload) : Element :=
  store.state renderer.lastName

def PanelUnion.draw (u : PanelUnion) (v : UnionValue Payload) : Element :=
  match u.artifact? with
  | some artifact =>
    ((artifact.body.body artifact.owner).draw? drawPayload { state := v }).getD .empty
  | none => .empty

/-- A number, which is drawn with its parity or in short. -/
def infoPayload (number : Int) : Payload
  | "InfoView" => .text (toString number ++ if number % 2 = 0 then " is even" else " is odd")
  | "CompactInfo" => .text s!"#{number}"
  | _ => .empty

def settingsPayload (tint : String) : Payload
  | "SettingsView" => .text s!"tint: {tint}"
  | _ => .empty

def heldPayload (text : String) : Payload
  | "HeldView" => .text text
  | _ => .empty

/-- Panels that are drawn already. -/
def listPayload (items : List Element) : Payload
  | "ListView" => .grouped items
  | _ => .empty

/-- A payload that nothing draws. -/
def plainPayload : Payload :=
  fun _ => .empty

/-! ### The states -/

inductive SheetState
  | info (number : Int)
  | settings (tint : String)
deriving DecidableEq, Repr, Inhabited

namespace SheetState

/-- The value of a union that has these two variants. -/
def value : SheetState → UnionValue Payload
  | info number => { variant := "Info", fields := .tuple [infoPayload number] }
  | settings tint => { variant := "Settings", fields := .tuple [settingsPayload tint] }

def draw (s : SheetState) : Element :=
  PanelUnion.sheet.draw s.value

def drawInSidebar (s : SheetState) : Element :=
  PanelUnion.sidebar.draw s.value

def payload (s : SheetState) : Payload
  | "SheetView" => s.draw
  | _ => .empty

end SheetState

inductive PanelState where
  | settings (tint : String)
  | both (number : Int) (tint : String)
  | closed
  | nothing
  | noFields
  | coordinates
  | sheet (state : SheetState)
  | list (items : List PanelState)
deriving Repr, Inhabited

namespace PanelState

mutual

def draw : PanelState → Element
  | settings tint =>
    PanelUnion.panel.draw
      { variant := "Settings"
        fields := .named [("settings", settingsPayload tint), ("dirty", plainPayload)] }
  | both number tint =>
    PanelUnion.panel.draw
      { variant := "Both", fields := .tuple [infoPayload number, settingsPayload tint] }
  | closed => PanelUnion.panel.draw { variant := "Closed", fields := .unit }
  | nothing => PanelUnion.panel.draw { variant := "Nothing", fields := .tuple [] }
  | noFields => PanelUnion.panel.draw { variant := "NoFields", fields := .named [] }
  | coordinates =>
    PanelUnion.panel.draw { variant := "Coordinates", fields := .tuple [plainPayload] }
  | sheet state => PanelUnion.panel.draw { variant := "Sheet", fields := .tuple [state.payload] }
  | list items =>
    PanelUnion.panel.draw
      { variant := "List", fields := .named [("items", listPayload (drawAll items))] }

def drawAll : List PanelState → List Element
  | [] => []
  | item :: rest => item.draw :: drawAll rest

end

end PanelState

/-- A value in a wrapper, or none, as the dispatcher of the wrapper draws it. -/
def drawWrapper (held : Option String) : Element :=
  match held with
  | some text => PanelUnion.wrapper.draw { variant := "Value", fields := .tuple [heldPayload text] }
  | none => PanelUnion.wrapper.draw { variant := "Missing", fields := .unit }

def drawDetail (number : Int) : Element :=
  PanelUnion.detail.draw { variant := "Info", fields := .tuple [infoPayload number] }

end UnionView.Example
