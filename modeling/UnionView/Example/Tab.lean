import UnionView.Text.Quoted
import UnionView.View.Store

/-!
# A union in a store

An example of a state that a store is narrowed to: one tab of a window, which may hold another.
-/

namespace UnionView.Example

inductive Tab where
  | counter (value : Int)
  | label (text : String)
  | inner (tab : Tab)
  | closed
deriving Repr, DecidableEq, Inhabited

namespace Tab

def toText : Tab → String
  | counter value => s!"Counter({value})"
  | label text => s!"Label \x7b text: {Text.quote text} \x7d"
  | inner tab => s!"Inner({tab.toText})"
  | closed => "Closed"

def counter? : Tab → Option Int
  | counter value => some value
  | _ => none

def label? : Tab → Option String
  | label text => some text
  | _ => none

def inner? : Tab → Option Tab
  | inner tab => some tab
  | _ => none

end Tab

end UnionView.Example
