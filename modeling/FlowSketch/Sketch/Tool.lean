/-
# Drawing tools

Three tools draw nodes, one draws flows, and one only leaves ink.  Each has an ink of its
own.
-/
import FlowSketch.Graph.Basic
import FlowSketch.Raster.Color

namespace FlowSketch

/-- The drawing tools. -/
inductive Tool where
  | scope
  | var
  | symbol
  | flow
  | comment
deriving DecidableEq, Repr, Inhabited

namespace Tool

/-- The tools, in the order in which they are offered. -/
def all : List Tool := [.scope, .var, .symbol, .flow, .comment]

/-- The name of a tool. -/
def name : Tool → String
  | .scope => "Scope"
  | .var => "Variable"
  | .symbol => "KeySymbol"
  | .flow => "Flow"
  | .comment => "Comment"

/-- The tool of a name. -/
def ofName? (name : String) : Option Tool := all.find? fun t => t.name == name

/-- The color of a tool's ink. -/
def ink : Tool → Color
  | .scope => Color.rgb 0x00 0x00 0x00
  | .var => Color.rgb 0x00 0xFF 0x00
  | .symbol => Color.rgb 0x00 0x00 0xFF
  | .flow => Color.rgb 0xFF 0x00 0x00
  | .comment => Color.rgb 0xFF 0xFF 0x00

/-- The kind of node that a tool draws. -/
def nodeKind? : Tool → Option NodeKind
  | .scope => some (.scope {})
  | .var => some (.var {})
  | .symbol => some (.symbol {})
  | .flow => none
  | .comment => none

@[simp] theorem ofName?_name (t : Tool) : ofName? t.name = some t := by
  cases t <;> decide

theorem name_of_ofName? {name : String} {t : Tool} (h : ofName? name = some t) :
    t.name = name := by
  simpa using List.find?_some h

end Tool

end FlowSketch
