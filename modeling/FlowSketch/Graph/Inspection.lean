/-
# Looking into a graph

A graph as a document: its nodes and its flows in order of creation, with everything that
is known of each.
-/
import FlowSketch.Document
import FlowSketch.Graph.Basic

namespace FlowSketch

/-- The number of a node. -/
def NodeId.document (id : NodeId) : Document := .number id.index

/-- The number of a flow. -/
def FlowId.document (id : FlowId) : Document := .number id.index

/-- The numbers of nodes. -/
def NodeId.documents (ids : List NodeId) : Document := .list (ids.map document)

/-- The numbers of flows. -/
def FlowId.documents (ids : List FlowId) : Document := .list (ids.map document)

/-- A point with its coordinates named. -/
def Point.document (p : Point) : Document := .record [("x", .number p.x), ("y", .number p.y)]

/-- A rectangle with its parts named. -/
def Rect.document (r : Rect) : Document :=
  .record [("x", .number r.x), ("y", .number r.y), ("w", .number r.w), ("h", .number r.h)]

/-- The name of a role. -/
def FlowRole.name : FlowRole → String
  | start => "Start"
  | continuation => "Continuation"
  | branch => "Branch"

/-- The name of a purpose. -/
def Purpose.name : Purpose → String
  | unset => "Unset"
  | input => "In"
  | output => "Out"
  | compare => "Compare"

/-- The flows of a node. -/
def Links.document (l : Links) : Document :=
  .record [
    ("incoming", FlowId.documents l.incoming),
    ("outgoing", FlowId.documents l.outgoing),
    ("branches", FlowId.documents l.branches),
    ("last_to", Document.ofOption NodeId.document l.next)]

/-- A scope, without the tag of its kind. -/
def Scope.document (s : Scope) : Document :=
  .record [
    ("sub_scopes", NodeId.documents s.scopes),
    ("variables", NodeId.documents s.vars),
    ("key_symbols", NodeId.documents s.symbols),
    ("start", Document.ofOption NodeId.document s.start),
    ("links", s.links.document)]

/-- A variable, without the tag of its kind. -/
def Variable.document (v : Variable) : Document :=
  .record [
    ("members", NodeId.documents v.members),
    ("value", Document.ofOption .text v.value),
    ("atomic", .truth v.atomic),
    ("links", v.links.document)]

/-- A symbol, without the tag of its kind. -/
def Symbol.document (k : Symbol) : Document :=
  .record [("symbol", .text k.purpose.name), ("links", k.links.document)]

/-- What a node stands for, under the tag of its kind. -/
def NodeKind.document : NodeKind → Document
  | scope s => .record [("Scope", s.document)]
  | var v => .record [("Variable", v.document)]
  | symbol k => .record [("KeySymbol", k.document)]

/-- A node. -/
def Node.document (n : Node) : Document :=
  .record [
    ("id", n.id.document),
    ("parent", Document.ofOption NodeId.document n.parent),
    ("kind", n.kind.document)]

/-- A flow. -/
def Flow.document (f : Flow) : Document :=
  .record [
    ("id", f.id.document),
    ("source", f.source.document),
    ("target", f.target.document),
    ("bounds", f.bounds.document),
    ("origin", f.origin.document),
    ("role", .text f.role.name)]

/-- A graph. -/
def Graph.document (g : Graph) : Document :=
  .record [
    ("nodes", .list (g.nodes.toList.map Node.document)),
    ("edges", .list (g.flows.toList.map Flow.document))]

end FlowSketch
