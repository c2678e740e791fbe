/-
# The graph of a sketch

A sketch is a graph.  Its nodes are scopes, which stand for functions, variables, which
stand for values, and symbols, which stand for input, output and comparison; its flows lead
from node to node.  Every node keeps the flows that arrive at it and those that leave it,
and it decides, when a flow leaves it, what part that flow plays.

Nodes and flows are never removed.
-/
import FlowSketch.Raster.Geometry
import FlowSketch.Graph.Id
import FlowSketch.Text.Blank

namespace FlowSketch

/-! ## Flows -/

/-- The part that a flow plays for the node that it leaves. -/
inductive FlowRole where
  /-- From a scope to one of its children: the way into the body. -/
  | start
  /-- Drawn on from where an earlier flow arrived: what comes next. -/
  | continuation
  /-- Any other: an argument, the target of an input, a side of a comparison. -/
  | branch
deriving DecidableEq, Repr, Inhabited

/-- A flow from one node to another. -/
structure Flow where
  /-- The number of the flow. -/
  id : FlowId
  /-- The node that it leaves. -/
  source : NodeId
  /-- The node at which it arrives. -/
  target : NodeId
  /-- The marker around its arrival point. -/
  bounds : Rect
  /-- The point from which it was drawn. -/
  origin : Point
  /-- Its part for the source. -/
  role : FlowRole
deriving DecidableEq, Repr, Inhabited

/-- The flows of one node, in order of registration. -/
structure Links where
  /-- The flows that arrive. -/
  incoming : List FlowId := []
  /-- The flows that leave. -/
  outgoing : List FlowId := []
  /-- Those of the leaving flows that are branches. -/
  branches : List FlowId := []
  /-- The target of the latest continuation. -/
  next : Option NodeId := none
deriving DecidableEq, Repr, Inhabited

namespace Links

/-- A flow arrives. -/
def arrive (l : Links) (f : FlowId) : Links := { l with incoming := l.incoming ++ [f] }

/-- A flow leaves as a way into the body. -/
def leave (l : Links) (f : FlowId) : Links := { l with outgoing := l.outgoing ++ [f] }

/-- A flow leaves as a continuation towards a node. -/
def continueTo (l : Links) (f : FlowId) (target : NodeId) : Links :=
  { l.leave f with next := some target }

/-- A flow leaves as a branch. -/
def branchOff (l : Links) (f : FlowId) : Links :=
  { l.leave f with branches := l.branches ++ [f] }

/-- A flow leaves as a continuation if it was drawn on from an arrival point, and as a
branch if not. -/
def route (l : Links) (f : FlowId) (target : NodeId) (drawnOn : Bool) : FlowRole × Links :=
  if drawnOn then (.continuation, l.continueTo f target) else (.branch, l.branchOff f)

end Links

/-! ## Nodes -/

/-- A scope: an area that stands for a function. -/
structure Scope where
  /-- The scopes drawn directly inside. -/
  scopes : List NodeId := []
  /-- The variables drawn directly inside. -/
  vars : List NodeId := []
  /-- The symbols drawn directly inside. -/
  symbols : List NodeId := []
  /-- The first node of the body, set by the first flow to a child. -/
  start : Option NodeId := none
  /-- The flows of the scope. -/
  links : Links := {}
deriving DecidableEq, Repr, Inhabited

namespace Scope

/-- Whether a node is a child.  Symbols belong to a scope without being children. -/
def hasChild (s : Scope) (id : NodeId) : Bool := s.scopes.contains id || s.vars.contains id

/-- A flow leaves the scope.  Towards a child it leads into the body, and the first such
flow sets the start. -/
def send (s : Scope) (f : FlowId) (target : NodeId) (drawnOn : Bool) : FlowRole × Scope :=
  if s.hasChild target then
    (.start, { s with start := s.start.or (some target), links := s.links.leave f })
  else
    let (role, links) := s.links.route f target drawnOn
    (role, { s with links })

end Scope

/-- A variable: a value of its own, or one composed of the variables drawn inside. -/
structure Variable where
  /-- The variables drawn directly inside. -/
  members : List NodeId := []
  /-- The text last written on it. -/
  value : Option String := none
  /-- Whether it has a value of its own: no member was added since text was last written. -/
  atomic : Bool := true
  /-- The flows of the variable. -/
  links : Links := {}
deriving DecidableEq, Repr, Inhabited

namespace Variable

/-- A variable is drawn inside. -/
def takeIn (v : Variable) (id : NodeId) : Variable :=
  { v with members := v.members ++ [id], atomic := false }

/-- A text is written on the variable. -/
def write (v : Variable) (text : String) : Variable :=
  { v with value := some text, atomic := true }

end Variable

/-- What a symbol is for. -/
inductive Purpose where
  /-- That is not known. -/
  | unset
  /-- It reads a line. -/
  | input
  /-- It prints a value. -/
  | output
  /-- It compares two values. -/
  | compare
deriving DecidableEq, Repr, Inhabited

namespace Purpose

/-- The purpose that a text names, whatever the case of its letters and the blanks
around it. -/
def ofText? (text : String) : Option Purpose :=
  match String.ofList ((Text.trim text.toList).map Char.toUpper) with
  | "IN" | "INPUT" => some .input
  | "OUT" | "OUTPUT" => some .output
  | "COMPARE" | "GT" | ">" => some .compare
  | _ => none

/-- The purpose that the numbers of arriving and leaving flows suggest. -/
def ofShape (incoming outgoing : Nat) : Purpose :=
  match incoming, outgoing with
  | 0, 1 => .input
  | 0, _ => .unset
  | _ + 1, 0 => .output
  | 2, 2 => .compare
  | _, _ => .unset

end Purpose

/-- A symbol for input, output or comparison. -/
structure Symbol where
  /-- The purpose that was written on it. -/
  purpose : Purpose := .unset
  /-- The flows of the symbol. -/
  links : Links := {}
deriving DecidableEq, Repr, Inhabited

/-- The purpose that a symbol has: the one written on it, or else the one that its flows
suggest.  Of the leaving flows only branches count. -/
def Symbol.effective (k : Symbol) : Purpose :=
  if k.purpose = .unset then
    Purpose.ofShape k.links.incoming.length k.links.branches.length
  else k.purpose

/-- The kinds of nodes. -/
inductive NodeKind where
  | scope (s : Scope)
  | var (v : Variable)
  | symbol (k : Symbol)
deriving DecidableEq, Repr, Inhabited

namespace NodeKind

/-- The word for the kind. -/
def label : NodeKind → String
  | scope _ => "scope"
  | var _ => "variable"
  | symbol _ => "key symbol"

/-- The flows of a node. -/
def links : NodeKind → Links
  | scope s => s.links
  | var v => v.links
  | symbol k => k.links

/-- A flow arrives at a node. -/
def receive (f : FlowId) : NodeKind → NodeKind
  | scope s => scope { s with links := s.links.arrive f }
  | var v => var { v with links := v.links.arrive f }
  | symbol k => symbol { k with links := k.links.arrive f }

/-- A flow leaves a node, which decides on its role. -/
def send (f : FlowId) (target : NodeId) (drawnOn : Bool) : NodeKind → FlowRole × NodeKind
  | scope s =>
    let (role, s) := s.send f target drawnOn
    (role, scope s)
  | var v =>
    let (role, links) := v.links.route f target drawnOn
    (role, var { v with links })
  | symbol k =>
    let (role, links) := k.links.route f target drawnOn
    (role, symbol { k with links })

/-- Another node is drawn inside a node.  A scope takes any kind in, a variable takes
variables as members, and for the rest nothing is noted. -/
def adopt (owner : NodeKind) (id : NodeId) (child : NodeKind) : NodeKind :=
  match owner, child with
  | scope s, scope _ => scope { s with scopes := s.scopes ++ [id] }
  | scope s, var _ => scope { s with vars := s.vars ++ [id] }
  | scope s, symbol _ => scope { s with symbols := s.symbols ++ [id] }
  | var v, var _ => var (v.takeIn id)
  | owner, _ => owner

end NodeKind

/-- A node. -/
structure Node where
  /-- The number of the node. -/
  id : NodeId
  /-- The node in whose territory it was drawn; only the root has none. -/
  parent : Option NodeId
  /-- What the node stands for. -/
  kind : NodeKind
deriving DecidableEq, Repr, Inhabited

namespace Node

/-- The spoken name of a node. -/
def name (n : Node) : String := n.id.name

/-- The flows of a node. -/
def links (n : Node) : Links := n.kind.links

/-- The scope that a node is, if it is one. -/
def scope? (n : Node) : Option Scope :=
  match n.kind with
  | .scope s => some s
  | _ => none

/-- The variable that a node is, if it is one. -/
def var? (n : Node) : Option Variable :=
  match n.kind with
  | .var v => some v
  | _ => none

/-- The symbol that a node is, if it is one. -/
def symbol? (n : Node) : Option Symbol :=
  match n.kind with
  | .symbol k => some k
  | _ => none

/-- Whether a node is a variable. -/
def isVariable (n : Node) : Bool := n.var?.isSome

end Node

/-! ## Graphs -/

/-- A graph: the nodes and the flows of a sketch, each at the place that its number
gives. -/
structure Graph where
  /-- The nodes. -/
  nodes : Array Node
  /-- The flows. -/
  flows : Array Flow
deriving DecidableEq, Repr

namespace Graph

/-- The graph with the root scope only. -/
def empty : Graph := ⟨#[⟨NodeId.root, none, .scope {}⟩], #[]⟩

/-- A node by number. -/
def node? (g : Graph) (id : NodeId) : Option Node := g.nodes[id.index]?

/-- A flow by number. -/
def flow? (g : Graph) (id : FlowId) : Option Flow := g.flows[id.index]?

/-- Whether the graph has a node of that number. -/
def contains (g : Graph) (id : NodeId) : Bool := id.index < g.nodes.size

/-- The number that the next node will have. -/
def nextNode (g : Graph) : NodeId := ⟨g.nodes.size⟩

/-- The number that the next flow will have. -/
def nextFlow (g : Graph) : FlowId := ⟨g.flows.size⟩

/-- The flows of a list of numbers, those that exist, in the same order. -/
def flowsOf (g : Graph) (ids : List FlowId) : List Flow := ids.filterMap g.flow?

/-- Whether a number is that of a variable. -/
def isVariable (g : Graph) (id : NodeId) : Bool := (g.node? id).any Node.isVariable

theorem contains_iff {g : Graph} {id : NodeId} :
    g.contains id = true ↔ id.index < g.nodes.size := by
  simp [contains]

theorem isSome_node? {g : Graph} {id : NodeId} : (g.node? id).isSome = g.contains id := by
  rw [Bool.eq_iff_iff]
  simp [node?, contains]

theorem contains_of_node? {g : Graph} {id : NodeId} {n : Node} (h : g.node? id = some n) :
    g.contains id = true := by
  rw [← isSome_node?, h]
  rfl

theorem isVariable_of_node? {g : Graph} {id : NodeId} {n : Node} (h : g.node? id = some n) :
    g.isVariable id = n.isVariable := by
  rw [isVariable, h]
  rfl

end Graph

end FlowSketch
