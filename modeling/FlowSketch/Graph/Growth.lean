/-
# How a graph grows

Three operations change a graph: a node is drawn inside another one, a flow is drawn between
two nodes, and text is written on a node.  Each of them touches few nodes and removes
nothing.
-/
import FlowSketch.Graph.Basic

namespace FlowSketch

/-- What became of a text that was written on a node. -/
inductive WriteEffect where
  /-- A variable has a new value. -/
  | valueSet
  /-- A symbol has a purpose now. -/
  | symbolTyped (purpose : Purpose)
  /-- A symbol stays as it is: the text names no purpose, or it had one already. -/
  | symbolUnchanged
  /-- A scope takes no text. -/
  | ignored
deriving DecidableEq, Repr

/-- A text is written on a node of some kind. -/
def NodeKind.write (text : String) : NodeKind → WriteEffect × NodeKind
  | .var v => (.valueSet, .var (v.write text))
  | .symbol k =>
    match Purpose.ofText? text with
    | some purpose =>
      if k.purpose = .unset then (.symbolTyped purpose, .symbol { k with purpose })
      else (.symbolUnchanged, .symbol k)
    | none => (.symbolUnchanged, .symbol k)
  | .scope s => (.ignored, .scope s)

namespace Graph

/-- The graph with the kind of one node changed. -/
def modifyKind (g : Graph) (id : NodeId) (change : NodeKind → NodeKind) : Graph :=
  { g with nodes := g.nodes.modify id.index fun n => { n with kind := change n.kind } }

/-- Draws a node inside another one.  If there is no such other node, the new one belongs to
the root. -/
def addNode (g : Graph) (parent : NodeId) (kind : NodeKind) : NodeId × Graph :=
  let owner := if g.contains parent then parent else NodeId.root
  let id := g.nextNode
  let g := g.modifyKind owner (·.adopt id kind)
  (id, { g with nodes := g.nodes.push ⟨id, some owner, kind⟩ })

/-- Draws a flow between two nodes, from a point to a place around another one.  It is drawn
on if it begins strictly inside the marker of a flow that arrives at its source.  There is
no flow unless both nodes exist. -/
def connect (g : Graph) (source target : NodeId) (bounds : Rect) (origin : Point) :
    Option (FlowId × FlowRole × Graph) :=
  match g.node? source, g.node? target with
  | some s, some _ =>
    let drawnOn := (g.flowsOf s.links.incoming).any (·.bounds.encloses origin)
    let id := g.nextFlow
    let (role, kind) := s.kind.send id target drawnOn
    let g := g.modifyKind source fun _ => kind
    let g := g.modifyKind target (·.receive id)
    some (id, role, { g with flows := g.flows.push ⟨id, source, target, bounds, origin, role⟩ })
  | _, _ => none

/-- Writes a text on a node, if it exists. -/
def writeText (g : Graph) (id : NodeId) (text : String) : Option (WriteEffect × Graph) :=
  (g.node? id).map fun n =>
    let (effect, kind) := n.kind.write text
    (effect, g.modifyKind id fun _ => kind)

/-! ## What the operations do to single nodes and flows -/

@[simp] theorem size_modifyKind (g : Graph) (id : NodeId) (f : NodeKind → NodeKind) :
    (g.modifyKind id f).nodes.size = g.nodes.size := by
  simp [modifyKind]

@[simp] theorem flows_modifyKind (g : Graph) (id : NodeId) (f : NodeKind → NodeKind) :
    (g.modifyKind id f).flows = g.flows := rfl

/-- Only the named node changes, and of it only the kind. -/
theorem node?_modifyKind (g : Graph) (id other : NodeId) (f : NodeKind → NodeKind) :
    (g.modifyKind id f).node? other =
      if id = other then (g.node? other).map fun n => { n with kind := f n.kind }
      else g.node? other := by
  simp only [modifyKind, node?, Array.getElem?_modify]
  by_cases h : id = other
  · simp [h]
  · have : id.index ≠ other.index := fun hi => h (by cases id; cases other; simp_all)
    simp [h, this]

@[simp] theorem flows_addNode (g : Graph) (parent : NodeId) (kind : NodeKind) :
    (g.addNode parent kind).2.flows = g.flows := rfl

@[simp] theorem size_addNode (g : Graph) (parent : NodeId) (kind : NodeKind) :
    (g.addNode parent kind).2.nodes.size = g.nodes.size + 1 := by
  simp [addNode]

/-- A new node is found under the number that it was given. -/
theorem node?_addNode_self (g : Graph) (parent : NodeId) (kind : NodeKind) :
    (g.addNode parent kind).2.node? g.nextNode =
      some ⟨g.nextNode, some (if g.contains parent then parent else NodeId.root), kind⟩ := by
  have h := @Array.getElem?_push_size _ (g.modifyKind
    (if g.contains parent then parent else NodeId.root) (·.adopt g.nextNode kind)).nodes
    ⟨g.nextNode, some (if g.contains parent then parent else NodeId.root), kind⟩
  rw [size_modifyKind] at h
  exact h

/-- A flow needs both of its ends. -/
theorem connect_isSome (g : Graph) (source target : NodeId) (bounds : Rect) (origin : Point) :
    (g.connect source target bounds origin).isSome =
      (g.contains source && g.contains target) := by
  rw [← isSome_node?, ← isSome_node?]
  unfold connect
  cases g.node? source <;> cases g.node? target <;> rfl

theorem writeText_isSome (g : Graph) (id : NodeId) (text : String) :
    (g.writeText id text).isSome = g.contains id := by
  simp [writeText, isSome_node?]

end Graph

end FlowSketch
