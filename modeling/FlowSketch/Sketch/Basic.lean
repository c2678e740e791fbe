/-
# Sketches

A sketch is a surface with ink and territories on it, the graph that was drawn there, and
the flows that could not be tied to two nodes.  Strokes and texts change it.

A stroke with a node tool makes a node and claims the area next to the stroke's end for it.
A stroke with the flow tool connects the nodes that own its two ends.

Coordinates are unlimited here; `Sketch/Checked` does the same with numbers of thirty-two bits.
-/
import FlowSketch.Execution.OfGraph
import FlowSketch.Graph.Growth
import FlowSketch.Raster.Fill
import FlowSketch.Sketch.Tool

namespace FlowSketch

/-- What can be chosen about a sketch. -/
structure Settings where
  /-- The width of the surface. -/
  width : Nat := 800
  /-- The height of the surface. -/
  height : Nat := 600
  /-- Half the size of the marker around the arrival point of a flow. -/
  markerRadius : Int := 4
  /-- The way from the end of a node's stroke to the pixel whose area the node claims.
  Strokes are closed along their upper edge, so the pixel below lies inside. -/
  probe : Int × Int := (0, 1)
  /-- The number of calls that may be nested in a run. -/
  callDepth : Nat := 64
deriving DecidableEq, Repr

/-- A flow without a node at one of its ends. -/
structure UntiedFlow where
  /-- Where it was drawn from. -/
  start : Point
  /-- Where it was drawn to. -/
  finish : Point
deriving DecidableEq, Repr

/-- A finished stroke. -/
structure Stroke where
  /-- The tool. -/
  tool : Tool
  /-- Where it began. -/
  start : Point
  /-- Where it ended. -/
  finish : Point
deriving DecidableEq, Repr

/-- What a stroke did. -/
inductive StrokeEffect where
  /-- There is a new node. -/
  | node (id : NodeId)
  /-- There is a new flow. -/
  | flow (id : FlowId) (role : FlowRole)
  /-- There is a new untied flow, at a place in the list of these. -/
  | untied (index : Nat)
  /-- Nothing but ink. -/
  | ignored
deriving DecidableEq, Repr

/-- A sketch. -/
structure Sketch where
  /-- What was chosen for it. -/
  settings : Settings
  /-- The surface. -/
  canvas : Canvas
  /-- The owner of each pixel. -/
  owners : TerritoryMap
  /-- The graph. -/
  graph : Graph
  /-- The untied flows, oldest first. -/
  untied : Array UntiedFlow
deriving DecidableEq

namespace Sketch

/-- The empty sketch on a given surface. -/
def onCanvas (settings : Settings) (canvas : Canvas) : Sketch :=
  { settings, canvas
    owners := TerritoryMap.unclaimed canvas.width canvas.height
    graph := Graph.empty
    untied := #[] }

/-- The empty sketch on a blank surface. -/
def blank (settings : Settings) : Sketch :=
  onCanvas settings (Canvas.blank settings.width settings.height)

/-- The node that owns a pixel. -/
def ownerAt (s : Sketch) (p : Point) : Option NodeId := s.owners.get? p

/-- Leaves a line of ink. -/
def trace (s : Sketch) (tool : Tool) (a b : Point) : Sketch :=
  { s with canvas := s.canvas.drawLine a b tool.ink }

/-- Makes a node inside the owner of the stroke's end, or in the root if the end is off the
surface, and claims its territory. -/
def addNode (s : Sketch) (finish : Point) (kind : NodeKind) :
    Except FillError (StrokeEffect × Sketch) :=
  let ⟨settings, canvas, owners, graph, untied⟩ := s
  let parent := (owners.get? finish).getD NodeId.root
  let (id, graph) := graph.addNode parent kind
  let seed := finish.shift settings.probe.1 settings.probe.2
  let bounds := canvas.bounds
  match floodFill canvas owners seed id bounds with
  | .error e => .error e
  | .ok filled => .ok (.node id, ⟨settings, filled.canvas, filled.owners, graph, untied⟩)

/-- Marks the arrival point of a flow and connects the owners of its ends, or keeps it as
untied. -/
def addFlow (s : Sketch) (start finish : Point) : StrokeEffect × Sketch :=
  let marker := Rect.square finish s.settings.markerRadius
  let s := { s with canvas := s.canvas.drawOutline marker Tool.flow.ink }
  let connected := do
    let source ← s.ownerAt start
    let target ← s.ownerAt finish
    s.graph.connect source target marker start
  match connected with
  | some (id, role, graph) => (.flow id role, { s with graph })
  | none => (.untied s.untied.size, { s with untied := s.untied.push ⟨start, finish⟩ })

/-- Takes a finished stroke in. -/
def apply (s : Sketch) (stroke : Stroke) : Except FillError (StrokeEffect × Sketch) :=
  match stroke.tool.nodeKind? with
  | some kind => s.addNode stroke.finish kind
  | none =>
    if stroke.tool = .flow then .ok (s.addFlow stroke.start stroke.finish)
    else .ok (.ignored, s)

/-- Writes a text on the node that owns a pixel, if there is one. -/
def writeText (s : Sketch) (place : Point) (text : String) : Option (WriteEffect × Sketch) := do
  let id ← s.ownerAt place
  let (effect, graph) ← s.graph.writeText id text
  return (effect, { s with graph })

/-- The program text of a sketch. -/
def compile (s : Sketch) : Except Problem String := s.graph.compile

/-- Compiles a sketch and runs its program. -/
def run (s : Sketch) (inputs : List String) : RunReport SketchError :=
  s.graph.run s.settings.callDepth inputs

/-! ## What strokes leave alone -/

@[simp] theorem graph_trace (s : Sketch) (tool : Tool) (a b : Point) :
    (s.trace tool a b).graph = s.graph := rfl

@[simp] theorem owners_trace (s : Sketch) (tool : Tool) (a b : Point) :
    (s.trace tool a b).owners = s.owners := rfl

@[simp] theorem owners_addFlow (s : Sketch) (start finish : Point) :
    (s.addFlow start finish).2.owners = s.owners := by
  unfold addFlow
  dsimp only
  split <;> rfl

/-- A comment leaves nothing but its ink. -/
theorem apply_comment (s : Sketch) (start finish : Point) :
    s.apply ⟨.comment, start, finish⟩ = .ok (.ignored, s) := rfl

end Sketch

end FlowSketch
