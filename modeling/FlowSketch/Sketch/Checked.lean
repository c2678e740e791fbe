/-
# Sketches with numbers of thirty-two bits

Ink, markers and probes need sums of coordinates.  What is done to a sketch is the same as with
unlimited numbers as long as these sums have room, and it ends with an overflow if they have not.

Two kinds of sums are not checked, since they always have room: those of a fill, which never
leaves the surface, and those for the far corner of a marker that was drawn on the surface.
-/
import FlowSketch.Raster.Checked
import FlowSketch.Sketch.Basic

namespace FlowSketch.Checked

/-- Leaves a line of ink. -/
def trace (s : Sketch) (tool : Tool) (a b : Point) : Except Overflow Sketch := do
  let ⟨settings, canvas, owners, graph, untied⟩ := s
  let canvas ← drawLine canvas a b tool.ink
  return ⟨settings, canvas, owners, graph, untied⟩

/-- Makes a node inside the owner of the stroke's end, or in the root if the end is off the
surface, and claims its territory. -/
def addNode (s : Sketch) (finish : Point) (kind : NodeKind) :
    Except Overflow (Except FillError (StrokeEffect × Sketch)) := do
  let ⟨settings, canvas, owners, graph, untied⟩ := s
  let parent := (owners.get? finish).getD NodeId.root
  let (id, graph) := graph.addNode parent kind
  let seed ← shift finish settings.probe.1 settings.probe.2
  let bounds := canvas.bounds
  return match floodFill canvas owners seed id bounds with
    | .error e => .error e
    | .ok filled => .ok (.node id, ⟨settings, filled.canvas, filled.owners, graph, untied⟩)

/-- Marks the arrival point of a flow and connects the owners of its ends, or keeps it as
untied. -/
def addFlow (s : Sketch) (start finish : Point) : Except Overflow (StrokeEffect × Sketch) := do
  let ⟨settings, canvas, owners, graph, untied⟩ := s
  let marker ← square finish settings.markerRadius
  let canvas ← drawOutline canvas marker Tool.flow.ink
  let connected := do
    let source ← owners.get? start
    let target ← owners.get? finish
    graph.connect source target marker start
  return match connected with
    | some (id, role, graph) => (.flow id role, ⟨settings, canvas, owners, graph, untied⟩)
    | none =>
      (.untied untied.size, ⟨settings, canvas, owners, graph, untied.push ⟨start, finish⟩⟩)

/-- Takes a finished stroke in. -/
def apply (s : Sketch) (stroke : Stroke) :
    Except Overflow (Except FillError (StrokeEffect × Sketch)) :=
  match stroke.tool.nodeKind? with
  | some kind => addNode s stroke.finish kind
  | none =>
    if stroke.tool = .flow then do
      let result ← addFlow s stroke.start stroke.finish
      return .ok result
    else .ok (.ok (.ignored, s))

end FlowSketch.Checked
