/-
# Flood fill

Starting at a seed, a node claims the connected area of pixels that have the seed's color:
it paints them in its territory color and enters itself as their owner.  Two pixels are
connected if a path of horizontal and vertical steps inside the given bounds joins them.

The search keeps a stack of pixels to visit and a grid of marks, so that no pixel is put
on the stack twice.  It has a budget of one visit for each pixel of the bounds, which ends
it even if the marks should fail; running out of the budget is reported as an error.
-/
import FlowSketch.Raster.Line

namespace FlowSketch

/-- What can go wrong when an area is claimed. -/
inductive FillError where
  /-- More pixels were visited than the bounds contain. -/
  | overflow (node : NodeId) (visits cap : Nat)
deriving DecidableEq, Repr

/-- The words for a fill error. -/
def FillError.message : FillError → String
  | .overflow node visits cap =>
    "segmentation overflow while filling region " ++ node.numbered ++ ": " ++
      toString visits ++ " visits exceed cap " ++ toString cap

namespace Fill

/-- The area to claim. -/
structure Task where
  /-- The node that claims. -/
  node : NodeId
  /-- The part of the surface that may be claimed. -/
  area : Rect
  /-- The color to claim. -/
  target : Color
  /-- The color to paint. -/
  ink : Color
deriving DecidableEq, Repr

/-- The most visits that the search may make. -/
def Task.cap (t : Task) : Nat := t.area.area

/-- A search under way. -/
structure State where
  /-- The surface. -/
  canvas : Canvas
  /-- The owners. -/
  owners : TerritoryMap
  /-- The pixels that have ever been put on the stack. -/
  marked : Grid Bool
  /-- The number of pixels claimed so far. -/
  claimed : Nat

/-- Marks a pixel and puts it on the stack, unless it is out of bounds or marked. -/
def push (area : Rect) (acc : Grid Bool × List Point) (p : Point) : Grid Bool × List Point :=
  let (marked, stack) := acc
  if area.covers p then
    match marked.get? p with
    | some false => (marked.set p true, p :: stack)
    | _ => (marked, stack)
  else (marked, stack)

/-- The surface, the owners and the marks after a visit that claims the pixel, and the new
stack. -/
def claim (t : Task) (s : State) (p : Point) (stack : List Point) : State × List Point :=
  let ⟨canvas, owners, marked, claimed⟩ := s
  let (marked, stack) := p.neighbours.foldl (push t.area) (marked, stack)
  (⟨canvas.set p t.ink, owners.set p t.node, marked, claimed + 1⟩, stack)

/-- Visits the pixels on the stack and those that come to it, at most as many as the budget
allows. -/
def search (t : Task) : (budget : Nat) → State → (stack : List Point) → Except FillError State
  | _, s, [] => .ok s
  | 0, _, _ :: _ => .error (.overflow t.node (t.cap + 1) t.cap)
  | budget + 1, s, p :: stack =>
    if s.canvas.get? p = some t.target then
      let (s, stack) := claim t s p stack
      search t budget s stack
    else search t budget s stack

/-- The outcome of a fill. -/
structure Result where
  /-- The surface afterwards. -/
  canvas : Canvas
  /-- The owners afterwards. -/
  owners : TerritoryMap
  /-- The number of pixels claimed. -/
  claimed : Nat
deriving DecidableEq

end Fill

/-- Claims the area around a seed for a node, within the bounds.  A seed out of bounds or
already in the node's color claims nothing. -/
def floodFill (canvas : Canvas) (owners : TerritoryMap) (seed : Point) (node : NodeId)
    (bounds : Rect) : Except FillError Fill.Result :=
  let area := bounds.inter canvas.bounds
  let nothing : Fill.Result := ⟨canvas, owners, 0⟩
  if area.covers seed then
    match canvas.get? seed with
    | none => .ok nothing
    | some target =>
      if target = Color.territory node then .ok nothing
      else
        let task : Fill.Task := ⟨node, area, target, Color.territory node⟩
        let marked := (Grid.filled canvas.width canvas.height false).set seed true
        (Fill.search task task.cap ⟨canvas, owners, marked, 0⟩ [seed]).map fun s =>
          ⟨s.canvas, s.owners, s.claimed⟩
  else .ok nothing

/-- A seed in the node's own color claims nothing and changes nothing. -/
theorem floodFill_of_own_color {canvas : Canvas} {owners : TerritoryMap} {seed : Point}
    {node : NodeId} {bounds : Rect} (h : canvas.get? seed = some (Color.territory node)) :
    floodFill canvas owners seed node bounds = .ok ⟨canvas, owners, 0⟩ := by
  unfold floodFill
  simp [h]

end FlowSketch
