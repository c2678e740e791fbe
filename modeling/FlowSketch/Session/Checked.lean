/-
# Sessions with numbers of thirty-two bits

A session draws while the pen moves, and takes a stroke in when the pen is lifted.  Both end with
an overflow if a number has no room.  Nothing else in a session computes with coordinates: pen and
caret are only placed, and typed texts go to places that are given.
-/
import FlowSketch.Session.Replay
import FlowSketch.Sketch.Checked

namespace FlowSketch.Checked

open Session (new)

/-- Draws and notes a segment; the open stroke goes on from its end. -/
def drawSegment (s : Session) (a b : Point) : Except Overflow Session := do
  let ⟨sketch, tool, stroke, caret, pending, anchor, journal⟩ := s
  let sketch ← trace sketch tool a b
  let stroke := stroke.map fun o => { o with pen := b, segments := o.segments + 1 }
  return ⟨sketch, tool, stroke, caret, pending, anchor, journal.push (.line a b tool false)⟩

/-- Draws with the pen to a point.  Without an open stroke nothing happens. -/
def penTo (s : Session) (place : Point) : Except Overflow Session :=
  match s.stroke with
  | none => .ok s
  | some o => drawSegment s o.pen place

/-- Draws a segment of a single pixel if the open stroke has no segment. -/
def click (s : Session) (o : OpenStroke) : Except Overflow Session :=
  if o.segments = 0 then drawSegment s o.pen o.pen else .ok s

/-- Lifts the pen; the sketch takes the stroke in, as one of the tool in use.  A stroke
without segments counts as one of a single pixel. -/
def penUp (s : Session) : Except Overflow (Except FillError (StrokeEffect × Session)) :=
  match s.stroke with
  | none => .ok (.ok (.ignored, s))
  | some o => do
    let ⟨sketch, tool, _, caret, pending, anchor, journal⟩ ← click s o
    let journal := journal.closeLine.2
    let result ← apply sketch ⟨tool, o.start, o.pen⟩
    return match result with
      | .error e => .error e
      | .ok (effect, sketch) => .ok (effect, ⟨sketch, tool, none, caret, pending, anchor, journal⟩)

/-! ## Playing a journal -/

/-- Plays a segment. -/
def playLine (s : Session) (a b : Point) (tool : Tool) (last : Bool) :
    Except Overflow (Except ReplayError Session) := do
  let s := s.takeTool tool
  let s := if s.stroke.isNone then s.penDown a else s
  let s ← drawSegment s a b
  if last then do
    let result ← penUp s
    return match result with
      | .ok (_, s) => .ok s
      | .error e => .error (.fill e)
  else return .ok s

/-- Plays an entry. -/
def play (s : Session) : Journal.Entry → Except Overflow (Except ReplayError Session)
  | .key code caret => .ok (s.playKey code caret)
  | .line a b tool last => playLine s a b tool last

/-- Plays entries in turn. -/
def playAll (s : Session) (es : List Journal.Entry) :
    Except Overflow (Except ReplayError Session) :=
  inTurn play s es

/-- The session that a saved journal makes. -/
def replay (text : String) (settings : Settings) :
    Except Overflow (Except ReplayError Session) :=
  match Journal.read text with
  | .error e => .ok (.error (.unreadable e))
  | .ok journal => playAll (new settings) journal.entries.toList

end FlowSketch.Checked
