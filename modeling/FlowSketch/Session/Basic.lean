/-
# Editing sessions

In a session somebody draws with a pen and types on a keyboard.  A stroke is drawn segment
by segment while the pen is down and takes effect when it is lifted.  Typed characters are
pending until they are committed; the text then goes to the node under the point where its
first character was typed.

Whatever leaves a trace in the sketch goes into the journal, so that playing the journal
again makes the same sketch.
-/
import FlowSketch.Sketch.Basic
import FlowSketch.Journal.Basic

namespace FlowSketch

/-- A stroke while the pen is down. -/
structure OpenStroke where
  /-- Where the pen was put down. -/
  start : Point
  /-- Where the pen is. -/
  pen : Point
  /-- The number of segments drawn. -/
  segments : Nat
deriving DecidableEq, Repr

/-- A session. -/
structure Session where
  /-- The sketch. -/
  sketch : Sketch
  /-- The tool in use. -/
  tool : Tool
  /-- The open stroke, while the pen is down. -/
  stroke : Option OpenStroke
  /-- The place of the caret. -/
  caret : Point
  /-- The characters typed since the last commit. -/
  pending : String
  /-- Where the first of these was typed. -/
  anchor : Option Point
  /-- What happened. -/
  journal : Journal
deriving DecidableEq

namespace Session

/-- A session that begins with a blank sketch. -/
def new (settings : Settings) : Session :=
  { sketch := Sketch.blank settings
    tool := .scope
    stroke := none
    caret := ⟨0, 0⟩
    pending := ""
    anchor := none
    journal := {} }

/-- Notes a key, pressed at the caret. -/
def noteKey (s : Session) (code : Nat) : Session :=
  { s with journal := s.journal.push (.key code s.caret) }

/-! ## Drawing -/

/-- Takes up a tool. -/
def takeTool (s : Session) (tool : Tool) : Session := { s with tool }

/-- Draws and notes a segment; the open stroke goes on from its end. -/
def drawSegment (s : Session) (a b : Point) : Session :=
  { s with
    sketch := s.sketch.trace s.tool a b
    journal := s.journal.push (.line a b s.tool false)
    stroke := s.stroke.map fun o => { o with pen := b, segments := o.segments + 1 } }

/-- Gives up the open stroke, if there is one.  Its ink stays. -/
def dropStroke (s : Session) : Bool × Session :=
  match s.stroke with
  | none => (false, s)
  | some _ => (true, { s with stroke := none }.noteKey cancelKey)

/-- Puts the pen down.  A stroke that is still open is given up. -/
def penDown (s : Session) (place : Point) : Session :=
  let s := s.dropStroke.2
  { s with stroke := some ⟨place, place, 0⟩ }

/-- Draws with the pen to a point.  Without an open stroke nothing happens. -/
def penTo (s : Session) (place : Point) : Session :=
  match s.stroke with
  | none => s
  | some o => s.drawSegment o.pen place

/-- Lifts the pen; the sketch takes the stroke in, as one of the tool in use.  A stroke
without segments counts as one of a single pixel. -/
def penUp (s : Session) : Except FillError (StrokeEffect × Session) :=
  match s.stroke with
  | none => .ok (.ignored, s)
  | some o =>
    let s := if o.segments = 0 then s.drawSegment o.pen o.pen else s
    let ⟨sketch, tool, _, caret, pending, anchor, journal⟩ := s
    let journal := journal.closeLine.2
    match sketch.apply ⟨tool, o.start, o.pen⟩ with
    | .error e => .error e
    | .ok (effect, sketch) => .ok (effect, ⟨sketch, tool, none, caret, pending, anchor, journal⟩)

/-! ## Typing -/

/-- Places the caret. -/
def placeCaret (s : Session) (place : Point) : Session := { s with caret := place }

/-- Types a character of a text. -/
def typeChar (s : Session) (c : Char) : Session :=
  let s := s.noteKey c.toNat
  { s with
    anchor := if s.pending.isEmpty then some s.caret else s.anchor
    pending := s.pending.push c }

/-- Commits the pending text, at the place where it was begun. -/
def commit (s : Session) : Option WriteEffect × Session :=
  let s := s.noteKey commitKey
  let place := s.anchor.getD s.caret
  let text := s.pending
  let s := { s with anchor := none, pending := "" }
  if text.isEmpty then (none, s)
  else
    match s.sketch.writeText place text with
    | some (effect, sketch) => (some effect, { s with sketch })
    | none => (none, s)

/-- Forgets the pending text and its keys, and counts the keys that go. -/
def forget (s : Session) : Nat × Session :=
  let (removed, journal) := s.journal.forgetTyped s.pending.length
  (removed, { s with journal, pending := "", anchor := none })

/-- Presses a key.  The line keys commit, backspace forgets the pending text, escape gives
up the open stroke, and any other key types its character. -/
def press (s : Session) (c : Char) : Option WriteEffect × Session :=
  if c = '\r' ∨ c = '\n' then s.commit
  else if c = '\x08' then (none, s.forget.2)
  else if c = '\x1b' then (none, s.dropStroke.2)
  else (none, s.typeChar c)

/-! ## The program -/

/-- The program text of the sketch. -/
def compile (s : Session) : Except Problem String := s.sketch.compile

/-- Compiles the sketch and runs its program. -/
def run (s : Session) (inputs : List String) : RunReport SketchError := s.sketch.run inputs

/-- The journal as text. -/
def save (s : Session) : String := s.journal.encode

/-! ## Small facts -/

@[simp] theorem sketch_noteKey (s : Session) (code : Nat) :
    (s.noteKey code).sketch = s.sketch := rfl

@[simp] theorem sketch_typeChar (s : Session) (c : Char) :
    (s.typeChar c).sketch = s.sketch := rfl

@[simp] theorem pending_typeChar (s : Session) (c : Char) :
    (s.typeChar c).pending = s.pending.push c := rfl

@[simp] theorem sketch_forget (s : Session) : s.forget.2.sketch = s.sketch := rfl

@[simp] theorem pending_forget (s : Session) : s.forget.2.pending = "" := rfl

/-- A commit notes its key, writes the pending text at its place and forgets both. -/
theorem snd_commit (s : Session) : s.commit.2 = { s.noteKey commitKey with
    sketch := if s.pending.isEmpty then s.sketch
      else ((s.sketch.writeText (s.anchor.getD s.caret) s.pending).map (·.2)).getD s.sketch
    pending := ""
    anchor := none } := by
  unfold commit
  dsimp only
  change (if s.pending.isEmpty = true then _ else _ : _ × Session).2 = _
  split
  · rfl
  · split
    · rename_i effect sketch hwrite
      change s.sketch.writeText (s.anchor.getD s.caret) s.pending = _ at hwrite
      rw [hwrite]
      rfl
    · rename_i hwrite
      change s.sketch.writeText (s.anchor.getD s.caret) s.pending = _ at hwrite
      rw [hwrite]
      rfl

@[simp] theorem pending_commit (s : Session) : s.commit.2.pending = "" := by
  rw [snd_commit]

@[simp] theorem anchor_commit (s : Session) : s.commit.2.anchor = none := by
  rw [snd_commit]

/-- After a stroke is given up the pen is not down. -/
@[simp] theorem stroke_dropStroke (s : Session) : s.dropStroke.2.stroke = none := by
  unfold dropStroke
  split
  · assumption
  · rfl

end Session

end FlowSketch
