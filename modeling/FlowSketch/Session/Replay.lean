/-
# Playing a journal

A saved journal is played through a new session, entry by entry.  A key moves the caret to
its place and is pressed there; a segment takes up its tool, puts the pen down if it is not,
and lifts it if the segment is marked as the last.

`Session/Checked` plays with numbers of thirty-two bits.
-/
import FlowSketch.Journal.Grammar
import FlowSketch.Session.Basic

namespace FlowSketch

/-- Why a journal cannot be played. -/
inductive ReplayError where
  /-- It cannot be read. -/
  | unreadable (failure : Journal.Failure)
  /-- A stroke in it cannot be taken in. -/
  | fill (error : FillError)
deriving DecidableEq, Repr

/-- The words for an error. -/
def ReplayError.message : ReplayError → String
  | .unreadable failure => failure.message
  | .fill error => error.message

namespace Session

/-- Plays a key. -/
def playKey (s : Session) (code : Nat) (caret : Point) : Except ReplayError Session :=
  let s := s.placeCaret caret
  if code = commitKey then .ok s.commit.2
  else if code = cancelKey then .ok s.dropStroke.2
  else
    match charOfCode? code with
    | some c => .ok (s.press c).2
    | none => .error (.unreadable (.invalidKey code))

/-- Plays a segment. -/
def playLine (s : Session) (a b : Point) (tool : Tool) (last : Bool) :
    Except ReplayError Session :=
  let s := s.takeTool tool
  let s := if s.stroke.isNone then s.penDown a else s
  let s := s.drawSegment a b
  if last then
    match s.penUp with
    | .ok (_, s) => .ok s
    | .error e => .error (.fill e)
  else .ok s

/-- Plays an entry. -/
def play (s : Session) : Journal.Entry → Except ReplayError Session
  | .key code caret => s.playKey code caret
  | .line a b tool last => s.playLine a b tool last

/-- Plays entries in turn. -/
def playAll (s : Session) (es : List Journal.Entry) : Except ReplayError Session :=
  es.foldlM play s

/-- The session that a saved journal makes. -/
def replay (text : String) (settings : Settings) : Except ReplayError Session :=
  match Journal.read text with
  | .error e => .error (.unreadable e)
  | .ok journal => (new settings).playAll journal.entries.toList

@[simp] theorem playAll_nil (s : Session) : s.playAll [] = .ok s := rfl

/-- Playing one entry and then the others. -/
theorem playAll_cons (s : Session) (e : Journal.Entry) (es : List Journal.Entry) :
    s.playAll (e :: es) = (s.play e).bind fun s => s.playAll es := rfl

/-- Playing two stretches of entries one after the other. -/
theorem playAll_append (s : Session) (as bs : List Journal.Entry) :
    s.playAll (as ++ bs) = (s.playAll as).bind fun s => s.playAll bs := by
  induction as generalizing s with
  | nil => rfl
  | cons e as ih =>
    rw [List.cons_append, playAll_cons, playAll_cons]
    cases s.play e with
    | error _ => rfl
    | ok s' => exact ih s'

end Session

end FlowSketch
