/-
# What one can do in a session

A session changes by operations: the pen is put down, moved and lifted, a tool is taken, the
caret is placed, keys are pressed.  They may come in any order, so the pen may move while it
is up, and keys may be pressed and tools changed in the middle of a stroke.

No operation fails.  Lifting the pen is the only one that could, and claiming an area never
runs out of budget.  Main statements: `penUp_of_some`, on what lifting the pen does, and
`performAll_isOk`.
-/
import FlowSketch.Proofs.Sketch.Strokes
import FlowSketch.Session.Replay

namespace FlowSketch

namespace Session

/-! ## Operations -/

/-- The pixel position that two numbers of thirty-two bits give. -/
def place (x y : Int32) : Point := ⟨x.toInt, y.toInt⟩

/-- Something that can be done in a session. -/
inductive Op where
  /-- A tool is taken. -/
  | takeTool (tool : Tool)
  /-- The pen is put down. -/
  | penDown (x y : Int32)
  /-- The pen is moved. -/
  | penTo (x y : Int32)
  /-- The pen is lifted. -/
  | penUp
  /-- The open stroke is given up. -/
  | dropStroke
  /-- The caret is placed. -/
  | placeCaret (x y : Int32)
  /-- A key is pressed. -/
  | press (c : Char)
  /-- The pending text is committed. -/
  | commit
  /-- The pending text is forgotten. -/
  | forget
deriving DecidableEq

/-- The session after an operation. -/
def perform (s : Session) : Op → Except FillError Session
  | .takeTool tool => .ok (s.takeTool tool)
  | .penDown x y => .ok (s.penDown (place x y))
  | .penTo x y => .ok (s.penTo (place x y))
  | .penUp => s.penUp.map (·.2)
  | .dropStroke => .ok s.dropStroke.2
  | .placeCaret x y => .ok (s.placeCaret (place x y))
  | .press c => .ok (s.press c).2
  | .commit => .ok s.commit.2
  | .forget => .ok s.forget.2

lemma penUp_of_perform {s s' : Session} (h : s.perform .penUp = .ok s') :
    ∃ effect, s.penUp = .ok (effect, s') := by
  rw [perform] at h
  cases hup : s.penUp with
  | error e =>
    rw [hup] at h
    cases h
  | ok lifted =>
    rw [hup] at h
    cases h
    exact ⟨lifted.1, rfl⟩

/-- The session after operations in turn. -/
def performAll (s : Session) (ops : List Op) : Except FillError Session := ops.foldlM perform s

lemma performAll_concat (s : Session) (ops : List Op) (op : Op) :
    s.performAll (ops ++ [op]) = (s.performAll ops).bind fun s => s.perform op := by
  rw [performAll, List.foldlM_append]
  simp only [List.foldlM_cons, List.foldlM_nil, bind_pure]
  rfl

/-! ## What single operations do -/

lemma dropStroke_of_none {s : Session} (h : s.stroke = none) : s.dropStroke = (false, s) := by
  simp only [dropStroke, h]

lemma dropStroke_of_some {s : Session} {o : OpenStroke} (h : s.stroke = some o) :
    s.dropStroke = (true, { s with stroke := none }.noteKey cancelKey) := by
  simp only [dropStroke, h]

lemma penTo_of_none {s : Session} {p : Point} (h : s.stroke = none) : s.penTo p = s := by
  simp only [penTo, h]

lemma penTo_of_some {s : Session} {p : Point} {o : OpenStroke} (h : s.stroke = some o) :
    s.penTo p = s.drawSegment o.pen p := by
  simp only [penTo, h]

lemma penUp_of_none {s : Session} (h : s.stroke = none) : s.penUp = .ok (.ignored, s) := by
  simp only [penUp, h]

/-- A stroke without segments gets one of a single pixel when the pen is lifted. -/
def click (s : Session) (o : OpenStroke) : Session :=
  if o.segments = 0 then s.drawSegment o.pen o.pen else s

@[simp] lemma tool_click (s : Session) (o : OpenStroke) : (s.click o).tool = s.tool := by
  unfold click
  split <;> rfl

/-- After a click the open stroke has a segment, and it begins and ends where it did. -/
lemma exists_stroke_click {s : Session} {o : OpenStroke} (h : s.stroke = some o) :
    ∃ o', (s.click o).stroke = some o' ∧ o'.start = o.start ∧ o'.pen = o.pen ∧
      o'.segments ≠ 0 := by
  unfold click
  split
  · exact ⟨_, congrArg (Option.map _) h, rfl, rfl, Nat.succ_ne_zero _⟩
  · exact ⟨o, h, rfl, rfl, ‹_›⟩

/-- Lifting the pen marks the latest segment and lets the sketch take the stroke in. -/
lemma penUp_of_some {s : Session} {o : OpenStroke} (h : s.stroke = some o) :
    ∃ effect sketch,
      (s.click o).sketch.apply ⟨s.tool, o.start, o.pen⟩ = .ok (effect, sketch) ∧
      s.penUp = .ok (effect, { s.click o with
        sketch, stroke := none, journal := (s.click o).journal.closeLine.2 }) := by
  obtain ⟨effect, sketch, happly⟩ :=
    Sketch.apply_isOk (s.click o).sketch ⟨s.tool, o.start, o.pen⟩
  refine ⟨effect, sketch, happly, ?_⟩
  have htool := tool_click s o
  unfold click at happly htool
  simp only [penUp, h, click]
  rw [htool, happly]

/-- A key that types its character. -/
def Types (c : Char) : Prop := c ≠ '\r' ∧ c ≠ '\n' ∧ c ≠ '\x08' ∧ c ≠ '\x1b'

lemma press_of_types {c : Char} (h : Types c) (s : Session) : s.press c = (none, s.typeChar c) := by
  obtain ⟨hr, hn, hb, he⟩ := h
  rw [press, if_neg (not_or.mpr ⟨hr, hn⟩), if_neg hb, if_neg he]

/-- A key commits, forgets, gives up the stroke or types its character. -/
lemma press_cases (s : Session) (c : Char) :
    ((c = '\r' ∨ c = '\n') ∧ (s.press c).2 = s.commit.2) ∨
    (c = '\x08' ∧ (s.press c).2 = s.forget.2) ∨
    (c = '\x1b' ∧ (s.press c).2 = s.dropStroke.2) ∨
    (Types c ∧ (s.press c).2 = s.typeChar c) := by
  by_cases hline : c = '\r' ∨ c = '\n'
  · exact .inl ⟨hline, by rw [press, if_pos hline]⟩
  · by_cases hb : c = '\x08'
    · exact .inr (.inl ⟨hb, by rw [press, if_neg hline, if_pos hb]⟩)
    · by_cases he : c = '\x1b'
      · exact .inr (.inr (.inl ⟨he, by rw [press, if_neg hline, if_neg hb, if_pos he]⟩))
      · obtain ⟨hr, hn⟩ := not_or.mp hline
        have htypes : Types c := ⟨hr, hn, hb, he⟩
        exact .inr (.inr (.inr ⟨htypes, by rw [press_of_types htypes]⟩))

/-- An operation never fails. -/
lemma perform_isOk (s : Session) (op : Op) : ∃ s', s.perform op = .ok s' := by
  cases op with
  | penUp =>
    cases h : s.stroke with
    | none => exact ⟨s, by rw [perform, penUp_of_none h]; rfl⟩
    | some o =>
      obtain ⟨_, _, -, hup⟩ := penUp_of_some h
      exact ⟨_, by rw [perform, hup]; rfl⟩
  | _ => exact ⟨_, rfl⟩

/-- Operations never fail. -/
lemma performAll_isOk (s : Session) (ops : List Op) : ∃ s', s.performAll ops = .ok s' := by
  induction ops generalizing s with
  | nil => exact ⟨s, rfl⟩
  | cons op ops ih =>
    obtain ⟨s', hs⟩ := perform_isOk s op
    obtain ⟨s'', hs'⟩ := ih s'
    refine ⟨s'', ?_⟩
    rw [performAll, List.foldlM_cons, hs]
    exact hs'

end Session

end FlowSketch
