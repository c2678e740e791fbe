/-
# Playing and overflows

Playing an entry computes with coordinates only if it is a segment: for the line, and if the segment
is marked as the last one for what the sketch needs to take the stroke in.  None of this depends on
what was played before.  So a journal overflows exactly if one of its entries has no room.

What the session keeps of the entries that it plays are the segments, and keys of its own.  If the
journal that was played has room, so has the one that is saved.

Main statements: `replay_settles_or_overflows`, and `Journal.Entry.fits_of_small` on the entries that
have room for sure.
-/
import FlowSketch.Proofs.Journal.Reading
import FlowSketch.Proofs.Session.Settling
import FlowSketch.Proofs.Sketch.Overflow
import FlowSketch.Session.Checked

namespace FlowSketch

/-- The numbers for playing an entry have room. -/
def Journal.Entry.Fits (settings : Settings) : Journal.Entry → Prop
  | .key .. => True
  | .line a b tool last => Line.Fits a b ∧ (last = true → Stroke.Fits settings ⟨tool, a, b⟩)

/-! ## Entries that have room -/

/-- A number that leaves room for what is done with coordinates. -/
def Small (n : ℤ) : Prop := n.natAbs ≤ 0x10000000

lemma Point.fits_shift_of_small {p : Point} (hp : Small p.x ∧ Small p.y) {dx dy : ℤ}
    (hdx : Small dx) (hdy : Small dy) : (p.shift dx dy).Fits := by
  simp only [Small, Point.Fits, Point.shift] at *
  omega

lemma Point.fits_of_small {p : Point} (hp : Small p.x ∧ Small p.y) : p.Fits := by
  simp only [Small, Point.Fits] at *
  omega

lemma Point.markerFits_of_small {p : Point} (hp : Small p.x ∧ Small p.y) {radius : ℤ}
    (hradius : Small radius) : p.MarkerFits radius := by
  obtain ⟨hx, hy⟩ := hp
  unfold Small at hx hy hradius
  refine ⟨?_, ?_, fun _ => ?_, by omega⟩ <;> unfold FitsWord <;> omega

/-- **A segment has room if no number in it or in the settings is too large.** -/
lemma Journal.Entry.fits_of_small {settings : Settings} {a b : Point} {tool : Tool} {last : Bool}
    (ha : Small a.x ∧ Small a.y) (hb : Small b.x ∧ Small b.y)
    (hprobe : Small settings.probe.1 ∧ Small settings.probe.2)
    (hradius : Small settings.markerRadius) : (Journal.Entry.line a b tool last).Fits settings := by
  have hspan {m n : ℤ} (hm : Small m) (hn : Small n) : (n - m).natAbs ≤ 0x20000000 := by
    unfold Small at hm hn
    omega
  have hsteps : Line.steps a b ≤ 0x20000000 := max_le (hspan ha.1 hb.1) (hspan ha.2 hb.2)
  exact ⟨Line.fits_of_steps (Point.fits_of_small ha) (Point.fits_of_small hb) (by omega),
    fun _ => ⟨fun _ => Point.fits_shift_of_small hb hprobe.1 hprobe.2,
      fun _ => Point.markerFits_of_small hb hradius⟩⟩

namespace Session

variable {s s' : Session} {settings : Settings}

/-! ## What playing keeps -/

@[simp] lemma settings_click (s : Session) (o : OpenStroke) :
    (s.click o).sketch.settings = s.sketch.settings := by
  unfold click
  split <;> rfl

lemma settings_commit (s : Session) : s.commit.2.sketch.settings = s.sketch.settings := by
  rw [sketch_commit]
  split
  · rfl
  · have hwrite : s.sketch.perform (.writeText (s.anchor.getD s.caret) s.pending) = .ok _ := rfl
    exact Sketch.settings_of_perform hwrite

lemma exists_play {e : Journal.Entry} (he : e.Storable) (s : Session) :
    ∃ s', s.play e = .ok s' := by
  cases e with
  | key code caret =>
    obtain ⟨s', hs', -⟩ := s.exists_play_key he.1 caret
    exact ⟨s', hs'⟩
  | line a b tool last =>
    obtain ⟨s', hs', -⟩ := s.exists_play_line a b tool last
    exact ⟨s', hs'⟩

lemma settings_of_play {e : Journal.Entry} (he : e.Storable) (hplay : s.play e = .ok s') :
    s'.sketch.settings = s.sketch.settings := by
  cases e with
  | key code caret =>
    obtain ⟨r, hr, hcases⟩ := s.exists_play_key he.1 caret
    cases hr.symm.trans hplay
    obtain rfl | rfl | rfl | ⟨c, -, rfl⟩ := hcases
    · rw [settings_commit]
      rfl
    · rfl
    · rw [sketch_dropStroke]
      rfl
    · rfl
  | line a b tool last =>
    cases last with
    | false =>
      rw [play_line, readyAt_eq] at hplay
      cases hplay
      rfl
    | true =>
      obtain ⟨effect, sketch, happly, hplay'⟩ := s.play_lastLine_eq a b tool
      cases hplay'.symm.trans hplay
      have hsettings : sketch.settings = (s.sketch.trace tool a b).settings :=
        Sketch.settings_of_apply happly
      exact hsettings

/-- Of the entries that are played the segments are kept, and keys are noted anew. -/
lemma forall_play {P : Journal.Entry → Prop} (hkey : ∀ code caret, P (.key code caret))
    (h : ∀ e ∈ s.journal.entries.toList, P e) {e : Journal.Entry} (he : e.Storable) (hP : P e)
    (hplay : s.play e = .ok s') : ∀ e ∈ s'.journal.entries.toList, P e := by
  cases e with
  | key code caret =>
    obtain ⟨r, hr, hcases⟩ := s.exists_play_key he.1 caret
    cases hr.symm.trans hplay
    obtain rfl | rfl | rfl | ⟨c, -, rfl⟩ := hcases
    · rw [journal_commit]
      exact Journal.forall_push h (hkey _ _)
    · exact Journal.forall_forgetTyped h _
    · cases ho : (s.placeCaret caret).stroke with
      | none =>
        rw [dropStroke_of_none ho]
        exact h
      | some o =>
        rw [dropStroke_of_some ho]
        exact Journal.forall_push h (hkey _ _)
    · exact Journal.forall_push h (hkey _ _)
  | line a b tool last =>
    obtain ⟨r, hr, hjournal⟩ := s.exists_play_line a b tool last
    cases hr.symm.trans hplay
    rw [hjournal]
    exact Journal.forall_push h hP

lemma forall_playAll {P : Journal.Entry → Prop} (hkey : ∀ code caret, P (.key code caret))
    {es : List Journal.Entry} (hes : ∀ e ∈ es, e.Storable) (hP : ∀ e ∈ es, P e)
    (hplay : (new settings).playAll es = .ok s) : ∀ e ∈ s.journal.entries.toList, P e := by
  induction es using List.reverseRecOn generalizing s with
  | nil =>
    cases hplay
    rintro e ⟨⟩
  | append_singleton es e ih =>
    obtain ⟨r, hr, he⟩ := playAll_concat_ok hplay
    have hrest := ih (fun e' he' => hes e' (by simp [he'])) (fun e' he' => hP e' (by simp [he'])) hr
    exact forall_play hkey hrest (hes e (by simp)) (hP e (by simp)) he

end Session

namespace Checked

open Session (readyAt readyAt_eq)

/-! ## Single steps -/

lemma yields_drawSegment (s : Session) (a b : Point) :
    Yields (Line.Fits a b) (drawSegment s a b) (s.drawSegment a b) := by
  obtain ⟨sketch, tool, stroke, caret, pending, anchor, journal⟩ := s
  exact (yields_trace sketch tool a b).map _

/-- Drawing with the pen needs room for the line from where it is. -/
lemma yields_penTo (s : Session) (place : Point) :
    Yields (∀ o, s.stroke = some o → Line.Fits o.pen place) (penTo s place) (s.penTo place) := by
  unfold penTo Session.penTo
  cases ho : s.stroke with
  | none => exact (Yields.pure s).congr (by simp)
  | some o => exact (yields_drawSegment s o.pen place).congr (by simp)

lemma yields_click (s : Session) (o : OpenStroke) :
    Yields (o.segments = 0 → Line.Fits o.pen o.pen) (click s o) (s.click o) := by
  unfold click Session.click
  split
  · rename_i hnone
    exact (yields_drawSegment s o.pen o.pen).congr (imp_iff_right hnone).symm
  · rename_i hsome
    exact (Yields.pure s).congr (by simp [hsome])

/-- Lifting the pen takes the stroke in. -/
lemma yields_penUp {s : Session} {o : OpenStroke} (ho : s.stroke = some o) :
    Yields ((o.segments = 0 → Line.Fits o.pen o.pen) ∧
        Stroke.Fits s.sketch.settings ⟨s.tool, o.start, o.pen⟩) (penUp s) s.penUp := by
  obtain ⟨effect, sketch, happly, hup⟩ := Session.penUp_of_some ho
  have happly : Yields (Stroke.Fits s.sketch.settings ⟨s.tool, o.start, o.pen⟩)
      (apply (s.click o).sketch ⟨(s.click o).tool, o.start, o.pen⟩) (.ok (effect, sketch)) := by
    rw [← happly, ← Session.settings_click s o, Session.tool_click]
    exact yields_apply ..
  rw [hup]
  simp only [penUp, ho]
  exact (yields_click s o).bind fun _ => happly.map _

/-- The numbers for an entry do not depend on the session that plays it. -/
lemma yields_play (s : Session) (e : Journal.Entry) :
    Yields (e.Fits s.sketch.settings) (play s e) (s.play e) := by
  cases e with
  | key code caret => exact Yields.pure _
  | line a b tool last =>
    have hdraw := yields_drawSegment (s.readyAt a tool) a b
    cases last with
    | false => exact (hdraw.map _).congr (by simp [Journal.Entry.Fits])
    | true =>
      have hready := readyAt_eq s a tool
      have htool : ((s.readyAt a tool).drawSegment a b).tool = tool := by
        rw [hready]
        rfl
      have hsettings :
          ((s.readyAt a tool).drawSegment a b).sketch.settings = s.sketch.settings := by
        rw [hready]
        rfl
      have hstroke : ((s.readyAt a tool).drawSegment a b).stroke =
          some ⟨(s.openAt a).start, b, (s.openAt a).segments + 1⟩ := by
        rw [hready]
        rfl
      obtain ⟨effect, r, -, hup⟩ := Session.penUp_of_some hstroke
      have hlift := yields_penUp hstroke
      rw [hup, hsettings, htool] at hlift
      rw [Session.play_line_of_penUp hup]
      refine (hdraw.bind fun _ => hlift.map _).congr ⟨?_, ?_⟩
      · rintro ⟨hline, -, hstroke⟩
        exact ⟨hline, fun _ => hstroke.of_finish⟩
      · rintro ⟨hline, hstroke⟩
        exact ⟨hline, nofun, (hstroke rfl).of_finish⟩

/-! ## Entries in turn -/

/-- **A journal overflows exactly if one of its entries has no room.** -/
lemma yields_playAll {s : Session} {settings : Settings} (hs : s.sketch.settings = settings)
    {es : List Journal.Entry} (hes : ∀ e ∈ es, e.Storable) :
    Yields (∀ e ∈ es, e.Fits settings) (playAll s es) (s.playAll es) := by
  refine Yields.inTurn (fun s => s.sketch.settings = settings) Journal.Entry.Storable
    (fun s e hs he => ?_) hs hes
  obtain ⟨s', hs'⟩ := Session.exists_play he s
  exact ⟨s', hs', (Session.settings_of_play he hs').trans hs, hs' ▸ hs ▸ yields_play s e⟩

lemma yields_replay {text : String} {journal : Journal} (hread : Journal.read text = .ok journal)
    (settings : Settings) :
    Yields (∀ e ∈ journal.entries.toList, e.Fits settings) (replay text settings)
      (Session.replay text settings) := by
  simp only [replay, Session.replay, hread]
  exact yields_playAll (s := Session.new settings) rfl (Journal.storable_of_read hread)

end Checked

namespace Session

open Checked (yields_replay)

/-- **A text can be played if it can be read and its entries have room.  What the session saves
plays to the same session again, in all but the place of the caret, and is saved as the same
text.** -/
theorem replay_settles_or_overflows (text : String) (settings : Settings) :
    match Journal.read text with
    | .error failure => Checked.replay text settings = .ok (.error (.unreadable failure))
    | .ok journal =>
      match Checked.replay text settings with
      | .error _ => ∃ e ∈ journal.entries.toList, ¬ e.Fits settings
      | .ok result => (∀ e ∈ journal.entries.toList, e.Fits settings) ∧ ∃ s r, result = .ok s ∧
          Checked.replay s.save settings = .ok (.ok r) ∧ r.sketch = s.sketch ∧ r.tool = s.tool ∧
          r.pending = s.pending ∧ r.anchor = s.anchor ∧ r.stroke = s.stroke ∧
          r.save = s.save := by
  split
  · rename_i failure hread
    simp only [Checked.replay, hread]
  · rename_i journal hread
    have hstorable := Journal.storable_of_read hread
    have hyields := yields_replay hread settings
    split
    · rename_i overflow hreplay
      exact hyields.exists_of_error hreplay
    · rename_i result hreplay
      obtain ⟨hfits, hideal⟩ := hyields.eq_of_ok hreplay
      obtain ⟨s, r, hs, hr⟩ := exists_settled settings hstorable
      have hback : Journal.read s.save = .ok s.journal :=
        Journal.read_encode fun e he => (hr.recorded e he).storable
      have hfits' := forall_playAll (fun _ _ => trivial) hstorable hfits hs
      refine ⟨hfits, s, r, ?_, ?_, congrArg (·.sketch) hr.alike, congrArg (·.tool) hr.alike,
        congrArg (·.pending) hr.alike, congrArg (·.anchor) hr.alike,
        congrArg (·.stroke) hr.alike, congrArg (·.save) hr.alike⟩
      · simp only [← hideal, replay, hread, hs]
      · rw [(yields_replay hback settings).eq_ok hfits']
        simp only [replay, hback, hr.plays]

/-- A text that can be read, with a line that is so long that its running error cannot be
doubled. -/
theorem overflow_of_long_line :
    Journal.read "Line,0,0,2147483647,0,Comment,true;" =
        .ok ⟨#[.line ⟨0, 0⟩ ⟨2147483647, 0⟩ .comment true]⟩ ∧
      Checked.replay "Line,0,0,2147483647,0,Comment,true;" { width := 4, height := 3 } =
        .error .multiply := by
  have hread : Journal.read "Line,0,0,2147483647,0,Comment,true;" =
      .ok ⟨#[.line ⟨0, 0⟩ ⟨2147483647, 0⟩ .comment true]⟩ := by
    decide +kernel
  refine ⟨hread, ?_⟩
  simp only [Checked.replay, hread]
  rfl

end Session

end FlowSketch
