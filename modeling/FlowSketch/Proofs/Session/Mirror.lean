/-
# What a journal knows of its session

A journal can be played at any moment of a session.  The session that comes out *mirrors* the
live one: it has the same pending text, begun at the same place, and if the live one has an
open stroke with segments, it has an open stroke that ends in the same place.  The strokes may
begin in different places, and the sketches may differ; `Mirrored` does not speak of these.

Every operation keeps the mirror.  Nearly all of them add entries to the journal that do to
the mirror what was done to the session, and so they keep the sketches equal too.  Lifting the
pen is the exception.  It marks the latest entry as the last segment of the stroke, but if a
key was pressed after the latest segment there is nothing to mark, and if the tool was changed
the segment tells of another tool.

Main statement: `rebuilds_iff_liftsTold`, that a session can be rebuilt from its journal at all
times exactly if the journal tells of every stroke what the sketch keeps of it.
-/
import FlowSketch.Proofs.Session.Playing
import FlowSketch.Proofs.Sketch.Strokes

namespace FlowSketch

/-! ## What a journal tells of a stroke -/

namespace Journal

/-- Where the stroke begins that entries leave open, if they leave one open. -/
def openStart (es : List Entry) : Option Point :=
  es.foldl (fun open? e =>
    match e with
    | .key code _ => if code = cancelKey then none else open?
    | .line a _ _ last => if last then none else some (open?.getD a)) none

/-- The stroke of which a journal tells once its latest entry is marked as a last segment. -/
def told? (j : Journal) : Option Stroke :=
  match j.entries.toList.reverse with
  | .line a b tool false :: rest => some ⟨tool, (openStart rest.reverse).getD a, b⟩
  | _ => none

/-- Marking changes the latest entry only if there is a stroke to tell of. -/
lemma closeLine_cases (j : Journal) :
    (∃ es a b tool, j.entries.toList = es ++ [.line a b tool false] ∧
      j.closeLine.2.entries.toList = es ++ [.line a b tool true] ∧
      j.told? = some ⟨tool, (openStart es).getD a, b⟩) ∨
    (j.closeLine.2 = j ∧ j.told? = none) := by
  obtain ⟨⟨es⟩⟩ := j
  obtain ⟨rev, rfl⟩ : ∃ rev, es = rev.reverse := ⟨es.reverse, (List.reverse_reverse es).symm⟩
  cases rev with
  | nil => exact .inr ⟨rfl, rfl⟩
  | cons e rev =>
    have hback : (Array.mk (e :: rev).reverse).back? = some e := by simp
    cases e with
    | key code caret =>
      refine .inr ⟨?_, by simp [told?]⟩
      simp only [closeLine, hback]
    | line a b tool last =>
      cases last with
      | true =>
        refine .inr ⟨?_, by simp [told?]⟩
        simp only [closeLine, hback]
      | false =>
        refine .inl ⟨rev.reverse, a, b, tool, by simp, ?_, by simp [told?]⟩
        simp only [closeLine, hback]
        simp

end Journal

/-- What the sketch keeps of a stroke is told of it: the tool, and where a flow begins.  Nothing
need be told of a comment, and only of a comment. -/
def Stroke.ToldBy (drawn : Stroke) : Option Stroke → Prop
  | some told => told.tool = drawn.tool ∧ (drawn.tool = .flow → told.start = drawn.start)
  | none => drawn.tool = .comment

namespace Session

open Journal (Entry)

/-- If the pen is lifted now, the journal tells what the sketch keeps of the stroke. -/
def LiftTold (s : Session) : Prop :=
  ∀ o, s.stroke = some o → Stroke.ToldBy ⟨s.tool, o.start, o.pen⟩ (s.click o).journal.told?

lemma liftTold_iff {s : Session} {o : OpenStroke} (ho : s.stroke = some o) : s.LiftTold ↔
    Stroke.ToldBy ⟨s.tool, o.start, o.pen⟩ (s.click o).journal.told? := by
  constructor
  · intro h
    exact h o ho
  · intro h o' ho'
    rwa [Option.some.inj (ho'.symm.trans ho)]

/-- A played journal leaves open the stroke that its entries leave open. -/
lemma start_of_playAll {settings : Settings} {es : List Entry} (hrec : ∀ e ∈ es, e.Recorded)
    {r : Session} (h : (new settings).playAll es = .ok r) :
    r.stroke.map (·.start) = Journal.openStart es := by
  induction es using List.reverseRecOn generalizing r with
  | nil =>
    cases h
    rfl
  | append_singleton es e ih =>
    obtain ⟨r₀, hr₀, he⟩ := playAll_concat_ok h
    have hstart := ih (fun e' he' => hrec e' (by simp [he'])) hr₀
    rw [Journal.openStart, List.foldl_append, ← Journal.openStart, ← hstart]
    cases e with
    | key code caret =>
      obtain ⟨rfl | rfl | ⟨c, rfl, hc⟩, -⟩ := hrec (.key code caret) (by simp)
      · cases he
        rw [stroke_commit]
        rfl
      · cases he
        rw [stroke_dropStroke]
        rfl
      · rw [play_typed hc] at he
        cases he
        exact (if_neg (types_code hc).2).symm
    | line a b tool last =>
      cases last with
      | true =>
        obtain ⟨_, r', hr', -, hstroke, -⟩ := play_lastLine r₀ a b tool
        cases he.symm.trans hr'
        rw [hstroke]
        rfl
      | false =>
        rw [play_line] at he
        cases he
        rw [readyAt_eq, openAt]
        cases r₀.stroke <;> rfl

/-- A segment goes on with the stroke that the entries leave open. -/
lemma start_openAt {settings : Settings} {es : List Entry} (hrec : ∀ e ∈ es, e.Recorded)
    {r : Session} (h : (new settings).playAll es = .ok r) (a : Point) :
    (r.openAt a).start = (Journal.openStart es).getD a := by
  rw [← start_of_playAll hrec h, openAt]
  cases r.stroke <;> rfl

/-! ## Mirrors -/

/-- A session is what the journal of another one plays to, and has its text and the end of its
open stroke. -/
structure Mirrored (settings : Settings) (s r : Session) : Prop where
  plays : (new settings).playAll s.journal.entries.toList = .ok r
  recorded : ∀ e ∈ s.journal.entries.toList, e.Recorded
  caret : s.caret.Fits
  pending : r.pending = s.pending
  anchor : r.anchor = s.anchor
  pen : ∀ o, s.stroke = some o → o.pen.Fits
  stroke : ∀ o, s.stroke = some o → o.segments ≠ 0 → ∃ q, r.stroke = some q ∧ q.pen = o.pen

/-- There is a mirror of a later session, with an equal sketch if the sketches were equal. -/
def Follows (settings : Settings) (s r s' : Session) : Prop :=
  ∃ r', Mirrored settings s' r' ∧ (r.sketch = s.sketch → r'.sketch = s'.sketch)

lemma mirrored_new (settings : Settings) : Mirrored settings (new settings) (new settings) where
  plays := rfl
  recorded := by
    intro e he
    cases he
  caret := by simp [Point.Fits, new]
  pending := rfl
  anchor := rfl
  pen := by
    intro o ho
    cases ho
  stroke := by
    intro o ho
    cases ho

namespace Mirrored

variable {settings : Settings} {s r : Session}

lemma dropStroke (h : Mirrored settings s r) : Follows settings s r s.dropStroke.2 := by
  cases hs : s.stroke with
  | none =>
    rw [dropStroke_of_none hs]
    exact ⟨r, h, id⟩
  | some o =>
    rw [dropStroke_of_some hs]
    refine ⟨_, ?_, fun hsketch => (sketch_dropStroke (r.placeCaret s.caret)).trans hsketch⟩
    exact {
      plays := playAll_push h.plays (play_cancel r s.caret)
      recorded := Journal.forall_push h.recorded ⟨.inr (.inl rfl), h.caret⟩
      caret := h.caret
      pending := (pending_dropStroke _).trans h.pending
      anchor := (anchor_dropStroke _).trans h.anchor
      pen := by
        intro o ho
        cases ho
      stroke := by
        intro o ho
        cases ho }

lemma penDown (h : Mirrored settings s r) {p : Point} (hp : p.Fits) :
    Follows settings s r (s.penDown p) := by
  obtain ⟨r', h', hsketch⟩ := h.dropStroke
  refine ⟨r', ?_, hsketch⟩
  exact {
    plays := h'.plays
    recorded := h'.recorded
    caret := h'.caret
    pending := h'.pending
    anchor := h'.anchor
    pen := by
      intro o ho
      cases ho
      exact hp
    stroke := by
      intro o ho hne
      cases ho
      exact absurd rfl hne }

/-- The mirror draws the same segment, though its stroke may have begun elsewhere. -/
lemma drawSegment (h : Mirrored settings s r) {o : OpenStroke} (ho : s.stroke = some o)
    {p : Point} (hp : p.Fits) : Follows settings s r (s.drawSegment o.pen p) := by
  refine ⟨_, ⟨playAll_push h.plays (play_line r o.pen p s.tool), ?_, h.caret, ?_, ?_, ?_, ?_⟩, ?_⟩
  · exact Journal.forall_push h.recorded ⟨h.pen o ho, hp⟩
  · rw [readyAt_eq]
    exact h.pending
  · rw [readyAt_eq]
    exact h.anchor
  · intro o' ho'
    simp only [Session.drawSegment, ho, Option.map_some, Option.some.injEq] at ho'
    rw [← ho']
    exact hp
  · intro o' ho' _
    simp only [Session.drawSegment, ho, Option.map_some, Option.some.injEq] at ho'
    rw [readyAt_eq, ← ho']
    exact ⟨_, rfl, rfl⟩
  · intro hsketch
    rw [readyAt_eq]
    show r.sketch.trace s.tool o.pen p = s.sketch.trace s.tool o.pen p
    rw [hsketch]

lemma penTo (h : Mirrored settings s r) {p : Point} (hp : p.Fits) :
    Follows settings s r (s.penTo p) := by
  cases hs : s.stroke with
  | none =>
    rw [penTo_of_none hs]
    exact ⟨r, h, id⟩
  | some o =>
    rw [penTo_of_some hs]
    exact h.drawSegment hs hp

lemma click (h : Mirrored settings s r) {o : OpenStroke} (ho : s.stroke = some o) :
    Follows settings s r (s.click o) := by
  unfold Session.click
  split
  · exact h.drawSegment ho (h.pen o ho)
  · exact ⟨r, h, id⟩

lemma typeChar (h : Mirrored settings s r) {c : Char} (hc : Types c) :
    Follows settings s r (s.typeChar c) := by
  refine ⟨_, ⟨playAll_push h.plays (play_typed hc r s.caret), ?_, h.caret, ?_, ?_, h.pen,
    h.stroke⟩, ?_⟩
  · exact Journal.forall_push h.recorded ⟨.inr (.inr ⟨c, rfl, hc⟩), h.caret⟩
  · exact congrArg (·.push c) h.pending
  · show (if r.pending.isEmpty then some s.caret else r.anchor) =
      if s.pending.isEmpty then some s.caret else s.anchor
    rw [h.pending, h.anchor]
  · exact id

lemma commit (h : Mirrored settings s r) : Follows settings s r s.commit.2 := by
  refine ⟨(r.placeCaret s.caret).commit.2, ⟨?_, ?_, ?_, ?_, ?_, ?_, ?_⟩, ?_⟩
  · rw [journal_commit]
    exact playAll_push h.plays (play_commit r s.caret)
  · rw [journal_commit]
    exact Journal.forall_push h.recorded ⟨.inl rfl, h.caret⟩
  · rw [caret_commit]
    exact h.caret
  · rw [pending_commit, pending_commit]
  · rw [anchor_commit, anchor_commit]
  · rw [stroke_commit]
    exact h.pen
  · rw [stroke_commit, stroke_commit]
    exact h.stroke
  · intro hsketch
    rw [sketch_commit, sketch_commit]
    show (if r.pending.isEmpty then r.sketch
      else ((r.sketch.writeText (r.anchor.getD s.caret) r.pending).map (·.2)).getD r.sketch) = _
    rw [hsketch, h.pending, h.anchor]

lemma forget (h : Mirrored settings s r) : Follows settings s r s.forget.2 := by
  obtain ⟨r', hplays, halike⟩ := playAll_dropTyped h.recorded h.plays
  rw [h.pending] at hplays
  have hsketch : r'.sketch = r.sketch := congrArg (·.sketch) halike
  have hstroke : r'.stroke = r.stroke := congrArg (·.stroke) halike
  refine ⟨r', ⟨hplays, Journal.forall_forgetTyped h.recorded _, h.caret,
    congrArg (·.pending) halike, congrArg (·.anchor) halike, h.pen, ?_⟩, hsketch.trans⟩
  rw [hstroke]
  exact h.stroke

lemma press (h : Mirrored settings s r) (c : Char) : Follows settings s r (s.press c).2 := by
  rcases press_cases s c with ⟨-, hc⟩ | ⟨-, hc⟩ | ⟨-, hc⟩ | ⟨htypes, hc⟩
  · rw [hc]
    exact h.commit
  · rw [hc]
    exact h.forget
  · rw [hc]
    exact h.dropStroke
  · rw [hc]
    exact h.typeChar htypes

/-- A session whose stroke was taken in is mirrored by what its journal plays to. -/
lemma takenIn (h : Mirrored settings s r) (sketch : Sketch) {j : Journal} {r' : Session}
    (hplays : (new settings).playAll j.entries.toList = .ok r')
    (hrec : ∀ e ∈ j.entries.toList, e.Recorded) (hpending : r'.pending = r.pending)
    (hanchor : r'.anchor = r.anchor) :
    Mirrored settings { s with sketch, stroke := none, journal := j } r' where
  plays := hplays
  recorded := hrec
  caret := h.caret
  pending := hpending.trans h.pending
  anchor := hanchor.trans h.anchor
  pen := by
    intro o ho
    cases ho
  stroke := by
    intro o ho
    cases ho

/-- If the latest entry is a segment that gets marked, the mirror lifts its pen as well. -/
lemma exists_lifted (h : Mirrored settings s r) {q : OpenStroke} (hq : r.stroke = some q)
    {es : List Entry} {a b : Point} {tool : Tool}
    (hes : s.journal.entries.toList = es ++ [.line a b tool false]) :
    ∃ effect r', (new settings).playAll (es ++ [.line a b tool true]) = .ok r' ∧
      (∀ e ∈ es ++ [.line a b tool true], e.Recorded) ∧
      r.sketch.apply ⟨tool, (Journal.openStart es).getD a, q.pen⟩ = .ok (effect, r'.sketch) ∧
      r'.pending = r.pending ∧ r'.anchor = r.anchor := by
  have hplays := h.plays
  have hrec := h.recorded
  rw [hes] at hplays hrec
  obtain ⟨r₀, hr₀, he⟩ := playAll_concat_ok hplays
  rw [play_line, readyAt_eq] at he
  cases he
  obtain ⟨effect, r', hr', happly, -, hpending, hanchor⟩ := play_lastLine r₀ a b tool
  have hbefore : ∀ e ∈ es, e.Recorded := fun e he => hrec e (List.mem_append_left _ he)
  rw [start_openAt hbefore hr₀ a] at happly
  cases hq
  refine ⟨effect, r', (playAll_concat hr₀).trans hr', ?_, happly, hpending, hanchor⟩
  exact List.forall_mem_append.mpr ⟨hbefore, List.forall_mem_singleton.mpr
    (hrec (.line a b tool false) (by simp))⟩

/-- Lifting the pen keeps the mirror.  The sketches stay equal exactly if the journal tells
what the sketch keeps of the stroke. -/
lemma penUp (h : Mirrored settings s r) {effect : StrokeEffect} {s' : Session}
    (hup : s.penUp = .ok (effect, s')) :
    ∃ r', Mirrored settings s' r' ∧
      (r.sketch = s.sketch → (r'.sketch = s'.sketch ↔ s.LiftTold)) := by
  cases hs : s.stroke with
  | none =>
    rw [penUp_of_none hs] at hup
    cases hup
    refine ⟨r, h, fun hsketch => iff_of_true hsketch ?_⟩
    intro o ho
    rw [hs] at ho
    cases ho
  | some o =>
    obtain ⟨effect', sketch, happly, hup'⟩ := penUp_of_some hs
    cases hup.symm.trans hup'
    obtain ⟨r₁, h₁, hsketch₁⟩ := h.click hs
    rw [liftTold_iff hs]
    -- the stroke of the mirror ends where the live one does
    obtain ⟨q, hq, hpen⟩ : ∃ q, r₁.stroke = some q ∧ q.pen = o.pen := by
      obtain ⟨o₁, ho₁, -, hpen₁, hne⟩ := exists_stroke_click hs
      rw [← hpen₁]
      exact h₁.stroke o₁ ho₁ hne
    rcases Journal.closeLine_cases (s.click o).journal with
      ⟨es, a, b, tool, hes, hclosed, htold⟩ | ⟨hclosed, htold⟩
    · -- the latest segment is marked
      obtain ⟨effect₁, r', hplays, hrec, happly', hpending, hanchor⟩ := h₁.exists_lifted hq hes
      rw [← hclosed] at hplays hrec
      refine ⟨r', h₁.takenIn sketch hplays hrec hpending hanchor, fun hsketch => ?_⟩
      rw [hsketch₁ hsketch, hpen] at happly'
      rw [htold]
      exact Sketch.eq_iff_of_apply happly' happly
    · -- there is nothing to mark, which does no harm to a comment only
      refine ⟨r₁, h₁.takenIn sketch (j := (s.click o).journal.closeLine.2) ?_ ?_ rfl rfl,
        fun hsketch => ?_⟩
      · rw [hclosed]
        exact h₁.plays
      · rw [hclosed]
        exact h₁.recorded
      · rw [htold, hsketch₁ hsketch, eq_comm, Sketch.eq_iff_of_apply happly
          (Sketch.apply_comment (s.click o).sketch o.start o.pen)]
        exact and_iff_left fun h => absurd h (by decide)

/-- Every operation keeps the mirror, and every operation but lifting the pen keeps the
sketches equal. -/
lemma perform (h : Mirrored settings s r) {op : Op} {s' : Session} (hop : s.perform op = .ok s') :
    ∃ r', Mirrored settings s' r' ∧
      (r.sketch = s.sketch → (r'.sketch = s'.sketch ↔ op = .penUp → s.LiftTold)) := by
  -- an operation that keeps the sketches equal without further ado
  have hfollows : op ≠ .penUp → Follows settings s r s' → ∃ r', Mirrored settings s' r' ∧
      (r.sketch = s.sketch → (r'.sketch = s'.sketch ↔ op = .penUp → s.LiftTold)) := by
    rintro hne ⟨r', h', hsketch⟩
    exact ⟨r', h', fun heq => iff_of_true (hsketch heq) fun hup => absurd hup hne⟩
  cases op with
  | penUp =>
    obtain ⟨_, hup⟩ := penUp_of_perform hop
    obtain ⟨r', h', hiff⟩ := h.penUp hup
    refine ⟨r', h', fun heq => (hiff heq).trans ⟨fun hl _ => hl, fun hl => hl rfl⟩⟩
  | takeTool tool =>
    cases hop
    exact hfollows (by simp) ⟨r, ⟨h.plays, h.recorded, h.caret, h.pending, h.anchor, h.pen,
      h.stroke⟩, id⟩
  | penDown x y =>
    cases hop
    exact hfollows (by simp) (h.penDown (fits_place x y))
  | penTo x y =>
    cases hop
    exact hfollows (by simp) (h.penTo (fits_place x y))
  | dropStroke =>
    cases hop
    exact hfollows (by simp) h.dropStroke
  | placeCaret x y =>
    cases hop
    exact hfollows (by simp) ⟨r, ⟨h.plays, h.recorded, fits_place x y, h.pending, h.anchor, h.pen,
      h.stroke⟩, id⟩
  | press c =>
    cases hop
    exact hfollows (by simp) (h.press c)
  | commit =>
    cases hop
    exact hfollows (by simp) h.commit
  | forget =>
    cases hop
    exact hfollows (by simp) h.forget

/-- A session is replayed to its mirror. -/
lemma replay_save (h : Mirrored settings s r) : replay s.save settings = .ok r := by
  rw [replay, save, Journal.read_encode fun e he => (h.recorded e he).storable]
  exact h.plays

end Mirrored

end Session

end FlowSketch
