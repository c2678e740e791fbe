/-
# Playing entries

Only some entries can be in the journal of a session: keys that commit, give up a stroke or
type their character, and segments.  All of them can be played.  Segments and cancels change
the drawing, that is the sketch and the open stroke, and leave the pending text alone; typed
keys do the opposite.  Where the caret was before does not matter to an entry.

When a text is forgotten its keys leave the journal.  Main statement: `playAll_dropTyped`,
that a journal without these keys plays to the session that has forgotten the text.
-/
import Mathlib.Data.List.Induction
import FlowSketch.Proofs.Journal.Forgetting
import FlowSketch.Proofs.Journal.RoundTrip
import FlowSketch.Proofs.Session.Operations

namespace FlowSketch

open Session (Types)

/-- An entry that a session may record.  No key has the code of a line break that is not the
commit key, or of a backspace. -/
def Journal.Entry.Recorded : Journal.Entry → Prop
  | .key code caret =>
    (code = commitKey ∨ code = cancelKey ∨ ∃ c : Char, code = c.toNat ∧ Types c) ∧ caret.Fits
  | .line a b _ _ => a.Fits ∧ b.Fits

lemma Journal.Entry.Recorded.storable {e : Journal.Entry} (h : e.Recorded) : e.Storable := by
  cases e with
  | key code caret =>
    refine ⟨?_, h.2⟩
    obtain ⟨rfl | rfl | ⟨c, rfl, -⟩, -⟩ := h
    · rfl
    · rfl
    · rw [charOfCode?_toNat]
      rfl
  | line a b tool last => exact h

namespace Session

lemma fits_place (x y : Int32) : (place x y).Fits := by
  have hx := x.le_toInt
  have hx' := x.toInt_lt
  have hy := y.le_toInt
  have hy' := y.toInt_lt
  simp only [Point.Fits, place]
  omega

/-! ## Playing single entries -/

lemma types_code {c : Char} (h : Types c) : c.toNat ≠ commitKey ∧ c.toNat ≠ cancelKey := by
  obtain ⟨hr, -, -, he⟩ := h
  constructor
  · intro hc
    exact hr (Char.toNat_inj.mp hc)
  · intro hc
    exact he (Char.toNat_inj.mp hc)

lemma isTyped_of_types {c : Char} (h : Types c) (caret : Point) :
    (Journal.Entry.key c.toNat caret).isTyped = true := by
  obtain ⟨hcommit, hcancel⟩ := types_code h
  simp [Journal.Entry.isTyped, hcommit, hcancel]

lemma play_typed {c : Char} (h : Types c) (s : Session) (caret : Point) :
    s.play (.key c.toNat caret) = .ok ((s.placeCaret caret).typeChar c) := by
  obtain ⟨hcommit, hcancel⟩ := types_code h
  simp only [play, playKey, if_neg hcommit, if_neg hcancel, charOfCode?_toNat, press_of_types h]

lemma play_commit (s : Session) (caret : Point) :
    s.play (.key commitKey caret) = .ok (s.placeCaret caret).commit.2 := rfl

lemma play_cancel (s : Session) (caret : Point) :
    s.play (.key cancelKey caret) = .ok (s.placeCaret caret).dropStroke.2 := rfl

/-- The stroke that goes on with a segment from a point: the open one, or one that begins
there. -/
def openAt (s : Session) (a : Point) : OpenStroke := s.stroke.getD ⟨a, a, 0⟩

/-- The session in which a played segment is drawn. -/
def readyAt (s : Session) (a : Point) (tool : Tool) : Session :=
  if (s.takeTool tool).stroke.isNone then (s.takeTool tool).penDown a else s.takeTool tool

lemma readyAt_eq (s : Session) (a : Point) (tool : Tool) :
    s.readyAt a tool = { s with tool, stroke := some (s.openAt a) } := by
  unfold readyAt openAt
  cases h : s.stroke with
  | none =>
    have hnone : (s.takeTool tool).stroke = none := h
    simp only [hnone, Option.isNone_none, if_true, penDown, dropStroke_of_none hnone]
    rfl
  | some o =>
    have hsome : (s.takeTool tool).stroke = some o := h
    simp only [hsome, Option.isNone_some, Bool.false_eq_true, if_false]
    cases s
    cases h
    rfl

/-- A segment without a mark goes on with the open stroke. -/
lemma play_line (s : Session) (a b : Point) (tool : Tool) :
    s.play (.line a b tool false) = .ok ((s.readyAt a tool).drawSegment a b) := rfl

lemma play_line_of_penUp {s r : Session} {a b : Point} {tool : Tool} {effect : StrokeEffect}
    (hup : ((s.readyAt a tool).drawSegment a b).penUp = .ok (effect, r)) :
    s.play (.line a b tool true) = .ok r := by
  have hready : (if (s.takeTool tool).stroke.isNone then (s.takeTool tool).penDown a
      else s.takeTool tool) = s.readyAt a tool := rfl
  simp only [play, playLine, hready, if_true, hup]

/-- A segment with a mark also lifts the pen. -/
lemma play_lastLine_eq (s : Session) (a b : Point) (tool : Tool) :
    ∃ effect sketch,
      (s.sketch.trace tool a b).apply ⟨tool, (s.openAt a).start, b⟩ = .ok (effect, sketch) ∧
      s.play (.line a b tool true) = .ok { s with
        sketch, tool, stroke := none, journal := s.journal.push (.line a b tool true) } := by
  have hstroke : ((s.readyAt a tool).drawSegment a b).stroke =
      some ⟨(s.openAt a).start, b, (s.openAt a).segments + 1⟩ := by
    rw [readyAt_eq]
    rfl
  obtain ⟨effect, sketch, happly, hup⟩ := penUp_of_some hstroke
  have hclick : ((s.readyAt a tool).drawSegment a b).click
      ⟨(s.openAt a).start, b, (s.openAt a).segments + 1⟩ =
      (s.readyAt a tool).drawSegment a b := if_neg (Nat.succ_ne_zero _)
  have hclose : ((s.readyAt a tool).drawSegment a b).journal.closeLine.2 =
      s.journal.push (.line a b tool true) := by
    rw [readyAt_eq]
    exact congrArg Prod.snd (s.journal.closeLine_push_line a b tool)
  rw [hclick] at happly hup
  rw [hclose] at hup
  rw [readyAt_eq] at happly
  refine ⟨effect, sketch, happly, (play_line_of_penUp hup).trans ?_⟩
  rw [readyAt_eq]
  rfl

lemma play_lastLine (s : Session) (a b : Point) (tool : Tool) :
    ∃ effect r, s.play (.line a b tool true) = .ok r ∧
      (s.sketch.trace tool a b).apply ⟨tool, (s.openAt a).start, b⟩ = .ok (effect, r.sketch) ∧
      r.stroke = none ∧ r.pending = s.pending ∧ r.anchor = s.anchor := by
  obtain ⟨effect, sketch, happly, hplay⟩ := s.play_lastLine_eq a b tool
  exact ⟨effect, _, hplay, happly, rfl, rfl, rfl⟩

/-- A segment, whatever it follows, is noted as it is. -/
lemma exists_play_line (s : Session) (a b : Point) (tool : Tool) (last : Bool) :
    ∃ s', s.play (.line a b tool last) = .ok s' ∧
      s'.journal = s.journal.push (.line a b tool last) := by
  cases last with
  | false =>
    rw [play_line, readyAt_eq]
    exact ⟨_, rfl, rfl⟩
  | true =>
    obtain ⟨_, _, -, hplay⟩ := s.play_lastLine_eq a b tool
    exact ⟨_, hplay, rfl⟩

/-- Any key of a character can be played: it commits, forgets, gives up the stroke or types its
character. -/
lemma exists_play_key (s : Session) {code : ℕ} (h : (charOfCode? code).isSome = true)
    (caret : Point) :
    ∃ s', s.play (.key code caret) = .ok s' ∧
      (s' = (s.placeCaret caret).commit.2 ∨ s' = (s.placeCaret caret).forget.2 ∨
        s' = (s.placeCaret caret).dropStroke.2 ∨
        ∃ c, Types c ∧ s' = (s.placeCaret caret).typeChar c) := by
  rw [play, playKey]
  by_cases hcommit : code = commitKey
  · exact ⟨_, if_pos hcommit, .inl rfl⟩
  by_cases hcancel : code = cancelKey
  · exact ⟨_, (if_neg hcommit).trans (if_pos hcancel), .inr (.inr (.inl rfl))⟩
  obtain ⟨c, hc⟩ := Option.isSome_iff_exists.mp h
  rw [if_neg hcommit, if_neg hcancel, hc]
  refine ⟨_, rfl, ?_⟩
  rcases press_cases (s.placeCaret caret) c with ⟨-, hp⟩ | ⟨-, hp⟩ | ⟨-, hp⟩ | ⟨htypes, hp⟩
  · exact .inl hp
  · exact .inr (.inl hp)
  · exact .inr (.inr (.inl hp))
  · exact .inr (.inr (.inr ⟨c, htypes, hp⟩))

lemma playAll_concat {s r : Session} {es : List Journal.Entry} {e : Journal.Entry}
    (h : s.playAll es = .ok r) : s.playAll (es ++ [e]) = r.play e := by
  rw [playAll_append, h]
  show (r.playAll [e]) = _
  rw [playAll_cons]
  cases r.play e <;> rfl

lemma playAll_concat_ok {s r : Session} {es : List Journal.Entry} {e : Journal.Entry}
    (h : s.playAll (es ++ [e]) = .ok r) : ∃ r₀, s.playAll es = .ok r₀ ∧ r₀.play e = .ok r := by
  cases hes : s.playAll es with
  | error e' =>
    rw [playAll_append, hes] at h
    cases h
  | ok r₀ => exact ⟨r₀, rfl, (playAll_concat hes).symm.trans h⟩

/-- What a journal plays to after one more entry. -/
lemma playAll_push {settings : Settings} {j : Journal} {r r' : Session} {e : Journal.Entry}
    (h : (new settings).playAll j.entries.toList = .ok r) (he : r.play e = .ok r') :
    (new settings).playAll (j.push e).entries.toList = .ok r' := by
  rw [Journal.toList_entries_push, playAll_concat h, he]

/-! ## Frames -/

section Frames

variable (s : Session)

@[simp] lemma sketch_dropStroke : s.dropStroke.2.sketch = s.sketch := by
  unfold dropStroke
  split <;> rfl

@[simp] lemma pending_dropStroke : s.dropStroke.2.pending = s.pending := by
  unfold dropStroke
  split <;> rfl

@[simp] lemma anchor_dropStroke : s.dropStroke.2.anchor = s.anchor := by
  unfold dropStroke
  split <;> rfl

@[simp] lemma stroke_commit : s.commit.2.stroke = s.stroke := by
  rw [snd_commit]
  rfl

@[simp] lemma caret_commit : s.commit.2.caret = s.caret := by
  rw [snd_commit]
  rfl

@[simp] lemma journal_commit :
    s.commit.2.journal = s.journal.push (.key commitKey s.caret) := by
  rw [snd_commit]
  rfl

/-- A commit changes the sketch by the pending text and its place. -/
lemma sketch_commit : s.commit.2.sketch =
    if s.pending.isEmpty then s.sketch
    else ((s.sketch.writeText (s.anchor.getD s.caret) s.pending).map (·.2)).getD s.sketch := by
  rw [snd_commit]

end Frames

end Session

namespace Journal

/-- One more entry with a property that all entries have. -/
lemma forall_push {P : Entry → Prop} {j : Journal} {e : Entry}
    (h : ∀ e ∈ j.entries.toList, P e) (he : P e) : ∀ e' ∈ (j.push e).entries.toList, P e' := by
  intro e' he'
  rw [toList_entries_push, List.mem_append, List.mem_singleton] at he'
  rcases he' with he' | rfl
  · exact h e' he'
  · exact he

end Journal

namespace Session

/-! ## The caret -/

/-- Two sessions that differ in nothing but the place of the caret. -/
def Alike (s r : Session) : Prop := r.placeCaret s.caret = s

namespace Alike

variable {s r : Session}

lemma placeCaret (h : Alike s r) (p : Point) : r.placeCaret p = s.placeCaret p :=
  congrArg (·.placeCaret p) h

lemma openAt (h : Alike s r) (a : Point) : r.openAt a = s.openAt a :=
  congrArg (·.openAt a) h

/-- An entry does the same wherever the caret was before. -/
lemma play (h : Alike s r) {e : Journal.Entry} {s' : Session} (hs : s.play e = .ok s') :
    ∃ r', r.play e = .ok r' ∧ Alike s' r' := by
  cases e with
  | key code caret =>
    have hkey : r.play (.key code caret) = s.play (.key code caret) := by
      simp only [Session.play, playKey, h.placeCaret]
    exact ⟨s', hkey.trans hs, rfl⟩
  | line a b tool last =>
    cases last with
    | false =>
      rw [play_line] at hs
      cases hs
      refine ⟨_, play_line r a b tool, ?_⟩
      rw [Alike, readyAt_eq, readyAt_eq]
      exact congrArg (fun s : Session =>
        ({ s with tool, stroke := some (s.openAt a) } : Session).drawSegment a b) h
    | true =>
      obtain ⟨effect, sketch, happly, hplay⟩ := s.play_lastLine_eq a b tool
      obtain ⟨effect', sketch', happly', hplay'⟩ := r.play_lastLine_eq a b tool
      have hsketch : r.sketch = s.sketch := congrArg (·.sketch) h
      rw [hsketch, h.openAt, happly] at happly'
      cases happly'
      cases hs.symm.trans hplay
      refine ⟨_, hplay', ?_⟩
      exact congrArg (fun s : Session => ({ s with
        sketch, tool, stroke := none
        journal := s.journal.push (.line a b tool true) } : Session)) h

end Alike

/-! ## Playing without the keys of the pending text -/

/-- A session without pending text has nothing to forget. -/
lemma forget_of_settled {s : Session} (hp : s.pending = "") (ha : s.anchor = none) :
    s.forget.2 = s := by
  have hjournal : (s.journal.forgetTyped s.pending.length).2 = s.journal := by
    rw [hp]
    exact Journal.forgetTyped_zero _
  cases s
  cases hp
  cases ha
  exact congrArg (Session.mk _ _ _ _ _ _) hjournal

/-- A character that is typed and forgotten leaves no trace. -/
lemma forget_typeChar {c : Char} (h : Types c) (s : Session) :
    (s.typeChar c).forget.2 = s.forget.2 := by
  have hlength : (s.pending.push c).length = s.pending.length + 1 := String.length_push c
  have hjournal : ((s.journal.push (.key c.toNat s.caret)).forgetTyped
      (s.pending.push c).length).2 = (s.journal.forgetTyped s.pending.length).2 := by
    rw [hlength]
    exact s.journal.forgetTyped_push_of_typed (isTyped_of_types h s.caret) _
  exact congrArg (Session.mk _ _ _ _ _ _) hjournal

lemma forget_dropStroke (s : Session) : s.dropStroke.2.forget.2 = s.forget.2.dropStroke.2 := by
  cases ho : s.stroke with
  | none =>
    have ho' : s.forget.2.stroke = none := ho
    rw [dropStroke_of_none ho, dropStroke_of_none ho']
  | some o =>
    have ho' : s.forget.2.stroke = some o := ho
    rw [dropStroke_of_some ho, dropStroke_of_some ho']
    exact congrArg (Session.mk _ _ _ _ _ _) (s.journal.forgetTyped_push_of_not_typed rfl _)

/-- It does not matter whether a text is forgotten before a segment or behind it. -/
lemma forget_play_line {s s' : Session} {a b : Point} {tool : Tool} {last : Bool}
    (hs : s.play (.line a b tool last) = .ok s') :
    s.forget.2.play (.line a b tool last) = .ok s'.forget.2 ∧ s'.pending = s.pending := by
  cases last with
  | false =>
    rw [play_line, readyAt_eq] at hs
    cases hs
    rw [play_line, readyAt_eq]
    refine ⟨congrArg Except.ok ?_, rfl⟩
    exact congrArg (Session.mk _ _ _ _ _ _)
      (s.journal.forgetTyped_push_of_not_typed rfl _).symm
  | true =>
    obtain ⟨effect, sketch, happly, hplay⟩ := s.play_lastLine_eq a b tool
    obtain ⟨effect', sketch', happly', hplay'⟩ := s.forget.2.play_lastLine_eq a b tool
    cases hs.symm.trans hplay
    cases happly.symm.trans happly'
    refine ⟨hplay'.trans (congrArg Except.ok ?_), rfl⟩
    exact congrArg (Session.mk _ _ _ _ _ _)
      (s.journal.forgetTyped_push_of_not_typed rfl _).symm

/-- A journal without the keys of the text that it leaves pending plays to the session that has
forgotten this text.  The keys are counted from the end; none of them is before the last
commit, because a commit leaves nothing pending. -/
lemma playAll_dropTyped {settings : Settings} {es : List Journal.Entry}
    (hrec : ∀ e ∈ es, e.Recorded) {r : Session} (h : (new settings).playAll es = .ok r) :
    ∃ r', (new settings).playAll (Journal.dropTyped r.pending.length es.reverse).1.reverse
      = .ok r' ∧ Alike r.forget.2 r' := by
  induction es using List.reverseRecOn generalizing r with
  | nil =>
    cases h
    exact ⟨_, rfl, (forget_of_settled rfl rfl).symm⟩
  | append_singleton es e ih =>
    have hall : (new settings).playAll (e :: es.reverse).reverse = .ok r := by simpa using h
    rw [List.reverse_concat]
    obtain ⟨r₀, hr₀, he⟩ := playAll_concat_ok h
    obtain ⟨r₀', hr₀', halike⟩ := ih (fun e' he' => hrec e' (by simp [he'])) hr₀
    -- an entry that is no typed key stays, and leaves the text alone
    have hother : e.isTyped = false → r.pending = r₀.pending →
        r₀.forget.2.play e = .ok r.forget.2 →
        ∃ r', (new settings).playAll
            (Journal.dropTyped r.pending.length (e :: es.reverse)).1.reverse = .ok r' ∧
          Alike r.forget.2 r' := by
      intro hun hp hplay
      obtain ⟨r', hplay', halike'⟩ := halike.play hplay
      refine ⟨r', ?_, halike'⟩
      rw [hp, Journal.dropTyped_of_not_typed hun, List.reverse_cons, playAll_concat hr₀', hplay']
    cases e with
    | key code caret =>
      obtain ⟨rfl | rfl | ⟨c, rfl, hc⟩, -⟩ := hrec (.key code caret) (by simp)
      · cases he
        rw [forget_of_settled (pending_commit _) (anchor_commit _), pending_commit]
        exact ⟨_, hall, rfl⟩
      · cases he
        refine hother rfl (pending_dropStroke _) ?_
        rw [forget_dropStroke]
        rfl
      · rw [play_typed hc] at he
        cases he
        have hlength : ((r₀.placeCaret caret).typeChar c).pending.length =
            r₀.pending.length + 1 := String.length_push c
        refine ⟨r₀', ?_, ?_⟩
        · rw [hlength, Journal.dropTyped_of_typed (isTyped_of_types hc caret)]
          exact hr₀'
        · rw [forget_typeChar hc]
          exact halike.placeCaret caret
    | line a b tool last =>
      obtain ⟨hplay, hp⟩ := forget_play_line he
      exact hother rfl hp hplay

end Session

end FlowSketch
