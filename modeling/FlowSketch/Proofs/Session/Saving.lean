/-
# What a session saves

A session can be saved at any moment, and what it saves can be read.  It notes keys at its caret and
segments from its pen, so everything that it notes fits into thirty-two bits if the caret and the
pen do; and they do, because all places that they come to are given in thirty-two bits, by an
operation or by an entry that was read.  The code of a key is that of the character that was
pressed.

Main statement: `save_round_trip`.
-/
import FlowSketch.Proofs.Journal.Reading
import FlowSketch.Proofs.Session.Mirror

namespace FlowSketch.Session

/-- The sessions that operations lead to, from a blank sketch or from a saved journal. -/
inductive Reachable : Session → Prop
  /-- A session begins with a blank sketch. -/
  | new (settings : Settings) : Reachable (new settings)
  /-- A session begins with what a journal plays to. -/
  | replay {text : String} {settings : Settings} {s : Session} :
    replay text settings = .ok s → Reachable s
  /-- Something is done in a session. -/
  | perform {s s' : Session} {op : Op} : Reachable s → s.perform op = .ok s' → Reachable s'

/-- The caret and the pen are at places of thirty-two bits, and what was noted can be stored. -/
structure Fits (s : Session) : Prop where
  caret : s.caret.Fits
  pen : ∀ o, s.stroke = some o → o.pen.Fits
  entries : ∀ e ∈ s.journal.entries.toList, e.Storable

lemma fits_new (settings : Settings) : (new settings).Fits where
  caret := by simp [Point.Fits, new]
  pen := by
    intro o ho
    cases ho
  entries := by
    intro e he
    cases he

namespace Fits

variable {s s' : Session}

lemma placeCaret (h : s.Fits) {p : Point} (hp : p.Fits) : (s.placeCaret p).Fits :=
  ⟨hp, h.pen, h.entries⟩

lemma takeTool (h : s.Fits) (tool : Tool) : (s.takeTool tool).Fits := ⟨h.caret, h.pen, h.entries⟩

lemma dropStroke (h : s.Fits) : s.dropStroke.2.Fits := by
  cases hs : s.stroke with
  | none => rwa [dropStroke_of_none hs]
  | some o =>
    rw [dropStroke_of_some hs]
    refine ⟨h.caret, ?_, Journal.forall_push h.entries ⟨rfl, h.caret⟩⟩
    intro o ho
    cases ho

lemma penDown (h : s.Fits) {p : Point} (hp : p.Fits) : (s.penDown p).Fits := by
  refine ⟨h.dropStroke.caret, ?_, h.dropStroke.entries⟩
  intro o ho
  cases ho
  exact hp

lemma drawSegment (h : s.Fits) {a b : Point} (ha : a.Fits) (hb : b.Fits) :
    (s.drawSegment a b).Fits := by
  refine ⟨h.caret, ?_, Journal.forall_push h.entries ⟨ha, hb⟩⟩
  intro o ho
  obtain ⟨o', -, rfl⟩ := Option.map_eq_some_iff.mp ho
  exact hb

lemma penTo (h : s.Fits) {p : Point} (hp : p.Fits) : (s.penTo p).Fits := by
  cases hs : s.stroke with
  | none => rwa [penTo_of_none hs]
  | some o =>
    rw [penTo_of_some hs]
    exact h.drawSegment (h.pen o hs) hp

lemma click (h : s.Fits) {o : OpenStroke} (ho : s.stroke = some o) : (s.click o).Fits := by
  unfold Session.click
  split
  · exact h.drawSegment (h.pen o ho) (h.pen o ho)
  · exact h

/-- Lifting the pen marks an entry, which does not change its points. -/
lemma penUp (h : s.Fits) {effect : StrokeEffect} (hup : s.penUp = .ok (effect, s')) :
    s'.Fits := by
  cases hs : s.stroke with
  | none =>
    rw [penUp_of_none hs] at hup
    cases hup
    exact h
  | some o =>
    obtain ⟨_, _, -, hup'⟩ := penUp_of_some hs
    cases hup.symm.trans hup'
    have hclick := h.click hs
    refine ⟨hclick.caret, ?_, ?_⟩
    · intro o ho
      cases ho
    · intro e he
      rcases (s.click o).journal.closeLine_cases with ⟨es, a, b, tool, hes, hclosed, -⟩ | ⟨heq, -⟩
      · have hentries := hclick.entries
        rw [hes] at hentries
        rw [hclosed, List.mem_append, List.mem_singleton] at he
        rcases he with he | rfl
        · exact hentries e (List.mem_append_left _ he)
        · exact hentries (.line a b tool false) (by simp)
      · rw [heq] at he
        exact hclick.entries e he

lemma typeChar (h : s.Fits) (c : Char) : (s.typeChar c).Fits := by
  refine ⟨h.caret, h.pen, Journal.forall_push h.entries ⟨?_, h.caret⟩⟩
  rw [charOfCode?_toNat]
  rfl

lemma commit (h : s.Fits) : s.commit.2.Fits where
  caret := by
    rw [caret_commit]
    exact h.caret
  pen := by
    rw [stroke_commit]
    exact h.pen
  entries := by
    rw [journal_commit]
    exact Journal.forall_push h.entries ⟨rfl, h.caret⟩

lemma forget (h : s.Fits) : s.forget.2.Fits :=
  ⟨h.caret, h.pen, Journal.forall_forgetTyped h.entries _⟩

lemma press (h : s.Fits) (c : Char) : (s.press c).2.Fits := by
  rcases press_cases s c with ⟨-, hc⟩ | ⟨-, hc⟩ | ⟨-, hc⟩ | ⟨-, hc⟩
  · rw [hc]
    exact h.commit
  · rw [hc]
    exact h.forget
  · rw [hc]
    exact h.dropStroke
  · rw [hc]
    exact h.typeChar c

/-- Every operation keeps to thirty-two bits. -/
lemma perform (h : s.Fits) {op : Op} (hop : s.perform op = .ok s') : s'.Fits := by
  cases op with
  | penUp =>
    obtain ⟨_, hup⟩ := penUp_of_perform hop
    exact h.penUp hup
  | takeTool tool =>
    cases hop
    exact h.takeTool tool
  | penDown x y =>
    cases hop
    exact h.penDown (fits_place x y)
  | penTo x y =>
    cases hop
    exact h.penTo (fits_place x y)
  | dropStroke =>
    cases hop
    exact h.dropStroke
  | placeCaret x y =>
    cases hop
    exact h.placeCaret (fits_place x y)
  | press c =>
    cases hop
    exact h.press c
  | commit =>
    cases hop
    exact h.commit
  | forget =>
    cases hop
    exact h.forget

/-- An entry that can be stored is played within thirty-two bits. -/
lemma play (h : s.Fits) {e : Journal.Entry} (he : e.Storable) (hplay : s.play e = .ok s') :
    s'.Fits := by
  cases e with
  | key code caret =>
    have hcaret := h.placeCaret he.2
    obtain ⟨r, hr, hcases⟩ := s.exists_play_key he.1 caret
    cases hr.symm.trans hplay
    obtain rfl | rfl | rfl | ⟨c, -, rfl⟩ := hcases
    · exact hcaret.commit
    · exact hcaret.forget
    · exact hcaret.dropStroke
    · exact hcaret.typeChar c
  | line a b tool last =>
    have hready : (s.readyAt a tool).Fits := by
      unfold readyAt
      split
      · exact (h.takeTool tool).penDown he.1
      · exact h.takeTool tool
    have hdrawn := hready.drawSegment he.1 he.2
    cases last with
    | false =>
      cases (s.play_line a b tool).symm.trans hplay
      exact hdrawn
    | true =>
      obtain ⟨_, _, -, hplay'⟩ := s.play_lastLine_eq a b tool
      cases hplay'.symm.trans hplay
      refine ⟨h.caret, ?_, Journal.forall_push h.entries he⟩
      intro o ho
      cases ho

lemma playAll (h : s.Fits) {es : List Journal.Entry} (hes : ∀ e ∈ es, e.Storable)
    (hplay : s.playAll es = .ok s') : s'.Fits := by
  induction es using List.reverseRecOn generalizing s' with
  | nil =>
    cases hplay
    exact h
  | append_singleton es e ih =>
    obtain ⟨s₀, hs₀, he⟩ := playAll_concat_ok hplay
    exact (ih (fun e' he' => hes e' (by simp [he'])) hs₀).play (hes e (by simp)) he

end Fits

/-- Whatever a session has noted can be stored. -/
lemma Reachable.fits {s : Session} (h : Reachable s) : s.Fits := by
  induction h with
  | new settings => exact fits_new settings
  | @replay text settings s hreplay =>
    unfold Session.replay at hreplay
    split at hreplay
    · cases hreplay
    · rename_i j hread
      exact (fits_new settings).playAll (Journal.storable_of_read hread) hreplay
  | perform _ hop ih => exact ih.perform hop

/-- **Reading undoes what saving does.**  A journal that can be stored is read back from its text,
every session has such a journal, and once a text has been read, its journal is the same for good:
its own text is read as this journal and is written for it again. -/
theorem save_round_trip :
    (∀ j : Journal, (∀ e ∈ j.entries.toList, e.Storable) → Journal.read j.encode = .ok j) ∧
    (∀ s, Reachable s →
      (∀ e ∈ s.journal.entries.toList, e.Storable) ∧ Journal.read s.save = .ok s.journal) ∧
    ∀ text j, Journal.read text = .ok j → Journal.read j.encode = .ok j ∧
      (Journal.read j.encode).map Journal.encode = .ok j.encode := by
  refine ⟨fun j => Journal.read_encode, fun s hs => ?_, fun text j hread => ?_⟩
  · have hstorable := hs.fits.entries
    exact ⟨hstorable, Journal.read_encode hstorable⟩
  · have hback := Journal.read_encode (Journal.storable_of_read hread)
    refine ⟨hback, ?_⟩
    rw [hback]
    rfl

/-- Of a journal with the last code and the outermost places, of a session in which a digit was
typed, and of a text with blanks, a blank piece and a zero with a sign. -/
theorem save_round_trip_outermost :
    Journal.read (Journal.mk #[.key 0x10FFFF ⟨-0x80000000, 0x7FFFFFFF⟩]).encode =
      .ok ⟨#[.key 0x10FFFF ⟨-0x80000000, 0x7FFFFFFF⟩]⟩ ∧
    Journal.read ((new {}).press '4').2.save = .ok ⟨#[.key 52 ⟨0, 0⟩]⟩ ∧
    Journal.read " Key , 065,-0,7 ;; " = .ok ⟨#[.key 65 ⟨0, 7⟩]⟩ ∧
    Journal.read "Key,65,0,7;\n" = .ok ⟨#[.key 65 ⟨0, 7⟩]⟩ := by
  have hlast : ∀ e ∈ (Journal.mk #[.key 0x10FFFF ⟨-0x80000000, 0x7FFFFFFF⟩]).entries.toList,
      e.Storable := by
    simp [Journal.Entry.Storable, charOfCode?, Point.Fits]
  have htyped : Reachable ((new {}).press '4').2 :=
    .perform (.new {}) (show perform _ (.press '4') = _ from rfl)
  have hspaced : Journal.read " Key , 065,-0,7 ;; " = .ok ⟨#[.key 65 ⟨0, 7⟩]⟩ := by
    decide +kernel
  exact ⟨save_round_trip.1 _ hlast, (save_round_trip.2.1 _ htyped).2, hspaced,
    (save_round_trip.2.2 _ _ hspaced).1⟩

end FlowSketch.Session
