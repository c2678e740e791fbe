/-
# Playing settles a journal

A session that plays a journal keeps a journal of its own, which may differ from the one that is
played: a line break becomes a commit, a backspace goes together with the keys that it takes back,
and giving up a stroke leaves no trace if there is no stroke.  What the session has kept plays to
the same session again, up to the place of the caret.  So a second playing changes nothing.

Main statement: `exists_settled`.
-/
import FlowSketch.Proofs.Session.Playing

namespace FlowSketch.Session

/-- A session is what its own journal plays to, up to the place of the caret. -/
structure Settled (settings : Settings) (s r : Session) : Prop where
  plays : (new settings).playAll s.journal.entries.toList = .ok r
  recorded : ∀ e ∈ s.journal.entries.toList, e.Recorded
  alike : Alike s r

namespace Settled

variable {settings : Settings} {s r : Session}

lemma placeCaret (h : Settled settings s r) (p : Point) : Settled settings (s.placeCaret p) r where
  plays := h.plays
  recorded := h.recorded
  alike := h.alike.placeCaret p

/-- What is noted is played to the same effect. -/
lemma push (h : Settled settings s r) {e : Journal.Entry} (he : e.Recorded) {s' r' : Session}
    (hjournal : s'.journal = s.journal.push e) (hplay : r.play e = .ok r') (halike : Alike s' r') :
    Settled settings s' r' := by
  refine ⟨?_, ?_, halike⟩
  · rw [hjournal]
    exact playAll_push h.plays hplay
  · rw [hjournal]
    exact Journal.forall_push h.recorded he

/-- A key that is noted at the caret does the same to the other session. -/
lemma note (h : Settled settings s r) {code : ℕ} (he : (Journal.Entry.key code s.caret).Recorded)
    {s' : Session} (hjournal : s'.journal = s.journal.push (.key code s.caret))
    (hplay : s.play (.key code s.caret) = .ok s') : ∃ r', Settled settings s' r' := by
  obtain ⟨r', hr', halike⟩ := h.alike.play hplay
  exact ⟨r', h.push he hjournal hr' halike⟩

lemma commit (h : Settled settings s r) (hcaret : s.caret.Fits) :
    ∃ r', Settled settings s.commit.2 r' :=
  h.note ⟨.inl rfl, hcaret⟩ s.journal_commit (play_commit s s.caret)

lemma typeChar (h : Settled settings s r) (hcaret : s.caret.Fits) {c : Char} (hc : Types c) :
    ∃ r', Settled settings (s.typeChar c) r' :=
  h.note ⟨.inr (.inr ⟨c, rfl, hc⟩), hcaret⟩ rfl (play_typed hc s s.caret)

lemma dropStroke (h : Settled settings s r) (hcaret : s.caret.Fits) :
    ∃ r', Settled settings s.dropStroke.2 r' := by
  cases ho : s.stroke with
  | none =>
    rw [dropStroke_of_none ho]
    exact ⟨r, h⟩
  | some o =>
    refine h.note ⟨.inr (.inl rfl), hcaret⟩ ?_ (play_cancel s s.caret)
    rw [dropStroke_of_some ho]
    rfl

/-- A backspace takes the same keys out of both journals. -/
lemma forget (h : Settled settings s r) : ∃ r', Settled settings s.forget.2 r' := by
  obtain ⟨r', hplays, halike⟩ := playAll_dropTyped h.recorded h.plays
  have hforget : r.forget.2.placeCaret s.caret = s.forget.2 := congrArg (·.forget.2) h.alike
  have hpending : r.pending = s.pending := congrArg (·.pending) h.alike
  rw [hpending] at hplays
  exact ⟨r', hplays, Journal.forall_forgetTyped h.recorded _,
    (halike.placeCaret s.caret).trans hforget⟩

/-- A segment, whatever it follows, is noted as it is. -/
lemma line (h : Settled settings s r) {a b : Point} {tool : Tool} {last : Bool}
    (he : (Journal.Entry.line a b tool last).Recorded) :
    ∃ s' r', s.play (.line a b tool last) = .ok s' ∧ Settled settings s' r' := by
  obtain ⟨s', hplay, hjournal⟩ := s.exists_play_line a b tool last
  obtain ⟨r', hr', halike⟩ := h.alike.play hplay
  exact ⟨s', r', hplay, h.push he hjournal hr' halike⟩

/-- Any key of a character can be played, and what it leaves in the journal plays to the same. -/
lemma key (h : Settled settings s r) {code : ℕ} (hcode : (charOfCode? code).isSome = true)
    {caret : Point} (hcaret : caret.Fits) :
    ∃ s' r', s.play (.key code caret) = .ok s' ∧ Settled settings s' r' := by
  have hplaced := h.placeCaret caret
  obtain ⟨s', hplay, hs'⟩ := s.exists_play_key hcode caret
  suffices ∃ r', Settled settings s' r' by
    obtain ⟨r', hr'⟩ := this
    exact ⟨s', r', hplay, hr'⟩
  obtain rfl | rfl | rfl | ⟨c, htypes, rfl⟩ := hs'
  · exact hplaced.commit hcaret
  · exact hplaced.forget
  · exact hplaced.dropStroke hcaret
  · exact hplaced.typeChar hcaret htypes

/-- Any entry that can be stored can be played, and the session stays settled. -/
lemma play (h : Settled settings s r) {e : Journal.Entry} (he : e.Storable) :
    ∃ s' r', s.play e = .ok s' ∧ Settled settings s' r' := by
  cases e with
  | key code caret => exact h.key he.1 he.2
  | line a b tool last => exact h.line he

end Settled

/-- **Entries that can be stored play to a settled session.** -/
lemma exists_settled (settings : Settings) {es : List Journal.Entry} (hes : ∀ e ∈ es, e.Storable) :
    ∃ s r, (new settings).playAll es = .ok s ∧ Settled settings s r := by
  induction es using List.reverseRecOn with
  | nil => exact ⟨new settings, new settings, rfl, rfl, by rintro e ⟨⟩, rfl⟩
  | append_singleton es e ih =>
    obtain ⟨s, r, hs, hr⟩ := ih fun e' he' => hes e' (by simp [he'])
    obtain ⟨s', r', hs', hr'⟩ := hr.play (hes e (by simp))
    exact ⟨s', r', (playAll_concat hs).trans hs', hr'⟩

end FlowSketch.Session
