/-
# Resuming a session

A stroke *ends cleanly* if the pen is lifted right behind its latest segment and with the tool of
that segment.  In a session in which all strokes do, the journal tells of every stroke what there
is to tell.  So a session that plays the journal can go on where the live one was left: it has the
same sketch and the same pending text, and the same open stroke if that has a segment.

A stroke that is given up without a segment leaves only its cancel in the journal, and in the other
session there is no stroke to give up at this place.  So its journal has the same entries but for
these cancels.  No cancel is ever forgotten, so the cancels of a journal are those of the strokes
that were given up, one for each and in the same order.

Main statement: `resumes_of_endsCleanly`.
-/
import FlowSketch.Proofs.Session.Mirror

namespace FlowSketch

namespace Journal

/-! ## Cancels without effect -/

/-- Whether an entry gives up a stroke. -/
def Entry.isCancel : Entry → Bool
  | .key code _ => code == cancelKey
  | .line .. => false

/-- Entries without the cancels of strokes that had no segment.  The strokes are those that the
cancels gave up; they and the entries begin with the latest. -/
def withoutIdle : List OpenStroke → List Entry → List Entry
  | _, [] => []
  | given, e :: es =>
    if e.isCancel then
      match given with
      | [] => e :: withoutIdle [] es
      | o :: given =>
        if o.segments = 0 then withoutIdle given es else e :: withoutIdle given es
    else e :: withoutIdle given es

variable {e : Entry} {es : List Entry} {given : List OpenStroke}

lemma withoutIdle_cons_of_not_cancel (h : e.isCancel = false) :
    withoutIdle given (e :: es) = e :: withoutIdle given es := by
  cases given <;> simp [withoutIdle, h]

lemma withoutIdle_cons_of_idle {o : OpenStroke} (h : e.isCancel = true) (ho : o.segments = 0) :
    withoutIdle (o :: given) (e :: es) = withoutIdle given es := by
  rw [withoutIdle, if_pos h]
  exact if_pos ho

lemma withoutIdle_cons_of_drawn {o : OpenStroke} (h : e.isCancel = true) (ho : o.segments ≠ 0) :
    withoutIdle (o :: given) (e :: es) = e :: withoutIdle given es := by
  rw [withoutIdle, if_pos h]
  exact if_neg ho

lemma isTyped_of_isCancel (h : e.isCancel = true) : e.isTyped = false := by
  cases e with
  | key code caret => simp_all [Entry.isCancel, Entry.isTyped]
  | line => rfl

/-- Typed characters can be forgotten before or behind the cancels. -/
lemma withoutIdle_dropTyped (n : ℕ) :
    withoutIdle given (dropTyped n es).1 = (dropTyped n (withoutIdle given es)).1 := by
  induction es generalizing n given with
  | nil => cases n <;> rfl
  | cons e es ih =>
    cases hcancel : e.isCancel with
    | false =>
      rw [withoutIdle_cons_of_not_cancel hcancel]
      cases htyped : e.isTyped with
      | false =>
        rw [dropTyped_of_not_typed htyped, dropTyped_of_not_typed htyped,
          withoutIdle_cons_of_not_cancel hcancel, ih]
      | true =>
        cases n with
        | zero => simp only [dropTyped, withoutIdle_cons_of_not_cancel hcancel]
        | succ n => rw [dropTyped_of_typed htyped, dropTyped_of_typed htyped, ih]
    | true =>
      have htyped := isTyped_of_isCancel hcancel
      rw [dropTyped_of_not_typed htyped]
      cases given with
      | nil =>
        simp only [withoutIdle, hcancel, if_true]
        rw [dropTyped_of_not_typed htyped, ih]
      | cons o given =>
        by_cases ho : o.segments = 0
        · rw [withoutIdle_cons_of_idle hcancel ho, withoutIdle_cons_of_idle hcancel ho, ih]
        · rw [withoutIdle_cons_of_drawn hcancel ho, withoutIdle_cons_of_drawn hcancel ho,
            dropTyped_of_not_typed htyped, ih]

lemma countP_isCancel_dropTyped (n : ℕ) :
    (dropTyped n es).1.countP (·.isCancel) = es.countP (·.isCancel) := by
  induction es generalizing n with
  | nil => cases n <;> rfl
  | cons e es ih =>
    cases htyped : e.isTyped with
    | false => rw [dropTyped_of_not_typed htyped, List.countP_cons, List.countP_cons, ih]
    | true =>
      have hcancel : ¬ e.isCancel = true := by
        intro h
        rw [isTyped_of_isCancel h] at htyped
        cases htyped
      cases n with
      | zero => simp only [dropTyped]
      | succ n => rw [dropTyped_of_typed htyped, ih, List.countP_cons_of_neg hcancel]

/-- A journal with a latest entry is a shorter one with this entry. -/
lemma exists_push_of_back? {j : Journal} (h : j.entries.back? = some e) :
    ∃ k : Journal, j = k.push e := by
  rw [← Array.getLast?_toList, List.getLast?_eq_some_iff] at h
  obtain ⟨es, hes⟩ := h
  refine ⟨⟨es.toArray⟩, congrArg mk ?_⟩
  rw [List.push_toArray, ← hes]

/-- A journal that ends with an open segment tells of a stroke that ends with this segment. -/
lemma told?_push_line (j : Journal) (a b : Point) (tool : Tool) :
    (j.push (.line a b tool false)).told? =
      some ⟨tool, (openStart j.entries.toList).getD a, b⟩ := by
  simp [told?]

/-- A journal has a cancel for each of the strokes that were given up, and another journal is the
same without the cancels of the strokes that had no segment. -/
structure Sheds (given : List OpenStroke) (j k : Journal) : Prop where
  /-- There are as many cancels as strokes that were given up. -/
  cancels : j.entries.toList.countP (·.isCancel) = given.length
  /-- The idle ones of them are missing in the other journal, and nothing else is. -/
  entries : k.entries.toList.reverse = withoutIdle given j.entries.toList.reverse

namespace Sheds

variable {j k : Journal}

lemma push_iff (he : e.isCancel = false) :
    Sheds given (j.push e) (k.push e) ↔ Sheds given j k := by
  have hcount : (j.push e).entries.toList.countP (·.isCancel) =
      j.entries.toList.countP (·.isCancel) := by
    rw [toList_entries_push, List.countP_append, List.countP_singleton, he]
    rfl
  have hentries : (k.push e).entries.toList.reverse =
        withoutIdle given (j.push e).entries.toList.reverse ↔
      k.entries.toList.reverse = withoutIdle given j.entries.toList.reverse := by
    rw [toList_entries_push, toList_entries_push, List.reverse_concat, List.reverse_concat,
      withoutIdle_cons_of_not_cancel he, List.cons_inj_right]
  constructor
  · rintro ⟨hc, hk⟩
    exact ⟨hcount.symm.trans hc, hentries.mp hk⟩
  · rintro ⟨hc, hk⟩
    exact ⟨hcount.trans hc, hentries.mpr hk⟩

/-- A stroke is given up.  If it had no segment, the other journal does not have the cancel. -/
lemma cancel (h : Sheds given j k) (he : e.isCancel = true) (o : OpenStroke) :
    Sheds (o :: given) (j.push e) (if o.segments = 0 then k else k.push e) := by
  constructor
  · rw [toList_entries_push, List.countP_append, h.cancels, List.countP_singleton, he]
    rfl
  · rw [toList_entries_push, List.reverse_concat]
    split
    · rename_i ho
      rw [withoutIdle_cons_of_idle he ho, h.entries]
    · rename_i ho
      rw [withoutIdle_cons_of_drawn he ho, toList_entries_push, List.reverse_concat, h.entries]

lemma forgetTyped (h : Sheds given j k) (n : ℕ) :
    Sheds given (j.forgetTyped n).2 (k.forgetTyped n).2 := by
  constructor
  · simp only [Journal.forgetTyped, List.countP_reverse]
    rw [countP_isCancel_dropTyped, List.countP_reverse, h.cancels]
  · simp only [Journal.forgetTyped, List.reverse_reverse]
    rw [withoutIdle_dropTyped, h.entries]

end Sheds

end Journal

namespace Session

open Journal (Entry)

/-- If the pen is lifted from a stroke with segments now, the latest entry is a segment, which can
only be the latest one of that stroke, and it was drawn with the tool that is in use. -/
def EndsCleanly (s : Session) : Prop :=
  ∀ o, s.stroke = some o → o.segments ≠ 0 →
    ∃ a b last, s.journal.entries.back? = some (.line a b s.tool last)

/-! ## Strokes that are given up -/

/-- The stroke that an operation gives up, if it gives one up. -/
def givenUp? (s : Session) : Op → Option OpenStroke
  | .penDown _ _ => s.stroke
  | .dropStroke => s.stroke
  | .press c => if c = '\x1b' then s.stroke else none
  | _ => none

/-- The strokes that operations give up, the latest first. -/
def givenUp (s : Session) : List Op → List OpenStroke
  | [] => []
  | op :: ops =>
    match s.perform op with
    | .ok s' => s'.givenUp ops ++ (s.givenUp? op).toList
    | .error _ => []

lemma givenUp_concat {s s' : Session} {ops : List Op} (h : s.performAll ops = .ok s') (op : Op) :
    s.givenUp (ops ++ [op]) = (s'.givenUp? op).toList ++ s.givenUp ops := by
  induction ops generalizing s with
  | nil =>
    cases h
    obtain ⟨s'', hs⟩ := perform_isOk s' op
    simp only [List.nil_append, givenUp, hs, List.append_nil]
  | cons first ops ih =>
    obtain ⟨s₁, hs₁⟩ := perform_isOk s first
    have hrest : s₁.performAll ops = .ok s' := by
      rw [performAll, List.foldlM_cons, hs₁] at h
      exact h
    simp only [List.cons_append, givenUp, hs₁, ih hrest, List.append_assoc]

/-! ## The session that goes on -/

/-- A session can go on where another one was left that gave up certain strokes. -/
structure Resumes (s r : Session) (given : List OpenStroke) : Prop where
  /-- It has the open stroke, if that has a segment. -/
  stroke : r.stroke = s.stroke.filter (·.segments ≠ 0)
  /-- A stroke without a segment is still where it began. -/
  begun : ∀ o, s.stroke = some o → o.segments = 0 → o.start = o.pen
  /-- Its journal lacks the cancels of strokes without a segment. -/
  journal : Journal.Sheds given s.journal r.journal

namespace Resumes

variable {settings : Settings} {s r r' : Session} {given : List OpenStroke} {o : OpenStroke}

lemma stroke_of_some (h : Resumes s r given) (ho : s.stroke = some o) :
    r.stroke = if o.segments = 0 then none else some o := by
  rw [h.stroke, ho, Option.filter_some]
  by_cases hz : o.segments = 0 <;> simp [hz]

/-- A segment that goes on with the stroke of the one session goes on with the same stroke in the
other one. -/
lemma openAt_eq (h : Resumes s r given) (ho : s.stroke = some o) : r.openAt o.pen = o := by
  rw [openAt, h.stroke_of_some ho]
  split
  · rename_i hz
    have hbegun := h.begun o ho hz
    cases o
    cases hz
    cases hbegun
    rfl
  · rfl

/-- A key that leaves the open stroke alone. -/
lemma note (h : Resumes s r given) {s' : Session} {e : Entry} (he : e.isCancel = false)
    (hs : s'.stroke = s.stroke) (hj : s'.journal = s.journal.push e) (hr : r'.stroke = r.stroke)
    (hk : r'.journal = r.journal.push e) : Resumes s' r' given where
  stroke := by rw [hr, hs, h.stroke]
  begun := by rw [hs]; exact h.begun
  journal := by
    rw [hj, hk]
    exact (Journal.Sheds.push_iff he).mpr h.journal

lemma typeChar (h : Resumes s r given) {c : Char} (hc : Types c)
    (hplay : r.play (.key c.toNat s.caret) = .ok r') : Resumes (s.typeChar c) r' given := by
  rw [play_typed hc] at hplay
  cases hplay
  have hcancel : (Entry.key c.toNat s.caret).isCancel = false := by
    simpa [Entry.isCancel] using (types_code hc).2
  exact h.note hcancel rfl rfl rfl rfl

lemma commit (h : Resumes s r given) (hplay : r.play (.key commitKey s.caret) = .ok r') :
    Resumes s.commit.2 r' given := by
  cases hplay
  exact h.note rfl s.stroke_commit s.journal_commit (stroke_commit _) (journal_commit _)

lemma drawSegment (h : Resumes s r given) (ho : s.stroke = some o) {p : Point}
    (hplay : r.play (.line o.pen p s.tool false) = .ok r') :
    Resumes (s.drawSegment o.pen p) r' given := by
  rw [play_line, readyAt_eq, h.openAt_eq ho] at hplay
  cases hplay
  have hstroke : (s.drawSegment o.pen p).stroke =
      some { o with pen := p, segments := o.segments + 1 } := congrArg (Option.map _) ho
  refine ⟨?_, ?_, (Journal.Sheds.push_iff rfl).mpr h.journal⟩
  · rw [hstroke, Option.filter_some, if_pos (by simp)]
    rfl
  · intro o' ho' hz
    rw [hstroke] at ho'
    cases ho'
    cases hz

lemma dropStroke_of_some (h : Resumes s r given) (ho : s.stroke = some o)
    (hplay : r.play (.key cancelKey s.caret) = .ok r') :
    Resumes s.dropStroke.2 r' (o :: given) := by
  cases hplay
  rw [Session.dropStroke_of_some ho]
  refine ⟨stroke_dropStroke _, ?_, ?_⟩
  · intro o' ho'
    cases ho'
  · have hsheds := h.journal.cancel (e := .key cancelKey s.caret) rfl o
    have hstroke := h.stroke_of_some ho
    split at hsheds
    · rename_i hz
      have hnone : (r.placeCaret s.caret).stroke = none := hstroke.trans (if_pos hz)
      rw [dropStroke_of_none hnone]
      exact hsheds
    · rename_i hz
      have hsome : (r.placeCaret s.caret).stroke = some o := hstroke.trans (if_neg hz)
      rw [Session.dropStroke_of_some hsome]
      exact hsheds

end Resumes

/-! ## The same operations on both sides -/

namespace Mirrored

variable {settings : Settings} {s s' r r' : Session}

/-- A new entry takes the one mirror to the other. -/
lemma play_of_push (h : Mirrored settings s r) (h' : Mirrored settings s' r') {e : Entry}
    (hj : s'.journal = s.journal.push e) : r.play e = .ok r' := by
  have hplays := h'.plays
  rw [hj, Journal.toList_entries_push, playAll_concat h.plays] at hplays
  exact hplays

/-- A journal has only one mirror. -/
lemma eq_of_journal (h : Mirrored settings s r) (h' : Mirrored settings s' r')
    (hj : s'.journal = s.journal) : r' = r := by
  have hplays := h'.plays
  rw [hj, h.plays] at hplays
  exact (Except.ok.inj hplays).symm

end Mirrored

namespace Resumes

variable {settings : Settings} {s s' r r' : Session} {given : List OpenStroke} {o : OpenStroke}

lemma congr (h : Resumes s r given) (hs : s'.stroke = s.stroke) (hj : s'.journal = s.journal) :
    Resumes s' r given where
  stroke := by rw [hs, h.stroke]
  begun := by rw [hs]; exact h.begun
  journal := by rw [hj]; exact h.journal

lemma dropStroke (h : Resumes s r given) (hm : Mirrored settings s r)
    (hm' : Mirrored settings s.dropStroke.2 r') :
    Resumes s.dropStroke.2 r' (s.stroke.toList ++ given) := by
  cases ho : s.stroke with
  | none =>
    rw [dropStroke_of_none ho] at hm' ⊢
    rw [hm.eq_of_journal hm' rfl]
    exact h
  | some o =>
    refine h.dropStroke_of_some ho (hm.play_of_push hm' ?_)
    rw [Session.dropStroke_of_some ho]
    rfl

lemma penDown (h : Resumes s r given) (hm : Mirrored settings s r) {p : Point}
    (hm' : Mirrored settings (s.penDown p) r') :
    Resumes (s.penDown p) r' (s.stroke.toList ++ given) := by
  obtain ⟨r'', hm'', -⟩ := hm.dropStroke
  have hdrop := h.dropStroke hm hm''
  rw [← hm''.eq_of_journal hm' rfl] at hdrop
  refine ⟨?_, ?_, hdrop.journal⟩
  · rw [hdrop.stroke, stroke_dropStroke]
    rfl
  · intro o ho _
    cases ho
    rfl

lemma penTo (h : Resumes s r given) (hm : Mirrored settings s r) {p : Point}
    (hm' : Mirrored settings (s.penTo p) r') : Resumes (s.penTo p) r' given := by
  cases ho : s.stroke with
  | none =>
    rw [penTo_of_none ho] at hm' ⊢
    rw [hm.eq_of_journal hm' rfl]
    exact h
  | some o =>
    rw [penTo_of_some ho] at hm' ⊢
    exact h.drawSegment ho (hm.play_of_push hm' rfl)

/-- The pending text is forgotten on both sides. -/
lemma forget (h : Resumes s r given) (hm : Mirrored settings s r)
    (hm' : Mirrored settings s.forget.2 r') : Resumes s.forget.2 r' given := by
  obtain ⟨r'', hplays, halike⟩ := playAll_dropTyped hm.recorded hm.plays
  rw [hm.pending] at hplays
  cases hplays.symm.trans hm'.plays
  have hstroke : r'.stroke = r.stroke := congrArg (·.stroke) halike
  have hjournal : r'.journal = (r.journal.forgetTyped s.pending.length).2 := by
    rw [← hm.pending]
    exact congrArg (·.journal) halike
  refine ⟨hstroke.trans h.stroke, h.begun, ?_⟩
  rw [hjournal]
  exact h.journal.forgetTyped _

lemma press (h : Resumes s r given) (hm : Mirrored settings s r) (c : Char)
    (hm' : Mirrored settings (s.press c).2 r') :
    Resumes (s.press c).2 r' ((s.givenUp? (.press c)).toList ++ given) := by
  have hnone : c ≠ '\x1b' → (s.givenUp? (.press c)).toList ++ given = given := by
    intro hc
    have hpress : s.givenUp? (.press c) = none := if_neg hc
    rw [hpress, Option.toList_none, List.nil_append]
  rcases press_cases s c with ⟨hc, hp⟩ | ⟨hc, hp⟩ | ⟨rfl, hp⟩ | ⟨hc, hp⟩
  · rw [hp] at hm' ⊢
    rw [hnone (by rcases hc with rfl | rfl <;> decide)]
    exact h.commit (hm.play_of_push hm' s.journal_commit)
  · rw [hp] at hm' ⊢
    rw [hnone (by rw [hc]; decide)]
    exact h.forget hm hm'
  · rw [hp] at hm' ⊢
    exact h.dropStroke hm hm'
  · rw [hp] at hm' ⊢
    rw [hnone hc.2.2.2]
    exact h.typeChar hc (hm.play_of_push hm' rfl)

lemma click (h : Resumes s r given) (hm : Mirrored settings s r) (ho : s.stroke = some o)
    (hm' : Mirrored settings (s.click o) r') : Resumes (s.click o) r' given := by
  unfold Session.click at hm' ⊢
  split at hm'
  · rename_i hz
    rw [if_pos hz]
    exact h.drawSegment ho (hm.play_of_push hm' rfl)
  · rename_i hz
    rw [if_neg hz, hm.eq_of_journal hm' rfl]
    exact h

/-- Before the pen is lifted from a stroke that ends cleanly, the latest entry is an open segment
with the tool in use. -/
lemma exists_line_click (h : Resumes s r given) (hm : Mirrored settings s r)
    (ho : s.stroke = some o) (hclean : s.EndsCleanly) :
    ∃ j a b, (s.click o).journal = Journal.push j (.line a b s.tool false) := by
  unfold Session.click
  split
  · exact ⟨s.journal, o.pen, o.pen, rfl⟩
  · rename_i hz
    obtain ⟨a, b, last, hback⟩ := hclean o ho hz
    obtain ⟨es, hes⟩ := Journal.exists_push_of_back? hback
    refine ⟨es, a, b, ?_⟩
    cases last with
    | false => exact hes
    | true =>
      -- behind a marked segment no stroke is open
      have hplays := hm.plays
      rw [hes, Journal.toList_entries_push] at hplays
      obtain ⟨r₀, -, he⟩ := playAll_concat_ok hplays
      obtain ⟨_, _, -, hplay⟩ := r₀.play_lastLine_eq a b s.tool
      cases he.symm.trans hplay
      have hsome := h.stroke_of_some ho
      rw [if_neg hz] at hsome
      cases hsome

/-- The journal tells of a stroke that ends cleanly where it began and with which tool. -/
lemma liftTold (h : Resumes s r given) (hm : Mirrored settings s r) (hclean : s.EndsCleanly) :
    s.LiftTold := by
  intro o ho
  obtain ⟨r₁, hm₁, -⟩ := hm.click ho
  have h₁ := h.click hm ho hm₁
  obtain ⟨j, a, b, hj⟩ := h.exists_line_click hm ho hclean
  obtain ⟨o₁, ho₁, hstart, -, hz⟩ := exists_stroke_click ho
  have hplays := hm₁.plays
  have hrec := hm₁.recorded
  rw [hj, Journal.toList_entries_push] at hplays hrec
  obtain ⟨r₀, hr₀, he⟩ := playAll_concat_ok hplays
  rw [play_line, readyAt_eq] at he
  cases he
  have hstroke := h₁.stroke_of_some ho₁
  rw [if_neg hz] at hstroke
  have hopen : some (r₀.openAt a).start = some o₁.start :=
    congrArg (Option.map OpenStroke.start) hstroke
  rw [hj, Journal.told?_push_line]
  refine ⟨rfl, fun _ => ?_⟩
  rw [← hstart, ← Option.some.inj hopen]
  exact (start_openAt (fun e he => hrec e (List.mem_append_left _ he)) hr₀ a).symm

/-- Both sessions lift the pen. -/
lemma penUp (h : Resumes s r given) (hm : Mirrored settings s r) (hclean : s.EndsCleanly)
    {effect : StrokeEffect} (hup : s.penUp = .ok (effect, s')) (hm' : Mirrored settings s' r') :
    Resumes s' r' given := by
  cases ho : s.stroke with
  | none =>
    rw [penUp_of_none ho] at hup
    cases hup
    rw [hm.eq_of_journal hm' rfl]
    exact h
  | some o =>
    obtain ⟨_, sketch, -, hup'⟩ := penUp_of_some ho
    cases hup.symm.trans hup'
    obtain ⟨r₁, hm₁, -⟩ := hm.click ho
    have hsheds := (h.click hm ho hm₁).journal
    obtain ⟨j, a, b, hj⟩ := h.exists_line_click hm ho hclean
    have hplays := hm₁.plays
    have hplays' := hm'.plays
    simp only [hj, Journal.closeLine_push_line, Journal.toList_entries_push]
      at hplays hplays' hsheds
    obtain ⟨r₀, hr₀, he⟩ := playAll_concat_ok hplays
    rw [play_line, readyAt_eq] at he
    cases he
    obtain ⟨_, _, -, hplay⟩ := r₀.play_lastLine_eq a b s.tool
    rw [playAll_concat hr₀, hplay] at hplays'
    cases hplays'
    refine ⟨rfl, ?_, ?_⟩
    · intro o' ho'
      cases ho'
    · simp only [hj, Journal.closeLine_push_line]
      exact (Journal.Sheds.push_iff rfl).mpr ((Journal.Sheds.push_iff rfl).mp hsheds)

/-- Every operation can be done on both sides, if a stroke that it finishes ends cleanly. -/
lemma perform (h : Resumes s r given) (hm : Mirrored settings s r) {op : Op}
    (hclean : op = .penUp → s.EndsCleanly) (hop : s.perform op = .ok s')
    (hm' : Mirrored settings s' r') : Resumes s' r' ((s.givenUp? op).toList ++ given) := by
  cases op with
  | takeTool tool =>
    cases hop
    rw [hm.eq_of_journal hm' rfl]
    exact h.congr rfl rfl
  | penDown x y =>
    cases hop
    exact h.penDown hm hm'
  | penTo x y =>
    cases hop
    exact h.penTo hm hm'
  | penUp =>
    obtain ⟨_, hup⟩ := penUp_of_perform hop
    exact h.penUp hm (hclean rfl) hup hm'
  | dropStroke =>
    cases hop
    exact h.dropStroke hm hm'
  | placeCaret x y =>
    cases hop
    rw [hm.eq_of_journal hm' rfl]
    exact h.congr rfl rfl
  | press c =>
    cases hop
    exact h.press hm c hm'
  | commit =>
    cases hop
    exact h.commit (hm.play_of_push hm' s.journal_commit)
  | forget =>
    cases hop
    exact h.forget hm hm'

end Resumes

/-! ## Sessions in which all strokes end cleanly -/

lemma resumes_new (settings : Settings) : Resumes (new settings) (new settings) [] where
  stroke := rfl
  begun := by
    intro o ho
    cases ho
  journal := ⟨rfl, rfl⟩

lemma exists_resumes {settings : Settings} {ops : List Op}
    (h : ∀ ps s, ps ++ [.penUp] <+: ops → (new settings).performAll ps = .ok s → s.EndsCleanly) :
    ∃ s r, (new settings).performAll ops = .ok s ∧ Mirrored settings s r ∧
      Resumes s r ((new settings).givenUp ops) ∧ r.sketch = s.sketch := by
  induction ops using List.reverseRecOn with
  | nil => exact ⟨_, _, rfl, mirrored_new settings, resumes_new settings, rfl⟩
  | append_singleton ops op ih =>
    obtain ⟨s, r, hs, hm, hr, hsketch⟩ :=
      ih fun ps s hps => h ps s (hps.trans (List.prefix_append _ _))
    have hclean : op = .penUp → s.EndsCleanly := by
      rintro rfl
      exact h ops s (List.prefix_refl _) hs
    obtain ⟨s', hs'⟩ := perform_isOk s op
    obtain ⟨r', hm', hiff⟩ := hm.perform hs'
    refine ⟨s', r', ?_, hm', ?_, ?_⟩
    · rw [performAll_concat, hs]
      exact hs'
    · rw [givenUp_concat hs]
      exact hr.perform hm hclean hs' hm'
    · exact (hiff hsketch).mpr fun hup => hr.liftTold hm (hclean hup)

/-- **If all strokes of a session end cleanly, what its journal plays to can go on where it was
left**: with the same sketch and pending text, with the open stroke if that has a segment, and
with a journal that lacks nothing but the cancels of strokes without a segment. -/
theorem resumes_of_endsCleanly (settings : Settings) (ops : List Op)
    (h : ∀ ps s, ps ++ [.penUp] <+: ops → (new settings).performAll ps = .ok s → s.EndsCleanly) :
    ∃ s r, (new settings).performAll ops = .ok s ∧ replay s.save settings = .ok r ∧
      r.sketch = s.sketch ∧ r.pending = s.pending ∧ r.anchor = s.anchor ∧
      r.stroke = s.stroke.filter (·.segments ≠ 0) ∧
      Journal.Sheds ((new settings).givenUp ops) s.journal r.journal := by
  obtain ⟨s, r, hs, hm, hr, hsketch⟩ := exists_resumes h
  exact ⟨s, r, hs, hm.replay_save, hsketch, hm.pending, hm.anchor, hr.stroke, hr.journal⟩

/-- A stroke that ends cleanly, a text that stays pending, a stroke that is given up before it has
a segment, and one that stays open. -/
def leftOpen : List Op :=
  [.takeTool .flow, .press 'a', .penDown 1 1, .penTo 5 1, .penUp, .penDown 2 2, .penDown 3 3,
    .penTo 4 4]

/-- A session can go on with a pending text and an open stroke. -/
theorem resumes_leftOpen :
    ∃ s r, (new {}).performAll leftOpen = .ok s ∧ replay s.save {} = .ok r ∧
      r.sketch = s.sketch ∧ r.pending = s.pending ∧ r.anchor = s.anchor ∧
      r.stroke = s.stroke.filter (·.segments ≠ 0) ∧
      Journal.Sheds ((new {}).givenUp leftOpen) s.journal r.journal := by
  refine resumes_of_endsCleanly {} leftOpen ?_
  intro ps s hps hs o _ _
  have hlift : leftOpen[ps.length]? = some .penUp := by
    obtain ⟨qs, hqs⟩ := hps
    rw [← hqs]
    simp
  have hlength : ps.length = 4 := by
    have honce : ∀ n < leftOpen.length, leftOpen[n]? = some .penUp → n = 4 := by decide
    exact honce _ (List.getElem?_eq_some_iff.mp hlift).1 hlift
  have hps' : ps = leftOpen.take 4 := by
    rw [← hlength]
    exact List.prefix_iff_eq_take.mp ((List.prefix_append _ _).trans hps)
  subst hps'
  cases hs
  exact ⟨_, _, _, rfl⟩

end Session

end FlowSketch
