/-
# The pending text and its keys

The pending text is kept twice: as a text, with the place where it was begun, and as the typed
keys that stand in the journal behind the last commit.  Segments and cancels may stand between
these keys.  Every operation keeps the two in step.  To forget the text, typed keys are counted off
from the end of the journal, as many as the text has characters; so these are exactly its keys, and
no key that was committed goes with them.

Main statement: `forget_of_reachable`.
-/
import Mathlib.Data.List.DropRight
import FlowSketch.Proofs.Session.Saving

namespace FlowSketch

namespace Journal

/-! ## Behind the last commit -/

/-- Whether an entry is the key that finishes a text. -/
def Entry.isCommit : Entry → Bool
  | key code _ => code == commitKey
  | line .. => false

/-- The entries up to the last commit. -/
def committed (es : List Entry) : List Entry := es.rdropWhile (!·.isCommit)

/-- The entries behind the last commit. -/
def uncommitted (es : List Entry) : List Entry := es.rtakeWhile (!·.isCommit)

/-- The typed keys behind the last commit. -/
def typedRun (es : List Entry) : List Entry := (uncommitted es).filter (·.isTyped)

variable {es : List Entry} {e : Entry}

lemma committed_append_uncommitted (es : List Entry) : committed es ++ uncommitted es = es :=
  List.rdropWhile_append_rtakeWhile

lemma isCommit_of_isTyped (h : e.isTyped = true) : e.isCommit = false := by
  cases e with
  | key code caret =>
    rw [Entry.isTyped, Bool.and_eq_true, bne_iff_ne] at h
    exact beq_eq_false_iff_ne.mpr h.1
  | line => cases h

lemma uncommitted_concat (h : e.isCommit = false) :
    uncommitted (es ++ [e]) = uncommitted es ++ [e] :=
  List.rtakeWhile_concat_pos _ _ _ (by simp [h])

/-- A typed key comes last among the typed keys. -/
lemma typedRun_concat_of_typed (h : e.isTyped = true) :
    typedRun (es ++ [e]) = typedRun es ++ [e] := by
  rw [typedRun, uncommitted_concat (isCommit_of_isTyped h), List.filter_append,
    List.filter_singleton, h]
  rfl

lemma typedRun_concat_of_other (htyped : e.isTyped = false) (hcommit : e.isCommit = false) :
    typedRun (es ++ [e]) = typedRun es := by
  rw [typedRun, uncommitted_concat hcommit, List.filter_append, List.filter_singleton, htyped]
  exact List.append_nil _

/-- Behind a commit nothing is typed yet. -/
lemma typedRun_concat_commit (h : e.isCommit = true) : typedRun (es ++ [e]) = [] := by
  rw [typedRun, uncommitted, List.rtakeWhile_concat_neg _ _ _ (by simp [h])]
  rfl

/-- The mark of a segment has nothing to do with the typed keys. -/
lemma typedRun_closeLine (j : Journal) :
    typedRun j.closeLine.2.entries.toList = typedRun j.entries.toList := by
  rcases j.closeLine_cases with ⟨es, a, b, tool, hes, hclosed, -⟩ | ⟨heq, -⟩
  · rw [hes, hclosed, typedRun_concat_of_other rfl rfl, typedRun_concat_of_other rfl rfl]
  · rw [heq]

/-! ## Forgetting what is typed there -/

/-- **If as many typed keys are forgotten as there are behind the last commit, these go and all
else stays.** -/
lemma forgetTyped_typedRun (j : Journal) :
    j.forgetTyped (typedRun j.entries.toList).length =
      ((typedRun j.entries.toList).length,
        ⟨(committed j.entries.toList ++
          (uncommitted j.entries.toList).filter (!·.isTyped)).toArray⟩) := by
  have hcount : (uncommitted j.entries.toList).countP (·.isTyped) =
      (typedRun j.entries.toList).length := List.countP_eq_length_filter
  have hmin : (uncommitted j.entries.toList).countP (·.isTyped) =
      min (typedRun j.entries.toList).length
        ((committed j.entries.toList ++ uncommitted j.entries.toList).countP (·.isTyped)) := by
    rw [List.countP_append, hcount, Nat.min_eq_left (Nat.le_add_left _ _)]
  rw [forgetTyped_of_append (committed_append_uncommitted _).symm hmin, hcount]

lemma typedRun_append_of_others {fs : List Entry}
    (h : ∀ e ∈ fs, e.isTyped = false ∧ e.isCommit = false) : typedRun (es ++ fs) = typedRun es := by
  induction fs using List.reverseRecOn with
  | nil => rw [List.append_nil]
  | append_singleton fs e ih =>
    obtain ⟨htyped, hcommit⟩ := h e (by simp)
    rw [← List.append_assoc, typedRun_concat_of_other htyped hcommit]
    exact ih fun e' he' => h e' (by simp [he'])

/-- Nothing is typed behind the last commit any more. -/
lemma typedRun_forgotten (es : List Entry) :
    typedRun (committed es ++ (uncommitted es).filter (!·.isTyped)) = [] := by
  have hcommitted : typedRun (committed es) = [] := by
    have hnil : uncommitted (committed es) = [] :=
      List.rtakeWhile_eq_nil_iff.mpr fun hl => List.rdropWhile_last_not _ _ hl
    rw [typedRun, hnil]
    rfl
  rw [typedRun_append_of_others, hcommitted]
  intro e he
  obtain ⟨hmem, htyped⟩ := List.mem_filter.mp he
  exact ⟨by simpa using htyped, by simpa using List.mem_rtakeWhile_imp hmem⟩

end Journal

namespace Session

/-! ## The pending text is what was typed there -/

/-- Characters that were typed at places are the pending text, which was begun where the first of
them was typed, and their keys are those behind the last commit. -/
structure Pends (s : Session) (run : List (Char × Point)) : Prop where
  text : s.pending.toList = run.map Prod.fst
  anchor : s.anchor = run.head?.map Prod.snd
  keys : Journal.typedRun s.journal.entries.toList = run.map fun (c, p) => .key c.toNat p

/-- Neither the pending text nor its keys are touched. -/
structure KeepsRun (s s' : Session) : Prop where
  text : s'.pending = s.pending
  anchor : s'.anchor = s.anchor
  keys : Journal.typedRun s'.journal.entries.toList = Journal.typedRun s.journal.entries.toList

namespace KeepsRun

variable {s s' s'' : Session}

lemma refl (s : Session) : s.KeepsRun s := ⟨rfl, rfl, rfl⟩

lemma trans (h : s.KeepsRun s') (h' : s'.KeepsRun s'') : s.KeepsRun s'' :=
  ⟨h'.text.trans h.text, h'.anchor.trans h.anchor, h'.keys.trans h.keys⟩

/-- A cancel or a segment may be noted. -/
lemma push {e : Journal.Entry} (htyped : e.isTyped = false) (hcommit : e.isCommit = false)
    (htext : s'.pending = s.pending) (hanchor : s'.anchor = s.anchor)
    (hjournal : s'.journal = s.journal.push e) : s.KeepsRun s' := by
  refine ⟨htext, hanchor, ?_⟩
  rw [hjournal, Journal.toList_entries_push, Journal.typedRun_concat_of_other htyped hcommit]

lemma dropStroke (s : Session) : s.KeepsRun s.dropStroke.2 := by
  cases hs : s.stroke with
  | none =>
    rw [dropStroke_of_none hs]
    exact refl s
  | some o =>
    rw [dropStroke_of_some hs]
    exact push (e := .key cancelKey s.caret) rfl rfl rfl rfl rfl

lemma penDown (s : Session) (p : Point) : s.KeepsRun (s.penDown p) :=
  (dropStroke s).trans ⟨rfl, rfl, rfl⟩

lemma drawSegment (s : Session) (a b : Point) : s.KeepsRun (s.drawSegment a b) :=
  push (e := .line a b s.tool false) rfl rfl rfl rfl rfl

lemma penTo (s : Session) (p : Point) : s.KeepsRun (s.penTo p) := by
  cases hs : s.stroke with
  | none =>
    rw [penTo_of_none hs]
    exact refl s
  | some o =>
    rw [penTo_of_some hs]
    exact drawSegment s o.pen p

lemma click (s : Session) (o : OpenStroke) : s.KeepsRun (s.click o) := by
  unfold Session.click
  split
  · exact drawSegment s o.pen o.pen
  · exact refl s

/-- Lifting the pen marks a segment, which is no typed key. -/
lemma penUp {effect : StrokeEffect} (hup : s.penUp = .ok (effect, s')) : s.KeepsRun s' := by
  cases hs : s.stroke with
  | none =>
    rw [penUp_of_none hs] at hup
    cases hup
    exact refl s
  | some o =>
    obtain ⟨_, _, -, hup'⟩ := penUp_of_some hs
    cases hup.symm.trans hup'
    exact (click s o).trans ⟨rfl, rfl, Journal.typedRun_closeLine _⟩

end KeepsRun

namespace Pends

variable {s s' : Session} {run : List (Char × Point)}

lemma new (settings : Settings) : (new settings).Pends [] := ⟨rfl, rfl, rfl⟩

lemma congr (h : s.Pends run) (hkeeps : s.KeepsRun s') : s'.Pends run :=
  ⟨hkeeps.text ▸ h.text, hkeeps.anchor.trans h.anchor, hkeeps.keys.trans h.keys⟩

lemma pending_eq_empty_iff (h : s.Pends run) : s.pending = "" ↔ run = [] := by
  rw [← String.toList_inj, h.text]
  exact List.map_eq_nil_iff

/-- A character that is typed comes last, at the caret. -/
lemma typeChar (h : s.Pends run) {c : Char} (hc : Types c) :
    (s.typeChar c).Pends (run ++ [(c, s.caret)]) := by
  constructor
  case text =>
    rw [pending_typeChar, String.toList_push, h.text, List.map_append, List.map_singleton]
  case anchor =>
    change (if s.pending.isEmpty then some s.caret else s.anchor) = _
    simp only [String.isEmpty_iff, h.pending_eq_empty_iff, h.anchor]
    cases run <;> simp
  case keys =>
    change Journal.typedRun (s.journal.push (.key c.toNat s.caret)).entries.toList = _
    rw [Journal.toList_entries_push, Journal.typedRun_concat_of_typed (isTyped_of_types hc s.caret),
      h.keys, List.map_append, List.map_singleton]

/-- A commit leaves nothing pending. -/
lemma commit (s : Session) : s.commit.2.Pends [] := by
  refine ⟨by rw [pending_commit]; rfl, anchor_commit s, ?_⟩
  rw [journal_commit, Journal.toList_entries_push]
  exact Journal.typedRun_concat_commit rfl

/-- What is forgotten are the keys behind the last commit. -/
lemma forget_eq (h : s.Pends run) : s.forget = (s.pending.length, { s with
    journal := ⟨(Journal.committed s.journal.entries.toList ++
      (Journal.uncommitted s.journal.entries.toList).filter (!·.isTyped)).toArray⟩
    pending := ""
    anchor := none }) := by
  have hlength : s.pending.length = (Journal.typedRun s.journal.entries.toList).length := by
    rw [← String.length_toList, h.text, h.keys, List.length_map, List.length_map]
  simp only [forget, hlength, s.journal.forgetTyped_typedRun]

/-- Nothing is pending then. -/
lemma forget (h : s.Pends run) : s.forget.2.Pends [] := by
  rw [h.forget_eq]
  exact ⟨rfl, rfl, Journal.typedRun_forgotten _⟩

lemma press (h : s.Pends run) (c : Char) : ∃ run', (s.press c).2.Pends run' := by
  rcases press_cases s c with ⟨-, hc⟩ | ⟨-, hc⟩ | ⟨-, hc⟩ | ⟨htypes, hc⟩
  · exact ⟨_, hc ▸ commit s⟩
  · exact ⟨_, hc ▸ h.forget⟩
  · exact ⟨_, hc ▸ h.congr (.dropStroke s)⟩
  · exact ⟨_, hc ▸ h.typeChar htypes⟩

/-- Every operation keeps the pending text and its keys in step. -/
lemma perform (h : s.Pends run) {op : Op} (hop : s.perform op = .ok s') :
    ∃ run', s'.Pends run' := by
  cases op with
  | penUp =>
    obtain ⟨_, hup⟩ := penUp_of_perform hop
    exact ⟨run, h.congr (.penUp hup)⟩
  | takeTool tool =>
    cases hop
    exact ⟨run, h.congr ⟨rfl, rfl, rfl⟩⟩
  | penDown x y =>
    cases hop
    exact ⟨run, h.congr (.penDown s _)⟩
  | penTo x y =>
    cases hop
    exact ⟨run, h.congr (.penTo s _)⟩
  | dropStroke =>
    cases hop
    exact ⟨run, h.congr (.dropStroke s)⟩
  | placeCaret x y =>
    cases hop
    exact ⟨run, h.congr ⟨rfl, rfl, rfl⟩⟩
  | press c =>
    cases hop
    exact h.press c
  | commit =>
    cases hop
    exact ⟨[], commit s⟩
  | forget =>
    cases hop
    exact ⟨[], h.forget⟩

/-- An entry that is played keeps them in step. -/
lemma play (h : s.Pends run) {e : Journal.Entry} (hplay : s.play e = .ok s') :
    ∃ run', s'.Pends run' := by
  cases e with
  | key code caret =>
    have hcaret : (s.placeCaret caret).Pends run := h.congr ⟨rfl, rfl, rfl⟩
    simp only [Session.play, playKey] at hplay
    split at hplay
    · cases hplay
      exact ⟨[], commit _⟩
    · split at hplay
      · cases hplay
        exact ⟨run, hcaret.congr (.dropStroke _)⟩
      · split at hplay
        · cases hplay
          exact hcaret.press _
        · cases hplay
  | line a b tool last =>
    cases last with
    | false =>
      cases (s.play_line a b tool).symm.trans hplay
      rw [readyAt_eq]
      exact ⟨run, h.congr (.push (e := .line a b tool false) rfl rfl rfl rfl rfl)⟩
    | true =>
      obtain ⟨_, _, -, hplay'⟩ := s.play_lastLine_eq a b tool
      cases hplay'.symm.trans hplay
      exact ⟨run, h.congr (.push (e := .line a b tool true) rfl rfl rfl rfl rfl)⟩

lemma playAll (h : s.Pends run) {es : List Journal.Entry} (hplay : s.playAll es = .ok s') :
    ∃ run', s'.Pends run' := by
  induction es using List.reverseRecOn generalizing s' with
  | nil =>
    cases hplay
    exact ⟨run, h⟩
  | append_singleton es e ih =>
    obtain ⟨s₀, hs₀, he⟩ := playAll_concat_ok hplay
    obtain ⟨run₀, h₀⟩ := ih hs₀
    exact h₀.play he

end Pends

lemma Reachable.performAll {s s' : Session} (h : Reachable s) {ops : List Op}
    (hops : s.performAll ops = .ok s') : Reachable s' := by
  induction ops using List.reverseRecOn generalizing s' with
  | nil =>
    cases hops
    exact h
  | append_singleton ops op ih =>
    obtain ⟨s₀, hs₀⟩ := performAll_isOk s ops
    rw [performAll_concat, hs₀] at hops
    exact (ih hs₀).perform hops

/-- In every session the pending text is what was typed behind the last commit. -/
lemma Reachable.exists_pends {s : Session} (h : Reachable s) : ∃ run, s.Pends run := by
  induction h with
  | new settings => exact ⟨[], .new settings⟩
  | @replay text settings s hreplay =>
    unfold Session.replay at hreplay
    split at hreplay
    · cases hreplay
    · exact (Pends.new settings).playAll hreplay
  | perform _ hop ih =>
    obtain ⟨run, hrun⟩ := ih
    exact hrun.perform hop

/-- **Forgetting takes back exactly the pending text.**  A text is pending if and only if there is
a place where it was begun.  Its characters are those of the typed keys behind the last commit, in
order, and the first key was pressed at that place.  To forget the text takes these keys out of the
journal, counts them and leaves nothing pending; all that was committed, all other entries and the
rest of the session stay. -/
theorem forget_of_reachable {s : Session} (h : Reachable s) :
    (s.anchor.isSome = true ↔ s.pending ≠ "") ∧
    (∃ run : List (Char × Point), s.pending.toList = run.map Prod.fst ∧
      s.anchor = run.head?.map Prod.snd ∧
      Journal.typedRun s.journal.entries.toList = run.map fun (c, p) => .key c.toNat p) ∧
    s.forget = (s.pending.length, { s with
      journal := ⟨(Journal.committed s.journal.entries.toList ++
        (Journal.uncommitted s.journal.entries.toList).filter (!·.isTyped)).toArray⟩
      pending := ""
      anchor := none }) := by
  obtain ⟨run, hrun⟩ := h.exists_pends
  refine ⟨?_, ⟨run, hrun.text, hrun.anchor, hrun.keys⟩, hrun.forget_eq⟩
  rw [hrun.anchor, ne_eq, hrun.pending_eq_empty_iff]
  cases run <;> simp

/-- A letter is committed, and two more are typed around a segment of a stroke that is given up. -/
def typedAround : List Op :=
  [.press 'a', .commit, .press 'x', .penDown 1 1, .penTo 2 1, .placeCaret 2 2, .press 'y',
    .penDown 0 0]

/-- The committed letter, the segment and the cancel stay. -/
theorem forget_of_reachable_typedAround :
    ∃ s, (new {}).performAll typedAround = .ok s ∧ Reachable s ∧
      s.pending = "xy" ∧ s.anchor = some ⟨0, 0⟩ ∧ s.forget.1 = 2 ∧
      s.forget.2.journal.entries = #[.key 97 ⟨0, 0⟩, .key commitKey ⟨0, 0⟩,
        .line ⟨1, 1⟩ ⟨2, 1⟩ .scope false, .key cancelKey ⟨2, 2⟩] := by
  obtain ⟨s, hs⟩ : ∃ s, (new {}).performAll typedAround = .ok s := performAll_isOk _ _
  have hreach : Reachable s := (Reachable.new {}).performAll hs
  obtain ⟨-, -, hforget⟩ := forget_of_reachable hreach
  refine ⟨s, hs, hreach, ?_⟩
  rw [hforget]
  cases hs
  exact ⟨rfl, rfl, rfl, rfl⟩

end Session

end FlowSketch
