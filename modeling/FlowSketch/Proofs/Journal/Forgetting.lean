/-
# Forgetting what was typed

Typed keys are forgotten from the latest one on, as many as asked for if there are so many.  The
same is done in place by a loop that goes back through the entries and takes out each typed key that
it meets.  What stands behind such a key moves up by one then, but the loop is through with that.
The entries that it has ahead stay where they are, so it looks at each of them once.

Main statement: `forgetTyped_exact`.
-/
import Mathlib.Data.List.Induction
import FlowSketch.Journal.Basic

namespace FlowSketch

namespace Journal

variable {e : Entry} {es old recent : List Entry}

/-! ## Entry by entry -/

lemma dropTyped_of_typed (h : e.isTyped = true) (n : ℕ) :
    (dropTyped (n + 1) (e :: es)).1 = (dropTyped n es).1 := by
  simp only [dropTyped, if_pos h]

lemma dropTyped_of_not_typed (h : e.isTyped = false) (n : ℕ) :
    (dropTyped n (e :: es)).1 = e :: (dropTyped n es).1 := by
  cases n with
  | zero => simp only [dropTyped]
  | succ n => rw [dropTyped, if_neg (by simp [h])]

lemma dropTyped_sublist (n : ℕ) (es : List Entry) : (dropTyped n es).1.Sublist es := by
  induction es generalizing n with
  | nil => cases n <;> exact List.Sublist.refl _
  | cons e es ih =>
    cases n with
    | zero => exact List.Sublist.refl _
    | succ n =>
      cases h : e.isTyped
      · rw [dropTyped_of_not_typed h]
        exact (ih _).cons_cons e
      · rw [dropTyped_of_typed h]
        exact (ih _).cons e

/-- If more typed keys are to go than there are, all of them go. -/
lemma dropTyped_min (n : ℕ) (es : List Entry) :
    (dropTyped (min n (es.countP (·.isTyped))) es).1 = (dropTyped n es).1 := by
  induction es generalizing n with
  | nil => cases n <;> simp [dropTyped]
  | cons e es ih =>
    cases h : e.isTyped with
    | true =>
      cases n with
      | zero => rw [Nat.zero_min]
      | succ n =>
        rw [List.countP_cons_of_pos h, Nat.add_min_add_right, dropTyped_of_typed h,
          dropTyped_of_typed h, ih]
    | false =>
      rw [List.countP_cons_of_neg (by simp [h]), dropTyped_of_not_typed h,
        dropTyped_of_not_typed h, ih]

/-- If as many typed keys are to go as some latest entries have, these are the ones. -/
lemma dropTyped_append (es fs : List Entry) :
    (dropTyped (es.countP (·.isTyped)) (es ++ fs)).1 = es.filter (!·.isTyped) ++ fs := by
  induction es with
  | nil => simp [dropTyped]
  | cons e es ih =>
    cases h : e.isTyped with
    | true =>
      rw [List.countP_cons_of_pos h, List.cons_append, dropTyped_of_typed h, ih,
        List.filter_cons_of_neg (by simp [h])]
    | false =>
      rw [List.countP_cons_of_neg (by simp [h]), List.cons_append, dropTyped_of_not_typed h, ih,
        List.filter_cons_of_pos (by simp [h]), List.cons_append]

/-- What is forgotten are the typed keys among the latest entries that have as many of them as are
to go, or all there are. -/
lemma forgetTyped_of_append {j : Journal} {count : ℕ} (hes : j.entries.toList = old ++ recent)
    (hcount : recent.countP (·.isTyped) = min count ((old ++ recent).countP (·.isTyped))) :
    j.forgetTyped count = (recent.countP (·.isTyped),
      ⟨(old ++ recent.filter (!·.isTyped)).toArray⟩) := by
  have hremoved : (dropTyped count (old ++ recent).reverse).2 = recent.countP (·.isTyped) := by
    rw [dropTyped_removed, List.countP_reverse, hcount]
  have hkept : (dropTyped count (old ++ recent).reverse).1.reverse =
      old ++ recent.filter (!·.isTyped) := by
    rw [← dropTyped_min, List.countP_reverse, ← hcount, ← List.countP_reverse, List.reverse_append,
      dropTyped_append, List.reverse_append, List.filter_reverse, List.reverse_reverse,
      List.reverse_reverse]
  simp only [forgetTyped, hes, hkept, hremoved]

/-- Forgetting one character takes the latest key away. -/
lemma forgetTyped_push_of_typed (j : Journal) (h : e.isTyped = true) (n : ℕ) :
    ((j.push e).forgetTyped (n + 1)).2 = (j.forgetTyped n).2 := by
  simp only [forgetTyped, toList_entries_push, List.reverse_concat, dropTyped_of_typed h]

/-- An entry that is no typed character is not forgotten. -/
lemma forgetTyped_push_of_not_typed (j : Journal) (h : e.isTyped = false) (n : ℕ) :
    ((j.push e).forgetTyped n).2 = (j.forgetTyped n).2.push e := by
  simp only [forgetTyped, toList_entries_push, List.reverse_concat, dropTyped_of_not_typed h,
    List.reverse_cons]
  exact congrArg mk (List.push_toArray ..).symm

/-- Forgetting brings no new entries. -/
lemma forall_forgetTyped {P : Entry → Prop} {j : Journal} (h : ∀ e ∈ j.entries.toList, P e)
    (n : ℕ) : ∀ e ∈ (j.forgetTyped n).2.entries.toList, P e := by
  intro e he
  have hsub := dropTyped_sublist n j.entries.toList.reverse
  exact h e (List.mem_reverse.mp (hsub.subset (List.mem_reverse.mp he)))

@[simp] lemma forgetTyped_zero (j : Journal) : (j.forgetTyped 0).2 = j := by
  simp [forgetTyped, dropTyped]

/-! ## The loop -/

/-- Where the loop is that takes out typed keys. -/
structure Sweep where
  /-- The entries that are left. -/
  entries : List Entry
  /-- The number of entries that the loop has ahead, all of them at the beginning. -/
  ahead : ℕ
  /-- The number of keys that were taken out. -/
  removed : ℕ
deriving DecidableEq, Repr

namespace Sweep

/-- The loop begins behind the latest entry. -/
def start (es : List Entry) : Sweep := ⟨es, es.length, 0⟩

/-- A round of the loop: it goes back by one entry and takes it out if that is a typed key.  If
there is no such entry, nothing comes of it. -/
def round? (w : Sweep) : Option Sweep :=
  w.entries[w.ahead - 1]?.map fun e =>
    if e.isTyped then ⟨w.entries.eraseIdx (w.ahead - 1), w.ahead - 1, w.removed + 1⟩
    else { w with ahead := w.ahead - 1 }

/-- From a state, the loop that is to take out `count` keys ends with another one. -/
inductive Ends (count : ℕ) : Sweep → Sweep → Prop
  /-- Enough keys were taken out, or no entry is ahead. -/
  | over {w : Sweep} : ¬ (w.removed < count ∧ 0 < w.ahead) → Ends count w w
  /-- The loop goes on. -/
  | further {w w' v : Sweep} : w.removed < count ∧ 0 < w.ahead → w.round? = some w' →
    Ends count w' v → Ends count w v

/-- The loop has the `old` entries ahead and is through with the `recent` ones. -/
def between (old recent : List Entry) : Sweep :=
  ⟨old ++ recent.filter (!·.isTyped), old.length, recent.countP (·.isTyped)⟩

lemma start_eq (es : List Entry) : start es = between es [] := by
  simp [start, between]

/-- **In each round the loop gets through with one more entry.** -/
lemma round?_between (old recent : List Entry) (e : Entry) :
    (between (old ++ [e]) recent).round? = some (between old (e :: recent)) := by
  have hat : (old ++ e :: recent.filter (!·.isTyped))[old.length]? = some e := by
    rw [List.getElem?_append_right (Nat.le_refl _), Nat.sub_self, List.getElem?_cons_zero]
  have herase : (old ++ e :: recent.filter (!·.isTyped)).eraseIdx old.length =
      old ++ recent.filter (!·.isTyped) := by
    rw [List.eraseIdx_append_of_length_le (Nat.le_refl _), Nat.sub_self, List.eraseIdx_cons_zero]
  simp only [round?, between, List.length_append, List.length_singleton, Nat.add_sub_cancel,
    List.append_assoc, List.singleton_append, hat, herase, Option.map_some]
  cases h : e.isTyped with
  | true => rw [if_pos rfl, List.filter_cons_of_neg (by simp [h]), List.countP_cons_of_pos h]
  | false =>
    rw [if_neg Bool.false_ne_true, List.filter_cons_of_pos (by simp [h]),
      List.countP_cons_of_neg (by simp [h])]

/-- **The loop ends.**  It has a beginning of the entries still ahead then, and behind that it took
out as many keys as it should, or all there are. -/
lemma exists_ends {count : ℕ} (hle : recent.countP (·.isTyped) ≤ count) (old : List Entry) :
    ∃ old' recent', old' ++ recent' = old ++ recent ∧
      recent'.countP (·.isTyped) = min count ((old ++ recent).countP (·.isTyped)) ∧
      Ends count (between old recent) (between old' recent') := by
  -- by induction on what is ahead, from its end
  induction old using List.reverseRecOn generalizing recent with
  | nil =>
    refine ⟨[], recent, rfl, ?_, .over fun h => Nat.lt_irrefl 0 h.2⟩
    rw [List.nil_append, Nat.min_eq_right hle]
  | append_singleton old e ih =>
    by_cases hlt : recent.countP (·.isTyped) < count
    · have hle' : (e :: recent).countP (·.isTyped) ≤ count := by
        rw [List.countP_cons]
        split <;> omega
      obtain ⟨old', recent', hsplit, hcount, hends⟩ := ih hle'
      rw [List.append_assoc, List.singleton_append]
      exact ⟨old', recent', hsplit, hcount,
        .further ⟨hlt, by simp [between]⟩ (round?_between old recent e) hends⟩
    · refine ⟨old ++ [e], recent, rfl, ?_, .over fun h => hlt h.1⟩
      rw [List.countP_append]
      omega

end Sweep

/-- **Forgetting takes the latest typed keys and nothing else.**  The number that it tells is the
given one, or that of all typed keys if there are fewer.  The journal has some latest entries with
exactly so many typed keys among them.  These keys go, and all other entries stay, in order.  The
loop ends with the same entries and the same number. -/
theorem forgetTyped_exact (j : Journal) (count : ℕ) :
    (j.forgetTyped count).1 = min count (j.entries.toList.countP (·.isTyped)) ∧
    ∃ old recent, j.entries.toList = old ++ recent ∧
      recent.countP (·.isTyped) = (j.forgetTyped count).1 ∧
      (j.forgetTyped count).2.entries.toList = old ++ recent.filter (!·.isTyped) ∧
      Sweep.Ends count (.start j.entries.toList)
        ⟨(j.forgetTyped count).2.entries.toList, old.length, (j.forgetTyped count).1⟩ := by
  have hnone : ([] : List Entry).countP (·.isTyped) ≤ count := Nat.zero_le count
  obtain ⟨old, recent, hsplit, hcount, hends⟩ := Sweep.exists_ends hnone j.entries.toList
  rw [List.append_nil] at hsplit hcount
  rw [forgetTyped_of_append hsplit.symm (hsplit ▸ hcount), Sweep.start_eq]
  exact ⟨hcount, old, recent, hsplit.symm, rfl, rfl, hends⟩

/-- A cancel and a commit stay where they are, between the keys that go and behind them. -/
example : (Journal.mk #[.key 65 ⟨0, 0⟩, .key 66 ⟨0, 0⟩, .key cancelKey ⟨0, 0⟩, .key 67 ⟨0, 0⟩,
      .key commitKey ⟨0, 0⟩]).forgetTyped 2 =
    (2, ⟨#[.key 65 ⟨0, 0⟩, .key cancelKey ⟨0, 0⟩, .key commitKey ⟨0, 0⟩]⟩) := by decide

end Journal

end FlowSketch
