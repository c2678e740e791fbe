/-
# Rules one after the other

What a sequence, a choice or an option reads is said by what its parts read.  All statements
are about a rule that is given a whole text; a text that was written in pieces is read by
giving each rule its piece and the text behind it.  The other way round, a rule that succeeds has
read the piece in front of what it leaves.
-/
import Mathlib.Tactic.Common
import FlowSketch.Text.Rule

namespace FlowSketch.Text.Rule

variable {α β : Type} {p q : Rule α} {s r : Source} {a : α}

/-- After a success the next rule reads on behind what was read. -/
lemma bind_of_ok (f : α → Rule β) (h : p s = .ok a r) : (p >>= f) s = f a r := by
  simp only [bind, EStateM.bind, h]

/-- A failure is the failure of the sequence. -/
lemma bind_of_error (f : α → Rule β) (h : p s = .error () r) : (p >>= f) s = .error () r := by
  simp only [bind, EStateM.bind, h]

lemma orElse_of_ok (h : p s = .ok a r) : orElse p q s = .ok a r := by
  simp only [orElse, h]

lemma orElse_of_error (h : p s = .error () r) : orElse p q s = q s := by
  simp only [orElse, h]

lemma attempt_of_ok (h : p s = .ok a r) : attempt p s = .ok (some a) r := by
  simp only [attempt, h]

lemma attempt_of_error (h : p s = .error () r) : attempt p s = .ok none s := by
  simp only [attempt, h]

/-- A character of a class is no character outside of it. -/
lemma beq_of_class {f : Char → Bool} {c d : Char} (hc : f c = true) (hd : f d = false) :
    (c == d) = false := by
  rw [beq_eq_false_iff_ne]
  rintro rfl
  rw [hc] at hd
  cases hd

lemma map_of_ok (f : α → β) (h : p s = .ok a r) : (f <$> p) s = .ok (f a) r := by
  change EStateM.map f p s = _
  simp only [EStateM.map, h]

lemma map_of_error (f : α → β) (h : p s = .error () r) : (f <$> p) s = .error () r := by
  change EStateM.map f p s = _
  simp only [EStateM.map, h]

/-- A character that is not of the class is not read. -/
lemma one_of_not {f : Char → Bool} {t : List Char} (h : ∀ c ∈ t.head?, f c = false) :
    one f (.of t) = .error () (.of t) := by
  cases t with
  | nil => rfl
  | cons c t =>
    have hc : f c = false := h c rfl
    simp [one, hc]

lemma char_of_not {c : Char} {t : List Char} (h : ∀ d ∈ t.head?, (d == c) = false) :
    char c (.of t) = .error () (.of t) :=
  bind_of_error _ (one_of_not h)

/-- Characters of a class, at least one, are read up to the first that is not of the
class. -/
lemma several_append {f : Char → Bool} {cs t : List Char} (hne : cs ≠ [])
    (hcs : ∀ c ∈ cs, f c = true) (ht : ∀ c ∈ t.head?, f c = false) :
    several f (.of (cs ++ t)) = .ok cs (.of t) := by
  cases cs with
  | nil => exact absurd rfl hne
  | cons c cs =>
    rw [List.cons_append, several, bind_of_ok _ (one_of_cons (hcs c (by simp)) _),
      bind_of_ok _ (many_append (fun d hd => hcs d (by simp [hd])) ht)]
    rfl

/-- A text that does not begin with the given one is not read as it. -/
lemma lit_of_not_prefix {l : String} {t : List Char} (h : ¬ l.toList <+: t) :
    lit l (.of t) = .error () (.of t) := by
  have hl : l.toList.isPrefixOf t = false := by
    rw [← Bool.not_eq_true, List.isPrefixOf_iff_prefix]
    exact h
  simp [lit, hl]

lemma ahead_of_starts {l : String} {t : List Char} (h : l.toList <+: t) :
    ahead l (.of t) = .ok true (.of t) := by
  unfold ahead
  rw [Source.chars_of, List.isPrefixOf_iff_prefix.mpr h]

lemma ahead_of_not_starts {l : String} {t : List Char} (h : ¬ l.toList <+: t) :
    ahead l (.of t) = .ok false (.of t) := by
  have hl : l.toList.isPrefixOf t = false := by
    rw [← Bool.not_eq_true, List.isPrefixOf_iff_prefix]
    exact h
  unfold ahead
  rw [Source.chars_of, hl]

/-! ## What was read -/

/-- A sequence has read what its parts have read. -/
lemma bind_eq_ok {f : α → Rule β} {b : β} :
    (p >>= f) s = .ok b r ↔ ∃ a t, p s = .ok a t ∧ f a t = .ok b r := by
  simp only [bind, EStateM.bind]
  cases p s <;> simp

lemma orElse_eq_ok (h : orElse p q s = .ok a r) : p s = .ok a r ∨ q s = .ok a r := by
  unfold orElse at h
  split at h
  · rename_i hp
    cases h
    exact .inl hp
  · exact .inr h

lemma attempt_eq_some (h : attempt p s = .ok (some a) r) : p s = .ok a r := by
  unfold attempt at h
  split at h
  · rename_i hp
    cases h
    exact hp
  · cases h

/-- Nothing is consumed by a rule that fails. -/
lemma attempt_eq_none (h : attempt p s = .ok none r) : s = r := by
  unfold attempt at h
  split at h
  · cases h
  · cases h
    rfl

/-- A value that had to meet a condition meets it. -/
lemma guard_eq_ok {c : Prop} [Decidable c] {b : α}
    (h : (if c then pure a else fail : Rule α) s = .ok b r) : c ∧ b = a ∧ s = r := by
  split at h
  · rename_i hc
    cases h
    exact ⟨hc, rfl, rfl⟩
  · cases h

lemma lit_eq_ok {l : String} {u : Unit} (h : lit l s = .ok u r) :
    s.chars = l.toList ++ r.chars := by
  unfold lit at h
  split at h
  · rename_i hl
    cases h
    rw [List.isPrefixOf_iff_prefix] at hl
    obtain ⟨t, ht⟩ := hl
    change s.chars = l.toList ++ s.chars.drop l.length
    rw [← ht, ← String.length_toList, List.drop_left]
  · cases h

lemma one_eq_ok {f : Char → Bool} {c : Char} (h : one f s = .ok c r) :
    s.chars = c :: r.chars ∧ f c = true := by
  unfold one at h
  split at h
  · cases h
  · rename_i d cs hs
    split at h
    · rename_i hd
      cases h
      refine ⟨?_, hd⟩
      change s.chars = c :: s.chars.drop 1
      rw [hs, List.drop_one, List.tail_cons]
    · cases h

lemma char_eq_ok {c : Char} {u : Unit} (h : char c s = .ok u r) : s.chars = c :: r.chars := by
  obtain ⟨d, t, hone, h⟩ := bind_eq_ok.mp h
  cases h
  obtain ⟨hs, hd⟩ := one_eq_ok hone
  rw [hs, beq_iff_eq.mp hd]

lemma many_eq_ok {f : Char → Bool} {cs : List Char} (h : many f s = .ok cs r) :
    s.chars = cs ++ r.chars ∧ ∀ c ∈ cs, f c = true := by
  cases h
  exact ⟨List.takeWhile_append_dropWhile.symm, List.all_eq_true.mp List.all_takeWhile⟩

lemma several_eq_ok {f : Char → Bool} {cs : List Char} (h : several f s = .ok cs r) :
    s.chars = cs ++ r.chars ∧ cs ≠ [] ∧ ∀ c ∈ cs, f c = true := by
  obtain ⟨c, t, hone, h⟩ := bind_eq_ok.mp h
  obtain ⟨ds, t', hmany, h⟩ := bind_eq_ok.mp h
  cases h
  obtain ⟨hs, hc⟩ := one_eq_ok hone
  obtain ⟨ht, hds⟩ := many_eq_ok hmany
  exact ⟨by rw [hs, ht, List.cons_append], List.cons_ne_nil _ _, List.forall_mem_cons.mpr ⟨hc, hds⟩⟩

end FlowSketch.Text.Rule
