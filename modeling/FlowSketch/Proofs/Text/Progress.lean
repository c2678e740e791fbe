/-
# What rules leave of a text

Whether it succeeds or fails, a rule hands back a suffix of its text.  A loop over the rounds of a
rule ends because each round that gives a value leaves less than there was before: `Rule.collect`
stops with a failure where that is not so, and `Rule.Rounds` is the loop without this guard.  If
every round gets on, then the guard never stops anything.

Main statement: `rounds_collect`.
-/
import FlowSketch.Proofs.Text.Rule

namespace FlowSketch.Text.Rule

variable {α β : Type} {p q : Rule α} {s r : Source} {a : α}

/-! ## Suffixes -/

/-- What a rule leaves of a text, whether it succeeds or fails. -/
def rest (p : Rule α) (s : Source) : Source :=
  match p s with
  | .ok _ r => r
  | .error _ r => r

lemma rest_of_ok (h : p s = .ok a r) : rest p s = r := by rw [rest, h]

lemma rest_of_error (h : p s = .error () r) : rest p s = r := by rw [rest, h]

/-- A rule that leaves a suffix of every text. -/
def Shrinks (p : Rule α) : Prop := ∀ s, (rest p s).chars <:+ s.chars

lemma Shrinks.of_ok (hp : Shrinks p) (h : p s = .ok a r) : r.chars <:+ s.chars :=
  rest_of_ok h ▸ hp s

lemma Shrinks.of_error (hp : Shrinks p) (h : p s = .error () r) : r.chars <:+ s.chars :=
  rest_of_error h ▸ hp s

lemma left_le_of_suffix (h : r.chars <:+ s.chars) : r.left ≤ s.left := by
  rw [r.left_eq, s.left_eq]
  exact h.length_le

lemma shrinks_pure (a : α) : Shrinks (pure a : Rule α) := fun _ => List.suffix_rfl

lemma shrinks_fail : Shrinks (fail : Rule α) := fun _ => List.suffix_rfl

lemma shrinks_ahead (l : String) : Shrinks (ahead l) := fun _ => List.suffix_rfl

lemma shrinks_get : Shrinks (get : Rule Source) := fun _ => List.suffix_rfl

lemma Shrinks.bind {f : α → Rule β} (hp : Shrinks p) (hf : ∀ a, Shrinks (f a)) :
    Shrinks (p >>= f) := by
  intro s
  cases h : p s with
  | ok a r =>
    have hrest : rest (p >>= f) s = rest (f a) r := by rw [rest, rest, bind_of_ok f h]
    rw [hrest]
    exact (hf a r).trans (hp.of_ok h)
  | error e r =>
    rw [rest_of_error (bind_of_error f h)]
    exact hp.of_error h

lemma Shrinks.map (f : α → β) (hp : Shrinks p) : Shrinks (f <$> p) := by
  intro s
  cases h : p s with
  | ok a r =>
    rw [rest_of_ok (map_of_ok f h)]
    exact hp.of_ok h
  | error e r =>
    rw [rest_of_error (map_of_error f h)]
    exact hp.of_error h

lemma Shrinks.ite {c : Prop} [Decidable c] (hp : Shrinks p) (hq : Shrinks q) :
    Shrinks (if c then p else q) := by
  split
  · exact hp
  · exact hq

lemma shrinks_lit (l : String) : Shrinks (lit l) := by
  intro s
  unfold rest lit
  split
  · rename_i h
    split at h
    · cases h
      exact List.drop_suffix _ _
    · cases h
  · rename_i h
    split at h
    · cases h
    · cases h
      exact List.suffix_rfl

lemma shrinks_one (f : Char → Bool) : Shrinks (one f) := by
  intro s
  cases h : one f s with
  | ok c r =>
    rw [rest_of_ok h, (one_eq_ok h).1]
    exact List.suffix_cons _ _
  | error e r =>
    rw [rest_of_error h]
    unfold one at h
    split at h
    · cases h
      exact List.suffix_rfl
    · split at h
      · cases h
      · cases h
        exact List.suffix_rfl

lemma shrinks_char (c : Char) : Shrinks (char c) := (shrinks_one _).bind fun _ => shrinks_pure _

lemma shrinks_many (f : Char → Bool) : Shrinks (many f) := fun _ => List.dropWhile_suffix _

lemma shrinks_several (f : Char → Bool) : Shrinks (several f) :=
  (shrinks_one f).bind fun _ => (shrinks_many f).bind fun _ => shrinks_pure _

lemma shrinks_blanks : Shrinks blanks := fun _ => List.dropWhile_suffix _

lemma Shrinks.attempt (hp : Shrinks p) : Shrinks (attempt p) := by
  intro s
  cases h : p s with
  | ok a r =>
    rw [rest_of_ok (attempt_of_ok h)]
    exact hp.of_ok h
  | error e r =>
    simp only [rest_of_ok (attempt_of_error h), List.suffix_rfl]

lemma Shrinks.orElse (hp : Shrinks p) (hq : Shrinks q) : Shrinks (orElse p q) := by
  intro s
  cases h : p s with
  | ok a r =>
    rw [rest_of_ok (orElse_of_ok h)]
    exact hp.of_ok h
  | error e r =>
    have hrest : rest (Rule.orElse p q) s = rest q s := by rw [rest, rest, orElse_of_error h]
    rw [hrest]
    exact hq s

/-- Every round leaves a suffix, so their sequence does. -/
lemma Shrinks.collect {p : Rule (Option α)} (hp : Shrinks p) : Shrinks (collect p) := by
  intro s
  induction hn : s.left using Nat.strongRecOn generalizing s with
  | ind n ih =>
    cases h : p s with
    | error e r =>
      rw [rest_of_error (collect_of_error h)]
      exact hp.of_error h
    | ok o r =>
      have hr := hp.of_ok h
      cases o with
      | none =>
        rw [rest_of_ok (collect_of_none h)]
        exact hr
      | some a =>
        by_cases hlt : r.left < s.left
        · have htail := ih r.left (hn ▸ hlt) r rfl
          have hrest : rest (Rule.collect p) s = rest (Rule.collect p) r := by
            unfold rest
            rw [collect_of_some h hlt]
            cases Rule.collect p r <;> rfl
          rw [hrest]
          exact htail.trans hr
        · have hstop : Rule.collect p s = .error () r := by
            rw [Rule.collect, h]
            exact if_neg hlt
          rw [rest_of_error hstop]
          exact hr

lemma Shrinks.separated {separator : Rule Unit} (hp : Shrinks p) (hs : Shrinks separator) :
    Shrinks (separated p separator) := by
  refine hp.attempt.bind fun o => ?_
  cases o with
  | none => exact shrinks_pure _
  | some a => exact (Shrinks.collect (hs.bind fun _ => hp).attempt).bind fun _ => shrinks_pure _

/-- A rule that contains itself leaves a suffix if it does so whenever the rule inside does. -/
lemma Shrinks.nested {body : Rule α → Rule α} (h : ∀ p, Shrinks p → Shrinks (body p)) :
    Shrinks (nested body) := by
  intro s
  induction hn : s.left using Nat.strongRecOn generalizing s with
  | ind n ih =>
    rw [rest, Rule.nested]
    refine h _ (fun t => ?_) s
    unfold rest
    dsimp only
    by_cases ht : t.left < s.left
    · rw [if_pos ht]
      exact ih t.left (hn ▸ ht) t rfl
    · simp only [if_neg ht, List.suffix_rfl]

/-! ## Rules that get on -/

/-- A rule that reads something wherever it succeeds. -/
def Advances (p : Rule α) : Prop := ∀ ⦃s a r⦄, p s = .ok a r → r.left < s.left

lemma Advances.bind_left {f : α → Rule β} (hp : Advances p) (hf : ∀ a, Shrinks (f a)) :
    Advances (p >>= f) := by
  intro s b r h
  obtain ⟨a, t, hpa, hfa⟩ := bind_eq_ok.mp h
  exact Nat.lt_of_le_of_lt (left_le_of_suffix ((hf a).of_ok hfa)) (hp hpa)

lemma Advances.bind_right {f : α → Rule β} (hp : Shrinks p) (hf : ∀ a, Advances (f a)) :
    Advances (p >>= f) := by
  intro s b r h
  obtain ⟨a, t, hpa, hfa⟩ := bind_eq_ok.mp h
  exact Nat.lt_of_lt_of_le (hf a hfa) (left_le_of_suffix (hp.of_ok hpa))

lemma Advances.map (f : α → β) (hp : Advances p) : Advances (f <$> p) := by
  intro s b r h
  cases hpa : p s with
  | ok a t =>
    rw [map_of_ok f hpa] at h
    cases h
    exact hp hpa
  | error e t =>
    rw [map_of_error f hpa] at h
    cases h

lemma Advances.ite {c : Prop} [Decidable c] (hp : Advances p) (hq : Advances q) :
    Advances (if c then p else q) := by
  split
  · exact hp
  · exact hq

lemma advances_one (f : Char → Bool) : Advances (one f) := by
  intro s c r h
  have hs := congrArg List.length (one_eq_ok h).1
  rw [← s.left_eq, List.length_cons, ← r.left_eq] at hs
  omega

lemma advances_char (c : Char) : Advances (char c) :=
  (advances_one _).bind_left fun _ => shrinks_pure _

lemma advances_lit {l : String} (hl : l.toList ≠ []) : Advances (lit l) := by
  intro s u r h
  have hs := congrArg List.length (lit_eq_ok h)
  have := List.length_pos_iff.mpr hl
  rw [← s.left_eq, List.length_append, ← r.left_eq] at hs
  omega

/-! ## Loops -/

/-- The loop over the rounds of a rule: it goes on as long as a round gives a value.  Only loops
that come to an end have a result. -/
inductive Rounds (p : Rule (Option α)) : Source → EStateM.Result Unit Source (List α) → Prop
  /-- The last round has no value to give. -/
  | stop {s r : Source} : p s = .ok none r → Rounds p s (.ok [] r)
  /-- A round fails. -/
  | fail {s r : Source} : p s = .error () r → Rounds p s (.error () r)
  /-- A round gives a value, and the loop goes on. -/
  | ok {s t r : Source} {a : α} {as : List α} :
    p s = .ok (some a) t → Rounds p t (.ok as r) → Rounds p s (.ok (a :: as) r)
  /-- A round gives a value, and a later one fails. -/
  | error {s t r : Source} {a : α} :
    p s = .ok (some a) t → Rounds p t (.error () r) → Rounds p s (.error () r)

/-- Rounds that read something whenever they give a value. -/
def Proceeds (p : Rule (Option α)) : Prop := ∀ ⦃s a r⦄, p s = .ok (some a) r → r.left < s.left

lemma Advances.proceeds {p : Rule (Option α)} (hp : Advances p) : Proceeds p := fun _ _ _ h => hp h

lemma Advances.attempt (hp : Advances p) : Proceeds (attempt p) :=
  fun _ _ _ h => hp (attempt_eq_some h)

/-- **A loop whose rounds get on comes to an end on every text**, and collects what is
collected. -/
theorem rounds_collect {p : Rule (Option α)} (hp : Proceeds p) (s : Source) :
    Rounds p s (collect p s) := by
  induction hn : s.left using Nat.strongRecOn generalizing s with
  | ind n ih =>
    cases h : p s with
    | error e r =>
      rw [collect_of_error h]
      exact .fail h
    | ok o r =>
      cases o with
      | none =>
        rw [collect_of_none h]
        exact .stop h
      | some a =>
        have hlt := hp h
        have htail := ih r.left (hn ▸ hlt) r rfl
        rw [collect_of_some h hlt]
        cases hc : collect p r with
        | ok as t =>
          rw [hc] at htail
          exact .ok h htail
        | error e t =>
          rw [hc] at htail
          exact .error h htail

/-! ## Rules that agree on short texts -/

/-- Two rules that do the same on every text with fewer characters than given. -/
def EqBelow (n : ℕ) (p q : Rule α) : Prop := ∀ s : Source, s.left < n → p s = q s

lemma EqBelow.refl (n : ℕ) (p : Rule α) : EqBelow n p p := fun _ _ => rfl

lemma EqBelow.bind {n : ℕ} {f g : α → Rule β} (h : EqBelow n p q) (hp : Shrinks p)
    (hf : ∀ a, EqBelow n (f a) (g a)) : EqBelow n (p >>= f) (q >>= g) := by
  intro s hs
  cases hpa : p s with
  | ok a r =>
    rw [bind_of_ok f hpa, bind_of_ok g (h s hs ▸ hpa)]
    exact hf a r (Nat.lt_of_le_of_lt (left_le_of_suffix (hp.of_ok hpa)) hs)
  | error e r => rw [bind_of_error f hpa, bind_of_error g (h s hs ▸ hpa)]

/-- After the same rule on both sides. -/
lemma EqBelow.after {n : ℕ} {f g : α → Rule β} (hp : Shrinks p)
    (hf : ∀ a, EqBelow n (f a) (g a)) : EqBelow n (p >>= f) (p >>= g) :=
  (EqBelow.refl n p).bind hp hf

/-- After a rule that reads something, texts are shorter. -/
lemma bind_congr_of_advances {f g : α → Rule β} (hp : Advances p)
    (hf : ∀ a, EqBelow s.left (f a) (g a)) : (p >>= f) s = (p >>= g) s := by
  cases hpa : p s with
  | ok a r =>
    rw [bind_of_ok f hpa, bind_of_ok g hpa]
    exact hf a r (hp hpa)
  | error e r => rw [bind_of_error f hpa, bind_of_error g hpa]

lemma EqBelow.map {n : ℕ} (f : α → β) (h : EqBelow n p q) : EqBelow n (f <$> p) (f <$> q) := by
  intro s hs
  cases hpa : p s with
  | ok a r => rw [map_of_ok f hpa, map_of_ok f (h s hs ▸ hpa)]
  | error e r => rw [map_of_error f hpa, map_of_error f (h s hs ▸ hpa)]

lemma EqBelow.ite {n : ℕ} {c : Prop} [Decidable c] {p' q' : Rule α} (h : EqBelow n p q)
    (h' : EqBelow n p' q') : EqBelow n (if c then p else p') (if c then q else q') := by
  split
  · exact h
  · exact h'

lemma EqBelow.collect {n : ℕ} {p q : Rule (Option α)} (h : EqBelow n p q) :
    EqBelow n (collect p) (collect q) := by
  intro s hs
  induction hm : s.left using Nat.strongRecOn generalizing s with
  | ind m ih =>
    rw [Rule.collect, Rule.collect, ← h s hs]
    cases p s with
    | error e r => rfl
    | ok o r =>
      cases o with
      | none => rfl
      | some a =>
        dsimp only
        split
        · rename_i hlt
          rw [ih r.left (hm ▸ hlt) r (Nat.lt_trans hlt hs) rfl]
        · rfl

/-- A rule that contains itself is its own definition with itself inside, if it only uses itself on
shorter texts. -/
theorem nested_eq {body : Rule α → Rule α} (hshrinks : ∀ p, Shrinks p → Shrinks (body p))
    (h : ∀ s p q, Shrinks p → EqBelow s.left p q → body p s = body q s) :
    nested body = body (nested body) := by
  funext s
  have hnested : Shrinks (nested body) := Shrinks.nested hshrinks
  rw [nested]
  refine (h s _ _ hnested fun t ht => ?_).symm
  rw [if_pos ht]

end FlowSketch.Text.Rule
