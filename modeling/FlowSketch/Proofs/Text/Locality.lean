/-
# What rules read again

A rule looks a little beyond what it reads: a name ends where the next character is no part of it,
and behind an operand there may be an operator.  If what follows begins as before, as far as the
rule looks, then the rule reads the same again; how far that is, is said by a condition on the
beginning.  A rule that does not look beyond what it reads is closed: it reads the same again,
whatever follows.

Both properties are about reading texts up to a given length, so that they can be proved for a rule
that contains itself by induction on the length.

Main statements: `Local.bind`, `Local.bind_closed` and `Local.collect`.
-/
import FlowSketch.Proofs.Text.Progress

namespace FlowSketch.Text.Rule

variable {α β : Type} {p q : Rule α} {n : ℕ} {E E' : List Char → Prop}

/-- A rule that, on a text with fewer characters than given, reads what it reads again if what
follows begins in the same way, with a beginning that says enough. -/
def Local (n : ℕ) (E : List Char → Prop) (p : Rule α) : Prop :=
  ∀ ⦃s a r⦄, s.left < n → p s = .ok a r → ∃ u, s.chars = u ++ r.chars ∧
    ∀ x t, E x → x <+: r.chars → x <+: t → p (.of (u ++ t)) = .ok a (.of t)

/-- A rule that, on a text with fewer characters than given, reads what it reads again whatever
follows, and whose text says enough for a rule before it. -/
def Closed (n : ℕ) (E : List Char → Prop) (p : Rule α) : Prop :=
  ∀ ⦃s a r⦄, s.left < n → p s = .ok a r → ∃ u, s.chars = u ++ r.chars ∧ E u ∧
    ∀ t, p (.of (u ++ t)) = .ok a (.of t)

/-- A rule that fails again if the text begins in the same way, with a beginning that says
enough. -/
def Refuses (E : List Char → Prop) (p : Rule α) : Prop :=
  ∀ ⦃s r⦄, p s = .error () r → ∀ x t, E x → x <+: s.chars → x <+: t →
    ∃ r', p (.of t) = .error () r'

/-- A condition that stays true when something is put in front. -/
def Extends (E : List Char → Prop) : Prop := ∀ u x, E x → E (u ++ x)

lemma left_le_of_append {s r : Source} {u : List Char} (h : s.chars = u ++ r.chars) :
    r.left ≤ s.left :=
  left_le_of_suffix ⟨u, h.symm⟩

lemma Closed.local (hp : Closed n E p) : Local n E p := by
  intro s a r hn h
  obtain ⟨u, hs, -, hu⟩ := hp hn h
  exact ⟨u, hs, fun x t _ _ _ => hu t⟩

/-- Rules that read nothing where they succeed read the same again if they do not tell texts apart
that begin in the same way. -/
lemma local_of_keeps (h : ∀ ⦃s a r⦄, p s = .ok a r → s = r ∧
    ∀ x t, E x → x <+: r.chars → x <+: t → p (.of t) = .ok a (.of t)) : Local n E p := by
  intro s a r hn hp
  obtain ⟨rfl, hkeep⟩ := h hp
  exact ⟨[], rfl, hkeep⟩

lemma local_pure (a : α) : Local n E (pure a) := by
  refine local_of_keeps fun s b r h => ?_
  cases h
  exact ⟨rfl, fun _ _ _ _ _ => rfl⟩

/-! ## Sequences -/

/-- Two rules in turn, if the text of the second one says enough for the first one. -/
lemma Local.bind_of {f : α → Rule β} (hp : Local n E p) (hf : ∀ a, Local n E' (f a))
    (hE : ∀ ⦃a m b r u x⦄, f a m = .ok b r → m.chars = u ++ r.chars → E' x → E (u ++ x)) :
    Local n E' (p >>= f) := by
  intro s b r hn h
  obtain ⟨a, m, hpa, hfa⟩ := bind_eq_ok.mp h
  obtain ⟨u, hs, hu⟩ := hp hn hpa
  obtain ⟨v, hm, hv⟩ := hf a (Nat.lt_of_le_of_lt (left_le_of_append hs) hn) hfa
  refine ⟨u ++ v, by rw [hs, hm, List.append_assoc], fun x t hx hr ht => ?_⟩
  have hfirst := hu (v ++ x) (v ++ t) (hE hfa hm hx)
    (hm ▸ (List.prefix_append_right_inj v).mpr hr) ((List.prefix_append_right_inj v).mpr ht)
  rw [List.append_assoc, bind_of_ok f hfirst]
  exact hv x t hx hr ht

lemma Local.bind {f : α → Rule β} (hE : Extends E) (hp : Local n E p)
    (hf : ∀ a, Local n E (f a)) : Local n E (p >>= f) :=
  hp.bind_of hf fun _ _ _ _ u x _ _ hx => hE u x hx

/-- What is closed at its end is closed. -/
lemma Local.bind_closed {f : α → Rule β} (hE : Extends E) (hp : Local n E p)
    (hf : ∀ a, Closed n E (f a)) : Closed n E (p >>= f) := by
  intro s b r hn h
  obtain ⟨a, m, hpa, hfa⟩ := bind_eq_ok.mp h
  obtain ⟨u, hs, hu⟩ := hp hn hpa
  obtain ⟨v, hm, hend, hv⟩ := hf a (Nat.lt_of_le_of_lt (left_le_of_append hs) hn) hfa
  refine ⟨u ++ v, by rw [hs, hm, List.append_assoc], hE u v hend, fun t => ?_⟩
  have hfirst := hu v (v ++ t) hend (hm ▸ List.prefix_append v r.chars) (List.prefix_append v t)
  rw [List.append_assoc, bind_of_ok f hfirst]
  exact hv t

lemma Closed.bind_pure (g : α → β) (hp : Closed n E p) : Closed n E (p >>= fun a => pure (g a)) := by
  intro s b r hn h
  obtain ⟨a, m, hpa, hfa⟩ := bind_eq_ok.mp h
  cases hfa
  obtain ⟨u, hs, hend, hu⟩ := hp hn hpa
  exact ⟨u, hs, hend, fun t => bind_of_ok _ (hu t)⟩

lemma Local.map (g : α → β) (hp : Local n E p) : Local n E (g <$> p) := by
  intro s b r hn h
  cases hpa : p s with
  | ok a m =>
    rw [map_of_ok g hpa] at h
    cases h
    obtain ⟨u, hs, hu⟩ := hp hn hpa
    exact ⟨u, hs, fun x t hx hr ht => map_of_ok g (hu x t hx hr ht)⟩
  | error e m =>
    rw [map_of_error g hpa] at h
    cases h

lemma Local.ite {c : Prop} [Decidable c] (hp : Local n E p) (hq : Local n E q) :
    Local n E (if c then p else q) := by
  split
  · exact hp
  · exact hq

/-! ## Single rules -/

lemma local_ahead {l : String} (hl : ∀ x s t, E x → x <+: s → x <+: t →
    (l.toList <+: s ↔ l.toList <+: t)) : Local n E (ahead l) := by
  refine local_of_keeps fun s b r h => ?_
  cases h
  refine ⟨rfl, fun x t hx hs ht => ?_⟩
  have hb : l.toList.isPrefixOf t = l.toList.isPrefixOf s.chars := by
    rw [Bool.eq_iff_iff, List.isPrefixOf_iff_prefix, List.isPrefixOf_iff_prefix]
    exact (hl x s.chars t hx hs ht).symm
  exact congrArg (EStateM.Result.ok · _) hb

lemma local_one (f : Char → Bool) : Local n E (one f) := by
  intro s c r _ h
  obtain ⟨hs, hc⟩ := one_eq_ok h
  exact ⟨[c], hs, fun _ t _ _ _ => one_of_cons hc t⟩

lemma local_char (c : Char) : Local n E (char c) := by
  intro s u r _ h
  exact ⟨[c], char_eq_ok h, fun _ t _ _ _ => char_cons_self c t⟩

lemma closed_char {c : Char} (hc : E [c]) : Closed n E (char c) := by
  intro s u r _ h
  exact ⟨[c], char_eq_ok h, hc, fun t => char_cons_self c t⟩

/-- Behind a character the text is shorter. -/
lemma closed_char_bind {f : Unit → Rule β} (hE : Extends E) (c : Char) (hf : Closed n E (f ())) :
    Closed (n + 1) E (char c >>= f) := by
  intro s b r hn h
  obtain ⟨⟨⟩, m, hc, hfm⟩ := bind_eq_ok.mp h
  obtain ⟨u, hm, hend, hu⟩ := hf (Nat.lt_of_lt_of_le (advances_char c hc) (Nat.le_of_lt_succ hn)) hfm
  refine ⟨c :: u, by rw [char_eq_ok hc, hm, List.cons_append], hE [c] u hend, fun t => ?_⟩
  rw [List.cons_append, bind_of_ok f (char_cons_self c _)]
  exact hu t

lemma local_lit (l : String) : Local n E (lit l) := by
  intro s u r _ h
  exact ⟨l.toList, lit_eq_ok h, fun _ t _ _ _ => lit_append l t⟩

/-- What does not continue a run of characters does not do so if it is looked at again. -/
lemma local_many {f : Char → Bool} (hE : ∀ x, E x → x ≠ []) : Local n E (many f) := by
  intro s cs r _ h
  obtain ⟨hs, hcs⟩ := many_eq_ok h
  cases h
  refine ⟨_, hs, fun x t hx hr ht => many_append hcs fun c hc => ?_⟩
  obtain ⟨d, y, rfl⟩ := List.exists_cons_of_ne_nil (hE x hx)
  obtain ⟨z, rfl⟩ := ht
  obtain ⟨w, hw⟩ := hr
  cases Option.mem_some_iff.mp hc
  have hstop := List.head?_dropWhile_not f s.chars
  rw [show s.chars.dropWhile f = _ from hw.symm] at hstop
  simpa using hstop

lemma local_several {f : Char → Bool} (hE : Extends E) (hne : ∀ x, E x → x ≠ []) :
    Local n E (several f) :=
  (local_one f).bind hE fun _ => (local_many hne).bind hE fun _ => local_pure _

lemma blanks_eq_many : blanks = (many isBlank >>= fun _ => pure ()) := rfl

lemma local_blanks (hE : ∀ x, E x → x ≠ []) : Local n E blanks := by
  rw [blanks_eq_many]
  exact (local_many hE).bind_of (fun _ => local_pure ()) fun _ _ _ _ _ x h hm hx => by
    cases h
    rw [List.append_left_eq_self.mp hm.symm]
    exact hx

/-- Blanks that were read are blanks. -/
lemma blanks_eq_ok {s r : Source} {u : Unit} (h : blanks s = .ok u r) :
    ∃ v, s.chars = v ++ r.chars ∧ (∀ c ∈ v, isBlank c = true) ∧ r.chars = trimStart s.chars := by
  cases h
  exact ⟨s.chars.takeWhile isBlank, List.takeWhile_append_dropWhile.symm,
    List.all_eq_true.mp List.all_takeWhile, rfl⟩

/-- Behind a check that something is left. -/
lemma local_unlessEmpty (hE : ∀ x, E x → x ≠ []) (hp : Local n E p) :
    Local n E (do if (← get).isEmpty then fail else p) := by
  intro s a r hn h
  have hs : s.isEmpty = false ∧ p s = .ok a r := by
    change (if s.isEmpty = true then fail else p : Rule α) s = _ at h
    split at h
    · cases h
    · rename_i hs
      exact ⟨Bool.eq_false_iff.mpr hs, h⟩
  obtain ⟨u, hu, hread⟩ := hp hn hs.2
  refine ⟨u, hu, fun x t hx hr ht => ?_⟩
  have hne : (Source.of (u ++ t)).isEmpty = false := by
    obtain ⟨z, rfl⟩ := ht
    simp [Source.isEmpty, hE x hx]
  change (if (Source.of (u ++ t)).isEmpty = true then fail else p : Rule α) (.of (u ++ t)) = _
  rw [hne]
  exact hread x t hx hr ht

/-! ## First characters -/

/-- A rule that reads something, and first a character of a certain kind. -/
def Begins (f : Char → Prop) (p : Rule α) : Prop :=
  ∀ ⦃s a r⦄, p s = .ok a r → ∃ c u, s.chars = c :: (u ++ r.chars) ∧ f c

section Begins

variable {f g : Char → Prop}

lemma begins_one (f : Char → Bool) : Begins (f · = true) (one f) := by
  intro s c r h
  obtain ⟨hs, hc⟩ := one_eq_ok h
  exact ⟨c, [], hs, hc⟩

lemma begins_char (c : Char) : Begins (· = c) (char c) := by
  intro s u r h
  exact ⟨c, [], char_eq_ok h, rfl⟩

lemma Begins.bind {h : α → Rule β} (hp : Begins f p) (hh : ∀ a, Shrinks (h a)) :
    Begins f (p >>= h) := by
  intro s b r hb
  obtain ⟨a, m, hpa, hha⟩ := bind_eq_ok.mp hb
  obtain ⟨c, u, hs, hc⟩ := hp hpa
  obtain ⟨v, hv⟩ := (hh a).of_ok hha
  exact ⟨c, u ++ v, by rw [hs, ← hv, List.append_assoc], hc⟩

lemma Begins.map (h : α → β) (hp : Begins f p) : Begins f (h <$> p) := by
  intro s b r hb
  cases hpa : p s with
  | ok a m =>
    rw [map_of_ok h hpa] at hb
    cases hb
    exact hp hpa
  | error e m =>
    rw [map_of_error h hpa] at hb
    cases hb

/-- Behind an option either its rule comes first or what follows it. -/
lemma Begins.attempt_bind {h : Option α → Rule β} (hp : Begins f p) (hsome : ∀ a, Shrinks (h (some a)))
    (hnone : Begins g (h none)) : Begins (fun c => f c ∨ g c) (attempt p >>= h) := by
  intro s b r hb
  obtain ⟨o, m, ho, hh⟩ := bind_eq_ok.mp hb
  cases o with
  | some a =>
    obtain ⟨c, u, hs, hc⟩ := hp (attempt_eq_some ho)
    obtain ⟨v, hv⟩ := (hsome a).of_ok hh
    exact ⟨c, u ++ v, by rw [hs, ← hv, List.append_assoc], .inl hc⟩
  | none =>
    cases attempt_eq_none ho
    obtain ⟨c, u, hs, hc⟩ := hnone hh
    exact ⟨c, u, hs, .inr hc⟩

lemma Begins.orElse (hp : Begins f p) (hq : Begins g q) :
    Begins (fun c => f c ∨ g c) (orElse p q) := by
  intro s a r h
  obtain h | h := orElse_eq_ok h
  · obtain ⟨c, u, hs, hc⟩ := hp h
    exact ⟨c, u, hs, .inl hc⟩
  · obtain ⟨c, u, hs, hc⟩ := hq h
    exact ⟨c, u, hs, .inr hc⟩

/-- A choice reads the same again if the first rule refuses whatever begins the second one. -/
lemma Local.orElse (hp : Local n E p) (hq : Local n E q) (hfirst : Begins f q)
    (hskip : ∀ c t, f c → ∃ r, p (.of (c :: t)) = .error () r) : Local n E (orElse p q) := by
  intro s a r hn h
  obtain hpa | hqa := orElse_eq_ok h
  · obtain ⟨u, hs, hu⟩ := hp hn hpa
    exact ⟨u, hs, fun x t hx hr ht => orElse_of_ok (hu x t hx hr ht)⟩
  · obtain ⟨u, hs, hu⟩ := hq hn hqa
    obtain ⟨c, v, hc, hfc⟩ := hfirst hqa
    obtain rfl : u = c :: v := List.append_cancel_right (hs.symm.trans hc)
    refine ⟨c :: v, hs, fun x t hx hr ht => ?_⟩
    obtain ⟨r', hr'⟩ := hskip c (v ++ t) hfc
    exact (orElse_of_error hr').trans (hu x t hx hr ht)

end Begins

/-! ## Options -/

lemma Local.attempt (hp : Local n E p) (hr : Refuses E p) : Local n E (attempt p) := by
  intro s o r hn h
  cases o with
  | some a =>
    obtain ⟨u, hs, hu⟩ := hp hn (attempt_eq_some h)
    exact ⟨u, hs, fun x t hx hx' ht => attempt_of_ok (hu x t hx hx' ht)⟩
  | none =>
    cases attempt_eq_none h
    refine ⟨[], rfl, fun x t hx hs ht => ?_⟩
    cases hps : p s with
    | ok a m =>
      rw [attempt_of_ok hps] at h
      cases h
    | error e m =>
      obtain ⟨r', hr'⟩ := hr hps x t hx hs ht
      exact attempt_of_error hr'

lemma refuses_one {f : Char → Bool} (hE : ∀ x, E x → x ≠ []) : Refuses E (one f) := by
  intro s r h x t hx hs ht
  obtain ⟨d, y, rfl⟩ := List.exists_cons_of_ne_nil (hE x hx)
  obtain ⟨z, rfl⟩ := ht
  obtain ⟨w, hw⟩ := hs
  refine ⟨_, one_of_not fun c hc => ?_⟩
  cases Option.mem_some_iff.mp hc
  cases hd : f d with
  | false => rfl
  | true =>
    rw [← s.of_chars, ← hw, List.cons_append, one_of_cons hd] at h
    cases h

/-- A rule that only fails where its first part does. -/
lemma Refuses.bind_total {f : α → Rule β} (hp : Refuses E p)
    (hf : ∀ a s r, f a s ≠ .error () r) : Refuses E (p >>= f) := by
  intro s r h x t hx hs ht
  cases hpa : p s with
  | ok a m =>
    rw [bind_of_ok f hpa] at h
    exact absurd h (hf a m r)
  | error e m =>
    obtain ⟨r', hr'⟩ := hp hpa x t hx hs ht
    exact ⟨r', bind_of_error f hr'⟩

lemma refuses_char {c : Char} (hE : ∀ x, E x → x ≠ []) : Refuses E (char c) :=
  (refuses_one hE).bind_total fun _ _ _ h => nomatch h

lemma refuses_several {f : Char → Bool} (hE : ∀ x, E x → x ≠ []) : Refuses E (several f) :=
  (refuses_one hE).bind_total fun _ _ _ h => nomatch h

/-- Two rules in turn, if the first one does not read what says enough. -/
lemma Refuses.bind {f : α → Rule β} (hp : Refuses E p) (hloc : ∀ n, Local n E p)
    (hE : ∀ ⦃s a m u x⦄, p s = .ok a m → s.chars = u ++ m.chars → E x → x <+: s.chars →
      ∃ y, x = u ++ y ∧ E y) (hf : ∀ a, Refuses E (f a)) : Refuses E (p >>= f) := by
  intro s r h x t hx hs ht
  cases hpa : p s with
  | error e m =>
    obtain ⟨r', hr'⟩ := hp hpa x t hx hs ht
    exact ⟨r', bind_of_error f hr'⟩
  | ok a m =>
    rw [bind_of_ok f hpa] at h
    obtain ⟨u, hu, hread⟩ := hloc _ (Nat.lt_succ_self s.left) hpa
    obtain ⟨y, rfl, hy⟩ := hE hpa hu hx hs
    obtain ⟨z, rfl⟩ := ht
    rw [hu] at hs
    have hy' := (List.prefix_append_right_inj u).mp hs
    rw [List.append_assoc, bind_of_ok f (hread y (y ++ z) hy hy' (List.prefix_append y z))]
    exact hf a h y _ hy hy' (List.prefix_append y z)

/-! ## Loops -/

lemma collect_eq_nil {p : Rule (Option α)} {s r : Source} (h : Rule.collect p s = .ok [] r) :
    p s = .ok none r := by
  rw [Rule.collect] at h
  split at h
  · rename_i hp
    cases h
    exact hp
  · split at h
    · split at h <;> cases h
    · cases h
  · cases h

lemma collect_eq_cons {p : Rule (Option α)} {s r : Source} {a : α} {as : List α}
    (h : Rule.collect p s = .ok (a :: as) r) :
    ∃ m, p s = .ok (some a) m ∧ m.left < s.left ∧ Rule.collect p m = .ok as r := by
  rw [Rule.collect] at h
  split at h
  · cases h
  · rename_i hp
    split at h
    · rename_i hlt
      split at h
      · rename_i hc
        cases h
        exact ⟨_, hp, hlt, hc⟩
      · cases h
    · cases h
  · cases h

/-- A round that has read something reads it again, and the loop goes on behind it. -/
lemma collect_append {p : Rule (Option α)} {s m : Source} {u t : List Char} {a : α}
    (hs : s.chars = u ++ m.chars) (hlt : m.left < s.left)
    (h : p (.of (u ++ t)) = .ok (some a) (.of t)) :
    Rule.collect p (.of (u ++ t)) = match Rule.collect p (.of t) with
      | .ok as r => .ok (a :: as) r
      | .error e r => .error e r := by
  refine collect_of_some h ?_
  have hlength := congrArg List.length hs
  rw [List.length_append, ← s.left_eq, ← m.left_eq] at hlength
  rw [Source.left_of, Source.left_of, List.length_append]
  omega

/-- A loop reads the same again if each of its rounds does, and if it stops again where it
stopped. -/
lemma Local.collect_of {p : Rule (Option α)} (hE : Extends E)
    (hround : ∀ ⦃s a r⦄, s.left < n → p s = .ok (some a) r → ∃ u, s.chars = u ++ r.chars ∧
      ∀ x t, E x → x <+: r.chars → x <+: t → p (.of (u ++ t)) = .ok (some a) (.of t))
    (hstop : ∀ ⦃s r⦄, s.left < n → p s = .ok none r → ∃ u, s.chars = u ++ r.chars ∧
      ∀ x t, E' x → x <+: r.chars → x <+: t → p (.of (u ++ t)) = .ok none (.of t))
    (hsub : ∀ x, E' x → E x) : Local n E' (Rule.collect p) := by
  intro s as r hn h
  induction as generalizing s with
  | nil =>
    obtain ⟨u, hs, hu⟩ := hstop hn (collect_eq_nil h)
    exact ⟨u, hs, fun x t hx hr ht => collect_of_none (hu x t hx hr ht)⟩
  | cons a as ih =>
    obtain ⟨m, hsome, hlt, htail⟩ := collect_eq_cons h
    obtain ⟨u, hs, hu⟩ := hround hn hsome
    obtain ⟨v, hm, hv⟩ := ih (Nat.lt_trans hlt hn) htail
    refine ⟨u ++ v, by rw [hs, hm, List.append_assoc], fun x t hx hr ht => ?_⟩
    have hfirst := hu (v ++ x) (v ++ t) (hE v x (hsub x hx))
      (hm ▸ (List.prefix_append_right_inj v).mpr hr) ((List.prefix_append_right_inj v).mpr ht)
    rw [List.append_assoc, collect_append hs hlt hfirst, hv x t hx hr ht]

lemma Local.collect {p : Rule (Option α)} (hE : Extends E) (hp : Local n E p) :
    Local n E (Rule.collect p) :=
  Local.collect_of hE (fun _ _ _ hn h => hp hn h) (fun _ _ hn h => hp hn h) fun _ hx => hx

/-- A loop is closed if its last round is. -/
lemma Local.collect_closed {p : Rule (Option α)} (hE : Extends E) (hp : Local n E p)
    (hstop : ∀ ⦃s r⦄, s.left < n → p s = .ok none r → ∃ u, s.chars = u ++ r.chars ∧ E u ∧
      ∀ t, p (.of (u ++ t)) = .ok none (.of t)) :
    Closed n E (Rule.collect p) := by
  intro s as r hn h
  induction as generalizing s with
  | nil =>
    obtain ⟨u, hs, hend, hu⟩ := hstop hn (collect_eq_nil h)
    exact ⟨u, hs, hend, fun t => collect_of_none (hu t)⟩
  | cons a as ih =>
    obtain ⟨m, hsome, hlt, htail⟩ := collect_eq_cons h
    obtain ⟨u, hs, hu⟩ := hp hn hsome
    obtain ⟨v, hm, hend, hv⟩ := ih (Nat.lt_trans hlt hn) htail
    refine ⟨u ++ v, by rw [hs, hm, List.append_assoc], hE u v hend, fun t => ?_⟩
    have hfirst := hu v (v ++ t) hend (hm ▸ List.prefix_append v r.chars) (List.prefix_append v t)
    rw [List.append_assoc, collect_append hs hlt hfirst, hv t]

/-- A list with separators reads the same again if what follows ends it: neither an item nor a
separator with an item behind it may begin there. -/
lemma Local.separated {item : Rule α} {separator : Rule Unit} (hE : Extends E)
    (hitem : Local n E item) (hseparator : Local n E separator) (hsub : ∀ x, E' x → E x)
    (hfirst : ∀ x t, E' x → x <+: t → ∃ r, item (.of t) = .error () r)
    (hnext : ∀ x t, E' x → x <+: t → ∃ r, separator (.of t) = .error () r) :
    Local n E' (separated item separator) := by
  have hmore : Local n E (do separator; item) := hseparator.bind hE fun _ => hitem
  have hloop : Local n E' (Rule.collect (Rule.attempt (do separator; item))) := by
    refine Local.collect_of hE (fun s a r hn h => ?_) (fun s r hn h => ?_) hsub
    · obtain ⟨u, hs, hu⟩ := hmore hn (attempt_eq_some h)
      exact ⟨u, hs, fun x t hx hr ht => attempt_of_ok (hu x t hx hr ht)⟩
    · cases attempt_eq_none h
      refine ⟨[], rfl, fun x t hx hr ht => ?_⟩
      obtain ⟨r', hr'⟩ := hnext x t hx ht
      exact attempt_of_error (bind_of_error _ hr')
  intro s as r hn h
  obtain ⟨o, m, hfst, hrest⟩ := bind_eq_ok.mp h
  cases o with
  | none =>
    cases attempt_eq_none hfst
    cases hrest
    refine ⟨[], rfl, fun x t hx hr ht => ?_⟩
    obtain ⟨r', hr'⟩ := hfirst x t hx ht
    rw [List.nil_append, Rule.separated, bind_of_ok _ (attempt_of_error hr')]
    rfl
  | some a =>
    obtain ⟨as, m', hloop', hpure⟩ := bind_eq_ok.mp hrest
    cases hpure
    obtain ⟨u, hs, hu⟩ := hitem hn (attempt_eq_some hfst)
    obtain ⟨v, hm, hv⟩ := hloop (Nat.lt_of_le_of_lt (left_le_of_append hs) hn) hloop'
    refine ⟨u ++ v, by rw [hs, hm, List.append_assoc], fun x t hx hr ht => ?_⟩
    have hhead := hu (v ++ x) (v ++ t) (hE v x (hsub x hx))
      (hm ▸ (List.prefix_append_right_inj v).mpr hr) ((List.prefix_append_right_inj v).mpr ht)
    rw [List.append_assoc, Rule.separated, bind_of_ok _ (attempt_of_ok hhead)]
    exact bind_of_ok _ (hv x t hx hr ht)

end FlowSketch.Text.Rule
