/-
# The items of a program, one after the other

`ReadsItems` is the loop over the items of a text without any guard: it reads items from the front and
says what is left.  Every text has a run of this loop that ends with blanks or with an item that
cannot be read (`exists_readsItems`), and what is read in between is what `items` reads.

An item is read again whatever follows it, with one exception: a branching statement that had no
second block is read again only if what follows does not begin with the word for one.  So the items
in front of a place in a text are read again if the text is cut there, or if something else follows
(`ReadsItems.replay`).
-/
import FlowSketch.Proofs.Program.Locality

namespace FlowSketch

/-- The items of one program and then those of another. -/
def Program.append (p q : Program) : Program :=
  ⟨p.entry ++ q.entry, p.functions ++ q.functions⟩

lemma Program.append_empty (p : Program) : p.append {} = p := by
  unfold append
  rw [List.append_nil, List.append_nil]

namespace Grammar

open FlowSketch.Text (Rule Source isBlank trimStart)
open FlowSketch.Text.Rule

/-! ## Blanks in front -/

lemma trimStart_append_of_blanks {v : List Char} (hv : ∀ c ∈ v, isBlank c = true)
    (t : List Char) : trimStart (v ++ t) = trimStart t :=
  List.dropWhile_append_of_pos hv

/-- A text that begins with no blank does not depend on what follows. -/
lemma trimStart_append_of_trimmed {x y : List Char} (hne : x ≠ []) (h : trimStart (x ++ y) = x ++ y)
    (t : List Char) : trimStart (x ++ t) = x ++ t := by
  obtain ⟨c, x, rfl⟩ := List.exists_cons_of_ne_nil hne
  cases hc : isBlank c with
  | false => exact Text.trimStart_cons_of_not_blank hc
  | true =>
    rw [List.cons_append, Text.trimStart_cons_of_blank hc] at h
    have hlength := congrArg List.length h
    have := Text.trimStart_length_le (x ++ y)
    rw [List.length_cons] at hlength
    omega

lemma exists_blanks (t : List Char) :
    ∃ v, t = v ++ trimStart t ∧ ∀ c ∈ v, isBlank c = true :=
  ⟨t.takeWhile isBlank, (Text.takeWhile_append_trimStart t).symm,
    List.all_eq_true.mp List.all_takeWhile⟩

/-! ## What an item reads -/

/-- What is read in a text up to a place is read again: either whatever follows, or, if a branching
statement without a second block was read, whatever follows without the word for one. -/
def Settled (reads : List Char → Source → Prop) (s m : Source) : Prop :=
  ∃ u k, s.chars = u ++ k ∧ Marked u ∧
    (m.chars = k ∧ (∀ t, reads (u ++ t) (.of t)) ∨
      (∃ b, opening block s = .ok b (.of k)) ∧ m.chars = trimStart k ∧
        ¬ "else".toList <+: trimStart k ∧
        ∀ t, ¬ "else".toList <+: trimStart t → reads (u ++ t) (.of (trimStart t)))

lemma Settled.mono {reads reads' : List Char → Source → Prop} {s m : Source}
    (h : Settled reads s m) (hreads : ∀ u t r, Marked u → s.chars = u ++ (s.chars.drop u.length) →
      reads (u ++ t) r → reads' (u ++ t) r) : Settled reads' s m := by
  obtain ⟨u, k, hs, hu, h⟩ := h
  have hdrop : s.chars = u ++ s.chars.drop u.length := by rw [hs, List.drop_left]
  refine ⟨u, k, hs, hu, ?_⟩
  obtain ⟨hm, hread⟩ | ⟨hopen, hm, helse, hread⟩ := h
  · exact .inl ⟨hm, fun t => hreads u t _ hu hdrop (hread t)⟩
  · exact .inr ⟨hopen, hm, helse, fun t ht => hreads u t _ hu hdrop (hread t ht)⟩

lemma settled_of_closed {α : Type} {p : Rule α} {s m : Source} {a : α}
    (hp : ∀ n, Closed n Marked p) (h : p s = .ok a m) :
    Settled (fun t r => p (.of t) = .ok a r) s m := by
  obtain ⟨u, hs, hu, hread⟩ := hp _ (Nat.lt_succ_self _) h
  exact ⟨u, m.chars, hs, hu, .inl ⟨rfl, hread⟩⟩

section Branching

variable {block : Rule (List Stmt)} {t : List Char}

lemma otherwise_of_starts (h : "else".toList <+: trimStart t) :
    otherwise block (.of t) = (do blanks; lit "else"; block) (.of t) := by
  rw [otherwise, bind_of_ok _ (blanks_apply _), bind_of_ok _ (ahead_of_starts h), if_pos rfl,
    bind_of_ok _ (blanks_apply _)]

lemma otherwise_of_not_starts (h : ¬ "else".toList <+: trimStart t) :
    otherwise block (.of t) = .ok [] (.of (trimStart t)) := by
  rw [otherwise, bind_of_ok _ (blanks_apply _), bind_of_ok _ (ahead_of_not_starts h),
    if_neg (by decide)]
  rfl

end Branching

lemma branching_settled {s m : Source} {st : Stmt} (h : branching block s = .ok st m) :
    Settled (fun t r => branching block (.of t) = .ok st r) s m := by
  rw [branching_eq] at h ⊢
  obtain ⟨first, k, hfirst, h⟩ := bind_eq_ok.mp h
  obtain ⟨onFalse, m', hother, h⟩ := bind_eq_ok.mp h
  cases h
  obtain ⟨k, rfl⟩ : ∃ l, k = .of l := ⟨k.chars, k.of_chars.symm⟩
  obtain ⟨u, hs, hu, hagain⟩ := closed_opening closed_block (Nat.lt_succ_self _) hfirst
  by_cases helse : "else".toList <+: trimStart k
  · rw [otherwise_of_starts helse] at hother
    have hsecond : Closed (k.length + 1) Marked (do blanks; lit "else"; block) :=
      local_space.bind_closed extends_marked fun _ =>
        (local_lit _).bind_closed extends_marked fun _ => closed_block
    obtain ⟨v, hk, hv, hagain'⟩ := hsecond (Nat.lt_succ_self _) hother
    refine ⟨u ++ v, m.chars, by rw [hs, hk, List.append_assoc], extends_marked u v hv,
      .inl ⟨rfl, fun t => ?_⟩⟩
    have hword : "else".toList <+: trimStart (v ++ t) := by
      obtain ⟨hmark, hvk⟩ := hv.trimStart (List.prefix_append v m.chars)
      have hvt := (hv.trimStart (List.prefix_append v t)).2
      rw [show k = _ from hk, hmark.prefix_iff (by decide) hvk] at helse
      exact (hmark.prefix_iff (by decide) hvt).mpr helse
    dsimp only
    rw [List.append_assoc, bind_of_ok _ (hagain (v ++ t)),
      bind_of_ok _ ((otherwise_of_starts hword).trans (hagain' t))]
    rfl
  · rw [otherwise_of_not_starts helse] at hother
    cases hother
    refine ⟨u, k, hs, hu, .inr ⟨⟨first, hfirst⟩, rfl, helse, fun t ht => ?_⟩⟩
    dsimp only
    rw [bind_of_ok _ (hagain t), bind_of_ok _ (otherwise_of_not_starts ht)]
    rfl

/-- The rule that the first characters of a statement choose. -/
def statementAhead (s : List Char) : Rule Stmt :=
  if "var ".toList.isPrefixOf s then binding
  else if "if ".toList.isPrefixOf s || "if(".toList.isPrefixOf s then branching block
  else if "output(".toList.isPrefixOf s then printing
  else call

lemma statement_eq (s : Source) : statement s = statementAhead s.chars s := by
  have hahead (l : String) : ahead l s = .ok (l.toList.isPrefixOf s.chars) s := rfl
  unfold statement statementWith statementAhead
  rw [bind_of_ok _ (hahead "var ")]
  split
  · rfl
  · rw [bind_of_ok _ (hahead "if "), bind_of_ok _ (hahead "if(")]
    split
    · rfl
    · exact bind_of_ok _ (hahead "output(")

/-- Every statement but a branching one is closed. -/
lemma statementAhead_closed (s : List Char) :
    statementAhead s = branching block ∨ ∀ n, Closed n Marked (statementAhead s) := by
  unfold statementAhead
  split
  · exact .inr fun _ => closed_binding
  · split
    · exact .inl rfl
    · split
      · exact .inr fun _ => closed_printing
      · exact .inr fun _ => closed_call

/-- The choice is made up to the first mark. -/
lemma statementAhead_eq {x s t : List Char} (hx : Marked x) (hs : x <+: s) (ht : x <+: t) :
    statementAhead s = statementAhead t := by
  have hword (l : String) (hl : l.toList.any isMark = false) :
      l.toList.isPrefixOf s = l.toList.isPrefixOf t := by
    rw [Bool.eq_iff_iff, List.isPrefixOf_iff_prefix, List.isPrefixOf_iff_prefix,
      hx.prefix_iff hl hs, hx.prefix_iff hl ht]
  unfold statementAhead
  rw [hword "var " (by decide), hword "if " (by decide), hword "if(" (by decide),
    hword "output(" (by decide)]

lemma statement_settled {s m : Source} {st : Stmt} (h : statement s = .ok st m) :
    Settled (fun t r => statement (.of t) = .ok st r) s m := by
  rw [statement_eq] at h
  have hchosen : Settled (fun t r => statementAhead s.chars (.of t) = .ok st r) s m := by
    obtain hbranching | hclosed := statementAhead_closed s.chars
    · rw [hbranching] at h ⊢
      exact branching_settled h
    · exact settled_of_closed hclosed h
  refine hchosen.mono fun u t r hu hs hread => ?_
  rw [statement_eq, Source.chars_of, ← hread]
  refine congrFun (statementAhead_eq hu (List.prefix_append u t) ?_) _
  rw [hs]
  exact List.prefix_append u _

lemma kindAhead_eq_function {s : Source} :
    kindAhead s = .function ↔ "function".toList <+: s.chars := by
  rw [← List.isPrefixOf_iff_prefix]
  unfold kindAhead
  split
  · rename_i h
    exact ⟨fun _ => h, fun _ => rfl⟩
  · rename_i h
    exact ⟨fun hkind => (nomatch hkind), fun hprefix => absurd hprefix h⟩

/-- An item is a function or a statement, as its first characters say. -/
lemma item_eq_ok {s m : Source} {add : Program → Program} :
    item s = .ok (add, m) ↔
      (kindAhead s = .function ∧
        ∃ f, function s = .ok f m ∧ add = fun p => { p with functions := f :: p.functions }) ∨
      (kindAhead s = .statement ∧
        ∃ st, statement s = .ok st m ∧ add = fun p => { p with entry := st :: p.entry }) := by
  unfold item
  cases kindAhead s with
  | function => cases function s <;> simp [eq_comm, and_comm]
  | statement => cases statement s <;> simp [eq_comm, and_comm]

lemma item_eq_error {s : Source} {f : Failure} (h : item s = .error f) :
    f.kind = kindAhead s ∧ f.rest <:+ s.chars := by
  unfold item at h
  split at h
  · rename_i hkind
    split at h
    · cases h
    · rename_i hfunction
      cases h
      exact ⟨hkind.symm, shrinks_function.of_error hfunction⟩
  · rename_i hkind
    split at h
    · cases h
    · rename_i hstatement
      cases h
      exact ⟨hkind.symm, shrinks_statement.of_error hstatement⟩

lemma left_lt_of_item {s m : Source} {add : Program → Program} (h : item s = .ok (add, m)) :
    m.left < s.left := by
  obtain ⟨-, f, hf, -⟩ | ⟨-, st, hst, -⟩ := item_eq_ok.mp h
  · exact advances_function hf
  · exact advances_statement hst

/-- What an item adds stands in front. -/
lemma item_append {s m : Source} {add : Program → Program} (h : item s = .ok (add, m))
    (p q : Program) : add (p.append q) = (add p).append q := by
  obtain ⟨-, f, -, rfl⟩ | ⟨-, st, -, rfl⟩ := item_eq_ok.mp h <;> rfl

/-- The kind of an item is decided up to the first mark. -/
lemma kindAhead_congr {x : List Char} {s t : Source} (hx : Marked x) (hs : x <+: s.chars)
    (ht : x <+: t.chars) : kindAhead s = kindAhead t := by
  have hword : kindAhead s = .function ↔ kindAhead t = .function := by
    rw [kindAhead_eq_function, kindAhead_eq_function, hx.prefix_iff (by decide) hs,
      hx.prefix_iff (by decide) ht]
  cases hks : kindAhead s <;> cases hkt : kindAhead t <;> simp [hks, hkt] at hword ⊢

lemma item_settled {s m : Source} {add : Program → Program} (h : item s = .ok (add, m)) :
    Settled (fun t r => item (.of t) = .ok (add, r)) s m := by
  have hkind {u t : List Char} (hu : Marked u) (hs : s.chars = u ++ s.chars.drop u.length) :
      kindAhead (.of (u ++ t)) = kindAhead s :=
    kindAhead_congr hu (List.prefix_append u t) (hs ▸ List.prefix_append u _)
  obtain ⟨hk, f, hf, hadd⟩ | ⟨hk, st, hst, hadd⟩ := item_eq_ok.mp h
  · exact (settled_of_closed (fun _ => closed_function) hf).mono fun u t r hu hs hread =>
      item_eq_ok.mpr (.inl ⟨(hkind hu hs).trans hk, f, hread, hadd⟩)
  · exact (statement_settled hst).mono fun u t r hu hs hread =>
      item_eq_ok.mpr (.inr ⟨(hkind hu hs).trans hk, st, hread, hadd⟩)

/-! ## The loop over the items -/

/-- The loop over the items of a text: from some place on it reads items, which make up a program,
up to another place. -/
inductive ReadsItems : Source → Program → Source → Prop
  /-- No item is read. -/
  | start (s : Source) : ReadsItems s {} s
  /-- Behind blanks an item is read, and then more items. -/
  | item {s m r : Source} {add : Program → Program} {p : Program} :
    s.skipBlanks.isEmpty = false → item s.skipBlanks = .ok (add, m) → ReadsItems m p r →
      ReadsItems s (add p) r

lemma items_of_item {s m : Source} {add : Program → Program} (hne : s.skipBlanks.isEmpty = false)
    (h : item s.skipBlanks = .ok (add, m)) : items s = (items m).map add := by
  have hlt : m.left < s.left := Nat.lt_of_lt_of_le (left_lt_of_item h) s.left_skipBlanks_le
  rw [items, hne, h]
  simp [hlt]

lemma items_of_error {s : Source} {f : Failure} (hne : s.skipBlanks.isEmpty = false)
    (h : item s.skipBlanks = .error f) : items s = .error f := by
  rw [items, hne, h]
  rfl

lemma items_of_isEmpty {s : Source} (h : s.skipBlanks.isEmpty = true) : items s = .ok {} := by
  rw [items, if_pos h]

/-- Every text is read up to blanks at its end or up to an item that cannot be read. -/
lemma exists_readsItems (s : Source) : ∃ p r, ReadsItems s p r ∧
    (r.skipBlanks.isEmpty = true ∨
      r.skipBlanks.isEmpty = false ∧ ∃ f, item r.skipBlanks = .error f) := by
  induction hn : s.left using Nat.strongRecOn generalizing s with
  | ind n ih =>
    cases hempty : s.skipBlanks.isEmpty with
    | true => exact ⟨{}, s, .start s, .inl hempty⟩
    | false =>
      cases hitem : item s.skipBlanks with
      | error f => exact ⟨{}, s, .start s, .inr ⟨hempty, f, hitem⟩⟩
      | ok am =>
        obtain ⟨add, m⟩ := am
        have hlt : m.left < n :=
          hn ▸ Nat.lt_of_lt_of_le (left_lt_of_item hitem) s.left_skipBlanks_le
        obtain ⟨p, r, hreads, hend⟩ := ih m.left hlt m rfl
        exact ⟨add p, r, .item hempty hitem hreads, hend⟩

/-- What an item adds to the items behind other ones. -/
lemma map_item {s m : Source} {add : Program → Program} (h : item s = .ok (add, m)) (p : Program)
    (e : Except Failure Program) : (e.map p.append).map add = e.map (add p).append := by
  cases e with
  | error f => rfl
  | ok q => exact congrArg Except.ok (item_append h p q)

/-- What is read after the items is read behind them. -/
lemma ReadsItems.items_eq {s r : Source} {p : Program} (h : ReadsItems s p r) :
    items s = (items r).map p.append := by
  induction h with
  | start s => cases items s <;> rfl
  | item hne hitem _ ih =>
    rw [items_of_item hne hitem, ih, map_item hitem]

/-- Blanks in front of items are skipped. -/
lemma items_eq_of_skipBlanks {s t : Source} (h : s.skipBlanks = t.skipBlanks) :
    items s = items t := by
  cases hempty : s.skipBlanks.isEmpty with
  | true => rw [items_of_isEmpty hempty, items_of_isEmpty (h ▸ hempty)]
  | false =>
    cases hitem : item s.skipBlanks with
    | error f => rw [items_of_error hempty hitem, items_of_error (h ▸ hempty) (h ▸ hitem)]
    | ok am =>
      exact (items_of_item hempty hitem).trans (items_of_item (h ▸ hempty) (h ▸ hitem)).symm

/-- An item behind blanks, and what is read behind it. -/
lemma items_behind_blanks {v u t t' r : List Char} {add : Program → Program}
    (hv : ∀ c ∈ v, isBlank c = true) (hu : u ≠ []) (htrim : trimStart (u ++ t) = u ++ t)
    (hitem : item (.of (u ++ t)) = .ok (add, .of r)) (hr : trimStart r = trimStart t') :
    items (.of (v ++ (u ++ t))) = (items (.of t')).map add := by
  have hskip : (Source.of (v ++ (u ++ t))).skipBlanks = .of (u ++ t) := by
    rw [Source.skipBlanks_of, trimStart_append_of_blanks hv, htrim]
  have hne : (Source.of (v ++ (u ++ t))).skipBlanks.isEmpty = false := by
    rw [hskip]
    simp [Source.isEmpty, hu]
  rw [items_of_item hne (hskip ▸ hitem)]
  have hrest : items (.of r) = items (.of t') := items_eq_of_skipBlanks (by
    rw [Source.skipBlanks_of, Source.skipBlanks_of, hr])
  rw [hrest]

/-- The last item up to some place is a branching statement without a second block: its first block
ends there, up to blanks. -/
def EndsOpen (s : Source) (k : List Char) : Prop :=
  ∃ p m b r, ReadsItems s p m ∧ opening block m.skipBlanks = .ok b r ∧ trimStart r.chars = trimStart k

lemma EndsOpen.item {s m : Source} {add : Program → Program} {k : List Char}
    (hne : s.skipBlanks.isEmpty = false) (h : item s.skipBlanks = .ok (add, m))
    (hopen : EndsOpen m k) : EndsOpen s k := by
  obtain ⟨p, m', b, r, hreads, hread⟩ := hopen
  exact ⟨add p, m', b, r, .item hne h hreads, hread⟩

/-- **Items are read again, whatever follows them**, unless the last one is a branching statement
without a second block and the word for one follows. -/
theorem ReadsItems.replay {s r : Source} {p : Program} (h : ReadsItems s p r) :
    ∃ a k, s.chars = a ++ k ∧ trimStart k = trimStart r.chars ∧ (a = [] ∨ Marked a) ∧
      ∀ t, (EndsOpen s k → ¬ "else".toList <+: trimStart t) →
        items (.of (a ++ t)) = (items (.of t)).map p.append := by
  induction h with
  | start s =>
    refine ⟨[], s.chars, rfl, rfl, .inl rfl, fun t _ => ?_⟩
    rw [List.nil_append]
    cases items (.of t) <;> rfl
  | @item s m r add p hne hitem hreads ih =>
    obtain ⟨a, k, hm, hk, ha, hagain⟩ := ih
    obtain ⟨u, k₁, hs, hu, hcase⟩ := item_settled hitem
    obtain ⟨v, hv, hblank⟩ := exists_blanks s.chars
    have hsv : s.chars = v ++ (u ++ k₁) := hv.trans (congrArg (v ++ ·) hs)
    have htrimmed : trimStart (u ++ k₁) = u ++ k₁ := by
      rw [← hs]
      exact Text.trimStart_trimStart s.chars
    have htrim := trimStart_append_of_trimmed (Marked.ne_nil u hu) htrimmed
    obtain ⟨rfl, hread⟩ | ⟨⟨b, hopen⟩, hmk, helse, hread⟩ := hcase
    · -- the item is read again in any case, and then the others are
      refine ⟨v ++ (u ++ a), k, by rw [hsv, hm]; simp, hk,
        .inr (extends_marked v _ (hu.append a)), fun t ht => ?_⟩
      have hitem' := items_behind_blanks hblank (Marked.ne_nil u hu) (htrim (a ++ t))
        (hread (a ++ t)) rfl
      rw [List.append_assoc, List.append_assoc, hitem',
        hagain t fun hends => ht (hends.item hne hitem), map_item hitem]
    · -- the item is read again because the others, or what follows, do not begin with the word
      obtain ⟨w, hw, hblank'⟩ := exists_blanks k₁
      have hk₁ : k₁ = w ++ (a ++ k) := by rw [← hm, hmk]; exact hw
      refine ⟨v ++ (u ++ (w ++ a)), k, by rw [hsv, hk₁]; simp, hk,
        .inr (extends_marked v _ (hu.append _)), fun t ht => ?_⟩
      have hnext : ¬ "else".toList <+: trimStart (a ++ t) := by
        obtain rfl | hmarked := ha
        · refine ht ⟨{}, s, b, .of k₁, .start s, hopen, ?_⟩
          rw [Source.chars_of, hk₁, trimStart_append_of_blanks hblank', List.nil_append]
        · obtain ⟨hmark, hak⟩ := hmarked.trimStart (List.prefix_append a k)
          have hat := (hmarked.trimStart (List.prefix_append a t)).2
          rw [hmark.prefix_iff (by decide) hat]
          rw [hk₁, trimStart_append_of_blanks hblank', hmark.prefix_iff (by decide) hak] at helse
          exact helse
      have hsame : trimStart (w ++ (a ++ t)) = trimStart (a ++ t) :=
        trimStart_append_of_blanks hblank' _
      have hitem' : items (.of (v ++ (u ++ (w ++ (a ++ t))))) = (items (.of (a ++ t))).map add :=
        items_behind_blanks hblank (Marked.ne_nil u hu) (htrim (w ++ (a ++ t)))
          (hread (w ++ (a ++ t)) (hsame ▸ hnext)) (by rw [Text.trimStart_trimStart, hsame])
      rw [show v ++ (u ++ (w ++ a)) ++ t = v ++ (u ++ (w ++ (a ++ t))) by simp, hitem',
        hagain t fun hends => ht (hends.item hne hitem), map_item hitem]

end Grammar

end FlowSketch
