/-
# How far the grammar looks ahead

A semicolon or a closing brace in what follows says enough to every rule of the grammar: no literal
and no operator that a rule looks for has such a mark in it, and a blank is none.  Bindings, printing
statements, calls and blocks end with a mark of their own, so they are closed; only a branching
statement looks behind its last block, for the word that begins a second one.

An expression in a list is refused where the list is closed, since neither a blank nor a closing
parenthesis begins an operand.

Main statements: `closed_block` and `closed_function`.
-/
import FlowSketch.Proofs.Program.Identifiers
import FlowSketch.Proofs.Program.Progress
import FlowSketch.Proofs.Text.Locality

namespace FlowSketch

namespace Grammar

open FlowSketch.Text (Rule Source isBlank isNameStart trimStart)
open FlowSketch.Text.Rule

/-! ## Marks -/

/-- The marks at which statements and blocks end. -/
def isMark (c : Char) : Bool := c == ';' || c == '\x7d'

/-- A text with a mark in it. -/
def Marked (x : List Char) : Prop := ∃ c ∈ x, isMark c = true

lemma extends_marked : Extends Marked := by
  rintro u x ⟨c, hc, hmark⟩
  exact ⟨c, List.mem_append_right u hc, hmark⟩

lemma Marked.append {x : List Char} (hx : Marked x) (y : List Char) : Marked (x ++ y) := by
  obtain ⟨c, hc, hmark⟩ := hx
  exact ⟨c, List.mem_append_left y hc, hmark⟩

lemma Marked.ne_nil (x : List Char) (hx : Marked x) : x ≠ [] := by
  obtain ⟨c, hc, -⟩ := hx
  exact List.ne_nil_of_mem hc

lemma isMark_of_isBlank {c : Char} (h : isBlank c = true) : isMark c = false := by
  have hsemicolon : (c == ';') = false := beq_of_class h (by decide)
  have hbrace : (c == '\x7d') = false := beq_of_class h (by decide)
  rw [isMark, hsemicolon, hbrace]
  rfl

lemma any_isMark_of_blank {u : List Char} (h : ∀ c ∈ u, isBlank c = true) :
    u.any isMark = false :=
  List.any_eq_false.mpr fun c hc => by simp [isMark_of_isBlank (h c hc)]

/-- A text without marks in front of the first mark. -/
lemma Marked.split {u m x : List Char} (hu : u.any isMark = false) (hx : Marked x)
    (h : x <+: u ++ m) : ∃ y, x = u ++ y ∧ Marked y := by
  obtain ⟨c, hc, hmark⟩ := hx
  have hnotin : c ∉ u := fun hcu => List.any_eq_false.mp hu c hcu hmark
  obtain hxu | ⟨y, rfl⟩ := List.prefix_or_prefix_of_prefix h (List.prefix_append u m)
  · exact absurd (hxu.subset hc) hnotin
  · exact ⟨y, rfl, c, (List.mem_append.mp hc).resolve_left hnotin, hmark⟩

/-- Whether a text begins with a literal without marks is decided up to the first mark. -/
lemma Marked.prefix_iff {l x t : List Char} (hl : l.any isMark = false) (hx : Marked x)
    (ht : x <+: t) : l <+: t ↔ l <+: x := by
  constructor
  · rintro ⟨m, rfl⟩
    obtain ⟨y, rfl, -⟩ := hx.split hl ht
    exact List.prefix_append l y
  · exact fun h => h.trans ht

/-- Behind the blanks there is still the mark. -/
lemma Marked.trimStart {x t : List Char} (hx : Marked x) (ht : x <+: t) :
    Marked (trimStart x) ∧ Text.trimStart x <+: Text.trimStart t := by
  have hu := any_isMark_of_blank (List.all_eq_true.mp (List.all_takeWhile (l := t)))
  rw [← Text.takeWhile_append_trimStart t] at ht
  obtain ⟨y, rfl, hy⟩ := hx.split hu ht
  have hyt : y <+: Text.trimStart t := (List.prefix_append_right_inj _).mp ht
  have htrim : Text.trimStart (t.takeWhile isBlank ++ y) = y := by
    rw [Text.trimStart, List.dropWhile_append_of_pos (List.all_eq_true.mp List.all_takeWhile)]
    refine trimStart_of_head fun d hd => ?_
    obtain ⟨c, z, rfl⟩ := List.exists_cons_of_ne_nil (Marked.ne_nil y hy)
    obtain ⟨w, hw⟩ := hyt
    have hstop := List.head?_dropWhile_not isBlank t
    rw [show t.dropWhile isBlank = _ from hw.symm] at hstop
    cases Option.mem_some_iff.mp hd
    simpa using hstop
  rw [htrim]
  exact ⟨hy, hyt⟩

/-- No operator has a mark in it. -/
lemma any_isMark_symbol {op : Operator} : op.symbol.toList.any isMark = false := by
  cases op <;> decide

/-- Which operator comes next is decided up to the first mark. -/
lemma operatorAhead?_eq {x s t : List Char} (ops : List Operator) (hx : Marked x) (hs : x <+: s)
    (ht : x <+: t) :
    operatorAhead? ops (trimStart s) = operatorAhead? ops (trimStart t) := by
  obtain ⟨hmark, hxs⟩ := hx.trimStart hs
  have hxt := (hx.trimStart ht).2
  refine congrArg (ops.find? ·) (funext fun op => ?_)
  rw [Bool.eq_iff_iff, List.isPrefixOf_iff_prefix, List.isPrefixOf_iff_prefix,
    hmark.prefix_iff any_isMark_symbol hxs, hmark.prefix_iff any_isMark_symbol hxt]

variable {n : ℕ}

/-- A literal without marks is looked for. -/
lemma local_word {l : String} (hl : l.toList.any isMark = false) :
    Local n Marked (ahead l) :=
  local_ahead fun _ _ _ hx hs ht => (hx.prefix_iff hl hs).trans (hx.prefix_iff hl ht).symm

/-- A single character is looked for. -/
lemma local_ahead_singleton {c : Char} : Local n Marked (ahead (String.singleton c)) := by
  refine local_ahead fun x s t hx hs ht => ?_
  obtain ⟨d, y, rfl⟩ := List.exists_cons_of_ne_nil (Marked.ne_nil x hx)
  obtain ⟨z, rfl⟩ := hs
  obtain ⟨w, rfl⟩ := ht
  simp [String.toList_singleton]

lemma local_space : Local n Marked blanks := local_blanks Marked.ne_nil

/-! ## Operands -/

lemma local_name : Local n Marked name :=
  (local_one _).bind extends_marked fun _ =>
    (local_many Marked.ne_nil).bind extends_marked fun _ => local_pure _

lemma refuses_fraction : Refuses Marked (do char '.'; digits) := by
  refine (refuses_char Marked.ne_nil).bind (fun _ => local_char _) (fun s a m u x h hs hx hxs => ?_)
    fun _ => refuses_several Marked.ne_nil
  obtain rfl : u = ['.'] := List.append_cancel_right (hs.symm.trans (char_eq_ok h))
  exact hx.split (by decide) (hs ▸ hxs)

lemma local_number : Local n Marked number := by
  have hdigits : Local n Marked digits := local_several extends_marked Marked.ne_nil
  exact ((local_char _).attempt (refuses_char Marked.ne_nil)).bind extends_marked fun _ =>
    hdigits.bind extends_marked fun _ =>
      (((local_char _).bind extends_marked fun _ => hdigits).attempt refuses_fraction).bind
        extends_marked fun _ => local_pure _

lemma local_text : Local n Marked text := by
  refine Local.map _ ((local_char _).bind extends_marked fun _ => Local.collect extends_marked ?_)
  exact (local_one _).bind extends_marked fun _ => (local_pure _).ite <|
    Local.ite ((local_one _).bind extends_marked fun _ => local_pure _) (local_pure _)

lemma begins_name : Begins (isNameStart · = true) name :=
  (begins_one _).bind fun _ => (shrinks_many _).bind fun _ => shrinks_pure _

lemma begins_number : Begins (fun c => c = '-' ∨ c.isDigit = true) number := by
  have hfraction : Shrinks (attempt (do char '.'; digits)) :=
    .attempt ((shrinks_char _).bind fun _ => shrinks_several _)
  refine (begins_char '-').attempt_bind (fun _ => ?_) ?_
  · exact (shrinks_several _).bind fun _ => hfraction.bind fun _ => shrinks_pure _
  · exact Begins.bind ((begins_one _).bind fun _ => (shrinks_many _).bind fun _ => shrinks_pure _)
      fun _ => hfraction.bind fun _ => shrinks_pure _

lemma name_of_head {c : Char} (h : isNameStart c = false) (t : List Char) :
    name (.of (c :: t)) = .error () (.of (c :: t)) :=
  bind_of_error _ (one_of_not fun d hd => by rwa [← Option.mem_some_iff.mp hd])

lemma text_of_head {c : Char} (h : (c == '"') = false) (t : List Char) :
    text (.of (c :: t)) = .error () (.of (c :: t)) :=
  map_of_error _ (bind_of_error _ (char_of_not fun d hd => by rwa [← Option.mem_some_iff.mp hd]))

/-- Texts, names and numbers begin with different characters. -/
lemma local_operand : Local n Marked operand := by
  have hnames : Local n Marked (orElse (.name <$> name) (.number <$> number) : Rule Expr) := by
    refine (local_name.map _).orElse (local_number.map _) (begins_number.map _) fun c t hc => ?_
    exact ⟨_, map_of_error _ (name_of_head (apart_of_isDigit_or_minus hc.symm).2.2 t)⟩
  have hbegins : Begins _ (orElse (.name <$> name) (.number <$> number) : Rule Expr) :=
    (begins_name.map _).orElse (begins_number.map _)
  refine (local_text.map _).orElse hnames hbegins fun c t hc => ?_
  refine ⟨_, map_of_error _ (text_of_head ?_ t)⟩
  obtain hc | hc := hc
  · exact beq_of_class hc (by decide)
  · exact (apart_of_isDigit_or_minus hc.symm).2.1

/-! ## Expressions -/

section Joined

variable {ops : List Operator} {operand : Rule Expr}

lemma local_joint (h : Local n Marked operand) : Local n Marked (joint ops operand) := by
  intro s a r hn hr
  obtain ⟨hnone, hj⟩ | ⟨op, -, hsome, hj⟩ := joint_eq ops operand s
  · rw [hj] at hr
    cases hr
    refine ⟨[], rfl, fun x t hx hs ht => ?_⟩
    have hnone' : operatorAhead? ops (Source.of t).skipBlanks.chars = none :=
      (operatorAhead?_eq ops hx ht hs).trans hnone
    simp only [joint, List.nil_append, hnone']
  · have hparts : Local n Marked
        (do blanks; lit op.symbol; blanks; let rhs ← operand; return some (op, rhs)) :=
      local_space.bind extends_marked fun _ => (local_lit _).bind extends_marked fun _ =>
        local_space.bind extends_marked fun _ => h.bind extends_marked fun _ => local_pure _
    rw [hj] at hr
    obtain ⟨u, hs, hu⟩ := hparts hn hr
    refine ⟨u, hs, fun x t hx hr ht => ?_⟩
    have hsome' : operatorAhead? ops (Source.of (u ++ t)).skipBlanks.chars = some op :=
      (operatorAhead?_eq ops (extends_marked u x hx) ((List.prefix_append_right_inj u).mpr ht)
        (hs ▸ (List.prefix_append_right_inj u).mpr hr)).trans hsome
    simp only [joint, hsome']
    exact hu x t hx hr ht

lemma local_joined (h : Local n Marked operand) : Local n Marked (joined ops operand) :=
  h.bind extends_marked fun _ =>
    (Local.collect extends_marked (local_joint h)).bind extends_marked fun _ => local_pure _

end Joined

lemma local_chain : Local n Marked chain :=
  local_joined <| local_joined <| local_joined <| local_joined local_operand

lemma refuses_sign : Refuses Marked (do blanks; char '>') := by
  refine Refuses.bind (fun _ _ h => nomatch h) (fun _ => local_space) (fun s a m u x h hs hx hxs => ?_)
    fun _ => refuses_char Marked.ne_nil
  obtain ⟨v, hv, hblank, -⟩ := blanks_eq_ok h
  obtain rfl : u = v := List.append_cancel_right (hs.symm.trans hv)
  exact hx.split (any_isMark_of_blank hblank) (hs ▸ hxs)

lemma local_expr : Local n Marked expr := by
  refine (local_word (by decide)).bind extends_marked fun _ => Local.ite ?_ ?_
  · exact (local_lit _).bind extends_marked fun _ => local_space.bind extends_marked fun _ =>
      (local_char _).bind extends_marked fun _ => local_pure _
  · refine local_chain.bind extends_marked fun _ => Local.bind extends_marked ?_ fun o => ?_
    · exact (local_space.bind extends_marked fun _ => local_char _).attempt refuses_sign
    · cases o with
      | none => exact local_pure _
      | some _ => exact local_space.bind extends_marked fun _ =>
          local_chain.bind extends_marked fun _ => local_pure _

/-! ## Lists -/

/-- What closes a list: blanks and a parenthesis, with a mark somewhere behind. -/
def Closing (x : List Char) : Prop :=
  Marked x ∧ ∃ v y, x = v ++ ')' :: y ∧ ∀ c ∈ v, isBlank c = true

lemma Closing.head {x t : List Char} (hx : Closing x) (ht : x <+: t) :
    ∃ c z, t = c :: z ∧ (isBlank c = true ∨ c = ')') := by
  obtain ⟨-, v, y, rfl, hv⟩ := hx
  obtain ⟨z, rfl⟩ := ht
  cases v with
  | nil => exact ⟨')', y ++ z, rfl, .inr rfl⟩
  | cons c v => exact ⟨c, _, rfl, .inl (hv c (by simp))⟩

/-- What neither a name nor a text nor a number begins with. -/
structure Foreign (c : Char) : Prop where
  name : isNameStart c = false
  quote : (c == '"') = false
  minus : (c == '-') = false
  digit : c.isDigit = false

lemma foreign_of_closing {c : Char} (h : isBlank c = true ∨ c = ')') : Foreign c := by
  obtain h | rfl := h
  · have hstart : isNameStart c = false := by
      cases hc : isNameStart c with
      | false => rfl
      | true =>
        rw [Text.isBlank_of_isNameStart hc] at h
        cases h
    have hdigit : c.isDigit = false := by
      cases hc : c.isDigit with
      | false => rfl
      | true =>
        rw [(apart_of_isDigit_or_minus (.inl hc)).1] at h
        cases h
    exact ⟨hstart, beq_of_class h (by decide), beq_of_class h (by decide), hdigit⟩
  · exact ⟨by decide, by decide, by decide, by decide⟩

lemma number_of_foreign {c : Char} (h : Foreign c) (t : List Char) :
    number (.of (c :: t)) = .error () (.of (c :: t)) := by
  have hminus : attempt (char '-') (.of (c :: t)) = .ok none (.of (c :: t)) :=
    attempt_of_error (char_of_not fun d hd => by rw [← Option.mem_some_iff.mp hd, h.minus])
  rw [number, bind_of_ok _ hminus]
  exact bind_of_error _ (bind_of_error _ (one_of_not fun d hd => by
    rw [← Option.mem_some_iff.mp hd, h.digit]))

/-- No expression begins with such a character. -/
lemma expr_of_foreign {c : Char} (h : Foreign c) (t : List Char) :
    expr (.of (c :: t)) = .error () (.of (c :: t)) := by
  have hoperand : operand (.of (c :: t)) = .error () (.of (c :: t)) := by
    rw [operand_of_not_text fun d hd => by rw [← Option.mem_some_iff.mp hd, h.quote],
      orElse_of_error (map_of_error _ (name_of_head h.name t))]
    exact map_of_error _ (number_of_foreign h t)
  have hchain : chain (.of (c :: t)) = .error () (.of (c :: t)) :=
    bind_of_error _ (bind_of_error _ (bind_of_error _ (bind_of_error _ hoperand)))
  have hinput : ¬ "input(".toList <+: c :: t := by
    intro hprefix
    obtain rfl : 'i' = c := (List.cons_prefix_cons.mp hprefix).1
    exact absurd h.name (by decide)
  unfold expr
  rw [bind_of_ok _ (ahead_of_not_starts hinput), if_neg (by decide), bind_of_error _ hchain]

lemma local_comma : Local n Marked comma :=
  local_space.bind extends_marked fun _ => (local_char _).bind extends_marked fun _ => local_space

/-- There is no comma where a list is closed. -/
lemma comma_of_closing {x t : List Char} (hx : Closing x) (ht : x <+: t) :
    ∃ r, comma (.of t) = .error () r := by
  obtain ⟨-, v, y, rfl, hv⟩ := hx
  obtain ⟨z, rfl⟩ := ht
  have htrim : trimStart (v ++ ')' :: y ++ z) = ')' :: (y ++ z) := by
    rw [List.append_assoc, trimStart, List.dropWhile_append_of_pos hv]
    exact Text.trimStart_cons_of_not_blank (by decide)
  refine ⟨.of (')' :: (y ++ z)), ?_⟩
  rw [comma, bind_of_ok _ (blanks_apply _), htrim]
  exact bind_of_error _ (char_cons_of_ne (by decide) _)

/-- A list between parentheses ends where its closing parenthesis stands. -/
lemma local_parenthesized {α : Type} {item : Rule α} (hitem : Local n Marked item)
    (hforeign : ∀ c t, Foreign c → ∃ r, item (.of (c :: t)) = .error () r) :
    Local n Marked (parenthesized item) := by
  have hlist : Local n Closing (separated item comma) := by
    refine Local.separated extends_marked hitem local_comma (fun x hx => hx.1) (fun x t hx ht => ?_)
      fun x t hx ht => comma_of_closing hx ht
    obtain ⟨c, z, rfl, hc⟩ := hx.head ht
    exact hforeign c z (foreign_of_closing hc)
  have hclose : ∀ items : List α, Local n Marked (do blanks; char ')'; return items) := fun items =>
    local_space.bind extends_marked fun _ => (local_char _).bind extends_marked fun _ => local_pure _
  have hend : Local n Marked (do
      let items ← separated item comma
      blanks
      char ')'
      return items) := by
    refine hlist.bind_of hclose fun items m b r u x hread hm hx => ?_
    obtain ⟨⟨⟩, m', hblanks, hread⟩ := bind_eq_ok.mp hread
    obtain ⟨⟨⟩, m'', hchar, hread⟩ := bind_eq_ok.mp hread
    cases hread
    obtain ⟨v, hv, hblank, -⟩ := blanks_eq_ok hblanks
    have hu : u = v ++ [')'] := by
      have hsame : u ++ r.chars = (v ++ [')']) ++ r.chars := by
        rw [← hm, hv, char_eq_ok hchar, List.append_assoc, List.singleton_append]
      exact List.append_cancel_right hsame
    exact ⟨extends_marked u x hx, v, x, by rw [hu, List.append_assoc, List.singleton_append], hblank⟩
  exact local_space.bind extends_marked fun _ => (local_char _).bind extends_marked fun _ =>
    local_space.bind extends_marked fun _ => hend

/-! ## Statements -/

lemma closed_semicolon : Closed n Marked semicolon :=
  local_space.bind_closed extends_marked fun _ => closed_char ⟨';', by simp, rfl⟩

lemma closed_binding : Closed n Marked binding := by
  refine (local_lit _).bind_closed extends_marked fun _ => ?_
  refine (local_several extends_marked Marked.ne_nil).bind_closed extends_marked fun _ => ?_
  refine local_name.bind_closed extends_marked fun _ => local_space.bind_closed extends_marked fun _ => ?_
  refine (local_char _).bind_closed extends_marked fun _ => ?_
  refine local_space.bind_closed extends_marked fun _ => local_expr.bind_closed extends_marked fun _ => ?_
  exact closed_semicolon.bind_pure _

lemma closed_printing : Closed n Marked printing := by
  refine (local_lit _).bind_closed extends_marked fun _ => ?_
  refine local_space.bind_closed extends_marked fun _ => local_expr.bind_closed extends_marked fun _ => ?_
  refine local_space.bind_closed extends_marked fun _ => (local_char _).bind_closed extends_marked fun _ => ?_
  exact closed_semicolon.bind_pure _

lemma closed_call : Closed n Marked call := by
  refine local_name.bind_closed extends_marked fun _ => ?_
  refine (local_parenthesized local_expr fun c t hc => ⟨_, expr_of_foreign hc t⟩).bind_closed
    extends_marked fun _ => ?_
  exact closed_semicolon.bind_pure _

section Blocks

variable {block : Rule (List Stmt)} {item : Rule Stmt}

/-- A branching statement is closed up to the end of its first block. -/
lemma closed_opening (h : Closed n Marked block) : Closed n Marked (opening block) := by
  refine (local_lit _).bind_closed extends_marked fun _ => ?_
  refine local_space.bind_closed extends_marked fun _ => ?_
  refine (local_char _).bind_closed extends_marked fun _ => ?_
  refine local_space.bind_closed extends_marked fun _ => ?_
  refine local_expr.bind_closed extends_marked fun _ => ?_
  refine local_space.bind_closed extends_marked fun _ => ?_
  exact (local_char _).bind_closed extends_marked fun _ => h.bind_pure _

lemma local_otherwise (h : Closed n Marked block) : Local n Marked (otherwise block) :=
  local_space.bind extends_marked fun _ => (local_word (by decide)).bind extends_marked fun _ =>
    Local.ite ((local_lit _).bind extends_marked fun _ => h.local) (local_pure _)

lemma local_branching (h : Closed n Marked block) : Local n Marked (branching block) := by
  rw [branching_eq]
  exact (closed_opening h).local.bind extends_marked fun _ =>
    (local_otherwise h).bind extends_marked fun _ => local_pure _

lemma local_statementWith (h : Closed n Marked block) : Local n Marked (statementWith block) :=
  (local_word (by decide)).bind extends_marked fun _ => Local.ite closed_binding.local <|
    (local_word (by decide)).bind extends_marked fun _ =>
      (local_word (by decide)).bind extends_marked fun _ => Local.ite (local_branching h) <|
        (local_word (by decide)).bind extends_marked fun _ =>
          Local.ite closed_printing.local closed_call.local

lemma local_blockItem (h : Local n Marked item) : Local n Marked (blockItem item) :=
  local_space.bind extends_marked fun _ =>
    (local_ahead_singleton (c := '\x7d')).bind extends_marked fun _ =>
      Local.ite ((local_char _).bind extends_marked fun _ => local_pure _) <|
        local_unlessEmpty Marked.ne_nil (h.map _)

/-- The closing brace ends a block, whatever follows it. -/
lemma blockItem_eq_none {s r : Source} (h : blockItem item s = .ok none r) :
    ∃ u, s.chars = u ++ r.chars ∧ Marked u ∧
      ∀ t, blockItem item (.of (u ++ t)) = .ok none (.of t) := by
  obtain ⟨⟨⟩, m, hblanks, h⟩ := bind_eq_ok.mp h
  obtain ⟨v, hv, hblank, -⟩ := blanks_eq_ok hblanks
  obtain ⟨b, m', hahead, h⟩ := bind_eq_ok.mp h
  cases hahead
  split at h
  · obtain ⟨⟨⟩, m', hchar, h⟩ := bind_eq_ok.mp h
    cases h
    have hm := char_eq_ok hchar
    refine ⟨v ++ ['\x7d'], by rw [hv, hm, List.append_assoc, List.singleton_append],
      ⟨'\x7d', by simp, rfl⟩, fun t => ?_⟩
    have htrim : trimStart (v ++ ['\x7d'] ++ t) = '\x7d' :: t := by
      rw [List.append_assoc, trimStart, List.dropWhile_append_of_pos hblank]
      exact Text.trimStart_cons_of_not_blank (by decide)
    have hbrace : "\x7d".toList <+: '\x7d' :: t := List.prefix_append ['\x7d'] t
    rw [blockItem, bind_of_ok _ (blanks_apply _), htrim, bind_of_ok _ (ahead_of_starts hbrace),
      if_pos rfl, bind_of_ok _ (char_cons_self _ _)]
    rfl
  · obtain ⟨m', m'', hget, h⟩ := bind_eq_ok.mp h
    split at h
    · cases h
    · cases hitem : item m'' with
      | ok st m =>
        rw [map_of_ok some hitem] at h
        cases h
      | error e m =>
        rw [map_of_error some hitem] at h
        cases h

lemma closed_blockWith (h : Closed n Marked block) : Closed (n + 1) Marked (blockWith block) := by
  refine local_space.bind_closed extends_marked fun _ => closed_char_bind extends_marked _ ?_
  exact Local.collect_closed extends_marked (local_blockItem (local_statementWith h))
    fun s r _ hs => blockItem_eq_none hs

end Blocks

/-- **A block reads the same again, whatever follows it.** -/
theorem closed_block : Closed n Marked block := by
  induction n with
  | zero => exact fun _ _ _ h => absurd h (Nat.not_lt_zero _)
  | succ n ih =>
    rw [block_eq]
    exact closed_blockWith ih

/-- **A function reads the same again, whatever follows it.** -/
theorem closed_function : Closed n Marked function := by
  refine (local_lit _).bind_closed extends_marked fun _ => ?_
  refine (local_several extends_marked Marked.ne_nil).bind_closed extends_marked fun _ => ?_
  refine local_name.bind_closed extends_marked fun _ => ?_
  refine (local_parenthesized local_name fun c t hc => ⟨_, name_of_head hc.name t⟩).bind_closed
    extends_marked fun _ => ?_
  exact closed_block.bind_pure _

end Grammar

end FlowSketch
