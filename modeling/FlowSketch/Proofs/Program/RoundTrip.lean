/-
# A listing is read back

The text of a listing is read as the program of the listing.  A statement is told by its first
characters, and no name begins like a keyword.  A block inside of a statement is shorter than
the text of the block around it, so the rule for blocks reads them all, by induction on the
length of the text.

Main statement: `Listing.read_text`.
-/
import FlowSketch.Proofs.Program.Expressions

namespace FlowSketch

open FlowSketch.Text (Rule Source isNameRest isBlank trimStart)
open FlowSketch.Text.Rule

namespace Listing

/-! ## Readable listings -/

mutual

/-- Whether the values of a step can be read back. -/
def Step.Readable : Step → Prop
  | .bind _ v => v.Readable
  | .print _ => True
  | .call _ _ => True
  | .branch _ _ onTrue onFalse => stepsReadable onTrue ∧ stepsReadable onFalse

/-- Whether the values of all steps can be read back. -/
def stepsReadable : List Step → Prop
  | [] => True
  | s :: ss => s.Readable ∧ stepsReadable ss

end

lemma stepsReadable_append {ss rs : List Step} :
    stepsReadable (ss ++ rs) ↔ stepsReadable ss ∧ stepsReadable rs := by
  induction ss with
  | nil => simp [stepsReadable]
  | cons s ss ih => simp [stepsReadable, ih, and_assoc]

mutual

/-- The values that a step binds. -/
def Step.values : Step → List Value
  | .bind _ v => [v]
  | .print _ => []
  | .call _ _ => []
  | .branch _ _ onTrue onFalse => stepsValues onTrue ++ stepsValues onFalse

/-- The values that steps bind. -/
def stepsValues : List Step → List Value
  | [] => []
  | s :: ss => s.values ++ stepsValues ss

end

mutual

lemma Step.readable_of_mem {v : Value} {s : Step} (hs : s.Readable) (hv : v ∈ s.values) :
    v.Readable := by
  cases s with
  | bind id w =>
    rw [List.mem_singleton.mp hv]
    exact hs
  | print id => cases hv
  | call id args => cases hv
  | branch left right onTrue onFalse =>
    rcases List.mem_append.mp hv with hv | hv
    · exact readable_of_mem_stepsValues hs.1 hv
    · exact readable_of_mem_stepsValues hs.2 hv

lemma readable_of_mem_stepsValues {v : Value} {ss : List Step} (hss : stepsReadable ss)
    (hv : v ∈ stepsValues ss) : v.Readable := by
  cases ss with
  | nil => cases hv
  | cons s ss =>
    rcases List.mem_append.mp hv with hv | hv
    · exact Step.readable_of_mem hss.1 hv
    · exact readable_of_mem_stepsValues hss.2 hv

end

/-- Whether the values of all routines can be read back. -/
def Readable (l : Listing) : Prop := ∀ r ∈ l.routines, stepsReadable r.body

end Listing

namespace Grammar

open FlowSketch.Listing (indent names stepsChars stmts stepsReadable)

/-! ## Blanks -/

lemma isBlank_of_mem_indent {depth : ℕ} {c : Char} (h : c ∈ indent depth) : isBlank c = true := by
  rw [List.eq_of_mem_replicate h]
  rfl

lemma trimStart_indent (depth : ℕ) (s : List Char) : trimStart (indent depth ++ s) = trimStart s :=
  List.dropWhile_append_of_pos fun _ hc => isBlank_of_mem_indent hc

lemma trimStart_nameChars (id : NodeId) (t : List Char) :
    trimStart (id.nameChars ++ t) = id.nameChars ++ t :=
  (namePiece id).trimStart_append t

/-! ## Names in parentheses -/

lemma names_cons (id : NodeId) (ids : List NodeId) :
    names (id :: ids) = id.nameChars ++ ids.flatMap fun i => ',' :: ' ' :: i.nameChars := by
  induction ids generalizing id with
  | nil => simp [names]
  | cons i ids ih =>
    have hsplit : names (id :: i :: ids) = id.nameChars ++ (',' :: ' ' :: names (i :: ids)) := by
      simp [names]
    rw [hsplit, ih, List.flatMap_cons]
    rfl

/-- What follows a name is a comma or the closing parenthesis. -/
lemma exists_mark (ids : List NodeId) (t : List Char) :
    ∃ c u, (ids.flatMap fun i => ',' :: ' ' :: i.nameChars) ++ ')' :: t = c :: u ∧
      (c = ')' ∨ c = ',') := by
  cases ids with
  | nil => exact ⟨')', t, rfl, .inl rfl⟩
  | cons i ids => exact ⟨',', _, rfl, .inr rfl⟩

section Separated

variable {α : Type} {item : Rule α} {f : NodeId → α}

/-- The names behind the first one are read. -/
lemma collect_names
    (hitem : ∀ id c t, c = ')' ∨ c = ',' →
      item (.of (id.nameChars ++ c :: t)) = .ok (f id) (.of (c :: t)))
    (ids : List NodeId) (t : List Char) :
    collect (attempt (do comma; item))
        (.of ((ids.flatMap fun i => ',' :: ' ' :: i.nameChars) ++ ')' :: t)) =
      .ok (ids.map f) (.of (')' :: t)) := by
  induction ids with
  | nil =>
    apply collect_of_none
    apply attempt_of_error (r := .of (')' :: t))
    apply bind_of_error
    exact (bind_of_ok _ (blanks_apply _)).trans (bind_of_error _ (char_of_not (by
      intro d hd
      rw [← Option.mem_some_iff.mp hd]
      decide)))
  | cons id ids ih =>
    obtain ⟨c, u, hu, hc⟩ := exists_mark ids t
    rw [List.flatMap_cons, List.append_assoc, hu]
    rw [hu] at ih
    have hcomma : comma (.of (',' :: ' ' :: (id.nameChars ++ c :: u))) =
        .ok () (.of (id.nameChars ++ c :: u)) := by
      unfold comma
      rw [bind_of_ok _ (blanks_apply _), Text.trimStart_cons_of_not_blank rfl,
        bind_of_ok _ (char_cons_self _ _), blanks_apply, Text.trimStart_cons_of_blank rfl,
        trimStart_nameChars]
    have hstep : attempt (do comma; item) (.of (',' :: ' ' :: id.nameChars ++ c :: u)) =
        .ok (some (f id)) (.of (c :: u)) :=
      attempt_of_ok ((bind_of_ok _ hcomma).trans (hitem id c u hc))
    rw [collect_of_some hstep (by simp; omega), ih]
    rfl

/-- Names in parentheses, with commas between them, are read in order. -/
lemma parenthesized_names
    (hitem : ∀ id c t, c = ')' ∨ c = ',' →
      item (.of (id.nameChars ++ c :: t)) = .ok (f id) (.of (c :: t)))
    (hnone : ∀ t, ∃ r, item (.of (')' :: t)) = .error () r) (ids : List NodeId) (t : List Char) :
    parenthesized item (.of ('(' :: (names ids ++ ')' :: t))) = .ok (ids.map f) (.of t) := by
  have hseparated : trimStart (names ids ++ ')' :: t) = names ids ++ ')' :: t ∧
      separated item comma (.of (names ids ++ ')' :: t)) = .ok (ids.map f) (.of (')' :: t)) := by
    cases ids with
    | nil =>
      obtain ⟨r, hr⟩ := hnone t
      refine ⟨Text.trimStart_cons_of_not_blank rfl, ?_⟩
      unfold separated
      change (attempt item >>= _) (.of (')' :: t)) = _
      rw [bind_of_ok _ (attempt_of_error hr)]
      rfl
    | cons id ids =>
      obtain ⟨c, u, hu, hc⟩ := exists_mark ids t
      have hcollect := collect_names hitem ids t
      rw [names_cons, List.append_assoc]
      refine ⟨trimStart_nameChars _ _, ?_⟩
      unfold separated
      rw [hu] at hcollect ⊢
      rw [bind_of_ok _ (attempt_of_ok (hitem id c u hc))]
      dsimp only
      rw [bind_of_ok _ hcollect]
      rfl
  unfold parenthesized
  rw [bind_of_ok _ (blanks_apply _), Text.trimStart_cons_of_not_blank rfl,
    bind_of_ok _ (char_cons_self _ _), bind_of_ok _ (blanks_apply _), hseparated.1,
    bind_of_ok _ hseparated.2, bind_of_ok _ (blanks_apply _),
    Text.trimStart_cons_of_not_blank rfl, bind_of_ok _ (char_cons_self _ _)]
  rfl

end Separated

/-! ## Statements -/

lemma semicolon_cons (t : List Char) : semicolon (.of (';' :: t)) = .ok () (.of t) := by
  unfold semicolon
  rw [bind_of_ok _ (blanks_apply _), Text.trimStart_cons_of_not_blank rfl, char_cons_self]

/-- A blank ends a name. -/
lemma not_isNameRest_blank {t : List Char} : ∀ c ∈ (' ' :: t).head?, isNameRest c = false := by
  intro c hc
  rw [← Option.mem_some_iff.mp hc]
  decide

/-- A blank before a name is read up to the name. -/
lemma several_blank_nameChars (id : NodeId) (t : List Char) :
    several (fun c => c == ' ' || c == '\t') (.of ([' '] ++ (id.nameChars ++ t))) =
      .ok [' '] (.of (id.nameChars ++ t)) := by
  refine several_append (by simp) (by simp) fun c hc => ?_
  have hc' := NodeId.isAlpha_of_mem_head? hc
  rw [beq_of_class hc' (by decide), beq_of_class hc' (by decide)]
  rfl

lemma binding_chars (id : NodeId) {v : Listing.Value} (hv : v.Readable) (t : List Char) :
    binding (.of ("var ".toList ++ (id.nameChars ++ (" = ".toList ++ (v.chars ++ ';' :: t))))) =
      .ok (.bind id.name v.expr) (.of t) := by
  have hequals : trimStart (' ' :: '=' :: ' ' :: (v.chars ++ ';' :: t)) =
      '=' :: ' ' :: (v.chars ++ ';' :: t) := by
    rw [Text.trimStart_cons_of_blank rfl, Text.trimStart_cons_of_not_blank rfl]
  unfold binding
  rw [show "var ".toList ++ (id.nameChars ++ (" = ".toList ++ (v.chars ++ ';' :: t))) =
      "var".toList ++ ([' '] ++ (id.nameChars ++ (" = ".toList ++ (v.chars ++ ';' :: t)))) from rfl,
    bind_of_ok _ (lit_append _ _), bind_of_ok _ (several_blank_nameChars id _)]
  rw [show " = ".toList ++ (v.chars ++ ';' :: t) = ' ' :: '=' :: ' ' :: (v.chars ++ ';' :: t)
      from rfl, bind_of_ok _ (name_nameChars id not_isNameRest_blank), bind_of_ok _ (blanks_apply _),
    hequals, bind_of_ok _ (char_cons_self _ _), bind_of_ok _ (blanks_apply _),
    Text.trimStart_cons_of_blank rfl, Listing.trimStart_valueChars hv,
    bind_of_ok _ (Listing.expr_valueChars hv (closes_cons (by simp) _)),
    bind_of_ok _ (semicolon_cons _)]
  rfl

lemma printing_chars (id : NodeId) (t : List Char) :
    printing (.of ("output(".toList ++ (id.nameChars ++ (')' :: ';' :: t)))) =
      .ok (.print (.name id.name)) (.of t) := by
  unfold printing
  rw [bind_of_ok _ (lit_append _ _), bind_of_ok _ (blanks_apply _), trimStart_nameChars,
    bind_of_ok _ (expr_nameChars id (closes_cons (by simp) _)), bind_of_ok _ (blanks_apply _),
    Text.trimStart_cons_of_not_blank rfl, bind_of_ok _ (char_cons_self _ _),
    bind_of_ok _ (semicolon_cons _)]
  rfl

/-- There is no expression before a closing parenthesis. -/
lemma expr_close (t : List Char) : expr (.of (')' :: t)) = .error () (.of (')' :: t)) := by
  have hoperand : operand (.of (')' :: t)) = .error () (.of (')' :: t)) := rfl
  have hchain : chain (.of (')' :: t)) = .error () (.of (')' :: t)) :=
    bind_of_error _ (bind_of_error _ (bind_of_error _ (bind_of_error _ hoperand)))
  unfold expr
  rw [bind_of_ok _ (ahead_of_not_starts (by simp)), if_neg (by decide), bind_of_error _ hchain]

lemma call_chars (id : NodeId) (args : List NodeId) (t : List Char) :
    call (.of (id.nameChars ++ ('(' :: (names args ++ ')' :: ';' :: t)))) =
      .ok (.call id.name (args.map fun a => .name a.name)) (.of t) := by
  unfold call
  rw [bind_of_ok _ (name_nameChars id (by simp; decide)),
    bind_of_ok _ (parenthesized_names (f := fun a => Expr.name a.name)
      (fun a c u hc => expr_nameChars a (closes_cons (by tauto) u)) (fun u => ⟨_, expr_close u⟩) args (';' :: t)),
    bind_of_ok _ (semicolon_cons _)]
  rfl

/-! ## Blocks -/

/-- The text of a block from the blank before it. -/
def blockChars (depth d : ℕ) (ss : List Listing.Step) (t : List Char) : List Char :=
  " \x7b\n".toList ++ (stepsChars (depth + 1) ss ++ (indent d ++ '\x7d' :: t))

/-- A rule reads all blocks whose text is shorter than a bound. -/
def ReadsBlocks (blk : Rule (List Stmt)) (n : ℕ) : Prop :=
  ∀ (depth d : ℕ) (ss : List Listing.Step) (t : List Char), stepsReadable ss →
    (blockChars depth d ss t).length < n → blk (.of (blockChars depth d ss t)) = .ok (stmts ss) (.of t)

lemma ReadsBlocks.mono {blk : Rule (List Stmt)} {m n : ℕ} (h : ReadsBlocks blk n) (hmn : m ≤ n) :
    ReadsBlocks blk m :=
  fun depth d ss t hss hlt => h depth d ss t hss (lt_of_lt_of_le hlt hmn)

/-- The text of a branching statement without the blanks before it. -/
def branchingChars (depth : ℕ) (left right : NodeId) (onTrue onFalse : List Listing.Step)
    (t : List Char) : List Char :=
  "if (".toList ++ (left.nameChars ++ (" > ".toList ++ (right.nameChars ++ (')' ::
    blockChars depth depth onTrue (" else".toList ++ blockChars depth depth onFalse t)))))

lemma branching_chars {blk : Rule (List Stmt)} {depth : ℕ} {left right : NodeId}
    {onTrue onFalse : List Listing.Step} {t : List Char}
    (hblk : ReadsBlocks blk (branchingChars depth left right onTrue onFalse t).length)
    (hTrue : stepsReadable onTrue) (hFalse : stepsReadable onFalse) :
    branching blk (.of (branchingChars depth left right onTrue onFalse t)) =
      .ok (.branch (.binary .greater (.name left.name) (.name right.name)) (stmts onTrue)
        (stmts onFalse)) (.of t) := by
  obtain ⟨inner, hinner⟩ : ∃ inner, inner = " else".toList ++ blockChars depth depth onFalse t :=
    exists_eq
  obtain ⟨body, hbody⟩ : ∃ body, body = blockChars depth depth onTrue inner := exists_eq
  have htext : branchingChars depth left right onTrue onFalse t =
      "if".toList ++ (' ' :: '(' :: (left.nameChars ++ (" > ".toList ++ (right.nameChars ++
        (')' :: body))))) := by
    rw [hbody, hinner]
    rfl
  have hcond : expr (.of (left.nameChars ++ (" > ".toList ++ (right.nameChars ++ (')' :: body))))) =
      .ok (.binary .greater (.name left.name) (.name right.name)) (.of (')' :: body)) := by
    have hsingle : ∀ id : NodeId, chainChars ⟨namePiece id, []⟩ = id.nameChars := fun id => by
      rw [chainChars, restChars, List.append_nil]
      rfl
    have := expr_comparison (c := ⟨namePiece left, []⟩) (d := ⟨namePiece right, []⟩)
      (by simp [Chain.operators]) (by simp [Chain.operators])
      (closes_cons (t := body) (.inl rfl)).toEnds
      (by
        rw [hsingle]
        exact left.not_prefix_nameChars (by decide) _)
    rwa [hsingle, hsingle] at this
  have hfirst : blk (.of body) = .ok (stmts onTrue) (.of inner) := by
    rw [hbody]
    refine hblk depth depth onTrue inner hTrue ?_
    rw [htext, hbody]
    simp
    omega
  have hsecond : blk (.of (blockChars depth depth onFalse t)) = .ok (stmts onFalse) (.of t) := by
    refine hblk depth depth onFalse t hFalse ?_
    rw [htext, hbody, hinner]
    simp [blockChars]
    omega
  unfold branching
  rw [htext, bind_of_ok _ (lit_append _ _), bind_of_ok _ (blanks_apply _),
    Text.trimStart_cons_of_blank rfl, Text.trimStart_cons_of_not_blank rfl,
    bind_of_ok _ (char_cons_self _ _), bind_of_ok _ (blanks_apply _), trimStart_nameChars,
    bind_of_ok _ hcond, bind_of_ok _ (blanks_apply _), Text.trimStart_cons_of_not_blank rfl,
    bind_of_ok _ (char_cons_self _ _), bind_of_ok _ hfirst, bind_of_ok _ (blanks_apply _), hinner,
    show trimStart (" else".toList ++ blockChars depth depth onFalse t) =
      "else".toList ++ blockChars depth depth onFalse t from rfl,
    bind_of_ok _ (ahead_of_starts (List.prefix_append _ _)), if_pos rfl,
    bind_of_ok _ (lit_append _ _), bind_of_ok _ hsecond]
  rfl

/-- The text of a statement without the blanks before it. -/
def statementChars (depth : ℕ) (t : List Char) : Listing.Step → List Char
  | .bind id v => "var ".toList ++ (id.nameChars ++ (" = ".toList ++ (v.chars ++ ';' :: t)))
  | .print id => "output(".toList ++ (id.nameChars ++ (')' :: ';' :: t))
  | .call id args => id.nameChars ++ ('(' :: (names args ++ ')' :: ';' :: t))
  | .branch left right onTrue onFalse => branchingChars depth left right onTrue onFalse t

/-- Each statement stands indented on lines of its own. -/
lemma chars_append (depth : ℕ) (st : Listing.Step) (t : List Char) :
    st.chars depth ++ t = indent depth ++ statementChars depth ('\n' :: t) st := by
  cases st with
  | bind id v =>
    rw [Listing.Step.chars, List.append_assoc, List.append_assoc, List.append_assoc,
      List.append_assoc, List.append_assoc]
    rfl
  | print id =>
    rw [Listing.Step.chars, List.append_assoc, List.append_assoc, List.append_assoc]
    rfl
  | call id args =>
    rw [Listing.Step.chars, List.append_assoc, List.append_assoc, List.append_assoc,
      List.append_assoc]
    rfl
  | branch left right onTrue onFalse =>
    rw [Listing.Step.chars, List.append_assoc, List.append_assoc, List.append_assoc,
      List.append_assoc, List.append_assoc, List.append_assoc, List.append_assoc,
      List.append_assoc, List.append_assoc, List.append_assoc, List.append_assoc]
    rfl

/-- No statement begins with a blank or with a closing brace. -/
lemma exists_cons_statementChars (depth : ℕ) (st : Listing.Step) (t : List Char) :
    ∃ c u, statementChars depth t st = c :: u ∧ isBlank c = false ∧ (c == '\x7d') = false := by
  cases st with
  | bind id v =>
    exact ⟨'v', (statementChars depth t (.bind id v)).tail, rfl, by decide, by decide⟩
  | print id =>
    exact ⟨'o', (statementChars depth t (.print id)).tail, rfl, by decide, by decide⟩
  | call id args =>
    obtain ⟨c, cs, hcs, hc⟩ := id.exists_cons
    refine ⟨c, cs ++ ('(' :: (names args ++ ')' :: ';' :: t)), ?_, isBlank_of_isAlpha hc,
      beq_of_class hc (by decide)⟩
    change id.nameChars ++ _ = _
    rw [hcs, List.cons_append]
  | branch left right onTrue onFalse =>
    exact ⟨'i', (statementChars depth t (.branch left right onTrue onFalse)).tail, rfl,
      by decide, by decide⟩

/-- The text of a statement is longer than what follows it. -/
lemma length_statementChars (depth : ℕ) (st : Listing.Step) (t : List Char) :
    t.length < (statementChars depth t st).length := by
  cases st with
  | bind id v =>
    change t.length <
      ("var ".toList ++ (id.nameChars ++ (" = ".toList ++ (v.chars ++ ';' :: t)))).length
    simp only [List.length_append, List.length_cons]
    omega
  | print id =>
    change t.length < ("output(".toList ++ (id.nameChars ++ (')' :: ';' :: t))).length
    simp only [List.length_append, List.length_cons]
    omega
  | call id args =>
    change t.length < (id.nameChars ++ ('(' :: (names args ++ ')' :: ';' :: t))).length
    simp only [List.length_append, List.length_cons]
    omega
  | branch left right onTrue onFalse =>
    change t.length < (branchingChars depth left right onTrue onFalse t).length
    simp only [branchingChars, blockChars, List.length_append, List.length_cons]
    omega

/-- A text begins unlike another one if their first characters differ. -/
lemma not_prefix_of_take {l s : List Char} (w : List Char) (hs : s.take w.length = w)
    (hw : w.length ≤ l.length) (h : l.take w.length ≠ w) : ¬ l <+: s := by
  intro hl
  apply h
  rw [List.prefix_iff_eq_take.mp hl, List.take_take, Nat.min_eq_left hw, hs]

/-- **A statement is read back**, if the blocks inside of it are. -/
lemma statementWith_chars {blk : Rule (List Stmt)} {depth : ℕ} {st : Listing.Step} {t : List Char}
    (hst : st.Readable) (hblk : ReadsBlocks blk (statementChars depth t st).length) :
    statementWith blk (.of (statementChars depth t st)) = .ok st.stmt (.of t) := by
  unfold statementWith
  cases st with
  | bind id v =>
    have hvar : "var ".toList <+: statementChars depth t (.bind id v) := List.prefix_append _ _
    rw [bind_of_ok _ (ahead_of_starts hvar), if_pos rfl]
    exact binding_chars id hst t
  | print id =>
    have hvar : ¬ "var ".toList <+: statementChars depth t (.print id) :=
      not_prefix_of_take ['o'] rfl (by decide) (by decide)
    have hif : ¬ "if ".toList <+: statementChars depth t (.print id) :=
      not_prefix_of_take ['o'] rfl (by decide) (by decide)
    have hif' : ¬ "if(".toList <+: statementChars depth t (.print id) :=
      not_prefix_of_take ['o'] rfl (by decide) (by decide)
    have houtput : "output(".toList <+: statementChars depth t (.print id) :=
      List.prefix_append _ _
    rw [bind_of_ok _ (ahead_of_not_starts hvar), if_neg (by decide),
      bind_of_ok _ (ahead_of_not_starts hif), bind_of_ok _ (ahead_of_not_starts hif'),
      if_neg (by decide), bind_of_ok _ (ahead_of_starts houtput), if_pos rfl]
    exact printing_chars id t
  | call id args =>
    exact (statementWith_nameChars blk id _).trans (call_chars id args t)
  | branch left right onTrue onFalse =>
    have hvar : ¬ "var ".toList <+: statementChars depth t (.branch left right onTrue onFalse) :=
      not_prefix_of_take ['i'] rfl (by decide) (by decide)
    have hif : "if ".toList <+: statementChars depth t (.branch left right onTrue onFalse) :=
      ⟨_, rfl⟩
    have hif' : ¬ "if(".toList <+: statementChars depth t (.branch left right onTrue onFalse) :=
      not_prefix_of_take ['i', 'f', ' '] rfl (by decide) (by decide)
    rw [bind_of_ok _ (ahead_of_not_starts hvar), if_neg (by decide),
      bind_of_ok _ (ahead_of_starts hif), bind_of_ok _ (ahead_of_not_starts hif'),
      if_pos (by decide)]
    exact branching_chars hblk hst.1 hst.2

/-- The next statement of a block, on a line of its own. -/
lemma blockItem_statementChars {blk : Rule (List Stmt)} (depth : ℕ) {st : Listing.Step}
    (t : List Char) (hst : st.Readable) (hblk : ReadsBlocks blk (statementChars depth t st).length) :
    blockItem (statementWith blk) (.of ('\n' :: (indent depth ++ statementChars depth t st))) =
      .ok (some st.stmt) (.of t) := by
  have hread := statementWith_chars hst hblk
  obtain ⟨c, u, hu, hblank, hbrace⟩ := exists_cons_statementChars depth st t
  rw [hu] at hread ⊢
  have hclose : ¬ "\x7d".toList <+: c :: u := by
    refine not_prefix_of_head fun d hd => ?_
    rw [← Option.mem_some_iff.mp hd]
    exact hbrace
  unfold blockItem
  rw [bind_of_ok _ (blanks_apply _), Text.trimStart_cons_of_blank rfl, trimStart_indent,
    Text.trimStart_cons_of_not_blank hblank, bind_of_ok _ (ahead_of_not_starts hclose),
    if_neg (by decide)]
  exact map_of_ok some hread

/-- The statements of a block are read up to the closing brace. -/
lemma collect_stepsChars {blk : Rule (List Stmt)} (depth d : ℕ) (t : List Char)
    (ss : List Listing.Step) (hss : stepsReadable ss)
    (hblk : ReadsBlocks blk (stepsChars depth ss ++ (indent d ++ '\x7d' :: t)).length) :
    collect (blockItem (statementWith blk))
        (.of ('\n' :: (stepsChars depth ss ++ (indent d ++ '\x7d' :: t)))) =
      .ok (stmts ss) (.of t) := by
  induction ss with
  | nil =>
    have hclose : trimStart ('\n' :: (indent d ++ '\x7d' :: t)) = '\x7d' :: t := by
      rw [Text.trimStart_cons_of_blank rfl, trimStart_indent, Text.trimStart_cons_of_not_blank rfl]
    have hahead : ahead "\x7d" (.of ('\x7d' :: t)) = .ok true (.of ('\x7d' :: t)) :=
      ahead_of_starts (List.prefix_append "\x7d".toList t)
    apply collect_of_none
    unfold blockItem
    rw [stepsChars, List.nil_append, bind_of_ok _ (blanks_apply _), hclose,
      bind_of_ok _ hahead, if_pos rfl, bind_of_ok _ (char_cons_self _ _)]
    rfl
  | cons st ss ih =>
    obtain ⟨u, hu⟩ : ∃ u, u = stepsChars depth ss ++ (indent d ++ '\x7d' :: t) := exists_eq
    have htext : stepsChars depth (st :: ss) ++ (indent d ++ '\x7d' :: t) =
        indent depth ++ statementChars depth ('\n' :: u) st := by
      rw [← chars_append, hu, stepsChars, List.append_assoc]
    rw [htext] at hblk ⊢
    rw [← hu] at ih
    have hshorter := length_statementChars depth st ('\n' :: u)
    have hitem := blockItem_statementChars depth ('\n' :: u) hss.1
      (hblk.mono (by simp))
    rw [List.length_cons] at hshorter
    rw [collect_of_some hitem, ih hss.2 (hblk.mono _)]
    · rfl
    · rw [List.length_append]
      omega
    · simp only [Source.left_of, List.length_cons, List.length_append]
      omega

/-- **Blocks are read back.**  A block inside of a block is shorter than it, so that the inner
rule reads it. -/
lemma readsBlocks_block (n : ℕ) : ReadsBlocks block n := by
  induction n with
  | zero => exact fun _ _ _ _ _ h => absurd h (Nat.not_lt_zero _)
  | succ n ih =>
    intro depth d ss t hss hlt
    obtain ⟨text, htext⟩ : ∃ text, text = blockChars depth d ss t := exists_eq
    have hbody : text = ' ' :: '\x7b' :: '\n' :: (stepsChars (depth + 1) ss ++
        (indent d ++ '\x7d' :: t)) := htext
    -- the inner rule is the rule for blocks on every shorter text
    have hinner : ReadsBlocks (fun s => if s.left < (Source.of text).left then block s
        else .error () s) text.length := by
      intro depth d ss t hss hshort
      dsimp only
      rw [if_pos (by simpa using hshort)]
      exact ih depth d ss t hss (by rw [htext] at hshort; omega)
    have hsteps := collect_stepsChars (depth + 1) d t ss hss
      (hinner.mono (by rw [hbody]; simp; omega))
    rw [← htext]
    unfold block at hsteps ⊢
    rw [nested]
    rw [hbody] at hsteps ⊢
    rw [bind_of_ok _ (blanks_apply _), Text.trimStart_cons_of_blank rfl,
      Text.trimStart_cons_of_not_blank rfl, bind_of_ok _ (char_cons_self _ _)]
    exact hsteps

/-! ## Functions -/

/-- A function is read back. -/
lemma function_chars (r : Listing.Routine) (hr : stepsReadable r.body) (t : List Char) :
    function (.of (r.chars ++ t)) = .ok r.function (.of ('\n' :: t)) := by
  obtain ⟨body, hbody⟩ : ∃ body, body = blockChars 0 0 r.body ('\n' :: t) := exists_eq
  have htext : r.chars ++ t = "function".toList ++ ([' '] ++ (r.id.nameChars ++
      ('(' :: (names r.params ++ ')' :: body)))) := by
    have hfunction : "function ".toList = "function".toList ++ [' '] := by decide
    have hopen : ") \x7b\n".toList = [')'] ++ " \x7b\n".toList := by decide
    have hclose : "\x7d\n".toList = ['\x7d', '\n'] := by decide
    have hparenthesis : "(".toList = ['('] := by decide
    unfold Listing.Routine.chars
    rw [hbody, blockChars, hfunction, hopen, hclose, hparenthesis]
    generalize "function".toList = keyword
    generalize " \x7b\n".toList = brace
    simp [indent]
  have hblock : block (.of body) = .ok (stmts r.body) (.of ('\n' :: t)) := by
    rw [hbody]
    exact readsBlocks_block _ 0 0 r.body _ hr (Nat.lt_succ_self _)
  unfold function
  rw [htext, bind_of_ok _ (lit_append _ _),
    bind_of_ok _ (several_blank_nameChars r.id _),
    bind_of_ok _ (name_nameChars r.id (by simp; decide)),
    bind_of_ok _ (parenthesized_names (f := NodeId.name)
      (fun a c u hc => name_nameChars a (by
        intro d hd
        rw [← Option.mem_some_iff.mp hd]
        rcases hc with rfl | rfl <;> decide))
      (fun u => ⟨_, bind_of_error _ (one_of_not (by simp; decide))⟩) r.params body),
    bind_of_ok _ hblock]
  rfl

/-- The functions of a listing are read in order. -/
lemma items_routines (rs : List Listing.Routine) (h : ∀ r ∈ rs, stepsReadable r.body) :
    items (.of ('\n' :: rs.flatMap Listing.Routine.chars)) =
      .ok { functions := rs.map Listing.Routine.function } := by
  induction rs with
  | nil => exact items_of_blank rfl
  | cons r rs ih =>
    have hread := function_chars r (h r (by simp)) (rs.flatMap Listing.Routine.chars)
    obtain ⟨text, htext⟩ : ∃ text, text = r.chars ++ rs.flatMap Listing.Routine.chars := exists_eq
    rw [← htext] at hread
    have hkeyword : "function".toList <+: text := by
      rw [htext]
      exact ⟨_, rfl⟩
    have hskip : (Source.of ('\n' :: text)).skipBlanks = .of text := by
      obtain ⟨u, hu⟩ := hkeyword
      rw [Source.skipBlanks_of, Text.trimStart_cons_of_blank rfl, ← hu]
      rfl
    have hitem : item (.of text) = .ok (fun p => { p with functions := r.function :: p.functions },
        .of ('\n' :: rs.flatMap Listing.Routine.chars)) := by
      have hkind : kindAhead (.of text) = .function :=
        if_pos (List.isPrefixOf_iff_prefix.mpr hkeyword)
      unfold item
      rw [hkind, hread]
    have hne : (Source.of text).isEmpty = false := by
      obtain ⟨u, hu⟩ := hkeyword
      rw [← hu]
      rfl
    have hshorter : (rs.flatMap Listing.Routine.chars).length < text.length := by
      have hlast : "\x7d\n".toList.length = 2 := by decide
      rw [htext, List.length_append]
      unfold Listing.Routine.chars
      rw [List.length_append, hlast]
      omega
    rw [List.flatMap_cons, ← htext, items, hskip, hne, if_neg (by decide), hitem]
    dsimp only
    rw [if_pos (by simpa using hshorter), ih fun r hr => h r (by simp [hr])]
    rfl

end Grammar

/-! ## Listings -/

namespace Listing

open Grammar

/-- **The text of a listing is read as its program.** -/
theorem read_text {l : Listing} (hl : l.Readable) : Program.read l.text = .ok l.program := by
  obtain ⟨t, ht⟩ : ∃ t, t = '\n' :: l.routines.flatMap Routine.chars := exists_eq
  have htext : l.text.toList = statementChars 0 t (.call NodeId.root []) := by
    have hentry : "();\n".toList = ['(', ')', ';', '\n'] := by decide
    rw [toList_text, ht]
    unfold Listing.chars statementChars
    rw [hentry]
    simp [names]
  have hread : statementWith block (.of (statementChars 0 t (.call NodeId.root []))) =
      .ok (.call NodeId.root.name []) (.of t) := statementWith_chars trivial (readsBlocks_block _)
  have hlength := length_statementChars 0 (.call NodeId.root []) t
  obtain ⟨c, u, hu, hblank, -⟩ := exists_cons_statementChars 0 (.call NodeId.root []) t
  have hkind : kindAhead (.of (statementChars 0 t (.call NodeId.root []))) = .statement :=
    kindAhead_nameChars NodeId.root _
  have hskip : (Source.of (statementChars 0 t (.call NodeId.root []))).skipBlanks =
      .of (statementChars 0 t (.call NodeId.root [])) := by
    rw [hu, Source.skipBlanks_of, Text.trimStart_cons_of_not_blank hblank]
  have hitem : item (.of (statementChars 0 t (.call NodeId.root []))) =
      .ok (fun p => { p with entry := .call NodeId.root.name [] :: p.entry }, .of t) := by
    unfold item
    rw [hkind]
    dsimp only
    rw [statement, hread]
  have hne : (Source.of (statementChars 0 t (.call NodeId.root []))).isEmpty = false := by
    rw [hu]
    rfl
  rw [Program.read, htext, items, hskip, hne, if_neg (by decide), hitem]
  dsimp only
  rw [if_pos (by simpa using hlength), ht, items_routines _ hl]
  rfl

end Listing

end FlowSketch
