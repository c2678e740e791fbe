/-
# Reading a program comes to an end

Every rule of the grammar leaves a suffix of its text, and the rules that are read in a loop read
at least one character in every round: a character of a text, an operator and its operand, a comma
and an item, a statement.  A block only contains blocks of texts that are shorter than its own.

So the guards that make the loops total never stop one of them.  `Halts` says so of each loop and
of the recursion through blocks: on every text the loop without a guard has a result, and a block
is its own definition with itself inside.

Main statement: `halts`.
-/
import FlowSketch.Proofs.Text.Progress
import FlowSketch.Program.Grammar

namespace FlowSketch

/-! ## Texts -/

namespace Literal

open FlowSketch.Text.Rule

lemma shrinks_textItem : Shrinks textItem :=
  (shrinks_one _).bind fun _ =>
    (shrinks_pure _).ite (.ite ((shrinks_one _).bind fun _ => shrinks_pure _) (shrinks_pure _))

lemma advances_textItem : Advances textItem :=
  (advances_one _).bind_left fun _ =>
    (shrinks_pure _).ite (.ite ((shrinks_one _).bind fun _ => shrinks_pure _) (shrinks_pure _))

lemma shrinks_readText : Shrinks readText :=
  (shrinks_char _).bind fun _ => shrinks_textItem.collect

end Literal

namespace Grammar

open FlowSketch.Text (Rule Source)
open FlowSketch.Text.Rule

/-! ## Operands and expressions -/

lemma shrinks_name : Shrinks name :=
  (shrinks_one _).bind fun _ => (shrinks_many _).bind fun _ => shrinks_pure _

lemma advances_name : Advances name :=
  (advances_one _).bind_left fun _ => (shrinks_many _).bind fun _ => shrinks_pure _

lemma shrinks_number : Shrinks number :=
  (shrinks_char _).attempt.bind fun _ => (shrinks_several _).bind fun _ =>
    Shrinks.bind (.attempt ((shrinks_char _).bind fun _ => shrinks_several _)) fun _ =>
      shrinks_pure _

lemma shrinks_operand : Shrinks operand :=
  ((Literal.shrinks_readText.map _).map _).orElse
    ((shrinks_name.map _).orElse (shrinks_number.map _))

section Joined

variable {ops : List Operator} {operand : Rule Expr} {s r : Source}

/-- Behind the first operand either no operator of the level comes next, and nothing is read, or
one does, and it is read with the operand on its right. -/
lemma joint_eq (ops : List Operator) (operand : Rule Expr) (s : Source) :
    (operatorAhead? ops s.skipBlanks.chars = none ∧ joint ops operand s = .ok none s) ∨
      ∃ op ∈ ops, operatorAhead? ops s.skipBlanks.chars = some op ∧ joint ops operand s =
        (do blanks; lit op.symbol; blanks; let rhs ← operand; return some (op, rhs)) s := by
  cases h : operatorAhead? ops s.skipBlanks.chars with
  | none => exact .inl ⟨rfl, by simp only [joint, h]⟩
  | some op => exact .inr ⟨op, List.mem_of_find?_eq_some h, rfl, by simp only [joint, h]⟩

lemma shrinks_joint (h : Shrinks operand) : Shrinks (joint ops operand) := by
  intro s
  obtain ⟨-, hj⟩ | ⟨op, -, -, hj⟩ := joint_eq ops operand s
  · simp only [rest_of_ok hj, List.suffix_rfl]
  · rw [rest, hj]
    exact (shrinks_blanks.bind fun _ => (shrinks_lit _).bind fun _ => shrinks_blanks.bind fun _ =>
      h.bind fun _ => shrinks_pure _) s

lemma symbol_ne_nil (op : Operator) : op.symbol.toList ≠ [] := by
  cases op <;> decide

/-- With an operator at least its symbol is read. -/
lemma proceeds_joint (h : Shrinks operand) : Proceeds (joint ops operand) := by
  intro s a r hr
  obtain ⟨-, hj⟩ | ⟨op, -, -, hj⟩ := joint_eq ops operand s
  · rw [hj] at hr
    cases hr
  · rw [hj] at hr
    refine Advances.bind_right shrinks_blanks (fun _ => ?_) hr
    exact (advances_lit (symbol_ne_nil op)).bind_left fun _ => shrinks_blanks.bind fun _ =>
      h.bind fun _ => shrinks_pure _

lemma shrinks_joined (h : Shrinks operand) : Shrinks (joined ops operand) :=
  h.bind fun _ => (shrinks_joint h).collect.bind fun _ => shrinks_pure _

end Joined

lemma shrinks_product : Shrinks product := shrinks_joined shrinks_operand

lemma shrinks_sum : Shrinks sum := shrinks_joined shrinks_product

lemma shrinks_conjunction : Shrinks conjunction := shrinks_joined shrinks_sum

lemma shrinks_chain : Shrinks chain := shrinks_joined shrinks_conjunction

lemma shrinks_expr : Shrinks expr := by
  refine (shrinks_ahead _).bind fun _ => Shrinks.ite ?_ ?_
  · exact (shrinks_lit _).bind fun _ => shrinks_blanks.bind fun _ =>
      (shrinks_char _).bind fun _ => shrinks_pure _
  · refine shrinks_chain.bind fun _ => Shrinks.bind ?_ fun o => ?_
    · exact .attempt (shrinks_blanks.bind fun _ => shrinks_char _)
    · cases o with
      | none => exact shrinks_pure _
      | some _ => exact shrinks_blanks.bind fun _ => shrinks_chain.bind fun _ => shrinks_pure _

/-! ## Statements -/

lemma shrinks_comma : Shrinks comma :=
  shrinks_blanks.bind fun _ => (shrinks_char _).bind fun _ => shrinks_blanks

lemma advances_comma : Advances comma :=
  .bind_right shrinks_blanks fun _ => (advances_char _).bind_left fun _ => shrinks_blanks

lemma shrinks_parenthesized {α : Type} {item : Rule α} (h : Shrinks item) :
    Shrinks (parenthesized item) :=
  shrinks_blanks.bind fun _ => (shrinks_char _).bind fun _ => shrinks_blanks.bind fun _ =>
    (h.separated shrinks_comma).bind fun _ => shrinks_blanks.bind fun _ =>
      (shrinks_char _).bind fun _ => shrinks_pure _

lemma shrinks_semicolon : Shrinks semicolon := shrinks_blanks.bind fun _ => shrinks_char _

lemma shrinks_binding : Shrinks binding :=
  (shrinks_lit _).bind fun _ => (shrinks_several _).bind fun _ => shrinks_name.bind fun _ =>
    shrinks_blanks.bind fun _ => (shrinks_char _).bind fun _ => shrinks_blanks.bind fun _ =>
      shrinks_expr.bind fun _ => shrinks_semicolon.bind fun _ => shrinks_pure _

lemma shrinks_printing : Shrinks printing :=
  (shrinks_lit _).bind fun _ => shrinks_blanks.bind fun _ => shrinks_expr.bind fun _ =>
    shrinks_blanks.bind fun _ => (shrinks_char _).bind fun _ => shrinks_semicolon.bind fun _ =>
      shrinks_pure _

lemma shrinks_call : Shrinks call :=
  shrinks_name.bind fun _ => (shrinks_parenthesized shrinks_expr).bind fun _ =>
    shrinks_semicolon.bind fun _ => shrinks_pure _

section Branching

variable {block block' : Rule (List Stmt)} {n : ℕ}

/-- A branching statement up to the end of its first block: its condition and that block. -/
def opening (block : Rule (List Stmt)) : Rule (Expr × List Stmt) := do
  lit "if"
  blanks
  char '('
  blanks
  let cond ← expr
  blanks
  char ')'
  let onTrue ← block
  return (cond, onTrue)

/-- What may stand behind the first block of a branching statement. -/
def otherwise (block : Rule (List Stmt)) : Rule (List Stmt) := do
  blanks
  if ← ahead "else" then
    lit "else"
    block
  else return []

/-- A branching statement in two parts. -/
lemma branching_eq (block : Rule (List Stmt)) : branching block = (do
    let first ← opening block
    let onFalse ← otherwise block
    return .branch first.1 first.2 onFalse) := by
  simp only [branching, opening, otherwise, bind_assoc, pure_bind]
  refine bind_congr fun _ => bind_congr fun _ => bind_congr fun _ => bind_congr fun _ =>
    bind_congr fun _ => bind_congr fun _ => bind_congr fun _ => bind_congr fun _ =>
    bind_congr fun _ => bind_congr fun b => ?_
  cases b
  · rw [if_neg (by decide), if_neg (by decide), pure_bind]
  · rw [if_pos rfl, if_pos rfl, bind_assoc]

/-- What stands behind the first word of a branching statement. -/
lemma shrinks_opening_tail (h : Shrinks block) : Shrinks (do
    blanks
    char '('
    blanks
    let cond ← expr
    blanks
    char ')'
    let onTrue ← block
    return (cond, onTrue)) :=
  shrinks_blanks.bind fun _ => (shrinks_char _).bind fun _ => shrinks_blanks.bind fun _ =>
    shrinks_expr.bind fun _ => shrinks_blanks.bind fun _ => (shrinks_char _).bind fun _ =>
      h.bind fun _ => shrinks_pure _

lemma shrinks_opening (h : Shrinks block) : Shrinks (opening block) :=
  (shrinks_lit _).bind fun _ => shrinks_opening_tail h

lemma advances_opening (h : Shrinks block) : Advances (opening block) :=
  (advances_lit (by decide)).bind_left fun _ => shrinks_opening_tail h

lemma shrinks_otherwise (h : Shrinks block) : Shrinks (otherwise block) :=
  shrinks_blanks.bind fun _ => (shrinks_ahead _).bind fun _ =>
    Shrinks.ite ((shrinks_lit _).bind fun _ => h) (shrinks_pure _)

lemma shrinks_branching (h : Shrinks block) : Shrinks (branching block) := by
  rw [branching_eq]
  exact (shrinks_opening h).bind fun _ => (shrinks_otherwise h).bind fun _ => shrinks_pure _

lemma shrinks_statementWith (h : Shrinks block) : Shrinks (statementWith block) :=
  (shrinks_ahead _).bind fun _ => Shrinks.ite shrinks_binding <|
    (shrinks_ahead _).bind fun _ => (shrinks_ahead _).bind fun _ => Shrinks.ite (shrinks_branching h) <|
      (shrinks_ahead _).bind fun _ => Shrinks.ite shrinks_printing shrinks_call

lemma advances_branching (h : Shrinks block) : Advances (branching block) := by
  rw [branching_eq]
  exact (advances_opening h).bind_left fun _ => (shrinks_otherwise h).bind fun _ => shrinks_pure _

/-- Whatever it is, a statement has its first character. -/
lemma advances_statementWith (h : Shrinks block) : Advances (statementWith block) := by
  refine .bind_right (shrinks_ahead _) fun _ => Advances.ite ?_ <|
    .bind_right (shrinks_ahead _) fun _ => .bind_right (shrinks_ahead _) fun _ =>
      Advances.ite (advances_branching h) <|
        .bind_right (shrinks_ahead _) fun _ => Advances.ite ?_ ?_
  · exact (advances_lit (by decide)).bind_left fun _ =>
      (shrinks_several _).bind fun _ => shrinks_name.bind fun _ =>
        shrinks_blanks.bind fun _ => (shrinks_char _).bind fun _ => shrinks_blanks.bind fun _ =>
          shrinks_expr.bind fun _ => shrinks_semicolon.bind fun _ => shrinks_pure _
  · exact (advances_lit (by decide)).bind_left fun _ =>
      shrinks_blanks.bind fun _ => shrinks_expr.bind fun _ => shrinks_blanks.bind fun _ =>
        (shrinks_char _).bind fun _ => shrinks_semicolon.bind fun _ => shrinks_pure _
  · exact advances_name.bind_left fun _ => (shrinks_parenthesized shrinks_expr).bind fun _ =>
      shrinks_semicolon.bind fun _ => shrinks_pure _

end Branching

/-! ## Blocks -/

section Blocks

variable {item : Rule Stmt} {p q : Rule (List Stmt)} {n : ℕ}

lemma shrinks_blockItem (h : Shrinks item) : Shrinks (blockItem item) :=
  shrinks_blanks.bind fun _ => (shrinks_ahead _).bind fun _ =>
    Shrinks.ite ((shrinks_char _).bind fun _ => shrinks_pure _) <|
      shrinks_get.bind fun _ => Shrinks.ite shrinks_fail (h.map _)

lemma advances_blockItem (h : Advances item) : Advances (blockItem item) :=
  .bind_right shrinks_blanks fun _ => .bind_right (shrinks_ahead _) fun _ =>
    Advances.ite ((advances_char _).bind_left fun _ => shrinks_pure _) <|
      .bind_right shrinks_get fun _ =>
        Advances.ite (fun _ _ _ hfail => nomatch hfail) (h.map _)

/-- A block, given the rule for the blocks inside. -/
def blockWith (block : Rule (List Stmt)) : Rule (List Stmt) := do
  blanks
  char '\x7b'
  collect (blockItem (statementWith block))

lemma shrinks_blockWith (h : Shrinks p) : Shrinks (blockWith p) :=
  shrinks_blanks.bind fun _ => (shrinks_char _).bind fun _ =>
    (shrinks_blockItem (shrinks_statementWith h)).collect

lemma shrinks_block : Shrinks block := Shrinks.nested fun _ h => shrinks_blockWith h

lemma shrinks_statement : Shrinks statement := shrinks_statementWith shrinks_block

lemma advances_statement : Advances statement := advances_statementWith shrinks_block

lemma eqBelow_otherwise (h : EqBelow n p q) : EqBelow n (otherwise p) (otherwise q) :=
  .after shrinks_blanks fun _ =>
    .after (shrinks_ahead _) fun _ =>
      .ite (.after (shrinks_lit _) fun _ => h) (.refl n _)

lemma eqBelow_opening (h : EqBelow n p q) (hp : Shrinks p) : EqBelow n (opening p) (opening q) := by
  exact .after (shrinks_lit _) fun _ => .after shrinks_blanks fun _ => .after (shrinks_char _) fun _ =>
    .after shrinks_blanks fun _ => .after shrinks_expr fun _ => .after shrinks_blanks fun _ =>
      .after (shrinks_char _) fun _ => h.bind hp fun _ => .refl n _

lemma eqBelow_branching (h : EqBelow n p q) (hp : Shrinks p) :
    EqBelow n (branching p) (branching q) := by
  rw [branching_eq, branching_eq]
  exact (eqBelow_opening h hp).bind (shrinks_opening hp) fun _ =>
    (eqBelow_otherwise h).bind (shrinks_otherwise hp) fun _ => .refl n _

lemma eqBelow_statementWith (h : EqBelow n p q) (hp : Shrinks p) :
    EqBelow n (statementWith p) (statementWith q) :=
  .after (shrinks_ahead _) fun _ => .ite (.refl n _) <|
    .after (shrinks_ahead _) fun _ =>
      .after (shrinks_ahead _) fun _ => .ite (eqBelow_branching h hp) (.refl n _)

lemma eqBelow_blockItem {item' : Rule Stmt} (h : EqBelow n item item') :
    EqBelow n (blockItem item) (blockItem item') :=
  .after shrinks_blanks fun _ =>
    .after (shrinks_ahead _) fun _ => .ite (.refl n _) <|
      .after shrinks_get fun _ => .ite (.refl n _) (h.map _)

/-- The blocks inside a block stand behind its opening brace. -/
lemma blockWith_congr {s : Source} (hp : Shrinks p) (h : EqBelow s.left p q) :
    blockWith p s = blockWith q s := by
  have hbrace : Advances (do blanks; char '\x7b') :=
    .bind_right shrinks_blanks fun _ => advances_char _
  have hparts : ∀ block, blockWith block =
      (do blanks; char '\x7b') >>= fun _ => collect (blockItem (statementWith block)) := by
    intro block
    rw [blockWith, bind_assoc]
  rw [hparts, hparts]
  exact bind_congr_of_advances hbrace fun _ =>
    (eqBelow_blockItem (eqBelow_statementWith h hp)).collect

/-- A block is its own definition with itself inside. -/
lemma block_eq : block = blockWith block :=
  nested_eq (fun _ h => shrinks_blockWith h) fun _ _ _ hp h => blockWith_congr hp h

end Blocks

/-! ## The end of reading -/

/-- The levels of operators in a chain, each with what it joins. -/
def levels : List (List Operator × Rule Expr) :=
  [([.mul, .div], operand), ([.add, .sub], product), ([.and], sum), ([.or], conjunction)]

/-- Reading a program comes to an end: every loop does on every text, without a guard, and collects
what the rule collects; a block is its own definition with itself inside, and there it is only used
for what is shorter. -/
structure Halts : Prop where
  /-- The characters of a text. -/
  characters : ∀ s, Rounds Literal.textItem s (Literal.textBody s)
  /-- The operators of a level. -/
  operators : ∀ level ∈ levels, ∀ s,
    Rounds (joint level.1 level.2) s (collect (joint level.1 level.2) s)
  /-- The arguments of a call. -/
  arguments : ∀ s, Rounds (attempt (do comma; expr)) s (collect (attempt (do comma; expr)) s)
  /-- The parameters of a function. -/
  parameters : ∀ s, Rounds (attempt (do comma; name)) s (collect (attempt (do comma; name)) s)
  /-- The statements of a block. -/
  statements : ∀ s, Rounds (blockItem statement) s (collect (blockItem statement) s)
  /-- The rule for blocks contains itself. -/
  recursive : block = blockWith block
  /-- It uses itself for shorter texts only. -/
  shorter : ∀ s p, Shrinks p → EqBelow s.left block p → blockWith block s = blockWith p s

lemma shrinks_of_mem_levels {level : List Operator × Rule Expr} (h : level ∈ levels) :
    Shrinks level.2 := by
  simp only [levels, List.mem_cons, List.not_mem_nil, or_false] at h
  obtain rfl | rfl | rfl | rfl := h
  · exact shrinks_operand
  · exact shrinks_product
  · exact shrinks_sum
  · exact shrinks_conjunction

/-- **Reading a program comes to an end on every text.** -/
theorem halts : Halts where
  characters := rounds_collect Literal.advances_textItem.proceeds
  operators _ hl := rounds_collect (proceeds_joint (shrinks_of_mem_levels hl))
  arguments := rounds_collect (advances_comma.bind_left fun _ => shrinks_expr).attempt
  parameters := rounds_collect (advances_comma.bind_left fun _ => shrinks_name).attempt
  statements := rounds_collect (advances_blockItem advances_statement).proceeds
  recursive := block_eq
  shorter _ _ _ h := blockWith_congr shrinks_block h

/-! ## Functions -/

lemma shrinks_function : Shrinks function :=
  (shrinks_lit _).bind fun _ => (shrinks_several _).bind fun _ => shrinks_name.bind fun _ =>
    (shrinks_parenthesized shrinks_name).bind fun _ => shrinks_block.bind fun _ => shrinks_pure _

lemma advances_function : Advances function :=
  (advances_lit (by decide)).bind_left fun _ => (shrinks_several _).bind fun _ =>
    shrinks_name.bind fun _ => (shrinks_parenthesized shrinks_name).bind fun _ =>
      shrinks_block.bind fun _ => shrinks_pure _

end Grammar

end FlowSketch
