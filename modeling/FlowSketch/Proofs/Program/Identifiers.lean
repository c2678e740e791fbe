/-
# Chains of names are read as precedence trees

A name begins with a letter or a low line, and letters, numerals and low lines may follow.  No
blank is a letter, so a name is an operand wherever it stands, and a chain of names is read as
the one tree that has its leaves and operators in order and its tighter operators further down.

Main statement: `expr_of_names`.
-/
import FlowSketch.Proofs.Program.Expressions
import FlowSketch.Proofs.Program.Trees

namespace FlowSketch

/-! ## Blanks are no letters -/

namespace Text

/-- The ranges of the blanks beyond ASCII. -/
def farBlanks : List (ℕ × ℕ) :=
  [(0x85, 0x85), (0xA0, 0xA0), (0x1680, 0x1680), (0x2000, 0x200A), (0x2028, 0x2029),
    (0x202F, 0x202F), (0x205F, 0x205F), (0x3000, 0x3000)]

lemma farBlanks_apart_letters : (letters.ranges.toList.all fun r =>
    farBlanks.all fun b => b.2 < r.1 || r.2 < b.1) = true := by
  decide +kernel

lemma exists_farBlank {c : Char} (h : isBlank c = true) (hc : 128 ≤ c.toNat) :
    ∃ b ∈ farBlanks, b.1 ≤ c.toNat ∧ c.toNat ≤ b.2 := by
  simp only [isBlank, Bool.or_eq_true, Bool.and_eq_true, decide_eq_true_eq, beq_iff_eq] at h
  simp only [farBlanks, List.mem_cons, List.not_mem_nil, or_false, exists_eq_or_imp,
    exists_eq_left]
  omega

lemma isLetter_of_isBlank {c : Char} (h : isBlank c = true) : isLetter c = false := by
  unfold isLetter
  split
  · rename_i hc
    cases ha : c.isAlpha with
    | false => rfl
    | true =>
      rw [Grammar.isBlank_of_isAlpha ha] at h
      cases h
  · rename_i hc
    obtain ⟨b, hb, hlow, hhigh⟩ := exists_farBlank h (by omega)
    rw [Bool.eq_false_iff, ne_eq, CharSet.contains_eq_true_iff]
    rintro ⟨r, hr, hle⟩
    have hapart := List.all_eq_true.mp
      (List.all_eq_true.mp farBlanks_apart_letters r (Array.mem_toList_iff.mpr hr)) b hb
    simp only [Bool.or_eq_true, decide_eq_true_eq] at hapart
    omega

/-- No name begins with a blank. -/
lemma isBlank_of_isNameStart {c : Char} (h : isNameStart c = true) : isBlank c = false := by
  cases hb : isBlank c with
  | false => rfl
  | true =>
    have hline : (c == '_') = false := Rule.beq_of_class hb (by decide)
    rw [isNameStart, isLetter_of_isBlank hb, hline] at h
    cases h

end Text

namespace Grammar

open FlowSketch.Text (Source isNameStart isNameRest)
open FlowSketch.Text.Rule

/-! ## Names -/

/-- A name as the grammar has it. -/
structure Identifier where
  /-- The first character. -/
  first : Char
  /-- The characters behind the first one. -/
  rest : List Char
  isNameStart_first : isNameStart first = true
  isNameRest_rest : ∀ c ∈ rest, isNameRest c = true

namespace Identifier

/-- The characters of a name. -/
def chars (x : Identifier) : List Char := x.first :: x.rest

/-- The name itself. -/
def name (x : Identifier) : String := String.ofList x.chars

lemma isNameRest_of_mem (x : Identifier) {c : Char} (hc : c ∈ x.chars) : isNameRest c = true := by
  rcases List.mem_cons.mp hc with rfl | hc
  · exact Text.isNameRest_of_isNameStart x.isNameStart_first
  · exact x.isNameRest_rest c hc

/-- A name is an operand. -/
def piece (x : Identifier) : Piece where
  chars := x.chars
  expr := .name x.name
  trimStart_append _ :=
    Text.trimStart_cons_of_not_blank (Text.isBlank_of_isNameStart x.isNameStart_first)
  read t ht := by
    have hquote : ∀ d ∈ (x.chars ++ t).head?, (d == '"') = false := fun d hd => by
      rw [← Option.mem_some_iff.mp hd]
      exact beq_of_class x.isNameStart_first (by decide)
    rw [operand_of_not_text hquote]
    exact orElse_of_ok (map_of_ok _
      (name_append x.isNameStart_first x.isNameRest_rest fun c hc => (ht c hc).1))

/-- A name is no keyword with a parenthesis, unless a character of that follows it. -/
lemma not_prefix (x : Identifier) {l r : List Char} (hl : '(' ∈ l) (hr : ∀ c ∈ r.head?, c ∉ l) :
    ¬ l <+: x.chars ++ r := by
  have hmark : '(' ∉ x.chars := fun h => absurd (x.isNameRest_of_mem h) (by decide)
  intro h
  obtain ⟨t, ht⟩ := h
  rcases List.append_eq_append_iff.mp ht with ⟨cs, hcs, -⟩ | ⟨cs, rfl, hcs⟩
  · exact hmark (hcs ▸ List.mem_append_left _ hl)
  · have hl' : '(' ∈ cs := (List.mem_append.mp hl).resolve_left hmark
    cases cs with
    | nil => cases hl'
    | cons c cs =>
      rw [hcs] at hr
      exact hr c rfl (by simp)

end Identifier

/-! ## Chains of names -/

/-- A chain of names as it is written, with single spaces. -/
def spell (c : Chain Identifier) : List Char :=
  c.first.chars ++ c.rest.flatMap fun r => ' ' :: r.1.symbol.toList ++ ' ' :: r.2.chars

/-- The one tree with the names and operators of a chain in order, below each of whose operators
stand tighter ones on the right and ones at least as tight on the left. -/
structure IsTreeOf (c : Chain Identifier) (e : Expr) : Prop where
  inOrder_eq : e.inOrder = c.map fun x => .name x.name
  nested : e.Nested
  unique (e' : Expr) : (e'.inOrder = c.map fun x => .name x.name) → e'.Nested → e' = e

lemma spell_eq (c : Chain Identifier) : spell c = chainChars (c.map Identifier.piece) :=
  (chainChars_map Identifier.piece c).symm

lemma operators_map {α β : Type} (f : α → β) (c : Chain α) : (c.map f).operators = c.operators := by
  simp [Chain.operators, Chain.map]

/-- The expression for which a chain of names stands is its tree. -/
lemma isTreeOf_expr {c : Chain Identifier} (hc : ∀ op ∈ c.operators, op ∈ Operator.connectives) :
    IsTreeOf c (c.map fun x => Expr.name x.name).expr := by
  have hleaf : ∀ e ∈ (c.map fun x => Expr.name x.name).operands, e.root? = none := by
    intro e he
    simp only [Chain.operands, Chain.map, List.mem_cons, List.map_map, List.mem_map,
      Function.comp_apply] at he
    rcases he with rfl | ⟨r, -, rfl⟩ <;> rfl
  obtain ⟨hnested, horder⟩ := Chain.nested_expr (by rwa [operators_map]) hleaf
  exact ⟨horder, hnested, fun e' he' hn => hn.unique hnested (he'.trans horder.symm)⟩

/-- A chain of names does not begin like a line of input, whatever follows that is no part of
one. -/
lemma not_input_prefix (c : Chain Identifier) {t : List Char}
    (ht : ∀ d ∈ t.head?, d ∉ "input(".toList) : ¬ "input(".toList <+: spell c ++ t := by
  rw [spell, List.append_assoc]
  refine c.first.not_prefix (by decide) fun d hd => ?_
  cases hrest : c.rest with
  | nil =>
    rw [hrest] at hd
    exact ht d hd
  | cons r rest =>
    rw [hrest] at hd
    rw [← Option.mem_some_iff.mp hd]
    decide

/-- **A chain of names is read as its precedence tree, up to the mark that follows it, and two
chains with a sign between them as the comparison of their trees.** -/
theorem expr_of_names {c d : Chain Identifier}
    (hc : ∀ op ∈ c.operators, op ∈ Operator.connectives)
    (hd : ∀ op ∈ d.operators, op ∈ Operator.connectives) {mark : Char}
    (hmark : mark = ')' ∨ mark = ';') (t : List Char) :
    ∃ e e', IsTreeOf c e ∧ IsTreeOf d e' ∧
      expr (.of (spell c ++ mark :: t)) = .ok e (.of (mark :: t)) ∧
      expr (.of (spell c ++ (" > ".toList ++ (spell d ++ mark :: t)))) =
        .ok (.binary .greater e e') (.of (mark :: t)) := by
  have hcloses : Closes (mark :: t) := closes_cons (by tauto) t
  have hexpr : ∀ c : Chain Identifier, (c.map Identifier.piece).map Piece.expr =
      c.map fun x => Expr.name x.name := fun c => by
    simp [Chain.map, Identifier.piece]
  have hc' : ∀ op ∈ (c.map Identifier.piece).operators, op ∈ Operator.connectives := by
    rwa [operators_map]
  have hd' : ∀ op ∈ (d.map Identifier.piece).operators, op ∈ Operator.connectives := by
    rwa [operators_map]
  refine ⟨_, _, isTreeOf_expr hc, isTreeOf_expr hd, ?_, ?_⟩
  · have hinput := not_input_prefix c (t := mark :: t) fun e he => by
      rw [← Option.mem_some_iff.mp he]
      rcases hmark with rfl | rfl <;> decide
    rw [spell_eq] at hinput ⊢
    rw [expr_chainChars hc' hcloses.toEnds hinput hcloses.greater, hexpr]
  · have hinput := not_input_prefix c (t := " > ".toList ++ (spell d ++ mark :: t)) fun e he => by
      rw [← Option.mem_some_iff.mp he]
      decide
    rw [spell_eq, spell_eq] at hinput ⊢
    rw [expr_comparison hc' hd' hcloses.toEnds hinput, hexpr, hexpr]

/-- The chains `a + b2 * _c - d` and `a`, closed by a semicolon. -/
theorem expr_of_names_mixed :
    ∃ c d : Chain Identifier, (∀ op ∈ c.operators, op ∈ Operator.connectives) ∧
      (∀ op ∈ d.operators, op ∈ Operator.connectives) ∧
      spell c = "a + b2 * _c - d".toList ∧ spell d = "a".toList ∧
      ∃ e e', IsTreeOf c e ∧ IsTreeOf d e' ∧
        expr (.of (spell c ++ [';'])) = .ok e (.of [';']) ∧
        expr (.of (spell c ++ (" > ".toList ++ (spell d ++ [';'])))) =
          .ok (.binary .greater e e') (.of [';']) := by
  let a : Identifier := ⟨'a', [], by decide, List.forall_mem_nil _⟩
  let b : Identifier := ⟨'b', ['2'], by decide, List.forall_mem_singleton.mpr (by decide)⟩
  let c : Identifier := ⟨'_', ['c'], by decide, List.forall_mem_singleton.mpr (by decide)⟩
  let d : Identifier := ⟨'d', [], by decide, List.forall_mem_nil _⟩
  let abcd : Chain Identifier := ⟨a, [(.add, b), (.mul, c), (.sub, d)]⟩
  have hlong : ∀ op ∈ abcd.operators, op ∈ Operator.connectives := by decide
  have hshort : ∀ op ∈ (⟨a, []⟩ : Chain Identifier).operators, op ∈ Operator.connectives := by
    decide
  exact ⟨abcd, ⟨a, []⟩, hlong, hshort, by decide, by decide,
    expr_of_names hlong hshort (.inr rfl) []⟩

end Grammar

end FlowSketch
