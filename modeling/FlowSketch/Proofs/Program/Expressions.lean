/-
# Expressions are read back

Names, finite numbers and texts are pieces of a chain: each is read as the operand it stands
for, because a name begins with a letter, a number with a digit or a minus, and a text with a
quote.  A right side is a chain of such pieces or a line of input.

Main statement: `expr_valueChars`, that the text of a value is read as the expression of the
value.
-/
import FlowSketch.Program.Listing
import FlowSketch.Proofs.Decimal.RoundTrip
import FlowSketch.Proofs.Program.Names
import FlowSketch.Proofs.Program.Precedence

namespace FlowSketch

open FlowSketch.Text (Rule Source isNameStart isNameRest isBlank trimStart)
open FlowSketch.Text.Rule

namespace Decimal

/-- A written number begins with a digit or with a minus. -/
lemma exists_cons_writeUnsignedZero {x : Float} (hx : x.isFinite = true) :
    ∃ c cs, (writeUnsignedZero x).toList = c :: cs ∧ (c.isDigit = true ∨ c = '-') := by
  unfold writeUnsignedZero
  cases h0 : x == 0 with
  | true => exact ⟨'0', [], by rw [if_pos rfl]; rfl, .inl rfl⟩
  | false =>
    have hmagnitude : magnitude x ≠ 0 := fun h => by
      rw [beq_zero_of_magnitude h] at h0
      cases h0
    obtain ⟨whole, fraction, htext, hne, hwhole, -⟩ :=
      exists_pointed (shortest (Binary.ofMagnitude (magnitude x)))
    obtain ⟨c, cs, rfl⟩ := List.exists_cons_of_ne_nil hne
    rw [if_neg (by decide), toList_write hx hmagnitude, htext]
    by_cases hsign : 2 ^ 63 ≤ x.toBits.toNat
    · rw [if_pos (decide_eq_true hsign)]
      exact ⟨'-', _, rfl, .inr rfl⟩
    · rw [if_neg (by simpa using hsign)]
      unfold pointed
      split
      · exact ⟨c, cs, rfl, .inl (hwhole c (by simp))⟩
      · exact ⟨c, _, rfl, .inl (hwhole c (by simp))⟩

end Decimal

namespace Grammar

/-! ## What begins an operand -/

/-- The first character of a text decides whether it begins like another one. -/
lemma not_prefix_of_head {c : Char} {l s : List Char} (h : ∀ d ∈ s.head?, (d == c) = false) :
    ¬ (c :: l) <+: s := by
  intro hl
  obtain ⟨u, rfl⟩ := hl
  have := h c rfl
  rw [beq_self_eq_true] at this
  cases this

lemma trimStart_of_head {s : List Char} (h : ∀ d ∈ s.head?, isBlank d = false) :
    trimStart s = s := by
  cases s with
  | nil => rfl
  | cons c s => exact Text.trimStart_cons_of_not_blank (h c rfl)

lemma isNumeral_of_isDigit {c : Char} (h : c.isDigit = true) : Text.isNumeral c = true := by
  have hc : 48 ≤ c.toNat ∧ c.toNat ≤ 57 := by
    simpa [Char.isDigit, UInt32.le_iff_toNat_le] using h
  unfold Text.isNumeral
  rw [if_pos (by omega), h]

/-- What cannot belong to a name cannot belong to a number either. -/
lemma isDigit_of_isNameRest {c : Char} (h : isNameRest c = false) : c.isDigit = false := by
  cases hd : c.isDigit with
  | false => rfl
  | true =>
    unfold isNameRest at h
    rw [isNumeral_of_isDigit hd, Bool.or_true, Bool.true_or] at h
    cases h

/-! ## The pieces -/

lemma toNat_of_isAlpha {c : Char} (h : c.isAlpha = true) : 65 ≤ c.toNat ∧ c.toNat ≤ 122 := by
  rcases Bool.or_eq_true_iff.mp h with hu | hl
  · obtain ⟨ha, hz⟩ := of_decide_eq_true hu
    exact ⟨UInt32.le_iff_toNat_le.mp ha, (UInt32.le_iff_toNat_le.mp hz).trans (by decide)⟩
  · obtain ⟨ha, hz⟩ := Bool.and_eq_true_iff.mp hl
    exact ⟨le_trans (by decide) (UInt32.le_iff_toNat_le.mp (of_decide_eq_true ha)),
      UInt32.le_iff_toNat_le.mp (of_decide_eq_true hz)⟩

/-- The visible characters of ASCII are no blanks. -/
lemma isBlank_of_visible {c : Char} (h : 33 ≤ c.toNat) (h' : c.toNat ≤ 126) :
    isBlank c = false := by
  simp only [isBlank, Bool.or_eq_false_iff, Bool.and_eq_false_iff, decide_eq_false_iff_not,
    beq_eq_false_iff_ne]
  omega

lemma isBlank_of_isAlpha {c : Char} (h : c.isAlpha = true) : isBlank c = false := by
  obtain ⟨ha, hz⟩ := toNat_of_isAlpha h
  exact isBlank_of_visible (by omega) (by omega)

/-- The first character of a number is no blank, no quote and not the first of a name. -/
lemma apart_of_isDigit_or_minus {c : Char} (h : c.isDigit = true ∨ c = '-') :
    isBlank c = false ∧ (c == '"') = false ∧ isNameStart c = false := by
  rcases h with h | rfl
  · have hc : 48 ≤ c.toNat ∧ c.toNat ≤ 57 := by
      simpa [Char.isDigit, UInt32.le_iff_toNat_le] using h
    refine ⟨isBlank_of_visible (by omega) (by omega), beq_of_class h (by decide), ?_⟩
    have halpha : c.isAlpha = false := by
      cases ha : c.isAlpha with
      | false => rfl
      | true =>
        have := toNat_of_isAlpha ha
        omega
    have hline : (c == '_') = false := beq_of_class h (by decide)
    unfold isNameStart Text.isLetter
    rw [if_pos (by omega), halpha, hline]
    rfl
  · decide

lemma operand_of_not_text {s : List Char} (h : ∀ d ∈ s.head?, (d == '"') = false) :
    operand (.of s) = orElse (.name <$> name) (.number <$> number) (.of s) := by
  unfold operand
  exact orElse_of_error (map_of_error _ (map_of_error _ (bind_of_error _ (char_of_not h))))

/-- A name as an operand. -/
def namePiece (id : NodeId) : Piece where
  chars := id.nameChars
  expr := .name id.name
  trimStart_append t :=
    trimStart_of_head fun _ hd => isBlank_of_isAlpha (NodeId.isAlpha_of_mem_head? hd)
  read t ht := by
    rw [operand_of_not_text fun d hd => beq_of_class (NodeId.isAlpha_of_mem_head? hd) (by decide)]
    exact orElse_of_ok (map_of_ok _ (name_nameChars id fun c hc => (ht c hc).1))

/-- A text as an operand. -/
def textPiece (s : String) : Piece where
  chars := Literal.quote s.toList
  expr := .text s
  trimStart_append t := rfl
  read t _ := by
    have htext : text (.of (Literal.quote s.toList ++ t)) = .ok s (.of t) := by
      have := map_of_ok String.ofList (Literal.readText_quote s.toList t)
      rwa [String.ofList_toList] at this
    exact orElse_of_ok (map_of_ok _ htext)

/-- A finite number as an operand. -/
def numberPiece (x : Float) (hx : x.isFinite = true) : Piece where
  chars := (Decimal.writeUnsignedZero x).toList
  expr := .number (if x == 0 then 0 else x)
  trimStart_append t := by
    obtain ⟨c, cs, hcs, hc⟩ := Decimal.exists_cons_writeUnsignedZero hx
    rw [hcs]
    exact Text.trimStart_cons_of_not_blank (apart_of_isDigit_or_minus hc).1
  read t ht := by
    obtain ⟨c, cs, hcs, hc⟩ := Decimal.exists_cons_writeUnsignedZero hx
    obtain ⟨-, hquote, hstart⟩ := apart_of_isDigit_or_minus hc
    have hhead : ∀ d ∈ ((Decimal.writeUnsignedZero x).toList ++ t).head?, d = c := by
      intro d hd
      rw [hcs] at hd
      exact (Option.mem_some_iff.mp hd).symm
    have hname : name (.of ((Decimal.writeUnsignedZero x).toList ++ t)) =
        .error () (.of ((Decimal.writeUnsignedZero x).toList ++ t)) :=
      bind_of_error _ (one_of_not fun d hd => hhead d hd ▸ hstart)
    rw [operand_of_not_text fun d hd => hhead d hd ▸ hquote,
      orElse_of_error (map_of_error _ hname)]
    exact map_of_ok _ (Decimal.number_writeUnsignedZero hx
      (fun d hd => isDigit_of_isNameRest (ht d hd).1) fun d hd => (ht d hd).2)

/-! ## Expressions -/

/-- A chain is a whole expression if no comparison follows. -/
lemma expr_chainChars {c : Chain Piece} {t : List Char}
    (hc : ∀ op ∈ c.operators, op ∈ Operator.connectives) (ht : Ends t)
    (hinput : ¬ "input(".toList <+: chainChars c ++ t)
    (hgreater : ∀ d ∈ (trimStart t).head?, (d == '>') = false) :
    expr (.of (chainChars c ++ t)) = .ok (c.map Piece.expr).expr (.of t) := by
  have hsign : attempt (do blanks; char '>') (.of t) = .ok none (.of t) :=
    attempt_of_error ((bind_of_ok _ (blanks_apply t)).trans (char_of_not hgreater))
  unfold expr
  rw [bind_of_ok _ (ahead_of_not_starts hinput), if_neg (by decide),
    bind_of_ok _ (chain_chainChars hc ht), bind_of_ok _ hsign]
  rfl

/-- Two chains with a sign between them are a comparison. -/
lemma expr_comparison {c d : Chain Piece} {t : List Char}
    (hc : ∀ op ∈ c.operators, op ∈ Operator.connectives)
    (hd : ∀ op ∈ d.operators, op ∈ Operator.connectives) (ht : Ends t)
    (hinput : ¬ "input(".toList <+: chainChars c ++ (" > ".toList ++ (chainChars d ++ t))) :
    expr (.of (chainChars c ++ (" > ".toList ++ (chainChars d ++ t)))) =
      .ok (.binary .greater (c.map Piece.expr).expr (d.map Piece.expr).expr) (.of t) := by
  have hends : Ends (" > ".toList ++ (chainChars d ++ t)) := by
    constructor
    · intro c hc
      rw [← Option.mem_some_iff.mp hc]
      decide
    · intro op hop
      cases op <;> first | rfl | exact absurd hop (by decide)
  have hsign : attempt (do blanks; char '>') (.of (" > ".toList ++ (chainChars d ++ t))) =
      .ok (some ()) (.of (' ' :: (chainChars d ++ t))) :=
    attempt_of_ok ((bind_of_ok _ (blanks_apply _)).trans (char_cons_self '>' _))
  have hblank : trimStart (' ' :: (chainChars d ++ t)) = chainChars d ++ t := by
    rw [Text.trimStart_cons_of_blank rfl, trimStart_chainChars]
  unfold expr
  rw [bind_of_ok _ (ahead_of_not_starts hinput), if_neg (by decide),
    bind_of_ok _ (chain_chainChars hc hends), bind_of_ok _ hsign]
  dsimp only
  rw [bind_of_ok _ (blanks_apply _), hblank, bind_of_ok _ (chain_chainChars hd ht)]
  rfl

/-- What may follow an expression: neither a connective nor a comparison. -/
structure Closes (t : List Char) : Prop extends Ends t where
  greater : ∀ c ∈ (trimStart t).head?, (c == '>') = false

/-- Closing marks follow expressions. -/
lemma closes_cons {c : Char} (h : c = ')' ∨ c = ',' ∨ c = ';') (t : List Char) :
    Closes (c :: t) := by
  have hblank : trimStart (c :: t) = c :: t := by
    apply Text.trimStart_cons_of_not_blank
    rcases h with rfl | rfl | rfl <;> rfl
  refine ⟨⟨fun d hd => ?_, fun op hop => ?_⟩, fun d hd => ?_⟩
  · rw [← Option.mem_some_iff.mp hd]
    rcases h with rfl | rfl | rfl <;> decide
  · rw [hblank]
    rcases h with rfl | rfl | rfl <;> cases op <;> rfl
  · rw [hblank] at hd
    rw [← Option.mem_some_iff.mp hd]
    rcases h with rfl | rfl | rfl <;> decide

/-- A single piece is read as an expression. -/
lemma expr_piece {p : Piece} {t : List Char} (ht : Closes t)
    (hinput : ¬ "input(".toList <+: p.chars ++ t) :
    expr (.of (p.chars ++ t)) = .ok p.expr (.of t) := by
  have hchars : chainChars ⟨p, []⟩ = p.chars := by
    rw [chainChars, restChars, List.append_nil]
  have hread := expr_chainChars (c := ⟨p, []⟩) (by simp [Chain.operators]) ht.toEnds
    (by rwa [hchars]) ht.greater
  rwa [hchars] at hread

lemma expr_nameChars (id : NodeId) {t : List Char} (ht : Closes t) :
    expr (.of (id.nameChars ++ t)) = .ok (.name id.name) (.of t) :=
  expr_piece (p := namePiece id) ht (id.not_prefix_nameChars (by decide) t)

end Grammar

namespace Listing

/-! ## Values -/

/-- What the grammar reads back: numbers are finite, and operands are joined by connectives. -/
def Value.Readable : Value → Prop
  | .number x => x.isFinite = true
  | .chain c => ∀ op ∈ c.operators, op ∈ Operator.connectives
  | .text _ => True
  | .input => True

/-- The expression of a finite number is that number; of the two zeros it is the positive one. -/
lemma Value.expr_number {x : Float} (hx : (Value.number x).Readable) :
    ∃ y, (Value.number x).expr = .number y ∧ (y == x) = true := by
  refine ⟨_, rfl, ?_⟩
  split
  · rename_i hzero
    exact Decimal.zero_beq_of_beq_zero hzero
  · exact Decimal.beq_self_of_isFinite hx

lemma chars_chain (c : Chain NodeId) :
    (Value.chain c).chars = Grammar.chainChars (c.map Grammar.namePiece) :=
  (Grammar.chainChars_map Grammar.namePiece c).symm

/-- The text of a value does not begin with a blank. -/
lemma trimStart_valueChars {v : Value} (hv : v.Readable) (t : List Char) :
    trimStart (v.chars ++ t) = v.chars ++ t := by
  cases v with
  | number x => exact (Grammar.numberPiece x hv).trimStart_append t
  | text s => exact (Grammar.textPiece s).trimStart_append t
  | chain c =>
    rw [chars_chain]
    exact Grammar.trimStart_chainChars _ t
  | input => rfl

/-- **The text of a value is read as its expression.** -/
lemma expr_valueChars {v : Value} (hv : v.Readable) {t : List Char} (ht : Grammar.Closes t) :
    Grammar.expr (.of (v.chars ++ t)) = .ok v.expr (.of t) := by
  cases v with
  | number x =>
    refine Grammar.expr_piece (p := Grammar.numberPiece x hv) ht ?_
    obtain ⟨c, cs, hcs, hc⟩ := Decimal.exists_cons_writeUnsignedZero hv
    refine Grammar.not_prefix_of_head fun d hd => ?_
    change d ∈ ((Decimal.writeUnsignedZero x).toList ++ t).head? at hd
    rw [hcs, List.cons_append, List.head?_cons, Option.mem_some_iff] at hd
    rw [← hd]
    rcases hc with hc | rfl
    · exact beq_of_class hc (by decide)
    · decide
  | text s =>
    refine Grammar.expr_piece (p := Grammar.textPiece s) ht ?_
    refine Grammar.not_prefix_of_head fun d hd => ?_
    rw [← Option.mem_some_iff.mp hd]
    decide
  | chain c =>
    have hoperators : (c.map Grammar.namePiece).operators = c.operators := by
      simp [Chain.operators, Chain.map]
    have hexpr : (c.map Grammar.namePiece).map Grammar.Piece.expr =
        c.map fun id => Expr.name id.name := by
      simp [Chain.map, Grammar.namePiece]
    rw [chars_chain, Grammar.expr_chainChars (by rwa [hoperators]) ht.toEnds ?_ ht.greater, hexpr]
    · rfl
    · rw [Grammar.chainChars, List.append_assoc]
      exact c.first.not_prefix_nameChars (by decide) _
  | input =>
    have htext : Value.input.chars ++ t = "input(".toList ++ (')' :: t) := rfl
    have hblank : trimStart (')' :: t) = ')' :: t := Text.trimStart_cons_of_not_blank rfl
    unfold Grammar.expr
    rw [htext, bind_of_ok _ (ahead_of_starts (List.prefix_append _ _)), if_pos rfl,
      bind_of_ok _ (lit_append _ _), bind_of_ok _ (blanks_apply _), hblank,
      bind_of_ok _ (char_cons_self _ _)]
    rfl

end Listing

end FlowSketch
