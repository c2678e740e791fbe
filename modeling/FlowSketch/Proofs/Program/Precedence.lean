/-
# Reading chains of operators

The grammar has a rule for each degree of tightness, and a chain is contracted once for each
degree.  The two go together: the rule of a degree reads a chain up to the first operator that
is looser, and has then built the first operand of the chain contracted down to that degree;
what is left is the text of a shorter chain, whose contraction is the rest of the contracted
chain.

The operands are pieces of text, each with the expression as which it is read.  Main statement:
`chain_chainChars`, that a chain of pieces is read as the expression it stands for.
-/
import FlowSketch.Program.Chain
import FlowSketch.Program.Grammar
import FlowSketch.Proofs.Text.Rule

namespace FlowSketch.Grammar

open FlowSketch.Text (Rule Source isNameRest isBlank trimStart)
open FlowSketch.Text.Rule

/-! ## Pieces -/

/-- What may follow an operand: nothing that could belong to a name or to a number. -/
def Stops (t : List Char) : Prop := ∀ c ∈ t.head?, isNameRest c = false ∧ (c == '.') = false

/-- What may follow a chain: besides, no connective behind the blanks. -/
structure Ends (t : List Char) : Prop where
  stops : Stops t
  connective : ∀ op ∈ Operator.connectives, op.symbol.toList.isPrefixOf (trimStart t) = false

/-- A written operand with what it is read as. -/
structure Piece where
  /-- The text. -/
  chars : List Char
  /-- The expression. -/
  expr : Expr
  /-- The text does not begin with a blank. -/
  trimStart_append : ∀ t, trimStart (chars ++ t) = chars ++ t
  /-- The text is read as the expression. -/
  read : ∀ t, Stops t → operand (.of (chars ++ t)) = .ok expr (.of t)

/-- An operator between blanks and what follows it. -/
def linkChars (op : Operator) (u : List Char) : List Char := ' ' :: (op.symbol.toList ++ ' ' :: u)

/-- The text behind the first operand of a chain. -/
def restChars : List (Operator × Piece) → List Char
  | [] => []
  | (op, p) :: rest => linkChars op (p.chars ++ restChars rest)

/-- The text of a chain. -/
def chainChars (c : Chain Piece) : List Char := c.first.chars ++ restChars c.rest

/-- The text of a chain of items, each of which is written as a piece. -/
lemma chainChars_map {α : Type} (f : α → Piece) (c : Chain α) : chainChars (c.map f) =
    (f c.first).chars ++ c.rest.flatMap fun r => ' ' :: r.1.symbol.toList ++ ' ' :: (f r.2).chars := by
  have hrest : ∀ rest : List (Operator × α), restChars (rest.map fun r => (r.1, f r.2)) =
      rest.flatMap fun r => ' ' :: r.1.symbol.toList ++ ' ' :: (f r.2).chars := by
    intro rest
    induction rest with
    | nil => rfl
    | cons r rest ih =>
      rw [List.flatMap_cons, ← ih]
      simp [restChars, linkChars]
  exact congrArg ((f c.first).chars ++ ·) (hrest c.rest)

lemma length_linkChars (op : Operator) (u : List Char) :
    u.length + 2 < (linkChars op u).length := by
  have hsymbol : 0 < op.symbol.toList.length := by
    cases op <;> decide
  unfold linkChars
  rw [List.length_cons, List.length_append, List.length_cons]
  omega

lemma linkChars_append (op : Operator) (u t : List Char) :
    linkChars op (u ++ t) = linkChars op u ++ t := by
  simp [linkChars]

/-! ## Operators -/

/-- An operator before a blank begins like no other one. -/
lemma isPrefixOf_symbol (op other : Operator) (u : List Char) :
    other.symbol.toList.isPrefixOf (op.symbol.toList ++ ' ' :: u) = decide (other = op) := by
  cases op <;> cases other <;> rfl

lemma operatorAhead?_symbol (ops : List Operator) (op : Operator) (u : List Char) :
    operatorAhead? ops (op.symbol.toList ++ ' ' :: u) = if op ∈ ops then some op else none := by
  unfold operatorAhead?
  simp only [isPrefixOf_symbol]
  split
  · rename_i hmem
    cases hfind : ops.find? fun other => decide (other = op) with
    | none => simpa using List.find?_eq_none.mp hfind op hmem
    | some other =>
      have heq := List.find?_some hfind
      rw [of_decide_eq_true heq]
  · rename_i hmem
    rw [List.find?_eq_none]
    rintro other hother heq
    rw [of_decide_eq_true heq] at hother
    exact hmem hother

lemma operatorAhead?_of_ends {ops : List Operator}
    (hops : ∀ op ∈ ops, op ∈ Operator.connectives) {t : List Char} (ht : Ends t) :
    operatorAhead? ops (trimStart t) = none := by
  unfold operatorAhead?
  rw [List.find?_eq_none]
  intro op hop
  rw [ht.connective op (hops op hop)]
  decide

lemma trimStart_linkChars (op : Operator) (u : List Char) :
    trimStart (linkChars op u) = op.symbol.toList ++ ' ' :: u := by
  unfold linkChars
  rw [Text.trimStart_cons_of_blank rfl]
  cases op <;> rfl

lemma trimStart_chainChars (c : Chain Piece) (t : List Char) :
    trimStart (chainChars c ++ t) = chainChars c ++ t := by
  rw [chainChars, List.append_assoc, c.first.trimStart_append]

/-! ## Levels -/

/-- What is left behind the first operand of a contracted chain: the text after the chain, or
the next operator and a chain, of no more than `n` characters. -/
def Remains (view : Chain Piece → Chain Expr) (n : ℕ) (es : List (Operator × Expr))
    (t u : List Char) : Prop :=
  es = [] ∧ u = t ∨
    ∃ (op : Operator) (c : Chain Piece), op ∈ Operator.connectives ∧
      (∀ o ∈ c.operators, o ∈ Operator.connectives) ∧ (linkChars op (chainChars c)).length ≤ n ∧
      es = (op, (view c).first) :: (view c).rest ∧ u = linkChars op (chainChars c ++ t)

lemma Remains.mono {view : Chain Piece → Chain Expr} {m n : ℕ} {es : List (Operator × Expr)}
    {t u : List Char} (h : Remains view m es t u) (hmn : m ≤ n) : Remains view n es t u := by
  rcases h with h | ⟨op, c, ho, hc, hlt, hes, hu⟩
  · exact .inl h
  · exact .inr ⟨op, c, ho, hc, by omega, hes, hu⟩

lemma Remains.length_le {view : Chain Piece → Chain Expr} {n : ℕ} {es : List (Operator × Expr)}
    {t u : List Char} (h : Remains view n es t u) : u.length ≤ n + t.length := by
  rcases h with ⟨-, rfl⟩ | ⟨op, c, -, -, hle, -, rfl⟩
  · omega
  · rw [linkChars_append, List.length_append]
    omega

/-- A rule reads the first operand of each contracted chain. -/
def ReadsFirst (rule : Rule Expr) (view : Chain Piece → Chain Expr) : Prop :=
  ∀ (c : Chain Piece) (t : List Char), (∀ op ∈ c.operators, op ∈ Operator.connectives) → Ends t →
    ∃ u, rule (.of (chainChars c ++ t)) = .ok (view c).first (.of u) ∧
      Remains view (chainChars c).length (view c).rest t u

/-- The operands themselves are read by the tightest rule. -/
lemma readsFirst_operand : ReadsFirst operand (Chain.map Piece.expr) := by
  rintro ⟨first, rest⟩ t hc ht
  cases rest with
  | nil =>
    refine ⟨t, ?_, .inl ⟨rfl, rfl⟩⟩
    unfold chainChars restChars
    rw [List.append_nil]
    exact first.read t ht.stops
  | cons r rest =>
    obtain ⟨op, p⟩ := r
    refine ⟨linkChars op (chainChars ⟨p, rest⟩ ++ t), ?_, .inr ⟨op, ⟨p, rest⟩, ?_, ?_, ?_, rfl, rfl⟩⟩
    · have htext : chainChars ⟨first, (op, p) :: rest⟩ ++ t =
          first.chars ++ linkChars op (chainChars ⟨p, rest⟩ ++ t) := by
        simp [chainChars, restChars, linkChars]
      rw [htext]
      refine first.read _ fun c hc => ?_
      rw [linkChars, List.head?_cons, Option.mem_some_iff] at hc
      rw [← hc]
      decide
    · exact hc op (by simp [Chain.operators])
    · intro o ho
      apply hc o
      simp only [Chain.operators, List.map_cons, List.mem_cons] at ho ⊢
      exact .inr ho
    · simp [chainChars, restChars]

/-- An operator and the operand on its right are read. -/
lemma joint_linkChars {ops : List Operator} {rule : Rule Expr} {op : Operator} (hop : op ∈ ops)
    {c : Chain Piece} {t u : List Char} {e : Expr}
    (h : rule (.of (chainChars c ++ t)) = .ok e (.of u)) :
    joint ops rule (.of (linkChars op (chainChars c ++ t))) = .ok (some (op, e)) (.of u) := by
  have hahead : operatorAhead? ops (Source.of (linkChars op (chainChars c ++ t))).skipBlanks.chars =
      some op := by
    rw [Source.skipBlanks_of, Source.chars_of, trimStart_linkChars, operatorAhead?_symbol,
      if_pos hop]
  have hblank : trimStart (' ' :: (chainChars c ++ t)) = chainChars c ++ t := by
    rw [Text.trimStart_cons_of_blank rfl, trimStart_chainChars]
  unfold joint
  rw [hahead]
  dsimp only
  rw [bind_of_ok _ (blanks_apply _), trimStart_linkChars, bind_of_ok _ (lit_append _ _),
    bind_of_ok _ (blanks_apply _), hblank, bind_of_ok _ h]
  rfl

section Joining

variable {ops : List Operator} {rule : Rule Expr} {view : Chain Piece → Chain Expr} {k : ℕ}

/-- Behind an operand the operators of one degree are read, with their operands, up to the
first operator of another degree. -/
lemma collect_joint (hrule : ReadsFirst rule view)
    (hops : ∀ op ∈ ops, op ∈ Operator.connectives)
    (hk : ∀ op ∈ Operator.connectives, op ∈ ops ↔ op.tightness = k) {t : List Char} (ht : Ends t)
    (n : ℕ) : ∀ (lhs : Expr) (es : List (Operator × Expr)) (u : List Char),
      Remains view n es t u → ∃ items u', collect (joint ops rule) (.of u) = .ok items (.of u') ∧
        items.foldl (fun lhs r => Expr.binary r.1 lhs r.2) lhs =
          (Chain.contractFrom k lhs es).first ∧
        Remains (fun c => (view c).contract k) n (Chain.contractFrom k lhs es).rest t u' := by
  induction n using Nat.strongRecOn with
  | _ n ih =>
    rintro lhs es u (⟨rfl, rfl⟩ | ⟨op, c, ho, hc, hlt, rfl, rfl⟩)
    · refine ⟨[], u, collect_of_none ?_, rfl, .inl ⟨rfl, rfl⟩⟩
      unfold joint
      rw [Source.skipBlanks_of, Source.chars_of, operatorAhead?_of_ends hops ht]
    · by_cases hop : op.tightness = k
      · -- one more operator of the degree, and its operand
        obtain ⟨u, hread, hremains⟩ := hrule c t hc ht
        have hlink := length_linkChars op (chainChars c)
        have hshorter : (Source.of u).left < (Source.of (linkChars op (chainChars c ++ t))).left := by
          have := hremains.length_le
          rw [Source.left_of, Source.left_of, linkChars_append, List.length_append]
          omega
        obtain ⟨items, u', hitems, hfold, hrest⟩ :=
          ih (chainChars c).length (by omega) (.binary op lhs (view c).first) _ u hremains
        refine ⟨(op, (view c).first) :: items, u', ?_, ?_, ?_⟩
        · rw [collect_of_some (joint_linkChars ((hk op ho).mpr hop) hread) hshorter, hitems]
        · rw [Chain.contractFrom, if_pos hop, List.foldl_cons]
          exact hfold
        · rw [Chain.contractFrom, if_pos hop]
          exact hrest.mono (by omega)
      · refine ⟨[], linkChars op (chainChars c ++ t), collect_of_none ?_, ?_, ?_⟩
        · unfold joint
          rw [Source.skipBlanks_of, Source.chars_of, trimStart_linkChars,
            operatorAhead?_symbol, if_neg (fun hmem => hop ((hk op ho).mp hmem))]
        · rw [Chain.contractFrom, if_neg hop]
          rfl
        · rw [Chain.contractFrom, if_neg hop]
          exact .inr ⟨op, c, ho, hc, hlt, rfl, rfl⟩

variable (ops k) in
/-- Joining the operators of one degree contracts the chain. -/
lemma readsFirst_joined (hrule : ReadsFirst rule view)
    (hops : ∀ op ∈ ops, op ∈ Operator.connectives)
    (hk : ∀ op ∈ Operator.connectives, op ∈ ops ↔ op.tightness = k) :
    ReadsFirst (joined ops rule) fun c => (view c).contract k := by
  intro c t hc ht
  obtain ⟨u, hread, hremains⟩ := hrule c t hc ht
  obtain ⟨items, u', hitems, hfold, hrest⟩ :=
    collect_joint hrule hops hk ht _ (view c).first _ u hremains
  refine ⟨u', ?_, hrest⟩
  unfold joined
  rw [bind_of_ok _ hread, bind_of_ok _ hitems]
  exact congrArg (EStateM.Result.ok · _) hfold

end Joining

/-- The loosest rule reads the first operand of the fully contracted chain. -/
lemma readsFirst_chain : ReadsFirst chain fun c =>
    [4, 3, 2, 1].foldl (fun c degree => c.contract degree) (c.map Piece.expr) := by
  have hproduct := readsFirst_joined [.mul, .div] 4 readsFirst_operand
    (by decide) (by decide)
  have hsum := readsFirst_joined [.add, .sub] 3 hproduct (by decide) (by decide)
  have hconjunction := readsFirst_joined [.and] 2 hsum (by decide) (by decide)
  exact readsFirst_joined [.or] 1 hconjunction (by decide) (by decide)

/-- **A chain of pieces is read as the expression that it stands for.** -/
lemma chain_chainChars {c : Chain Piece} {t : List Char}
    (hc : ∀ op ∈ c.operators, op ∈ Operator.connectives) (ht : Ends t) :
    chain (.of (chainChars c ++ t)) = .ok (c.map Piece.expr).expr (.of t) := by
  obtain ⟨u, hread, hremains⟩ := readsFirst_chain c t hc ht
  have hnil : ([4, 3, 2, 1].foldl (fun c degree => c.contract degree) (c.map Piece.expr)).rest =
      [] := by
    apply Chain.rest_eq_nil_of_connectives
    intro op hop hgreater
    have hmem : op ∈ c.operators := by
      simpa [Chain.operators, Chain.map] using hop
    have := hc op hmem
    rw [hgreater] at this
    revert this
    decide
  rcases hremains with ⟨-, rfl⟩ | ⟨op, c', -, -, -, hes, -⟩
  · exact hread
  · rw [hnil] at hes
    cases hes

end FlowSketch.Grammar
