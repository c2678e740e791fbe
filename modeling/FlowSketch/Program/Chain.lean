/-
# Chains of operators

A chain is a sequence of operands with an operator between each two, written without
parentheses.  It stands for one expression: tighter operators are applied first, and among
operators of the same tightness those further to the left.

The expression is found by contracting a chain once for each degree of tightness, from the
tightest to the loosest.  A contraction joins the operands on both sides of every operator
of that degree, going from left to right, and leaves a chain of the other operators.
-/
import FlowSketch.Program.Basic

namespace FlowSketch

/-- A first operand and the operators and operands after it. -/
structure Chain (α : Type) where
  /-- The operand on the left. -/
  first : α
  /-- Each operator with the operand on its right. -/
  rest : List (Operator × α)
deriving DecidableEq, Repr

namespace Chain

variable {α β : Type}

/-- The operands from left to right. -/
def operands (c : Chain α) : List α := c.first :: c.rest.map (·.2)

/-- The operators from left to right. -/
def operators (c : Chain α) : List Operator := c.rest.map (·.1)

/-- The chain with every operand replaced. -/
def map (f : α → β) (c : Chain α) : Chain β := ⟨f c.first, c.rest.map fun (op, a) => (op, f a)⟩

/-- Joins the operands of every operator of one tightness, from left to right. -/
def contractFrom (degree : Nat) (lhs : Expr) : List (Operator × Expr) → Chain Expr
  | [] => ⟨lhs, []⟩
  | (op, rhs) :: rest =>
    if op.tightness = degree then contractFrom degree (.binary op lhs rhs) rest
    else
      let c := contractFrom degree rhs rest
      ⟨lhs, (op, c.first) :: c.rest⟩

/-- The chain of the operators that are not of one tightness, those joined. -/
def contract (degree : Nat) (c : Chain Expr) : Chain Expr := contractFrom degree c.first c.rest

/-- The expression that a chain of connectives stands for. -/
def expr (c : Chain Expr) : Expr :=
  ([4, 3, 2, 1].foldl (fun c degree => c.contract degree) c).first

/-- What is left after a contraction was there before. -/
theorem operators_contractFrom (degree : Nat) (lhs : Expr) (rest : List (Operator × Expr)) :
    (contractFrom degree lhs rest).operators =
      (rest.map (·.1)).filter (·.tightness ≠ degree) := by
  induction rest generalizing lhs with
  | nil => rfl
  | cons r rest ih =>
    obtain ⟨op, rhs⟩ := r
    unfold contractFrom
    split
    · rename_i h
      rw [ih]
      simp [h]
    · rename_i h
      have := ih rhs
      simp only [operators] at this ⊢
      simp [h, this]

/-- A chain of connectives contracts to a single operand. -/
theorem rest_eq_nil_of_connectives {c : Chain Expr} (h : ∀ op ∈ c.operators, op ≠ .greater) :
    ([4, 3, 2, 1].foldl (fun c degree => c.contract degree) c).rest = [] := by
  have key : ∀ (degree : Nat) (c : Chain Expr),
      (c.contract degree).operators = c.operators.filter (·.tightness ≠ degree) :=
    fun degree c => operators_contractFrom degree c.first c.rest
  rw [← List.map_eq_nil_iff (f := Prod.fst)]
  change (Chain.operators _) = []
  simp only [List.foldl_cons, List.foldl_nil, key, List.filter_filter, List.filter_eq_nil_iff]
  intro op hop
  have := h op hop
  revert this
  cases op <;> decide

end Chain

end FlowSketch
