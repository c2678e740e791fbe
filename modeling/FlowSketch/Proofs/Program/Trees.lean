/-
# Precedence trees

A chain of operands has many trees whose leaves and operators, from left to right, are those of
the chain.  In just one of them tighter operators stand further down and operators of the same
tightness lean to the left.  The expression for which a chain stands is that tree: a contraction
by one degree of tightness hangs the operators of that degree above tighter ones.

Main statements: `Expr.Nested.unique`, that such a tree is determined by its leaves and
operators, and `Chain.nested_expr`, that a chain stands for such a tree.
-/
import Mathlib.Data.List.Basic
import Mathlib.Order.Nat
import FlowSketch.Program.Chain

namespace FlowSketch

/-! ## Trees -/

namespace Expr

/-- The operator at the root of an expression, if it is not an operand. -/
def root? : Expr → Option Operator
  | .binary op _ _ => some op
  | _ => none

/-- The leaves and operators of an expression from left to right. -/
def inOrder : Expr → Chain Expr
  | .binary op lhs rhs =>
    ⟨lhs.inOrder.first, lhs.inOrder.rest ++ (op, rhs.inOrder.first) :: rhs.inOrder.rest⟩
  | e => ⟨e, []⟩

/-- Below every operator stand tighter operators on the right, and operators at least as tight
on the left. -/
def Nested : Expr → Prop
  | .binary op lhs rhs => lhs.Nested ∧ rhs.Nested ∧
      (∀ o ∈ lhs.root?, op.tightness ≤ o.tightness) ∧ ∀ o ∈ rhs.root?, op.tightness < o.tightness
  | _ => True

variable {e e' : Expr}

lemma inOrder_of_leaf (h : e.root? = none) : e.inOrder = ⟨e, []⟩ := by
  cases e with
  | binary op lhs rhs => cases h
  | _ => rfl

/-- The root of such a tree is one of its loosest operators. -/
lemma Nested.le_tightness (h : e.Nested) {k : ℕ} (hk : ∀ o ∈ e.root?, k ≤ o.tightness) :
    ∀ r ∈ e.inOrder.rest, k ≤ r.1.tightness := by
  induction e generalizing k with
  | binary op lhs rhs ihl ihr =>
    obtain ⟨hlhs, hrhs, hleft, hright⟩ := h
    have hop : k ≤ op.tightness := hk op rfl
    intro r hr
    rcases List.mem_append.mp hr with hr | hr
    · exact ihl hlhs (fun o ho => hop.trans (hleft o ho)) r hr
    · rcases List.mem_cons.mp hr with rfl | hr
      · exact hop
      · exact ihr hrhs (fun o ho => hop.trans (hright o ho).le) r hr
  | _ => simp [inOrder]

end Expr

/-- The last of the least items of a list is found in one place only. -/
lemma eq_of_last_least {α : Type} {t : α → ℕ} {as bs as' bs' : List α} {a a' : α}
    (h : as ++ a :: bs = as' ++ a' :: bs')
    (has : ∀ x ∈ as, t a ≤ t x) (hbs : ∀ x ∈ bs, t a < t x)
    (has' : ∀ x ∈ as', t a' ≤ t x) (hbs' : ∀ x ∈ bs', t a' < t x) :
    as = as' ∧ a = a' ∧ bs = bs' := by
  -- the item that comes first of the two would be least, and less than itself
  have key : ∀ {cs ds ds' : List α} {c c' : α}, t c' ≤ t c → (∀ x ∈ ds, t c < t x) →
      ds ≠ cs ++ c' :: ds' := by
    rintro cs ds ds' c c' hle hds rfl
    have hlt := hds c' (by simp)
    omega
  rcases List.append_eq_append_iff.mp h with ⟨cs, rfl, hcs⟩ | ⟨cs, rfl, hcs⟩
  · cases cs with
    | nil => simpa using hcs
    | cons c cs =>
      obtain ⟨rfl, hds⟩ := List.cons.inj hcs
      exact absurd hds (key (has' _ (by simp)) hbs)
  · cases cs with
    | nil => simpa [eq_comm] using hcs
    | cons c cs =>
      obtain ⟨rfl, hds⟩ := List.cons.inj hcs
      exact absurd hds (key (has _ (by simp)) hbs')

namespace Expr

variable {e e' : Expr}

/-- **A tree in which tighter operators stand further down is determined by its leaves and
operators.** -/
theorem Nested.unique (h : e.Nested) (h' : e'.Nested) (heq : e.inOrder = e'.inOrder) : e = e' := by
  have hleaf : ∀ {d d' : Expr}, d.root? = none → d.inOrder = d'.inOrder → d = d' := by
    intro d d' hd heq
    rw [inOrder_of_leaf hd] at heq
    cases d' with
    | binary op lhs rhs => simp [inOrder] at heq
    | _ => exact congrArg Chain.first heq
  induction e generalizing e' with
  | binary op lhs rhs ihl ihr =>
    cases e' with
    | binary op' lhs' rhs' =>
      obtain ⟨hlhs, hrhs, hleft, hright⟩ := h
      obtain ⟨hlhs', hrhs', hleft', hright'⟩ := h'
      obtain ⟨hfirst, hrest⟩ := Chain.mk.inj heq
      obtain ⟨hl, hroot, hr⟩ := eq_of_last_least (t := fun r => r.1.tightness) hrest
        (hlhs.le_tightness hleft) (hrhs.le_tightness hright)
        (hlhs'.le_tightness hleft') (hrhs'.le_tightness hright')
      obtain ⟨rfl, hmiddle⟩ := Prod.mk.inj hroot
      rw [ihl hlhs hlhs' (congrArg₂ Chain.mk hfirst hl),
        ihr hrhs hrhs' (congrArg₂ Chain.mk hmiddle hr)]
    | _ => exact (hleaf rfl heq.symm).symm
  | _ => exact hleaf rfl heq

end Expr

/-! ## Contractions -/

namespace Chain

/-- The leaves and operators of all operands, with the operators between them. -/
def flatten (c : Chain Expr) : Chain Expr :=
  ⟨c.first.inOrder.first, c.first.inOrder.rest ++
    c.rest.flatMap fun r => (r.1, r.2.inOrder.first) :: r.2.inOrder.rest⟩

/-- A tree with no operator looser than a given degree. -/
def Tight (k : ℕ) (e : Expr) : Prop := e.Nested ∧ ∀ o ∈ e.root?, k ≤ o.tightness

lemma Tight.mono {k : ℕ} {e : Expr} (h : Tight (k + 1) e) : Tight k e :=
  ⟨h.1, fun o ho => (Nat.le_succ k).trans (h.2 o ho)⟩

/-- Contracting by a degree keeps the leaves and operators from left to right. -/
lemma flatten_contractFrom (k : ℕ) (lhs : Expr) (rest : List (Operator × Expr)) :
    (contractFrom k lhs rest).flatten = flatten ⟨lhs, rest⟩ := by
  induction rest generalizing lhs with
  | nil => rfl
  | cons r rest ih =>
    obtain ⟨op, rhs⟩ := r
    unfold contractFrom
    split
    · rw [ih]
      simp [flatten, Expr.inOrder]
    · have hrest := congrArg Chain.rest (ih rhs)
      have hfirst := congrArg Chain.first (ih rhs)
      simp only [flatten] at hrest hfirst ⊢
      simp [hfirst, hrest]

/-- Contracting by a degree hangs the operators of that degree above tighter ones. -/
lemma tight_contractFrom {k : ℕ} {lhs : Expr} {rest : List (Operator × Expr)} (hlhs : Tight k lhs)
    (hrest : ∀ r ∈ rest, Tight (k + 1) r.2) :
    ∀ e ∈ (contractFrom k lhs rest).operands, Tight k e := by
  induction rest generalizing lhs with
  | nil =>
    intro e he
    rwa [List.mem_singleton.mp he]
  | cons r rest ih =>
    obtain ⟨op, rhs⟩ := r
    have hrhs : Tight (k + 1) rhs := hrest (op, rhs) List.mem_cons_self
    have htail : ∀ r ∈ rest, Tight (k + 1) r.2 := fun r hr => hrest r (List.mem_cons_of_mem _ hr)
    unfold contractFrom
    split
    · rename_i hk
      refine ih ⟨⟨hlhs.1, hrhs.1, ?_, ?_⟩, ?_⟩ htail
      · rw [hk]
        exact hlhs.2
      · rw [hk]
        exact hrhs.2
      · rintro o ⟨⟩
        exact hk.ge
    · intro e he
      rcases List.mem_cons.mp he with rfl | he
      · exact hlhs
      · exact ih hrhs.mono htail e he

/-- Contracting by all degrees leaves a chain of trees. -/
lemma contract_all (c : Chain Expr) (h : ∀ e ∈ c.operands, Tight 5 e) :
    (∀ e ∈ ([4, 3, 2, 1].foldl (fun c k => c.contract k) c).operands, Tight 1 e) ∧
      ([4, 3, 2, 1].foldl (fun c k => c.contract k) c).flatten = c.flatten := by
  have hstep : ∀ (k : ℕ) (d : Chain Expr), (∀ e ∈ d.operands, Tight (k + 1) e) →
      ∀ e ∈ (d.contract k).operands, Tight k e := by
    intro k d hd
    refine tight_contractFrom (hd d.first (by simp [operands])).mono fun r hr => hd r.2 ?_
    exact List.mem_cons_of_mem _ (List.mem_map_of_mem hr)
  have hflat : ∀ (k : ℕ) (d : Chain Expr), (d.contract k).flatten = d.flatten := fun k d =>
    flatten_contractFrom k d.first d.rest
  constructor
  · exact hstep 1 _ (hstep 2 _ (hstep 3 _ (hstep 4 c h)))
  · simp only [List.foldl_cons, List.foldl_nil, hflat]

/-- **A chain of operands joined by connectives stands for a tree with its leaves and operators
in which tighter operators stand further down.** -/
theorem nested_expr {c : Chain Expr} (hops : ∀ op ∈ c.operators, op ∈ Operator.connectives)
    (hleaf : ∀ e ∈ c.operands, e.root? = none) : c.expr.Nested ∧ c.expr.inOrder = c := by
  have htight : ∀ e ∈ c.operands, Tight 5 e := by
    intro e he
    refine ⟨?_, fun o ho => ?_⟩
    · cases e with
      | binary op lhs rhs => cases hleaf _ he
      | _ => trivial
    · rw [hleaf e he] at ho
      cases ho
  obtain ⟨hall, hflat⟩ := contract_all c htight
  have hnil := rest_eq_nil_of_connectives (c := c) fun op hop h => by
    have := hops op hop
    rw [h] at this
    revert this
    decide
  constructor
  · exact (hall c.expr List.mem_cons_self).1
  · have hself : c.flatten = c := by
      have hfirst := Expr.inOrder_of_leaf (hleaf c.first List.mem_cons_self)
      have hrest : c.rest.flatMap (fun r => (r.1, r.2.inOrder.first) :: r.2.inOrder.rest) =
          c.rest := by
        rw [List.flatMap_congr (g := fun r => [r])]
        · simp
        · intro r hr
          rw [Expr.inOrder_of_leaf (hleaf r.2 (List.mem_cons_of_mem _ (List.mem_map_of_mem hr)))]
      rw [flatten, hfirst, hrest]
      rfl
    calc c.expr.inOrder = ([4, 3, 2, 1].foldl (fun c k => c.contract k) c).flatten := by
          rw [flatten, hnil]
          simp [expr]
      _ = c := by rw [hflat, hself]

end Chain

end FlowSketch
