/-
# Walks over a graph end

A walk that never enters a node twice ends, because each node that it enters leaves fewer
that it has not entered.  This file counts those.
-/
import FlowSketch.Graph.Basic

namespace FlowSketch.Graph

/-- The number of nodes of the graph that a list does not name. -/
def unvisited (g : Graph) (seen : List NodeId) : Nat :=
  (List.range g.nodes.size).countP fun i => !seen.contains ⟨i⟩

/-- A condition that is implied by another one, and fails for an item of which the other holds,
holds of fewer items of a list. -/
theorem countP_lt_of_imp {α : Type} {p q : α → Bool} {l : List α} {a : α} (ha : a ∈ l)
    (hp : p a = false) (hq : q a = true) (h : ∀ x, p x = true → q x = true) :
    l.countP p < l.countP q := by
  induction l with
  | nil => cases ha
  | cons b l ih =>
    have hle : l.countP p ≤ l.countP q := List.countP_mono_left fun x _ => h x
    rcases List.mem_cons.mp ha with rfl | ha
    · simp only [List.countP_cons, hp, hq, if_true, Bool.false_eq_true, if_false]
      omega
    · have := ih ha
      simp only [List.countP_cons]
      by_cases hb : p b = true
      · simp only [hb, h b hb, if_true]
        omega
      · simp only [hb, Bool.false_eq_true, if_false]
        omega

/-- Entering a node leaves fewer nodes to enter. -/
theorem unvisited_cons_lt {g : Graph} {seen : List NodeId} {id : NodeId}
    (hg : g.contains id = true) (hs : id ∉ seen) :
    g.unvisited (id :: seen) < g.unvisited seen := by
  refine countP_lt_of_imp (a := id.index) ?_ ?_ ?_ ?_
  · exact List.mem_range.mpr (contains_iff.mp hg)
  · simp
  · simpa using hs
  · intro i hi
    simp only [List.contains_cons, Bool.not_or, Bool.and_eq_true] at hi
    exact hi.2

end FlowSketch.Graph
