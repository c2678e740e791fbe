/-
# Moved sketches

Where the flows of a graph arrive, and from where they were drawn, decides on their roles when they
are drawn.  After that the compiler looks at places only to put flows into their order from left to
right.  So a sketch may be moved, scaled or bent: as long as any two flows arrive in the same order
as before, its program is the same, and so is what is wrong with it.

Flows of the two graphs under one number are *twins*.  Lists of flows that the compiler makes in
the same way have twins at the same places, before and after they are put in order.  So the two
graphs agree about all nodes.

Main statement: `compile_redrawn`.
-/
import Mathlib.Data.List.Forall2
import FlowSketch.Proofs.Compile.Agreement

namespace FlowSketch

open List (Forall₂)

/-- Lists stay related when they are sorted, if their orders agree on related members. -/
lemma forall₂_mergeSort {α β : Type} {R : α → β → Prop} {r : α → α → Bool} {s : β → β → Bool}
    {as : List α} {bs : List β} (horder : ∀ a b a' b', R a b → R a' b' → s b b' = r a a')
    (h : Forall₂ R as bs) : Forall₂ R (as.mergeSort r) (bs.mergeSort s) := by
  obtain ⟨hlength, hzip⟩ := List.forall₂_iff_zip.mp h
  -- to sort the pairs is to sort both lists
  let pairs := (as.zip bs).mergeSort fun p q => r p.1 q.1
  have has : as.mergeSort r = pairs.map Prod.fst := by
    have hsort : pairs.map Prod.fst = ((as.zip bs).map Prod.fst).mergeSort r :=
      List.map_mergeSort fun _ _ _ _ => rfl
    rw [hsort, List.map_fst_zip (Nat.le_of_eq hlength)]
  have hbs : bs.mergeSort s = pairs.map Prod.snd := by
    have hsort : pairs.map Prod.snd = ((as.zip bs).map Prod.snd).mergeSort s :=
      List.map_mergeSort fun p hp q hq => (horder _ _ _ _ (hzip hp) (hzip hq)).symm
    rw [hsort, List.map_snd_zip (Nat.le_of_eq hlength.symm)]
  rw [has, hbs, List.forall₂_map_left_iff, List.forall₂_map_right_iff, List.forall₂_same]
  intro p hp
  exact hzip (List.mem_mergeSort.mp hp)

namespace Graph

/-- Two flows have the same number, each in its graph. -/
def Twins (g h : Graph) (f f' : Flow) : Prop := ∃ i, g.flow? i = some f ∧ h.flow? i = some f'

/-- The same graph drawn differently: the nodes are the same, the flows are the same up to where
they arrive and from where they were drawn, and any two of them arrive in the same order from left
to right, or at the same column. -/
structure Redrawn (g h : Graph) : Prop where
  nodes : h.nodes = g.nodes
  count : h.flows.size = g.flows.size
  flows (f f' : Flow) : Twins g h f f' → f' = { f with bounds := f'.bounds, origin := f'.origin }
  order (e e' f f' : Flow) : Twins g h e e' → Twins g h f f' →
    compare e'.bounds.x f'.bounds.x = compare e.bounds.x f.bounds.x

variable {g h : Graph}

/-- What is the same of twins is the same of lists of twins. -/
lemma map_eq_of_twins {α : Type} {φ : Flow → α} (hφ : ∀ {f f'}, Twins g h f f' → φ f' = φ f)
    {fs fs' : List Flow} (ht : Forall₂ (Twins g h) fs fs') : fs'.map φ = fs.map φ := by
  induction ht with
  | nil => rfl
  | cons hf _ ih => rw [List.map_cons, List.map_cons, hφ hf, ih]

namespace Redrawn

variable (hr : Redrawn g h)
include hr

/-! ## Flows -/

lemma source_eq {f f' : Flow} (ht : Twins g h f f') : f'.source = f.source := by
  rw [hr.flows f f' ht]

lemma target_eq {f f' : Flow} (ht : Twins g h f f') : f'.target = f.target := by
  rw [hr.flows f f' ht]

lemma le_iff {e e' f f' : Flow} (he : Twins g h e e') (hf : Twins g h f f') :
    e'.bounds.x ≤ f'.bounds.x ↔ e.bounds.x ≤ f.bounds.x := by
  rw [← Int.isLE_compare, hr.order e e' f f' he hf, Int.isLE_compare]

lemma node? (id : NodeId) : h.node? id = g.node? id := by
  rw [Graph.node?, Graph.node?, hr.nodes]

lemma isVariable (id : NodeId) : h.isVariable id = g.isVariable id := by
  rw [Graph.isVariable, Graph.isVariable, hr.node?]

/-- A number belongs to flows of both graphs or of none. -/
lemma flow? (i : FlowId) : Option.Rel (Twins g h) (g.flow? i) (h.flow? i) := by
  by_cases hi : i.index < g.flows.size
  · have hg : g.flow? i = some g.flows[i.index] := Array.getElem?_eq_getElem hi
    have hi' : i.index < h.flows.size := hr.count ▸ hi
    have hh : h.flow? i = some h.flows[i.index] := Array.getElem?_eq_getElem hi'
    have ht : Twins g h g.flows[i.index] h.flows[i.index] := ⟨i, hg, hh⟩
    rw [hg, hh]
    exact .some ht
  · have hg : g.flow? i = none := Array.getElem?_eq_none (Nat.le_of_not_lt hi)
    have hh : h.flow? i = none := Array.getElem?_eq_none (hr.count ▸ Nat.le_of_not_lt hi)
    rw [hg, hh]
    exact .none

lemma flowsOf (ids : List FlowId) : Forall₂ (Twins g h) (g.flowsOf ids) (h.flowsOf ids) := by
  refine List.rel_filterMap ?_ (List.forall₂_eq_eq_eq ▸ rfl : Forall₂ (· = ·) ids ids)
  rintro i _ rfl
  exact hr.flow? i

lemma variableFlows (l : Links) :
    Forall₂ (Twins g h) (g.variableFlows l) (h.variableFlows l) := by
  refine List.rel_filter ?_ (hr.flowsOf l.incoming)
  intro f f' ht
  dsimp only
  rw [hr.source_eq ht, hr.isVariable]

/-- Twins stay beside each other when flows are put in order. -/
lemma byArrival {fs fs' : List Flow} (ht : Forall₂ (Twins g h) fs fs') :
    Forall₂ (Twins g h) (byArrival fs) (byArrival fs') :=
  forall₂_mergeSort (fun _ _ _ _ he hf => decide_eq_decide.mpr (hr.le_iff he hf)) ht

/-- Twins have the same ends. -/
lemma ends_eq {f f' : Flow} (ht : Twins g h f f') :
    (f'.source, f'.target) = (f.source, f.target) := by
  rw [hr.source_eq ht, hr.target_eq ht]

/-! ## What the compiler writes -/

lemma agrees : Agrees g h fun _ => True := by
  constructor
  case node? =>
    intro id _
    rw [hr.node?]
    cases g.node? id with
    | none => exact .none
    | some n => exact .some (.refl n.kind)
  case targets => exact fun ids => map_eq_of_twins hr.target_eq (hr.flowsOf ids)
  case arrivals => exact fun ids => map_eq_of_twins hr.ends_eq (hr.byArrival (hr.flowsOf ids))
  case sources => exact fun l => map_eq_of_twins hr.source_eq (hr.variableFlows l)
  case operands => exact fun l => map_eq_of_twins hr.source_eq (hr.byArrival (hr.variableFlows l))
  case ends => exact fun _ _ _ => ⟨trivial, trivial⟩
  case vars => exact fun _ _ => trivial
  case onwards => exact fun _ _ _ _ _ _ => trivial
  case inwards => exact fun _ _ _ _ _ _ => trivial

lemma entry? (id : NodeId) (s : Scope) : h.entry? id s = g.entry? id s := by
  simp only [Graph.entry?, Graph.inputEntry?, hr.node?]

lemma routine (id : NodeId) (s : Scope) : h.routine id s = g.routine id s :=
  hr.agrees.routine id rfl (hr.entry? id s) fun _ _ => trivial

lemma listing : h.listing = g.listing := by
  simp only [Graph.listing, Graph.routineScopes, hr.nodes, hr.routine]

end Redrawn

/-- A graph with its flows elsewhere. -/
def redraw (g : Graph) (bounds : Rect → Rect) (origin : Point → Point) : Graph :=
  { g with flows := g.flows.map fun f =>
    { f with bounds := bounds f.bounds, origin := origin f.origin } }

/-- To move a sketch or to scale it keeps the order of what arrives. -/
lemma redrawn_redraw (g : Graph) {bounds : Rect → Rect} (origin : Point → Point)
    (hx : ∀ r s, (bounds r).x < (bounds s).x ↔ r.x < s.x) :
    Redrawn g (g.redraw bounds origin) := by
  have htwin : ∀ f f', Twins g (g.redraw bounds origin) f f' →
      f' = { f with bounds := bounds f.bounds, origin := origin f.origin } := by
    rintro f f' ⟨i, hf, hf'⟩
    rw [flow?, redraw, Array.getElem?_map] at hf'
    rw [flow?] at hf
    rw [hf] at hf'
    exact (Option.some.inj hf').symm
  refine ⟨rfl, Array.size_map, fun f f' ht => ?_, fun e e' f f' he hf => ?_⟩
  · rw [htwin f f' ht]
  · rw [htwin e e' he, htwin f f' hf]
    have hlt := hx e.bounds f.bounds
    have hgt := hx f.bounds e.bounds
    have heq : (bounds e.bounds).x = (bounds f.bounds).x ↔ e.bounds.x = f.bounds.x := by omega
    simp only [compare, compareOfLessAndEq, hlt, heq]

/-- **A sketch that is drawn differently, with the same nodes and the same flows in the same order,
has the same program, or the same problem.** -/
theorem compile_redrawn {g h : Graph} (hr : Redrawn g h) : h.compile = g.compile := by
  rw [compile, compile, hr.listing]

/-- A sketch of some size with a difference that is printed.  What is taken away arrives last and
was drawn first. -/
def difference (size : Int) : List Edit :=
  [.addNode NodeId.root (NodeTag.blank .var), .writeText ⟨1⟩ "3",
    .addNode NodeId.root (NodeTag.blank .var), .writeText ⟨2⟩ "4",
    .addNode NodeId.root (NodeTag.blank .var), .writeText ⟨3⟩ "-",
    .addNode NodeId.root (NodeTag.blank .symbol), .writeText ⟨4⟩ "OUT",
    .connect NodeId.root ⟨3⟩ ⟨0, 0, 5 * size, 5 * size⟩ ⟨30 * size, 30 * size⟩,
    .connect ⟨1⟩ ⟨3⟩ ⟨20 * size, 0, 5 * size, 5 * size⟩ ⟨30 * size, 30 * size⟩,
    .connect ⟨2⟩ ⟨3⟩ ⟨10 * size, 0, 5 * size, 5 * size⟩ ⟨30 * size, 30 * size⟩,
    .connect ⟨3⟩ ⟨4⟩ ⟨40 * size, 0, 5 * size, 5 * size⟩ ⟨2 * size, 2 * size⟩]

/-- Of a sketch that is drawn twice as large. -/
theorem compile_redrawn_doubled : drawn (difference 2) ≠ drawn (difference 1) ∧
    (drawn (difference 2)).compile = (drawn (difference 1)).compile := by
  refine ⟨by decide +kernel, compile_redrawn ?_⟩
  have hredraw : drawn (difference 2) = (drawn (difference 1)).redraw
      (fun r => ⟨2 * r.x, 2 * r.y, 2 * r.w, 2 * r.h⟩) (fun p => ⟨2 * p.x, 2 * p.y⟩) := by
    decide +kernel
  rw [hredraw]
  exact redrawn_redraw _ _ fun r s => by dsimp only; omega

end Graph

end FlowSketch
