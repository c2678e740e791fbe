/-
# Claiming an area never runs out of budget

A search for the pixels of an area has a budget of one visit for each pixel of its bounds.
It never needs more: a pixel comes to the stack only when it gets its mark, so the pixels on
the stack and the pixels without a mark are together never more than the visits that are left.

Main statement: `floodFill_isOk`.
-/
import Mathlib.Tactic.Common
import FlowSketch.Raster.Fill

namespace FlowSketch

namespace Rect

/-- The pixels of a rectangle, row by row. -/
def pixels (r : Rect) : List Point :=
  (List.range r.h.toNat).flatMap fun (j : ℕ) =>
    (List.range r.w.toNat).map fun (i : ℕ) => ⟨r.x + i, r.y + j⟩

lemma mem_pixels {r : Rect} {p : Point} : p ∈ r.pixels ↔ r.covers p = true := by
  simp only [pixels, List.mem_flatMap, List.mem_map, List.mem_range, covers_iff]
  constructor
  · rintro ⟨j, hj, i, hi, rfl⟩
    dsimp only
    omega
  · rintro ⟨h₁, h₂, h₃, h₄⟩
    refine ⟨(p.y - r.y).toNat, by omega, (p.x - r.x).toNat, by omega, ?_⟩
    cases p
    simp only [Point.mk.injEq] at *
    omega

lemma length_pixels (r : Rect) : r.pixels.length = r.area := by
  simp only [pixels, area, List.length_flatMap, List.length_map, List.length_range,
    List.map_const', List.sum_replicate_nat]
  exact Nat.mul_comm _ _

end Rect

namespace Fill

/-- The pixels on the stack and the pixels of the area without a mark, counted together. -/
def weight (area : Rect) (marked : Grid Bool) (stack : List Point) : ℕ :=
  stack.length + area.pixels.countP fun q => marked.get? q == some false

/-- A mark takes one of the pixels without a mark away. -/
lemma countP_set_lt {marked : Grid Bool} {p : Point} {ps : List Point} (hp : p ∈ ps)
    (hm : marked.get? p = some false) :
    ps.countP (fun q => (marked.set p true).get? q == some false) <
      ps.countP fun q => marked.get? q == some false := by
  have hcov := Grid.covers_of_get? hm
  have hle : ∀ qs : List Point,
      qs.countP (fun q => (marked.set p true).get? q == some false) ≤
        qs.countP fun q => marked.get? q == some false := by
    intro qs
    apply List.countP_mono_left
    intro q _ hq
    rw [Grid.get?_set] at hq
    split at hq
    · simp at hq
    · exact hq
  obtain ⟨as, bs, rfl⟩ := List.append_of_mem hp
  have has := hle as
  have hbs := hle bs
  rw [List.countP_append, List.countP_append, List.countP_cons, List.countP_cons]
  simp only [Grid.get?_set, hm, hcov]
  simp only [Grid.get?_set] at has hbs
  simp
  omega

/-- A pixel that comes to the stack loses its place among those without a mark. -/
lemma weight_push (area : Rect) (marked : Grid Bool) (stack : List Point) (p : Point) :
    weight area (push area (marked, stack) p).1 (push area (marked, stack) p).2 ≤
      weight area marked stack := by
  simp only [push]
  split
  · rename_i hcov
    split
    · rename_i hm
      have := countP_set_lt (Rect.mem_pixels.mpr hcov) hm
      simp only [weight, List.length_cons]
      omega
    · exact Nat.le_refl _
  · exact Nat.le_refl _

lemma weight_foldl_push (area : Rect) (ps : List Point) (marked : Grid Bool)
    (stack : List Point) :
    weight area (ps.foldl (push area) (marked, stack)).1
      (ps.foldl (push area) (marked, stack)).2 ≤ weight area marked stack := by
  induction ps generalizing marked stack with
  | nil => exact Nat.le_refl _
  | cons p ps ih =>
    rw [List.foldl_cons]
    exact Nat.le_trans (ih _ _) (weight_push area marked stack p)

/-- A search whose weight is within the budget comes to an end. -/
lemma search_isOk (t : Task) (budget : ℕ) (s : State) (stack : List Point)
    (h : weight t.area s.marked stack ≤ budget) : ∃ s', search t budget s stack = .ok s' := by
  induction budget generalizing s stack with
  | zero =>
    cases stack with
    | nil => exact ⟨s, by rw [search]⟩
    | cons p stack =>
      simp only [weight, List.length_cons] at h
      omega
  | succ budget ih =>
    cases stack with
    | nil => exact ⟨s, by rw [search]⟩
    | cons p stack =>
      have hvisit : weight t.area s.marked stack ≤ budget := by
        simp only [weight, List.length_cons] at h ⊢
        omega
      rw [search]
      split
      · exact ih _ _ (Nat.le_trans (weight_foldl_push t.area p.neighbours s.marked stack) hvisit)
      · exact ih s stack hvisit

end Fill

/-- **Claiming an area never fails.** -/
theorem floodFill_isOk (canvas : Canvas) (owners : TerritoryMap) (seed : Point) (node : NodeId)
    (bounds : Rect) : ∃ r, floodFill canvas owners seed node bounds = .ok r := by
  unfold floodFill
  dsimp only
  split
  · rename_i hcov
    split
    · exact ⟨_, rfl⟩
    · rename_i target hseed
      split
      · exact ⟨_, rfl⟩
      · have hmark : (Grid.filled canvas.width canvas.height false).get? seed = some false := by
          have : (Grid.filled canvas.width canvas.height false).bounds.covers seed = true := by
            rw [Rect.covers_inter, Bool.and_eq_true] at hcov
            exact hcov.2
          rw [Grid.get?_filled, if_pos this]
        have hlt := Fill.countP_set_lt (Rect.mem_pixels.mpr hcov) hmark
        have hle := List.countP_le_length (l := (bounds.inter canvas.bounds).pixels)
          (p := fun q => (Grid.filled canvas.width canvas.height false).get? q == some false)
        obtain ⟨s, hs⟩ := Fill.search_isOk
          ⟨node, bounds.inter canvas.bounds, target, Color.territory node⟩
          (bounds.inter canvas.bounds).area
          ⟨canvas, owners, (Grid.filled canvas.width canvas.height false).set seed true, 0⟩ [seed]
          (by
            rw [Rect.length_pixels] at hle
            simp only [Fill.weight, List.length_singleton]
            omega)
        exact ⟨⟨s.canvas, s.owners, s.claimed⟩, by rw [Fill.Task.cap, hs]; rfl⟩
  · exact ⟨_, rfl⟩

end FlowSketch
