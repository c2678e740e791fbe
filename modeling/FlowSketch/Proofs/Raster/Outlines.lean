/-
# Outlines are rims

A rectangle is outlined by four lines, one along each side, and each of them begins where the one
before it ended.  All four run along an axis, so they have no gap and do not leave their side.  If
the rectangle is a single row or column, or a single pixel, lines are drawn twice or are points, and
what is colored is the whole rectangle.

Main statement: `drawOutline_exact`.
-/
import FlowSketch.Proofs.Raster.Rectangles

namespace FlowSketch

namespace Line

/-- The loops that draw lines one after another go through the given pixels. -/
inductive PursueAll : List (Point × Point) → List Point → Prop
  /-- There are no more lines. -/
  | nil : PursueAll [] []
  /-- A line is drawn to its end, then the others. -/
  | cons {a b : Point} {ps : List Place} {sides : List (Point × Point)} {qs : List Point} :
    Pursues (.between a b) b (origin a b) ps → PursueAll sides qs →
      PursueAll ((a, b) :: sides) (ps.map Place.point ++ qs)

/-- Lines are drawn one after another by going through the pixels of each. -/
lemma pursueAll_points (sides : List (Point × Point)) :
    PursueAll sides (sides.flatMap fun (a, b) => points a b) := by
  induction sides with
  | nil => exact .nil
  | cons side sides ih =>
    obtain ⟨a, b⟩ := side
    obtain ⟨ps, hps, hpoints⟩ := exists_pursues_points a b
    change PursueAll _ (points a b ++ _)
    rw [← hpoints]
    exact .cons hps ih

end Line

namespace Rect

variable {r : Rect} {p : Point}

/-- A pixel of a rectangle is on the rim if it is in the first or last column or row. -/
def OnRim (r : Rect) (p : Point) : Prop :=
  r.covers p = true ∧ (p.x = r.x ∨ p.x = r.x + r.w - 1 ∨ p.y = r.y ∨ p.y = r.y + r.h - 1)

instance (r : Rect) (p : Point) : Decidable (r.OnRim p) :=
  inferInstanceAs (Decidable (_ ∧ _))

lemma sides_of_empty (h : r.w ≤ 0 ∨ r.h ≤ 0) : r.sides = [] :=
  if_pos h

lemma not_onRim_of_empty (h : r.w ≤ 0 ∨ r.h ≤ 0) : ¬ r.OnRim p := by
  rintro ⟨hcovers, -⟩
  rw [covers_iff] at hcovers
  omega

/-- **The pixels along the sides of a rectangle are those of its rim.** -/
lemma mem_outline_iff : p ∈ r.outline ↔ r.OnRim p := by
  by_cases hempty : r.w ≤ 0 ∨ r.h ≤ 0
  · rw [outline, sides_of_empty hempty]
    exact iff_of_false List.not_mem_nil (not_onRim_of_empty hempty)
  · -- each side has the pixels between two corners, in whichever direction it is drawn
    rw [outline, sides, if_neg hempty]
    simp only [List.flatMap_cons, List.flatMap_nil, List.append_nil, List.mem_append,
      Line.mem_points_row, Line.mem_points_column, OnRim, covers_iff]
    omega

/-- The rectangle inside of the rim. -/
def core (r : Rect) : Rect := ⟨r.x + 1, r.y + 1, r.w - 2, r.h - 2⟩

lemma onRim_iff_not_covers_core :
    r.OnRim p ↔ r.covers p = true ∧ r.core.covers p = false := by
  rw [← Bool.not_eq_true, OnRim, covers_iff, covers_iff]
  dsimp only [core]
  omega

/-- A rectangle has the pixels of its rim and those inside of it. -/
lemma encard_onRim_add (r : Rect) : {p | r.OnRim p}.encard + r.core.area = r.area := by
  have hsub : {p | r.core.covers p = true} ⊆ {p | r.covers p = true} := by
    intro p hp
    rw [Set.mem_ofPred_eq, covers_iff] at hp ⊢
    dsimp only [core] at hp
    omega
  have hrim : {p | r.OnRim p} = {p | r.covers p = true} \ {p | r.core.covers p = true} := by
    ext p
    simp only [Set.mem_sdiff, Set.mem_ofPred_eq, Bool.not_eq_true, onRim_iff_not_covers_core]
  rw [hrim, ← encard_covers, ← encard_covers, Set.encard_sdiff_add_encard_of_subset hsub]

/-- Two columns and two rows have four pixels in common. -/
lemma eq_of_encard_onRim (hw : 2 ≤ r.w) (hh : 2 ≤ r.h) {n : ℕ}
    (hn : {p | r.OnRim p}.encard = n) : (n : ℤ) = 2 * r.w + 2 * r.h - 4 := by
  have hadd : n + r.core.area = r.area := by exact_mod_cast hn ▸ r.encard_onRim_add
  obtain ⟨w, hw'⟩ : ∃ w, w + 2 = r.w.toNat := ⟨r.w.toNat - 2, by omega⟩
  obtain ⟨h, hh'⟩ : ∃ h, h + 2 = r.h.toNat := ⟨r.h.toNat - 2, by omega⟩
  have hcore : r.core.area = w * h := by
    rw [area, show r.core.w.toNat = w by dsimp only [core]; omega,
      show r.core.h.toNat = h by dsimp only [core]; omega]
  have harea : r.area = w * h + 2 * w + 2 * h + 4 := by
    rw [area, ← hw', ← hh']
    ring
  omega

end Rect

/-- **Outlines are rims.**  The loops that draw the sides of a rectangle end, and they go through the
pixels in its first and last column and row and through no others.  These pixels, so far as they are
on the surface, get the color, and the rest of the surface is unchanged.  Nothing is drawn of a
rectangle without pixels. -/
theorem drawOutline_exact {α : Type} (g : Grid α) (r : Rect) (ink : α) :
    ∃ ps, Line.PursueAll r.sides ps ∧
      (∀ p, p ∈ ps ↔ r.OnRim p) ∧
      (2 ≤ r.w → 2 ≤ r.h → (ps.toFinset.card : ℤ) = 2 * r.w + 2 * r.h - 4) ∧
      g.drawOutline r ink = g.paint ps ink ∧
      (∀ q, (g.drawOutline r ink).get? q =
        if r.OnRim q ∧ g.bounds.covers q = true then some ink else g.get? q) ∧
      (r.w ≤ 0 ∨ r.h ≤ 0 → ps = [] ∧ g.drawOutline r ink = g) := by
  refine ⟨r.outline, Line.pursueAll_points r.sides, fun p => Rect.mem_outline_iff,
    fun hw hh => ?_, g.drawOutline_eq_paint r ink, fun q => ?_, fun hempty => ?_⟩
  · refine Rect.eq_of_encard_onRim hw hh ?_
    rw [← Set.encard_coe_eq_coe_finsetCard, List.coe_toFinset]
    simp only [Rect.mem_outline_iff]
  · rw [g.drawOutline_eq_paint, Grid.get?_paint]
    simp only [Rect.mem_outline_iff]
  · rw [g.drawOutline_eq_paint, Rect.outline, Rect.sides_of_empty hempty]
    exact ⟨rfl, rfl⟩

/-- An outline that reaches out of the surface, with one pixel inside that stays blank, and the
outline of a rectangle without columns. -/
theorem drawOutline_exact_reachingOut :
    (∃ ps, Line.PursueAll (Rect.mk (-1) 2 4 3).sides ps ∧ (ps.toFinset.card : ℤ) = 10) ∧
      ((Canvas.blank 6 6).drawOutline ⟨-1, 2, 4, 3⟩ Color.black).get? ⟨2, 3⟩ = some Color.black ∧
      ((Canvas.blank 6 6).drawOutline ⟨-1, 2, 4, 3⟩ Color.black).get? ⟨1, 3⟩ = some Color.white ∧
      (Canvas.blank 6 6).drawOutline ⟨-1, 2, 0, 3⟩ Color.black = Canvas.blank 6 6 := by
  obtain ⟨ps, hps, -, hcard, -, hget, -⟩ :=
    drawOutline_exact (Canvas.blank 6 6) ⟨-1, 2, 4, 3⟩ Color.black
  obtain ⟨_, -, -, -, -, -, hempty⟩ :=
    drawOutline_exact (Canvas.blank 6 6) ⟨-1, 2, 0, 3⟩ Color.black
  refine ⟨⟨ps, hps, hcard (by decide) (by decide)⟩, ?_, ?_, (hempty (by decide)).2⟩
  · rw [hget]
    decide
  · rw [hget]
    decide

end FlowSketch
