/-
# Rectangles and their sides

A line along an axis has the pixels between its ends and no others: the loop that draws it takes
as many steps as the ends are apart and stays in the rectangle between them.  So sides are drawn
without a gap.

Steps from pixel to neighbour do not pass such sides.  A rectangle of one color with pixels of
other colors around it is all that is connected with a pixel in it.

Main statements: `Line.mem_points_iff`, `connected_iff_covers`.
-/
import Mathlib.Data.Int.Interval
import FlowSketch.Proofs.Raster.Component
import FlowSketch.Proofs.Raster.Line

namespace FlowSketch

/-! ## Lines along an axis -/

namespace Line

variable {u : Axis} {a b p : Point}

/-- The loop that draws a line ends, and the pixels of the line are those that it goes through. -/
lemma exists_pursues_points (a b : Point) :
    ∃ ps, Pursues (.between a b) b (origin a b) ps ∧ ps.map Place.point = points a b := by
  obtain ⟨u, hu⟩ := Axis.exists_longer a b
  have hstart := reaches_origin u a b
  obtain ⟨ps, hps⟩ := hstart.exists_pursues hu
  have hlength := hstart.length_of_pursues hu hps
  refine ⟨ps, hps, ?_⟩
  rw [hps.map_point_eq, show ps.length - 1 = steps a b by rw [u.span_steps a b hu]; omega]
  rfl

/-- The pixels of a line are those of a straight one. -/
lemma straight_points (hu : u.other.span a b ≤ u.span a b) : Straight u a b (points a b) := by
  obtain ⟨ps, hps, hpoints⟩ := exists_pursues_points a b
  rw [← hpoints]
  exact straight_of_pursues hu hps

/-- **A line along an axis has exactly the pixels between its ends.** -/
lemma mem_points_iff (u : Axis) (h : u.other.coord a = u.other.coord b) :
    p ∈ points a b ↔ u.other.coord p = u.other.coord a ∧
      min (u.coord a) (u.coord b) ≤ u.coord p ∧ u.coord p ≤ max (u.coord a) (u.coord b) := by
  have hspan : u.other.span a b ≤ u.span a b := by
    simp [Axis.span, h]
  have hline := straight_points hspan
  constructor
  · intro hp
    have haside := hline.within p hp u.other
    exact ⟨by omega, hline.within p hp u⟩
  · rintro ⟨haside, halong⟩
    -- the pixel that is as many steps from the beginning is this one
    obtain ⟨q, hq⟩ : ∃ q, (points a b)[u.span a p]? = some q := by
      refine ⟨_, List.getElem?_eq_getElem ?_⟩
      rw [hline.length_eq]
      simp only [Axis.span]
      omega
    have hmem := List.mem_of_getElem? hq
    have hsteps := (hline.near _ q hq).1
    have hwithin := hline.within q hmem u
    have hwithin' := hline.within q hmem u.other
    simp only [Axis.span] at hsteps
    rw [Axis.eq_of_coord (show u.coord p = u.coord q by omega) (by omega)]
    exact hmem

lemma mem_points_row {x₀ x₁ y : ℤ} : p ∈ points ⟨x₀, y⟩ ⟨x₁, y⟩ ↔
    p.y = y ∧ min x₀ x₁ ≤ p.x ∧ p.x ≤ max x₀ x₁ :=
  mem_points_iff .across rfl

lemma mem_points_column {x y₀ y₁ : ℤ} : p ∈ points ⟨x, y₀⟩ ⟨x, y₁⟩ ↔
    p.x = x ∧ min y₀ y₁ ≤ p.y ∧ p.y ≤ max y₀ y₁ :=
  mem_points_iff .down rfl

end Line

/-! ## Rectangles -/

/-- A rectangle covers as many pixels as its width and its height say. -/
lemma Rect.encard_covers (r : Rect) : {p | r.covers p = true}.encard = r.area := by
  have hinj : Function.Injective fun z : ℤ × ℤ => Point.mk z.1 z.2 := by
    rintro ⟨x, y⟩ ⟨x', y'⟩ h
    cases h
    rfl
  have himage : {p | r.covers p = true} = (fun z : ℤ × ℤ => Point.mk z.1 z.2) ''
      (Finset.Ico r.x (r.x + r.w) ×ˢ Finset.Ico r.y (r.y + r.h) : Finset (ℤ × ℤ)) := by
    ext ⟨x, y⟩
    simp [covers_iff, and_assoc]
  rw [himage, hinj.encard_image, Set.encard_coe_eq_coe_finsetCard, Finset.card_product,
    Int.card_Ico, Int.card_Ico, add_sub_cancel_left, add_sub_cancel_left]
  rfl

lemma Point.mem_neighbours_iff {p q : Point} : q ∈ p.neighbours ↔
    q.y = p.y ∧ (q.x = p.x + 1 ∨ q.x = p.x - 1) ∨ q.x = p.x ∧ (q.y = p.y + 1 ∨ q.y = p.y - 1) := by
  cases p
  cases q
  simp only [neighbours, shift, List.mem_cons, mk.injEq, List.not_mem_nil, or_false]
  omega

variable {canvas : Canvas} {area r : Rect} {seed p : Point}

/-- No way leads out of a rectangle if the pixels next to it have another color. -/
lemma Connected.covers (h : Connected canvas area seed p) (hseed : r.covers seed = true)
    (hedge : ∀ p q, r.covers p = true → q ∈ p.neighbours → r.covers q = false →
      canvas.get? q ≠ canvas.get? seed) : r.covers p = true := by
  induction h with
  | seed => exact hseed
  | step _ hq _ hcolor ih =>
    rw [← Bool.not_eq_false]
    exact fun hout => hedge _ _ ih hq hout hcolor

/-- In a rectangle, from any other pixel one step leads nearer to a given one. -/
lemma Rect.exists_nearer (hseed : r.covers seed = true) (hp : r.covers p = true)
    (hne : 0 < (p.x - seed.x).natAbs + (p.y - seed.y).natAbs) :
    ∃ q : Point, p ∈ q.neighbours ∧ r.covers q = true ∧
      (q.x - seed.x).natAbs + (q.y - seed.y).natAbs + 1 =
        (p.x - seed.x).natAbs + (p.y - seed.y).natAbs := by
  rw [covers_iff] at hseed hp
  simp only [Point.mem_neighbours_iff, covers_iff]
  rcases lt_trichotomy p.x seed.x with hx | hx | hx
  · exact ⟨⟨p.x + 1, p.y⟩, by dsimp only; omega⟩
  · -- in the right column already, the steps go along it
    rcases lt_or_gt_of_ne (show p.y ≠ seed.y by omega) with hy | hy
    · exact ⟨⟨p.x, p.y + 1⟩, by dsimp only; omega⟩
    · exact ⟨⟨p.x, p.y - 1⟩, by dsimp only; omega⟩
  · exact ⟨⟨p.x - 1, p.y⟩, by dsimp only; omega⟩

/-- In a rectangle of one color any two pixels are connected. -/
lemma connected_of_covers (hseed : r.covers seed = true) (hp : r.covers p = true)
    (hcolor : ∀ q, r.covers q = true →
      area.covers q = true ∧ canvas.get? q = canvas.get? seed) :
    Connected canvas area seed p := by
  -- by induction on the number of steps from the seed
  obtain ⟨n, hn⟩ : ∃ n, (p.x - seed.x).natAbs + (p.y - seed.y).natAbs = n := ⟨_, rfl⟩
  induction n generalizing p with
  | zero =>
    have hx : p.x = seed.x := by omega
    have hy : p.y = seed.y := by omega
    cases p
    cases seed
    cases hx
    cases hy
    exact .seed
  | succ n ih =>
    obtain ⟨q, hpq, hq, hlt⟩ := Rect.exists_nearer hseed hp (by omega)
    exact .step (ih hq (by omega)) hpq (hcolor p hp).1 (hcolor p hp).2

/-- **A rectangle of one color, with pixels of other colors around it, is a component.** -/
lemma connected_iff_covers (hseed : r.covers seed = true)
    (hcolor : ∀ q, r.covers q = true → area.covers q = true ∧ canvas.get? q = canvas.get? seed)
    (hedge : ∀ p q, r.covers p = true → q ∈ p.neighbours → r.covers q = false →
      canvas.get? q ≠ canvas.get? seed) :
    Connected canvas area seed p ↔ r.covers p = true :=
  ⟨fun h => h.covers hseed hedge, fun hp => connected_of_covers hseed hp hcolor⟩

end FlowSketch
