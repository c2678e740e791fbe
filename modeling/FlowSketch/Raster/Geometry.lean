/-
# Points and rectangles

Pixels are addressed by whole numbers, `x` to the right and `y` downwards.  A rectangle of
width `w` at `x` covers the columns from `x` up to but not including `x + w`.
-/

namespace FlowSketch

/-- A pixel position. -/
structure Point where
  /-- The column. -/
  x : Int
  /-- The row. -/
  y : Int
deriving DecidableEq, Repr, Inhabited

namespace Point

/-- A point moved by a distance in each direction. -/
def shift (p : Point) (dx dy : Int) : Point := ⟨p.x + dx, p.y + dy⟩

/-- The four neighbours of a pixel: right, left, below and above. -/
def neighbours (p : Point) : List Point :=
  [p.shift 1 0, p.shift (-1) 0, p.shift 0 1, p.shift 0 (-1)]

end Point

/-- An axis-parallel rectangle of pixels. -/
structure Rect where
  /-- The leftmost column. -/
  x : Int
  /-- The topmost row. -/
  y : Int
  /-- The width, in pixels. -/
  w : Int
  /-- The height, in pixels. -/
  h : Int
deriving DecidableEq, Repr, Inhabited

namespace Rect

/-- The square of half-size `radius` around a point. -/
def square (centre : Point) (radius : Int) : Rect :=
  ⟨centre.x - radius, centre.y - radius, radius * 2, radius * 2⟩

/-- Whether a point lies strictly inside, not on the border. -/
def encloses (r : Rect) (p : Point) : Bool :=
  r.x < p.x && p.x < r.x + r.w && r.y < p.y && p.y < r.y + r.h

/-- Whether a point is one of the rectangle's pixels. -/
@[inline] def covers (r : Rect) (p : Point) : Bool :=
  r.x ≤ p.x && p.x < r.x + r.w && r.y ≤ p.y && p.y < r.y + r.h

/-- The number of pixels. -/
def area (r : Rect) : Nat := r.w.toNat * r.h.toNat

/-- The common part of two rectangles, of width or height zero if there is none. -/
def inter (a b : Rect) : Rect :=
  let x₀ := max a.x b.x
  let y₀ := max a.y b.y
  let x₁ := min (a.x + a.w) (b.x + b.w)
  let y₁ := min (a.y + a.h) (b.y + b.h)
  ⟨x₀, y₀, max (x₁ - x₀) 0, max (y₁ - y₀) 0⟩

theorem covers_iff {r : Rect} {p : Point} :
    r.covers p = true ↔ r.x ≤ p.x ∧ p.x < r.x + r.w ∧ r.y ≤ p.y ∧ p.y < r.y + r.h := by
  simp [covers, and_assoc]

/-- The common part covers what both rectangles cover. -/
theorem covers_inter {a b : Rect} {p : Point} :
    (a.inter b).covers p = (a.covers p && b.covers p) := by
  rw [Bool.eq_iff_iff, Bool.and_eq_true, covers_iff, covers_iff, covers_iff]
  simp only [inter]
  omega

end Rect

end FlowSketch
