/-
# Straight lines and rectangle outlines

A line between two pixels has one pixel for each step along its longer side, both ends
included.  The running error tells how far the line has strayed: a step along a side is
taken whenever that brings the pixel closer to the ideal line.

A line is drawn while it is followed, without making the list of its pixels.  Main statement:
`drawLine_eq_paint`, that this paints the pixels of the list.

The numbers of this file are unlimited; `Raster/Checked` draws with numbers of thirty-two bits.
-/
import FlowSketch.Raster.Grid

namespace FlowSketch

namespace Line

/-- The fixed data of a line. -/
structure Slope where
  /-- The horizontal distance. -/
  dx : Int
  /-- The vertical distance, negated. -/
  dy : Int
  /-- The horizontal direction. -/
  sx : Int
  /-- The vertical direction. -/
  sy : Int
deriving DecidableEq, Repr

/-- The slope from one point to another. -/
def Slope.between (a b : Point) : Slope :=
  { dx := (b.x - a.x).natAbs
    dy := -((b.y - a.y).natAbs : Int)
    sx := if a.x < b.x then 1 else -1
    sy := if a.y < b.y then 1 else -1 }

/-- A place on a line, with the running error. -/
structure Place where
  /-- The pixel. -/
  point : Point
  /-- The running error. -/
  err : Int
deriving DecidableEq, Repr

/-- The next place on a line. -/
@[inline] def advance (s : Slope) (p : Place) : Place :=
  let alongX := s.dy ≤ 2 * p.err
  let alongY := 2 * p.err ≤ s.dx
  { point := ⟨if alongX then p.point.x + s.sx else p.point.x,
      if alongY then p.point.y + s.sy else p.point.y⟩
    err := p.err + (if alongX then s.dy else 0) + (if alongY then s.dx else 0) }

/-- A place and the pixels of the given number of steps from it. -/
def walk (s : Slope) : Nat → Place → List Point
  | 0, p => [p.point]
  | n + 1, p => p.point :: walk s n (advance s p)

/-- The number of steps of a line: the longer of its two sides. -/
def steps (a b : Point) : Nat := max (b.x - a.x).natAbs (b.y - a.y).natAbs

/-- The pixels of a line, from one end to the other. -/
def points (a b : Point) : List Point :=
  let s := Slope.between a b
  walk s (steps a b) ⟨a, s.dx + s.dy⟩

/-- Goes along a line with a running value: through a place and the given number of steps
from it. -/
@[specialize] def follow {σ : Type} (f : σ → Point → σ) (s : Slope) : Nat → Place → σ → σ
  | 0, p, acc => f acc p.point
  | n + 1, p, acc => follow f s n (advance s p) (f acc p.point)

/-- The result of going through the pixels of a line, from one end to the other. -/
@[inline] def fold {σ : Type} (f : σ → Point → σ) (acc : σ) (a b : Point) : σ :=
  let s := Slope.between a b
  follow f s (steps a b) ⟨a, s.dx + s.dy⟩ acc

theorem follow_eq_foldl {σ : Type} (f : σ → Point → σ) (s : Slope) (n : Nat) (p : Place)
    (acc : σ) : follow f s n p acc = (walk s n p).foldl f acc := by
  induction n generalizing p acc with
  | zero => rfl
  | succ n ih => simp [follow, walk, ih]

/-- Going through the pixels of a line is folding over the list of them. -/
theorem fold_eq_foldl {σ : Type} (f : σ → Point → σ) (acc : σ) (a b : Point) :
    fold f acc a b = (points a b).foldl f acc :=
  follow_eq_foldl ..

theorem length_walk (s : Slope) (n : Nat) (p : Place) : (walk s n p).length = n + 1 := by
  induction n generalizing p with
  | zero => rfl
  | succ n ih => simp [walk, ih]

/-- A line has one pixel more than steps. -/
theorem length_points (a b : Point) : (points a b).length = steps a b + 1 :=
  length_walk _ _ _

end Line

/-- The sides of a rectangle, each with its two ends; none if it is empty.  Corners belong to
two sides. -/
def Rect.sides (r : Rect) : List (Point × Point) :=
  if r.w ≤ 0 ∨ r.h ≤ 0 then []
  else
    let x₁ := r.x + r.w - 1
    let y₁ := r.y + r.h - 1
    [(⟨r.x, r.y⟩, ⟨x₁, r.y⟩), (⟨x₁, r.y⟩, ⟨x₁, y₁⟩), (⟨x₁, y₁⟩, ⟨r.x, y₁⟩),
      (⟨r.x, y₁⟩, ⟨r.x, r.y⟩)]

/-- The pixels along the edges of a rectangle, side by side. -/
def Rect.outline (r : Rect) : List Point := r.sides.flatMap fun (a, b) => Line.points a b

namespace Grid

variable {α : Type}

/-- The grid with the same value written at every point of a list. -/
def paint (g : Grid α) (ps : List Point) (a : α) : Grid α := ps.foldl (fun g p => g.set p a) g

/-- The grid with a line drawn. -/
def drawLine (g : Grid α) (a b : Point) (ink : α) : Grid α :=
  Line.fold (fun g p => g.set p ink) g a b

/-- The grid with a rectangle outlined. -/
def drawOutline (g : Grid α) (r : Rect) (ink : α) : Grid α :=
  r.sides.foldl (fun g (a, b) => g.drawLine a b ink) g

/-- A line is drawn by painting its pixels. -/
theorem drawLine_eq_paint (g : Grid α) (a b : Point) (ink : α) :
    g.drawLine a b ink = g.paint (Line.points a b) ink :=
  Line.fold_eq_foldl ..

/-- An outline is drawn by painting its pixels. -/
theorem drawOutline_eq_paint (g : Grid α) (r : Rect) (ink : α) :
    g.drawOutline r ink = g.paint r.outline ink := by
  simp only [drawOutline, drawLine_eq_paint, paint, Rect.outline, List.foldl_flatMap]

@[simp] theorem bounds_paint (g : Grid α) (ps : List Point) (a : α) :
    (g.paint ps a).bounds = g.bounds := by
  induction ps generalizing g with
  | nil => rfl
  | cons p ps ih =>
    change ((g.set p a).paint ps a).bounds = g.bounds
    rw [ih, bounds_set]

/-- Painting is seen exactly at the painted points of the grid. -/
theorem get?_paint (g : Grid α) (ps : List Point) (a : α) (q : Point) :
    (g.paint ps a).get? q = if q ∈ ps ∧ g.bounds.covers q = true then some a else g.get? q := by
  induction ps generalizing g with
  | nil => simp [paint]
  | cons p ps ih =>
    change ((g.set p a).paint ps a).get? q = _
    rw [ih, get?_set, bounds_set]
    by_cases hq : g.bounds.covers q = true
    · by_cases hm : q ∈ ps
      · simp [hm, hq]
      · by_cases hp : p = q
        · subst hp
          simp [hq]
        · have : ¬ q = p := fun h => hp h.symm
          simp [hm, hq, hp, this]
    · simp [hq]

end Grid

end FlowSketch
