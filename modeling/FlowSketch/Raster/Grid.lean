/-
# Grids of cells

A grid holds one value for each pixel of a surface.  Reading outside of it finds nothing and
writing outside of it changes nothing.  The surface that is drawn on is a grid of colors,
the map of territories a grid of nodes.

Main statement: `get?_set`, which says all about a write.
-/
import FlowSketch.Raster.Color
import FlowSketch.Raster.Geometry

namespace FlowSketch

/-- A rectangle of cells with its corner at the origin, row after row. -/
structure Grid (α : Type) where
  /-- The number of columns. -/
  width : Nat
  /-- The number of rows. -/
  height : Nat
  /-- The cells of the first row, then of the second and so on. -/
  cells : Array α
  /-- There is one cell for each pixel. -/
  size_cells : cells.size = width * height
deriving DecidableEq

namespace Grid

variable {α : Type}

/-- A grid with the same value everywhere. -/
def filled (width height : Nat) (a : α) : Grid α :=
  ⟨width, height, Array.replicate (width * height) a, by simp⟩

/-- A length as a number of thirty-two bits with a sign. -/
@[inline] def side (n : Nat) : Int := (Int32.ofNat n).toInt

/-- The rectangle of all pixels.  A side of 2 ^ 31 or more turns negative in it, so that the
rectangle covers nothing; only a grid without cells is ever that long. -/
@[inline] def bounds (g : Grid α) : Rect := ⟨0, 0, side g.width, side g.height⟩

/-- The place of a pixel among the cells. -/
@[inline] def slot (g : Grid α) (p : Point) : Nat := p.y.toNat * g.width + p.x.toNat

theorem side_eq_bmod (n : Nat) : side n = (n : Int).bmod 0x100000000 := Int32.toInt_ofNat' ..

theorem side_le (n : Nat) : side n ≤ n := by
  rw [side_eq_bmod, Int.bmod_def]
  split <;> omega

theorem slot_lt {g : Grid α} {p : Point} (h : g.bounds.covers p = true) :
    g.slot p < g.cells.size := by
  rw [Rect.covers_iff] at h
  simp only [bounds, Int.zero_add] at h
  have := side_le g.width
  have := side_le g.height
  obtain ⟨h₁, h₂, h₃, h₄⟩ := h
  have hy : p.y.toNat + 1 ≤ g.height := by omega
  have hx : p.x.toNat < g.width := by omega
  rw [g.size_cells, slot, Nat.mul_comm g.width]
  calc p.y.toNat * g.width + p.x.toNat
      < p.y.toNat * g.width + g.width := by omega
    _ = (p.y.toNat + 1) * g.width := by rw [Nat.succ_mul]
    _ ≤ g.height * g.width := Nat.mul_le_mul_right _ hy

/-- The cell at a point. -/
@[inline] def get? (g : Grid α) (p : Point) : Option α :=
  if h : g.bounds.covers p = true then
    have := slot_lt h
    some g.cells[g.slot p]
  else none

/-- The grid with the cell at a point replaced. -/
@[inline] def set (g : Grid α) (p : Point) (a : α) : Grid α :=
  if g.bounds.covers p then
    { g with
      cells := g.cells.setIfInBounds (g.slot p) a
      size_cells := by rw [Array.size_setIfInBounds, g.size_cells] }
  else g

/-- The number of cells with a given value. -/
def count [DecidableEq α] (g : Grid α) (a : α) : Nat := g.cells.countP (· == a)

/-- The rows from top to bottom, each from left to right. -/
def rows (g : Grid α) : List (List α) :=
  (List.range g.height).map fun y =>
    (g.cells.extract (y * g.width) (y * g.width + g.width)).toList

/-! ## Reading after writing -/

/-- Different pixels have different places. -/
theorem slot_inj {g : Grid α} {p q : Point} (hp : g.bounds.covers p = true)
    (hq : g.bounds.covers q = true) (h : g.slot p = g.slot q) : p = q := by
  rw [Rect.covers_iff] at hp hq
  simp only [bounds, Int.zero_add] at hp hq
  have hw := side_le g.width
  have hpx : p.x.toNat < g.width := by omega
  have hqx : q.x.toNat < g.width := by omega
  have hx : p.x.toNat = q.x.toNat := by
    have := congrArg (· % g.width) h
    simpa [slot, Nat.mul_add_mod_self_right, Nat.mod_eq_of_lt hpx, Nat.mod_eq_of_lt hqx]
      using this
  have hy : p.y.toNat = q.y.toNat := by
    have hw : 0 < g.width := by omega
    have h' : p.y.toNat * g.width = q.y.toNat * g.width := by
      simp only [slot] at h
      omega
    exact Nat.eq_of_mul_eq_mul_right hw h'
  cases p; cases q
  simp only [Point.mk.injEq]
  constructor
  · have := hp.1; have := hq.1; simp only at *; omega
  · simp only at *; omega

@[simp] theorem bounds_set (g : Grid α) (p : Point) (a : α) : (g.set p a).bounds = g.bounds := by
  unfold set
  split <;> rfl

@[simp] theorem width_set (g : Grid α) (p : Point) (a : α) : (g.set p a).width = g.width := by
  unfold set
  split <;> rfl

@[simp] theorem height_set (g : Grid α) (p : Point) (a : α) :
    (g.set p a).height = g.height := by
  unfold set
  split <;> rfl

@[simp] theorem slot_set (g : Grid α) (p q : Point) (a : α) :
    (g.set p a).slot q = g.slot q := by
  simp [slot]

theorem get?_eq_none_iff {g : Grid α} {p : Point} :
    g.get? p = none ↔ g.bounds.covers p = false := by
  unfold get?
  split <;> simp_all

/-- A cell that is found lies in the grid. -/
theorem covers_of_get? {g : Grid α} {p : Point} {a : α} (h : g.get? p = some a) :
    g.bounds.covers p = true := by
  unfold get? at h
  split at h
  · assumption
  · cases h

theorem set_of_not_covers {g : Grid α} {p : Point} (a : α) (h : g.bounds.covers p = false) :
    g.set p a = g := by
  simp [set, h]

/-- **A write is seen at its point, if that is in the grid, and nowhere else.** -/
theorem get?_set (g : Grid α) (p q : Point) (a : α) :
    (g.set p a).get? q = if p = q ∧ g.bounds.covers q = true then some a else g.get? q := by
  by_cases hq : g.bounds.covers q = true
  · by_cases hp : g.bounds.covers p = true
    · have hcells : (g.set p a).cells = g.cells.setIfInBounds (g.slot p) a := by
        simp [set, hp]
      simp only [get?, bounds_set, hq, dif_pos, slot_set, hcells, and_true]
      have hlt : g.slot q < g.cells.size := slot_lt hq
      rw [Array.getElem_setIfInBounds hlt]
      by_cases h : p = q
      · simp [h]
      · have hne : g.slot p ≠ g.slot q := fun hs => h (slot_inj hp hq hs)
        simp [h, hne]
    · rw [set_of_not_covers a (by simpa using hp)]
      have : p ≠ q := fun h => hp (h ▸ hq)
      simp [this]
  · simp [get?, hq]

@[simp] theorem get?_filled (w h : Nat) (a : α) (p : Point) :
    (filled w h a).get? p = if (filled w h a).bounds.covers p then some a else none := by
  unfold get?
  split <;> simp_all [filled]

end Grid

/-- The surface that is drawn on. -/
abbrev Canvas := Grid Color

/-- The owner of each pixel. -/
abbrev TerritoryMap := Grid NodeId

/-- A blank surface. -/
def Canvas.blank (width height : Nat) : Canvas := Grid.filled width height Color.white

/-- A surface whose pixels all belong to the root. -/
def TerritoryMap.unclaimed (width height : Nat) : TerritoryMap :=
  Grid.filled width height NodeId.root

end FlowSketch
