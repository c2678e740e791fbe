/-
# Drawing with numbers of thirty-two bits

Coordinates are kept in thirty-two bits, one of them for the sign.  A number that has no room
there is an overflow.  It ends the work: there is no picture with a part of a line in it, and
nothing that comes after the overflow is done.

The work is the same as with unlimited numbers, operation by operation, but every number on the
way is checked.
-/
import FlowSketch.Raster.Line

namespace FlowSketch

/-- An operation with a result that has no room. -/
inductive Overflow where
  | add
  | subtract
  | multiply
  | negate
deriving DecidableEq, Repr

/-- The words for an overflow. -/
def Overflow.message : Overflow → String
  | .add => "attempt to add with overflow"
  | .subtract => "attempt to subtract with overflow"
  | .multiply => "attempt to multiply with overflow"
  | .negate => "attempt to negate with overflow"

/-- Whether a number has room in thirty-two bits with a sign. -/
def FitsWord (n : Int) : Prop := -0x80000000 ≤ n ∧ n < 0x80000000

instance (n : Int) : Decidable (FitsWord n) :=
  inferInstanceAs (Decidable (-0x80000000 ≤ n ∧ n < 0x80000000))

namespace Checked

/-! ## Numbers -/

/-- A number as the result of an operation. -/
@[inline] def word (operation : Overflow) (n : Int) : Except Overflow Int :=
  if FitsWord n then .ok n else .error operation

/-- A sum. -/
@[inline] def add (m n : Int) : Except Overflow Int := word .add (m + n)

/-- A difference. -/
@[inline] def sub (m n : Int) : Except Overflow Int := word .subtract (m - n)

/-- A product. -/
@[inline] def mul (m n : Int) : Except Overflow Int := word .multiply (m * n)

/-- A number with the other sign. -/
@[inline] def neg (n : Int) : Except Overflow Int := word .negate (-n)

/-- The size of a number without its sign. -/
@[inline] def abs (n : Int) : Except Overflow Int := if n < 0 then neg n else .ok n

/-- A sum, if it is due. -/
@[inline] def addIf (due : Bool) (m n : Int) : Except Overflow Int :=
  if due then add m n else .ok m

/-! ## Work in turn -/

/-- Steps for the items of a list, in turn, until one of them fails or overflows. -/
def inTurn {σ ι ε : Type} (step : σ → ι → Except Overflow (Except ε σ)) (s : σ) :
    List ι → Except Overflow (Except ε σ)
  | [] => .ok (.ok s)
  | i :: is => do
    match ← step s i with
    | .ok s => inTurn step s is
    | .error e => return .error e

/-! ## Points and squares -/

/-- A point moved by a distance in each direction. -/
def shift (p : Point) (dx dy : Int) : Except Overflow Point := do
  let x ← add p.x dx
  let y ← add p.y dy
  return ⟨x, y⟩

/-- The square of half-size `radius` around a point. -/
def square (centre : Point) (radius : Int) : Except Overflow Rect := do
  let x ← sub centre.x radius
  let y ← sub centre.y radius
  let w ← mul radius 2
  let h ← mul radius 2
  return ⟨x, y, w, h⟩

/-! ## Lines -/

/-- The slope from one point to another. -/
def slope (a b : Point) : Except Overflow Line.Slope := do
  let dx ← sub b.x a.x
  let dx ← abs dx
  let dy ← sub b.y a.y
  let dy ← abs dy
  let dy ← neg dy
  return { dx, dy, sx := if a.x < b.x then 1 else -1, sy := if a.y < b.y then 1 else -1 }

/-- The place where a line begins. -/
def origin (s : Line.Slope) (a : Point) : Except Overflow Line.Place := do
  let err ← add s.dx s.dy
  return ⟨a, err⟩

/-- The next place on a line. -/
@[inline] def advance (s : Line.Slope) (p : Line.Place) : Except Overflow Line.Place := do
  let double ← mul 2 p.err
  let alongX := decide (s.dy ≤ double)
  let alongY := decide (double ≤ s.dx)
  let err ← addIf alongX p.err s.dy
  let x ← addIf alongX p.point.x s.sx
  let err ← addIf alongY err s.dx
  let y ← addIf alongY p.point.y s.sy
  return ⟨⟨x, y⟩, err⟩

/-- Goes along a line with a running value: through a place and the given number of steps
from it. -/
@[specialize] def follow {σ : Type} (f : σ → Point → σ) (s : Line.Slope) :
    Nat → Line.Place → σ → Except Overflow σ
  | 0, p, acc => .ok (f acc p.point)
  | n + 1, p, acc => do
    let q ← advance s p
    follow f s n q (f acc p.point)

variable {α : Type}

/-- The grid with a line drawn. -/
def drawLine (g : Grid α) (a b : Point) (ink : α) : Except Overflow (Grid α) := do
  let s ← slope a b
  let p ← origin s a
  follow (fun g p => g.set p ink) s (Line.steps a b) p g

/-! ## Outlines -/

/-- The sides of a rectangle, each with its two ends; none if it is empty. -/
def sides (r : Rect) : Except Overflow (List (Point × Point)) :=
  if r.w ≤ 0 ∨ r.h ≤ 0 then .ok []
  else do
    let x₁ ← add r.x r.w
    let x₁ ← sub x₁ 1
    let y₁ ← add r.y r.h
    let y₁ ← sub y₁ 1
    return [(⟨r.x, r.y⟩, ⟨x₁, r.y⟩), (⟨x₁, r.y⟩, ⟨x₁, y₁⟩), (⟨x₁, y₁⟩, ⟨r.x, y₁⟩),
      (⟨r.x, y₁⟩, ⟨r.x, r.y⟩)]

/-- The grid with a rectangle outlined. -/
def drawOutline (g : Grid α) (r : Rect) (ink : α) : Except Overflow (Grid α) := do
  let sides ← sides r
  sides.foldlM (fun g (a, b) => drawLine g a b ink) g

end Checked

end FlowSketch
