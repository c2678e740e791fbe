/-
# The shortest decimal of a floating-point number

Every decimal within a certain interval around a double is read back as that double.  Of
these decimals the one with the fewest digits is chosen, of several such the nearest to the
double, and of two equally near the greater.

A decimal with `n` significant digits is a point of a grid.  If some point of a grid lies in
the interval then one of the double's two neighbours on that grid does, so only these are
tried, for one digit, two digits and so on; seventeen are always enough.
-/

namespace FlowSketch.Decimal

/-- A positive finite double: `mantissa * 2 ^ exponent`. -/
structure Binary where
  /-- The whole number of last places. -/
  mantissa : Nat
  /-- The binary exponent of the last place. -/
  exponent : Int
  /-- Whether the doubles below are twice as dense as those above. -/
  denserBelow : Bool
deriving DecidableEq, Repr

/-- The magnitude of a finite double, from its bits without the sign. -/
def Binary.ofMagnitude (bits : Nat) : Binary :=
  let field : Nat := bits / Nat.pow 2 52
  let fraction : Nat := bits % Nat.pow 2 52
  if field = 0 then ⟨fraction, -1074, false⟩
  else ⟨Nat.pow 2 52 + fraction, (field : Int) - 1075, fraction = 0 && 1 < field⟩

/-- The interval of the numbers that are read back as a given double, on a decimal grid.
A grid point `d` stands for `d * unit`; the double for `centre`, the ends of the interval
for `low` and `high`. -/
structure Interval where
  /-- The value of one step of the grid. -/
  unit : Nat
  /-- The double itself. -/
  centre : Nat
  /-- Half way to the double below. -/
  low : Nat
  /-- Half way to the double above. -/
  high : Nat
  /-- Whether the ends are read back as the double too. -/
  closed : Bool
deriving DecidableEq, Repr

namespace Interval

/-- The interval of a double on the grid of the multiples of `10 ^ k`.  Everything is
scaled so as to be a natural number. -/
def ofBinary (b : Binary) (k : Int) : Interval :=
  let q := b.exponent - 2
  let scale := Nat.pow 2 q.toNat * Nat.pow 10 (-k).toNat
  { unit := Nat.pow 2 (-q).toNat * Nat.pow 10 k.toNat
    centre := 4 * b.mantissa * scale
    low := (4 * b.mantissa - (if b.denserBelow then 1 else 2)) * scale
    high := (4 * b.mantissa + 2) * scale
    closed := b.mantissa % 2 = 0 }

/-- Whether a grid point is read back as the double. -/
def contains (i : Interval) (d : Nat) : Bool :=
  let x := d * i.unit
  if i.closed then i.low ≤ x && x ≤ i.high else i.low < x && x < i.high

/-- The grid point just below the double, or on it. -/
def floor (i : Interval) : Nat := i.centre / i.unit

/-- The grid point in the interval that is nearest to the double, the greater of two
equally near. -/
def closest? (i : Interval) : Option Nat :=
  let below := i.floor
  let above := below + 1
  match i.contains below, i.contains above with
  | true, true =>
    if i.centre - below * i.unit < above * i.unit - i.centre then some below else some above
  | true, false => some below
  | false, true => some above
  | false, false => none

theorem contains_of_closest? {i : Interval} {d : Nat} (h : i.closest? = some d) :
    i.contains d = true := by
  unfold closest? at h
  dsimp only at h
  split at h
  case h_1 hb ha => split at h <;> cases h <;> assumption
  case h_2 hb ha => cases h; assumption
  case h_3 hb ha => cases h; assumption
  case h_4 => cases h

end Interval

/-- A decimal: `digits * 10 ^ exponent`. -/
structure Scientific where
  /-- The significant digits, as a whole number. -/
  digits : Nat
  /-- The power of ten of the last digit. -/
  exponent : Int
deriving DecidableEq, Repr

/-- The number of decimal digits in the whole part of a double; for one below 1, minus the
number of zeros right behind the point.  A double of at least `2 ^ -s` has a whole part once
it is multiplied by `10 ^ s`. -/
def wholeDigits (b : Binary) : Int :=
  let s := (-(b.exponent + b.mantissa.log2)).toNat
  ((Nat.toDigits 10 (Interval.ofBinary b (-s)).floor).length : Int) - s

/-- The shortest decimal that is read back as the double. -/
def shortest (b : Binary) : Scientific :=
  let p := wholeDigits b
  let onGrid (n : Nat) : Option Scientific :=
    let k := p - (n + 1 : Nat)
    (Interval.ofBinary b k).closest?.map (⟨·, k⟩)
  ((List.range 17).findSome? onGrid).getD
    ⟨(Interval.ofBinary b (p - 17)).floor, p - 17⟩

end FlowSketch.Decimal
