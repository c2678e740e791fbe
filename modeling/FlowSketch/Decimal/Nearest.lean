/-
# The nearest floating-point number to a ratio

A positive ratio of natural numbers is rounded to a double: fifty-three significant bits,
or fewer near zero, where the last place is worth 2 ^ -1074.  Of two doubles equally near
the one with an even last place is taken.  All of the work is on natural numbers.
-/

namespace FlowSketch.Decimal

/-- The natural number nearest to `num / den`, the even one of two equally near. -/
def roundHalfEven (num den : Nat) : Nat :=
  let q := num / den
  let r := num % den
  if 2 * r < den then q
  else if den < 2 * r then q + 1
  else q + q % 2

/-- The greatest `e` with `2 ^ e ≤ num / den`, for a positive ratio. -/
def binaryExponent (num den : Nat) : Int :=
  let e : Int := (num.log2 : Int) - (den.log2 : Int)
  if den * Nat.pow 2 e.toNat ≤ num * Nat.pow 2 (-e).toNat then e else e - 1

/-- The bits of positive infinity. -/
def infinityBits : Nat := 2047 * Nat.pow 2 52

/-- The bits of the double nearest to a positive ratio.  With `m` units of 2 ^ q in the
value, the bits are those of `m` with the exponent added above the fraction; a carry out
of the fraction moves into the exponent by itself, and out of the greatest exponent into
infinity. -/
def nearestBits (num den : Nat) : Nat :=
  let q := max (binaryExponent num den - 52) (-1074)
  let m := roundHalfEven (num * Nat.pow 2 (-q).toNat) (den * Nat.pow 2 q.toNat)
  min ((q + 1074).toNat * Nat.pow 2 52 + m) infinityBits

/-- The double nearest to `num / den`, or to its negative. -/
def nearest (negative : Bool) (num den : Nat) : Float :=
  let magnitude := if num = 0 then 0 else nearestBits num den
  Float.ofBits (UInt64.ofNat ((if negative then Nat.pow 2 63 else 0) + magnitude))

end FlowSketch.Decimal
