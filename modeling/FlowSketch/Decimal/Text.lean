/-
# Decimal text

How numbers are written and read.  A number is written with the fewest digits that read
back as the same number, in positional notation however large or small it is.  Reading
accepts a sign, digits with a point anywhere among them and a power of ten, and the words
for infinity and for an undefined result; it takes the nearest double.

Texts may be very long.  Their digits are read by halves; `longValueOf_eq` says that this is
the value which reading them one by one gives.
-/
import FlowSketch.Decimal.Nearest
import FlowSketch.Decimal.Shortest
import FlowSketch.Text.Rule

namespace FlowSketch.Decimal

open FlowSketch.Text (Rule)

/-! ## Writing -/

/-- The decimal digits of a natural number. -/
def digitsOf (n : Nat) : List Char := Nat.toDigits 10 n

/-- A text filled up with zeros on the left. -/
def padLeft (width : Nat) (s : List Char) : List Char :=
  List.replicate (width - s.length) '0' ++ s

/-- A text without its trailing zeros. -/
def dropTrailingZeros (s : List Char) : List Char := (s.reverse.dropWhile (· == '0')).reverse

/-- A decimal in positional notation.  There is a point only if a digit other than zero
follows it. -/
def Scientific.positional (x : Scientific) : List Char :=
  if 0 ≤ x.exponent then digitsOf x.digits ++ List.replicate x.exponent.toNat '0'
  else
    let places := (-x.exponent).toNat
    let whole := digitsOf (x.digits / Nat.pow 10 places)
    let fraction := dropTrailingZeros (padLeft places (digitsOf (x.digits % Nat.pow 10 places)))
    if fraction.isEmpty then whole else whole ++ '.' :: fraction

/-- A double as text.  Zero keeps its sign. -/
def write (x : Float) : String :=
  let bits := x.toBits.toNat
  let magnitude := bits % Nat.pow 2 63
  if infinityBits < magnitude then "NaN"
  else
    let unsigned :=
      if magnitude = infinityBits then "inf"
      else if magnitude = 0 then "0"
      else String.ofList (shortest (Binary.ofMagnitude magnitude)).positional
    if Nat.pow 2 63 ≤ bits then "-" ++ unsigned else unsigned

/-- A double as text, with one zero only. -/
def writeUnsignedZero (x : Float) : String := if x == 0 then "0" else write x

/-! ## Reading -/

/-- The digit that a character stands for. -/
def digitOf (c : Char) : Nat := c.toNat - '0'.toNat

/-- The value of a text of decimal digits. -/
def valueOf (ds : List Char) : Nat := ds.foldl (fun n c => 10 * n + digitOf c) 0

/-- The value of the first `n` digits of a text, and the rest of it.  A long text is read by
halves, so that most of the products are of numbers of the same length. -/
def leadingValue (n : Nat) (ds : List Char) : Nat × List Char :=
  if n < 16 then (valueOf (ds.take n), ds.drop n)
  else
    let (high, ds) := leadingValue (n / 2) ds
    let (low, ds) := leadingValue (n - n / 2) ds
    (high * Nat.pow 10 (n - n / 2) + low, ds)
termination_by n
decreasing_by all_goals omega

/-- The value of a text of decimal digits, however long. -/
def longValueOf (ds : List Char) : Nat := (leadingValue ds.length ds).1

/-- The power of ten that a text of decimal digits says.  A power of 65536 or more is beyond
all numbers: the digits that follow it do not count. -/
def powerOf (ds : List Char) : Nat :=
  ds.foldl (fun n c => if n < 65536 then 10 * n + digitOf c else n) 0

/-- The double nearest to `mantissa * 10 ^ exponent`.  A value outside of `10 ^ ±400` is
beyond the range of the doubles, so its power of ten is not computed; a mantissa below
`2 ^ k` is also below `10 ^ k`. -/
def ofScientific (negative : Bool) (mantissa : Nat) (exponent : Int) : Float :=
  if mantissa = 0 || exponent + (mantissa.log2 + 1 : Nat) < -400 then nearest negative 0 1
  else if 400 < exponent then nearest negative (Nat.pow 10 400) 1
  else nearest negative (mantissa * Nat.pow 10 exponent.toNat) (Nat.pow 10 (-exponent).toNat)

/-- Reads the given word, in capital or small letters. -/
def word (w : String) : Rule Unit := fun s =>
  if (s.chars.take w.length).map Char.toLower = w.toList then .ok () (s.drop w.length)
  else .error () s

/-- Reads an optional sign: whether it is a minus. -/
def sign : Rule Bool := do
  if ← Rule.ahead "-" then
    Rule.char '-'
    return true
  else if ← Rule.ahead "+" then
    Rule.char '+'
    return false
  else return false

/-- Reads the exponent behind the digits, zero if there is none. -/
def exponentPart : Rule Int := do
  match ← Rule.attempt (Rule.one fun c => c == 'e' || c == 'E') with
  | none => return 0
  | some _ =>
    let negative ← sign
    let n := powerOf (← Rule.digits)
    return if negative then -(n : Int) else n

/-- Reads digits with a point somewhere among them, and an exponent. -/
def digitsAndExponent (negative : Bool) : Rule Float := do
  let whole ← Rule.many Char.isDigit
  let fraction ← Rule.attempt (do Rule.char '.'; Rule.many Char.isDigit)
  let fraction := fraction.getD []
  if whole.isEmpty && fraction.isEmpty then Rule.fail
  let e ← exponentPart
  return ofScientific negative (longValueOf (whole ++ fraction)) (e - fraction.length)

/-- The value of a word for a number that has no digits. -/
def special (negative : Bool) : Rule Float :=
  let infinity : Float := 1.0 / 0.0
  Rule.orElse (do word "infinity"; return if negative then -infinity else infinity)
    (Rule.orElse (do word "inf"; return if negative then -infinity else infinity)
      (do word "nan"; return 0.0 / 0.0))

/-- Reads a number. -/
def number : Rule Float := do
  let negative ← sign
  Rule.orElse (digitsAndExponent negative) (special negative)

/-- The number that a text is, if the whole text is one. -/
def read? (s : List Char) : Option Float :=
  match number (.of s) with
  | .ok x r => if r.isEmpty then some x else none
  | .error _ _ => none

/-! ## Values of digits -/

theorem foldl_digits (ds : List Char) (n : Nat) :
    ds.foldl (fun n c => 10 * n + digitOf c) n = n * Nat.pow 10 ds.length + valueOf ds := by
  induction ds generalizing n with
  | nil => simp [valueOf]
  | cons d ds ih =>
    rw [valueOf, List.foldl_cons, List.foldl_cons, ih, ih (10 * 0 + digitOf d)]
    simp only [List.length_cons, Nat.pow_succ, Nat.pow_eq]
    rw [Nat.add_mul, Nat.mul_zero, Nat.zero_add, Nat.add_assoc, Nat.mul_comm 10 n,
      Nat.mul_assoc, Nat.mul_comm 10]

/-- The value of two texts in a row. -/
theorem valueOf_append (ds es : List Char) :
    valueOf (ds ++ es) = valueOf ds * Nat.pow 10 es.length + valueOf es := by
  rw [valueOf, List.foldl_append, foldl_digits, ← valueOf]

/-- The digits of a number are read back as that number. -/
theorem valueOf_toDigits (n : Nat) : valueOf (Nat.toDigits 10 n) = n :=
  Nat.ofDigitChars_ten_toDigits

theorem isDigit_of_mem_toDigits {n : Nat} {c : Char} (h : c ∈ Nat.toDigits 10 n) :
    c.isDigit = true :=
  Nat.isDigit_of_mem_toDigits (by decide) (by decide) h

theorem leadingValue_eq (n : Nat) (ds : List Char) (h : n ≤ ds.length) :
    leadingValue n ds = (valueOf (ds.take n), ds.drop n) := by
  induction n using Nat.strongRecOn generalizing ds with
  | _ n ih =>
    rw [leadingValue]
    split
    · rfl
    · rename_i hn
      rw [ih (n / 2) (by omega) ds (by omega)]
      have hd : n - n / 2 ≤ (ds.drop (n / 2)).length := by
        rw [List.length_drop]
        omega
      simp only
      rw [ih (n - n / 2) (by omega) _ hd]
      simp only
      have hs : n = n / 2 + (n - n / 2) := by omega
      have ht : ds.take n = ds.take (n / 2) ++ (ds.drop (n / 2)).take (n - n / 2) := by
        rw [← List.take_add, ← hs]
      rw [ht, valueOf_append, List.drop_drop, ← hs, List.length_take_of_le hd]

/-- Reading by halves is reading. -/
theorem longValueOf_eq (ds : List Char) : longValueOf ds = valueOf ds := by
  rw [longValueOf, leadingValue_eq _ _ (Nat.le_refl _), List.take_length]

end FlowSketch.Decimal
