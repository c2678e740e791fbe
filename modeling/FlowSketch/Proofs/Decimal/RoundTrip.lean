/-
# A written number is read back

A number in positional notation is digits with perhaps a fraction behind a point.  The value
of the digits is that of the shortest decimal, which lies in the interval of the double, so
that reading rounds it to the double again.  A zero is written without its sign.

Main statement: `number_writeUnsignedZero`, that the grammar of programs reads a finite
number back, whatever follows it that is neither a digit nor a point.
-/
import Mathlib.Data.List.TakeWhile
import FlowSketch.Program.Grammar
import FlowSketch.Proofs.Decimal.Double
import FlowSketch.Proofs.Decimal.Shortest
import FlowSketch.Proofs.Text.Rule

namespace FlowSketch.Decimal

open FlowSketch.Text (Rule)

/-! ## Zeros around digits -/

lemma valueOf_zeros (n : ℕ) : valueOf (List.replicate n '0') = 0 := by
  induction n with
  | zero => rfl
  | succ n ih =>
    rw [List.replicate_succ', valueOf_append, ih, Nat.zero_mul]
    rfl

lemma valueOf_append_zeros (ds : List Char) (n : ℕ) :
    valueOf (ds ++ List.replicate n '0') = valueOf ds * 10 ^ n := by
  rw [valueOf_append, valueOf_zeros, List.length_replicate, Nat.add_zero, Nat.pow_eq]

lemma valueOf_padLeft (width : ℕ) (ds : List Char) : valueOf (padLeft width ds) = valueOf ds := by
  rw [padLeft, valueOf_append, valueOf_zeros, Nat.zero_mul, Nat.zero_add]

lemma length_padLeft {width : ℕ} {ds : List Char} (h : ds.length ≤ width) :
    (padLeft width ds).length = width := by
  rw [padLeft, List.length_append, List.length_replicate]
  omega

/-- What is cut off at the end of a text are zeros. -/
lemma exists_zeros (ds : List Char) :
    ∃ n, ds = dropTrailingZeros ds ++ List.replicate n '0' := by
  refine ⟨(ds.reverse.takeWhile (· == '0')).length, ?_⟩
  have hzeros : ds.reverse.takeWhile (· == '0') =
      List.replicate (ds.reverse.takeWhile (· == '0')).length '0' := by
    rw [List.eq_replicate_iff]
    exact ⟨rfl, fun c hc => by simpa using List.mem_takeWhile_imp hc⟩
  have hsplit := congrArg List.reverse
    (List.takeWhile_append_dropWhile (p := (· == '0')) (l := ds.reverse))
  rw [List.reverse_append, List.reverse_reverse, hzeros, List.reverse_replicate] at hsplit
  exact hsplit.symm

/-! ## Positional notation -/

/-- Digits with a fraction behind a point, if there is one. -/
def pointed (whole fraction : List Char) : List Char :=
  if fraction.isEmpty then whole else whole ++ '.' :: fraction

lemma isDigit_of_mem_zeros {n : ℕ} {c : Char} (h : c ∈ List.replicate n '0') :
    c.isDigit = true := by
  rw [List.eq_of_mem_replicate h]
  rfl

/-- The digits behind the point are those of the remainder, up to zeros at the end. -/
lemma fraction_spec (d : ℕ) {n : ℕ} (hn : 0 < n) :
    (∀ c ∈ dropTrailingZeros (padLeft n (digitsOf (d % 10 ^ n))), c.isDigit = true) ∧
    ∃ k, (dropTrailingZeros (padLeft n (digitsOf (d % 10 ^ n)))).length + k = n ∧
      valueOf (dropTrailingZeros (padLeft n (digitsOf (d % 10 ^ n)))) * 10 ^ k = d % 10 ^ n := by
  have hlen : (digitsOf (d % 10 ^ n)).length ≤ n :=
    (Nat.length_toDigits_le_iff (by decide) hn).mpr (Nat.mod_lt _ (Nat.pow_pos (by decide)))
  obtain ⟨k, hk⟩ := exists_zeros (padLeft n (digitsOf (d % 10 ^ n)))
  have hvalue := valueOf_padLeft n (digitsOf (d % 10 ^ n))
  have hwidth := length_padLeft hlen
  have hdigits : ∀ c ∈ padLeft n (digitsOf (d % 10 ^ n)), c.isDigit = true := by
    intro c hc
    rcases List.mem_append.mp hc with hc | hc
    · exact isDigit_of_mem_zeros hc
    · exact isDigit_of_mem_toDigits hc
  rw [hk] at hvalue hwidth hdigits
  rw [valueOf_append_zeros, digitsOf, valueOf_toDigits] at hvalue
  rw [List.length_append, List.length_replicate] at hwidth
  exact ⟨fun c hc => hdigits c (List.mem_append_left _ hc), k, hwidth, hvalue⟩

/-- A decimal is written as digits that have its value. -/
lemma exists_pointed (x : Scientific) : ∃ whole fraction : List Char,
    x.positional = pointed whole fraction ∧ whole ≠ [] ∧
      (∀ c ∈ whole, c.isDigit = true) ∧ (∀ c ∈ fraction, c.isDigit = true) ∧
      (valueOf (whole ++ fraction) : ℚ) * 10 ^ (-(fraction.length : ℤ)) = x.value := by
  unfold Scientific.positional
  split
  · rename_i h
    refine ⟨digitsOf x.digits ++ List.replicate x.exponent.toNat '0', [], rfl, ?_, ?_, ?_, ?_⟩
    · exact List.append_ne_nil_of_left_ne_nil Nat.toDigits_ne_nil _
    · intro c hc
      rcases List.mem_append.mp hc with hc | hc
      · exact isDigit_of_mem_toDigits hc
      · exact isDigit_of_mem_zeros hc
    · intro c hc
      cases hc
    · obtain ⟨n, hn⟩ := Int.eq_ofNat_of_zero_le h
      rw [List.append_nil, valueOf_append_zeros, digitsOf, valueOf_toDigits, Scientific.value, hn]
      simp
  · rename_i h
    obtain ⟨n, hn⟩ : ∃ n : ℕ, (-x.exponent).toNat = n := ⟨_, rfl⟩
    simp only [hn, Nat.pow_eq]
    obtain ⟨hdigits, k, hlength, hvalue⟩ := fraction_spec x.digits (n := n) (by omega)
    generalize dropTrailingZeros (padLeft n (digitsOf (x.digits % 10 ^ n))) = fraction at *
    refine ⟨digitsOf (x.digits / 10 ^ n), fraction, rfl, Nat.toDigits_ne_nil,
      fun c hc => isDigit_of_mem_toDigits hc, hdigits, ?_⟩
    have hsum : x.digits = (x.digits / 10 ^ n * 10 ^ fraction.length + valueOf fraction) * 10 ^ k := by
      calc x.digits = 10 ^ n * (x.digits / 10 ^ n) + x.digits % 10 ^ n :=
            (Nat.div_add_mod _ _).symm
        _ = (x.digits / 10 ^ n * 10 ^ fraction.length + valueOf fraction) * 10 ^ k := by
          rw [← hvalue, Nat.add_mul, Nat.mul_assoc, ← pow_add, hlength, Nat.mul_comm]
    have hall : valueOf (digitsOf (x.digits / 10 ^ n) ++ fraction) =
        x.digits / 10 ^ n * 10 ^ fraction.length + valueOf fraction := by
      rw [valueOf_append, digitsOf, valueOf_toDigits, Nat.pow_eq]
    have hexponent : x.exponent = -(fraction.length : ℤ) + -(k : ℤ) := by omega
    rw [Scientific.value, hexponent, hall]
    generalize x.digits / 10 ^ n * 10 ^ fraction.length + valueOf fraction = v at hsum ⊢
    rw [hsum]
    push_cast
    rw [zpow_add₀ (by norm_num), zpow_neg, zpow_neg, zpow_natCast, zpow_natCast]
    field_simp

/-! ## Reading -/

/-- What is read as a double other than zero is at least half of the smallest one. -/
lemma Binary.IsOf.le_of_reads {b : Binary} {m : ℕ} (hb : b.IsOf m) (hpos : 0 < b.mantissa) {x : ℚ}
    (h : b.Reads x) : (2 : ℚ) ^ (-1075 : ℤ) ≤ x := by
  have hone : (1 : ℚ) ≤ b.mantissa := by exact_mod_cast hpos
  have hreach := b.reach_le
  calc (2 : ℚ) ^ (-1075 : ℤ) = 1 / 2 * 2 ^ (-1074 : ℤ) := by
        rw [show (-1075 : ℤ) = -1 + -1074 by norm_num, zpow_add₀ (by norm_num), zpow_neg_one,
          one_div]
    _ ≤ 1 / 2 * 2 ^ b.exponent := by
      have : (2 : ℚ) ^ (-1074 : ℤ) ≤ 2 ^ b.exponent :=
        zpow_le_zpow_right₀ (by norm_num) hb.exponent_ge
      linarith
    _ ≤ (b.mantissa - b.reach) * 2 ^ b.exponent := by
      have := b.two_pow_pos
      gcongr
      linarith
    _ ≤ x := h.1

/-- A decimal whose power of ten is left out is smaller than all that is read as a double other
than zero. -/
lemma neg_400_le_of_le {mantissa : ℕ} {e : ℤ} (h : (2 : ℚ) ^ (-1075 : ℤ) ≤ mantissa * 10 ^ e) :
    -400 ≤ e + (mantissa.log2 + 1 : ℕ) := by
  have hten : (0 : ℚ) < 10 ^ e := zpow_pos (by norm_num) e
  by_contra hlt
  have hlog : (mantissa : ℚ) < 10 ^ (mantissa.log2 + 1) := by
    calc (mantissa : ℚ) < 2 ^ (mantissa.log2 + 1) := by exact_mod_cast Nat.lt_log2_self
      _ ≤ 10 ^ (mantissa.log2 + 1) := pow_le_pow_left₀ (by norm_num) (by norm_num) _
  have : mantissa * (10 : ℚ) ^ e < 2 ^ (-1075 : ℤ) := by
    calc mantissa * (10 : ℚ) ^ e < 10 ^ (mantissa.log2 + 1) * 10 ^ e := by gcongr
      _ = 10 ^ (e + (mantissa.log2 + 1 : ℕ)) := by
        rw [zpow_add₀ (by norm_num), zpow_natCast, mul_comm]
      _ ≤ 10 ^ (-401 : ℤ) := zpow_le_zpow_right₀ (by norm_num) (by omega)
      _ ≤ 8 ^ (-401 : ℤ) := by
        rw [zpow_neg, zpow_neg]
        exact inv_anti₀ (by positivity) (zpow_le_zpow_left₀ (by norm_num) (by norm_num)
          (by norm_num))
      _ = 2 ^ (3 * -401 : ℤ) := by
        rw [zpow_mul]
        norm_num
      _ ≤ 2 ^ (-1075 : ℤ) := zpow_le_zpow_right₀ (by norm_num) (by norm_num)
  exact absurd this (not_lt.mpr h)

/-- A double of positive magnitude is what its decimals are read as. -/
lemma ofScientific_of_reads {b : Binary} {m mantissa : ℕ} {e : ℤ} (negative : Bool)
    (hb : b.IsOf m) (hpos : 0 < b.mantissa) (hm : m < infinityBits) (he : e ≤ 0)
    (h : b.Reads (mantissa * 10 ^ e)) : ofScientific negative mantissa e =
      Float.ofBits (UInt64.ofNat ((if negative then 2 ^ 63 else 0) + m)) := by
  have hmin := hb.le_of_reads hpos h
  have hmantissa : mantissa ≠ 0 := by
    rintro rfl
    rw [Nat.cast_zero, zero_mul] at hmin
    exact absurd (zpow_pos (by norm_num : (0 : ℚ) < 2) (-1075)) (not_lt.mpr hmin)
  have hguard : (mantissa = 0 || e + (mantissa.log2 + 1 : ℕ) < -400) = false := by
    rw [Bool.or_eq_false_iff, decide_eq_false_iff_not, decide_eq_false_iff_not]
    exact ⟨hmantissa, not_lt.mpr (neg_400_le_of_le hmin)⟩
  have hnonneg : e.toNat = 0 := by omega
  have hratio : ((mantissa : ℕ) / (10 ^ (-e).toNat : ℕ) : ℚ) = mantissa * 10 ^ e := by
    rw [zpow_eq_div 10 e, hnonneg]
    push_cast
    ring
  unfold ofScientific
  rw [if_neg (by rw [hguard]; decide), if_neg (by omega), hnonneg]
  simp only [Nat.pow_eq, pow_zero, Nat.mul_one, nearest, if_neg hmantissa]
  rw [nearestBits_of_reads hb hm (Nat.pos_of_ne_zero hmantissa) (Nat.pow_pos (by decide))
    (by rwa [hratio])]

lemma ofScientific_zero (e : ℤ) : ofScientific false 0 e = 0 := by
  unfold ofScientific
  rw [if_pos (by simp)]
  rfl

/-- Digits with a fraction are read with the value of all digits, and the power of ten that
the fraction says. -/
lemma number_pointed (negative : Bool) (whole fraction : List Char) {t : List Char} (hne : whole ≠ [])
    (hwhole : ∀ c ∈ whole, c.isDigit = true) (hfraction : ∀ c ∈ fraction, c.isDigit = true)
    (ht : ∀ c ∈ t.head?, c.isDigit = false) (hpoint : ∀ c ∈ t.head?, (c == '.') = false) :
    Grammar.number (.of ((if negative then ['-'] else []) ++ (pointed whole fraction ++ t))) =
      .ok (ofScientific negative (longValueOf (whole ++ fraction)) (-(fraction.length : ℤ)))
        (.of t) := by
  have hminus : Rule.attempt (Rule.char '-')
      (.of ((if negative then ['-'] else []) ++ (pointed whole fraction ++ t))) =
      .ok (if negative then some () else none) (.of (pointed whole fraction ++ t)) := by
    cases negative with
    | true => exact Rule.attempt_of_ok (Rule.char_cons_self _ _)
    | false =>
      obtain ⟨c, cs, rfl⟩ := List.exists_cons_of_ne_nil hne
      have hhead : (pointed (c :: cs) fraction ++ t).head? = some c := by
        unfold pointed
        split <;> rfl
      refine Rule.attempt_of_error (Rule.char_of_not fun d hd => ?_)
      rw [show (if false = true then ['-'] else []) ++ (pointed (c :: cs) fraction ++ t) =
        pointed (c :: cs) fraction ++ t from rfl, hhead, Option.mem_some_iff] at hd
      rw [← hd]
      exact Rule.beq_of_class (hwhole c (by simp)) (by decide)
  have hdigits : ∀ {ds u : List Char}, ds ≠ [] → (∀ c ∈ ds, c.isDigit = true) →
      (∀ c ∈ u.head?, c.isDigit = false) → Rule.digits (.of (ds ++ u)) = .ok ds (.of u) :=
    fun h h' h'' => Rule.several_append h h' h''
  unfold Grammar.number
  rw [Rule.bind_of_ok _ hminus]
  cases hf : fraction.isEmpty with
  | true =>
    have hnil : fraction = [] := List.isEmpty_iff.mp hf
    subst hnil
    have htext : pointed whole [] = whole := rfl
    rw [htext, Rule.bind_of_ok _ (hdigits hne hwhole ht),
      Rule.bind_of_ok _ (Rule.attempt_of_error (Rule.bind_of_error _ (Rule.char_of_not hpoint)))]
    cases negative <;> rfl
  | false =>
    have hfne : fraction ≠ [] := fun h => by
      rw [h] at hf
      cases hf
    have htext : pointed whole fraction ++ t = whole ++ ('.' :: (fraction ++ t)) := by
      simp [pointed, hf]
    rw [htext, Rule.bind_of_ok _ (hdigits hne hwhole (by simp)),
      Rule.bind_of_ok _ (Rule.attempt_of_ok ((Rule.bind_of_ok _ (Rule.char_cons_self _ _)).trans
        (hdigits hfne hfraction ht)))]
    cases negative <;> rfl

/-! ## Doubles -/

/-- The value that a finite number is read back as. -/
lemma ofScientific_shortest {x : Float} (hx : x.isFinite = true) (h0 : magnitude x ≠ 0)
    {whole fraction : List Char}
    (h : (valueOf (whole ++ fraction) : ℚ) * 10 ^ (-(fraction.length : ℤ)) =
      (shortest (Binary.ofMagnitude (magnitude x))).value) :
    ofScientific (decide (2 ^ 63 ≤ x.toBits.toNat)) (longValueOf (whole ++ fraction))
      (-(fraction.length : ℤ)) = x := by
  have hb := Binary.isOf_ofMagnitude (magnitude x)
  have hpos := hb.mantissa_pos h0
  rw [longValueOf_eq, ofScientific_of_reads _ hb hpos (magnitude_lt_infinityBits hx) (by omega)
    (by rw [h]; exact reads_shortest hpos hb)]
  have hbits : (if decide (2 ^ 63 ≤ x.toBits.toNat) = true then 2 ^ 63 else 0) + magnitude x =
      x.toBits.toNat := by
    have hlt : x.toBits.toNat < 2 ^ 64 := x.toBits.toNat_lt
    unfold magnitude
    split
    · rename_i hsign
      have := of_decide_eq_true hsign
      omega
    · rename_i hsign
      have : ¬ 2 ^ 63 ≤ x.toBits.toNat := fun h => hsign (decide_eq_true h)
      omega
  rw [hbits, UInt64.ofNat_toNat, ofBits_toBits hx]

/-- The text of a number: digits with perhaps a fraction, after the sign. -/
lemma toList_write {x : Float} (hx : x.isFinite = true) (h0 : magnitude x ≠ 0) :
    (write x).toList = (if decide (2 ^ 63 ≤ x.toBits.toNat) then ['-'] else []) ++
      (shortest (Binary.ofMagnitude (magnitude x))).positional := by
  have hlt := magnitude_lt_infinityBits hx
  unfold write
  dsimp only
  rw [show x.toBits.toNat % Nat.pow 2 63 = magnitude x from rfl, if_neg hlt.le.not_gt,
    if_neg hlt.ne, if_neg h0, Nat.pow_eq]
  by_cases hsign : 2 ^ 63 ≤ x.toBits.toNat
  · rw [if_pos hsign, if_pos (decide_eq_true hsign)]
    simp
  · rw [if_neg hsign, if_neg (by simpa using hsign)]
    simp

/-- **A finite number is read back by the grammar of programs**, with one zero only, whatever
follows it that is neither a digit nor a point. -/
lemma number_writeUnsignedZero {x : Float} (hx : x.isFinite = true) {t : List Char}
    (ht : ∀ c ∈ t.head?, c.isDigit = false) (hpoint : ∀ c ∈ t.head?, (c == '.') = false) :
    Grammar.number (.of ((writeUnsignedZero x).toList ++ t)) =
      .ok (if x == 0 then 0 else x) (.of t) := by
  unfold writeUnsignedZero
  cases h0 : x == 0 with
  | true =>
    have := number_pointed false ['0'] [] (t := t) (by simp)
      (by simp) (by simp) ht hpoint
    rw [List.append_nil, longValueOf_eq, show valueOf ['0'] = 0 from rfl, ofScientific_zero] at this
    rw [if_pos rfl, if_pos rfl, show "0".toList = ['0'] from rfl]
    exact this
  | false =>
    have hmagnitude : magnitude x ≠ 0 := fun h => by
      rw [beq_zero_of_magnitude h] at h0
      cases h0
    obtain ⟨whole, fraction, htext, hne, hwhole, hfraction, hvalue⟩ :=
      exists_pointed (shortest (Binary.ofMagnitude (magnitude x)))
    rw [if_neg (by decide), if_neg (by decide), toList_write hx hmagnitude, htext,
      List.append_assoc, number_pointed _ _ _ hne hwhole hfraction ht hpoint,
      ofScientific_shortest hx hmagnitude hvalue]

end FlowSketch.Decimal
