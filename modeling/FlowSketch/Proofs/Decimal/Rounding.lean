/-
# Rounding to the nearest double

A double is a whole number of last places, and every ratio within half a place of it is
rounded to it; a ratio at the end of the interval is so if the number of places is even.  Just
below a power of two the places are half as large, and the interval is shorter on that side.

The arithmetic is on rational numbers here.  Main statement: `nearestBits_of_reads`, that a
ratio in the interval of a double is read as the bits of the double.
-/
import Mathlib.Algebra.Order.Field.Power
import Mathlib.Algebra.Order.Field.Rat
import Mathlib.Tactic.FieldSimp
import Mathlib.Tactic.Linarith
import Mathlib.Tactic.NormNum
import Mathlib.Tactic.Positivity
import Mathlib.Tactic.Ring
import FlowSketch.Decimal.Shortest
import FlowSketch.Decimal.Nearest

namespace FlowSketch.Decimal

/-! ## Powers as ratios -/

/-- A power with a whole exponent, told by two natural ones of which one is zero. -/
lemma zpow_eq_div (b : ℚ) (e : ℤ) : b ^ e = b ^ e.toNat / b ^ (-e).toNat := by
  rcases le_total 0 e with h | h
  · obtain ⟨n, rfl⟩ := Int.eq_ofNat_of_zero_le h
    have hneg : (-(n : ℤ)).toNat = 0 := by omega
    rw [hneg, pow_zero, div_one, Int.toNat_natCast, zpow_natCast]
  · obtain ⟨n, hn⟩ := Int.eq_ofNat_of_zero_le (a := -e) (by omega)
    have he : e = -(n : ℤ) := by omega
    have hpos : (-(n : ℤ)).toNat = 0 := by omega
    rw [he, hpos, neg_neg, Int.toNat_natCast, pow_zero, zpow_neg, zpow_natCast, one_div]

/-- A power of two some places further up. -/
lemma two_zpow_add (e : ℤ) (n : ℕ) : (2 : ℚ) ^ (e + n) = 2 ^ n * 2 ^ e := by
  rw [zpow_add₀ (by norm_num), zpow_natCast, mul_comm]

/-! ## Rounding to a whole number -/

/-- A ratio within half a unit of a whole number is rounded to it, at the ends of the interval
if the number is even. -/
lemma roundHalfEven_eq {num den m : ℕ} (hden : 0 < den)
    (hlow : 2 * m * den ≤ 2 * num + den) (hhigh : 2 * num ≤ (2 * m + 1) * den)
    (htie : m % 2 = 0 ∨ 2 * m * den < 2 * num + den ∧ 2 * num < (2 * m + 1) * den) :
    roundHalfEven num den = m := by
  have hd := Nat.div_add_mod num den
  have hm := Nat.mod_lt num hden
  generalize hq : num / den = q at hd
  generalize hr : num % den = r at hd hm
  -- the whole number is one of the two neighbours
  have hle : q ≤ m := by
    have : den * q < den * (m + 1) := by
      rw [Nat.mul_add, Nat.mul_comm den m]
      rw [Nat.add_mul, Nat.mul_assoc] at hhigh
      omega
    exact Nat.lt_succ_iff.mp (Nat.lt_of_mul_lt_mul_left this)
  have hge : m ≤ q + 1 := by
    have : den * m < den * (q + 2) := by
      rw [Nat.mul_add, Nat.mul_comm den m]
      rw [Nat.mul_assoc] at hlow
      omega
    exact Nat.lt_succ_iff.mp (Nat.lt_of_mul_lt_mul_left this)
  simp only [roundHalfEven, hq, hr]
  rcases (by omega : m = q ∨ m = q + 1) with rfl | rfl
  · have e : (2 * m + 1) * den = 2 * (den * m) + den := by ring
    rw [e] at hhigh htie
    split
    · rfl
    · rw [if_neg (by omega)]
      omega
  · have e : 2 * (q + 1) * den = 2 * (den * q) + 2 * den := by ring
    have e' : (2 * (q + 1) + 1) * den = 2 * (den * q) + 3 * den := by ring
    rw [e] at hlow htie
    rw [e'] at hhigh htie
    rw [if_neg (by omega)]
    split
    · rfl
    · omega

/-- The same for a ratio of rational numbers. -/
lemma roundHalfEven_of_near {num den m : ℕ} (hden : 0 < den) {v : ℚ} (hv : v = num / den)
    (hlow : m - 1 / 2 ≤ v) (hhigh : v ≤ m + 1 / 2)
    (htie : m % 2 = 0 ∨ m - 1 / 2 < v ∧ v < m + 1 / 2) : roundHalfEven num den = m := by
  have hden' : (0 : ℚ) < den := by exact_mod_cast hden
  have hnum : (num : ℚ) = v * den := by
    rw [hv]
    field_simp
  apply roundHalfEven_eq hden
  · have : (2 * m * den : ℚ) ≤ 2 * num + den := by
      rw [hnum]
      nlinarith
    exact_mod_cast this
  · have : (2 * num : ℚ) ≤ (2 * m + 1) * den := by
      rw [hnum]
      nlinarith
    exact_mod_cast this
  · rcases htie with h | ⟨h, h'⟩
    · exact .inl h
    · refine .inr ⟨?_, ?_⟩
      · have : (2 * m * den : ℚ) < 2 * num + den := by
          rw [hnum]
          nlinarith
        exact_mod_cast this
      · have : (2 * num : ℚ) < (2 * m + 1) * den := by
          rw [hnum]
          nlinarith
        exact_mod_cast this

/-! ## The binary exponent of a ratio -/

lemma two_zpow_log2_le {n : ℕ} (hn : 0 < n) : (2 : ℚ) ^ (n.log2 : ℤ) ≤ n := by
  rw [zpow_natCast]
  exact_mod_cast Nat.log2_self_le hn.ne'

lemma lt_two_zpow_log2 (n : ℕ) : (n : ℚ) < 2 ^ ((n.log2 : ℤ) + 1) := by
  rw [← Nat.cast_succ, zpow_natCast]
  exact_mod_cast Nat.lt_log2_self

/-- The exponent of the greatest power of two that is not above a ratio. -/
lemma binaryExponent_spec {num den : ℕ} (hnum : 0 < num) (hden : 0 < den) :
    (2 : ℚ) ^ binaryExponent num den ≤ num / den ∧
      (num / den : ℚ) < 2 ^ (binaryExponent num den + 1) := by
  have hden' : (0 : ℚ) < den := by exact_mod_cast hden
  have hn := two_zpow_log2_le hnum
  have hn' := lt_two_zpow_log2 num
  have hd := two_zpow_log2_le hden
  have hd' := lt_two_zpow_log2 den
  set e : ℤ := (num.log2 : ℤ) - den.log2 with he
  have hpos : ∀ k : ℤ, (0 : ℚ) < 2 ^ k := fun k => zpow_pos (by norm_num) k
  -- the quotient of the two leading powers is right, or one too great
  have hhigh : (num / den : ℚ) < 2 ^ (e + 1) := by
    rw [div_lt_iff₀ hden']
    calc (num : ℚ) < 2 ^ ((num.log2 : ℤ) + 1) := hn'
      _ = 2 ^ (e + 1) * 2 ^ (den.log2 : ℤ) := by
        rw [← zpow_add₀ (by norm_num)]
        congr 1
        omega
      _ ≤ 2 ^ (e + 1) * den := by
        have := hpos (e + 1)
        gcongr
  have hlow : (2 : ℚ) ^ (e - 1) ≤ num / den := by
    rw [le_div_iff₀ hden']
    calc (2 : ℚ) ^ (e - 1) * den ≤ 2 ^ (e - 1) * 2 ^ ((den.log2 : ℤ) + 1) := by
          have := hpos (e - 1)
          gcongr
      _ = 2 ^ (num.log2 : ℤ) := by
        rw [← zpow_add₀ (by norm_num)]
        congr 1
        omega
      _ ≤ num := hn
  have htest : den * Nat.pow 2 e.toNat ≤ num * Nat.pow 2 (-e).toNat ↔
      (2 : ℚ) ^ e ≤ num / den := by
    rw [le_div_iff₀ hden', zpow_eq_div 2 e, div_mul_eq_mul_div, div_le_iff₀ (by positivity),
      mul_comm _ (den : ℚ)]
    norm_cast
  unfold binaryExponent
  dsimp only
  rw [← he]
  split
  · rename_i h
    exact ⟨htest.mp h, hhigh⟩
  · rename_i h
    rw [htest, not_le] at h
    rw [sub_add_cancel]
    exact ⟨hlow, h⟩

/-! ## Doubles as ratios -/

namespace Binary

/-- How far below a double the ratios are read as it, in last places. -/
def reach (b : Binary) : ℚ := if b.denserBelow then 1 / 4 else 1 / 2

/-- A ratio is read as a double: it lies in the interval around it, which has its ends if the
mantissa is even. -/
def Reads (b : Binary) (v : ℚ) : Prop :=
  (b.mantissa - b.reach) * 2 ^ b.exponent ≤ v ∧ v ≤ (b.mantissa + 1 / 2) * 2 ^ b.exponent ∧
    (b.mantissa % 2 = 0 ∨
      (b.mantissa - b.reach) * 2 ^ b.exponent < v ∧ v < (b.mantissa + 1 / 2) * 2 ^ b.exponent)

/-- A double is the one of a magnitude. -/
structure IsOf (b : Binary) (magnitude : ℕ) : Prop where
  mantissa_lt : b.mantissa < 2 ^ 53
  exponent_ge : -1074 ≤ b.exponent
  normal : 2 ^ 52 ≤ b.mantissa ∨ b.exponent = -1074
  denser : b.denserBelow = true ↔ b.mantissa = 2 ^ 52 ∧ -1074 < b.exponent
  bits : (b.exponent + 1074).toNat * 2 ^ 52 + b.mantissa = magnitude

lemma isOf_ofMagnitude (m : ℕ) : (ofMagnitude m).IsOf m := by
  have hdiv := Nat.div_add_mod m (2 ^ 52)
  have hmod := Nat.mod_lt m (show 0 < 2 ^ 52 by norm_num)
  unfold ofMagnitude
  simp only [Nat.pow_eq]
  generalize m / 2 ^ 52 = field at *
  generalize m % 2 ^ 52 = fraction at *
  split
  · rename_i h
    subst h
    exact ⟨by dsimp only; omega, by simp, .inr rfl, by simp, by simp; omega⟩
  · rename_i h
    refine ⟨by dsimp only; omega, by dsimp only; omega, .inl (by dsimp only; omega), ?_, ?_⟩
    · simp only [Bool.and_eq_true, decide_eq_true_eq]
      omega
    · have hexp : ((field : ℤ) - 1075 + 1074).toNat + 1 = field := by omega
      dsimp only
      generalize ((field : ℤ) - 1075 + 1074).toNat = e at *
      subst hexp
      omega

lemma IsOf.mantissa_pos {b : Binary} {m : ℕ} (hb : b.IsOf m) (hm : m ≠ 0) : 0 < b.mantissa := by
  have hbits := hb.bits
  rcases hb.normal with h | h
  · omega
  · rw [h] at hbits
    omega

lemma reach_le (b : Binary) : b.reach ≤ 1 / 2 := by
  unfold reach
  split <;> norm_num

/-- Up to half a place away a whole number of places is the nearest one. -/
lemma Reads.near {b : Binary} {v : ℚ} (h : b.Reads v) :
    (b.mantissa - 1 / 2) * 2 ^ b.exponent ≤ v ∧ v ≤ (b.mantissa + 1 / 2) * 2 ^ b.exponent ∧
      (b.mantissa % 2 = 0 ∨
        (b.mantissa - 1 / 2) * 2 ^ b.exponent < v ∧
          v < (b.mantissa + 1 / 2) * 2 ^ b.exponent) := by
  obtain ⟨hlow, hhigh, htie⟩ := h
  have hpos : (0 : ℚ) < 2 ^ b.exponent := zpow_pos (by norm_num) _
  have hle : (b.mantissa - 1 / 2) * 2 ^ b.exponent ≤
      (b.mantissa - b.reach) * (2 : ℚ) ^ b.exponent := by
    have := reach_le b
    gcongr
  exact ⟨hle.trans hlow, hhigh, htie.imp_right fun ⟨h, h'⟩ => ⟨hle.trans_lt h, h'⟩⟩

variable {b : Binary} {m : ℕ} {v : ℚ}

/-- A ratio that is read as a double lies below the next power of two. -/
lemma IsOf.lt_of_reads (hb : b.IsOf m) (h : b.Reads v) : v < 2 ^ (b.exponent + (53 : ℕ)) := by
  have hpos : (0 : ℚ) < 2 ^ b.exponent := zpow_pos (by norm_num) _
  have hlt : (b.mantissa : ℚ) + 1 ≤ 2 ^ 53 := by exact_mod_cast hb.mantissa_lt
  calc v ≤ (b.mantissa + 1 / 2) * 2 ^ b.exponent := h.2.1
    _ < 2 ^ 53 * 2 ^ b.exponent := by
      have : (b.mantissa : ℚ) + 1 / 2 < 2 ^ 53 := by linarith
      gcongr
    _ = 2 ^ (b.exponent + (53 : ℕ)) := (two_zpow_add _ _).symm

/-- Below the powers of two of its places a ratio is read only as such a power. -/
lemma IsOf.eq_of_reads_below (hb : b.IsOf m) (h : b.Reads v)
    (hbelow : v < 2 ^ (b.exponent + (52 : ℕ))) (hmin : -1074 < b.exponent) :
    b.mantissa = 2 ^ 52 := by
  have hpos : (0 : ℚ) < 2 ^ b.exponent := zpow_pos (by norm_num) _
  by_contra hne
  have hgt : 2 ^ 52 + 1 ≤ b.mantissa := by
    rcases hb.normal with hnormal | hsub
    · omega
    · omega
  have hgt' : (2 ^ 52 + 1 : ℚ) ≤ b.mantissa := by exact_mod_cast hgt
  have hreach := reach_le b
  have hcontra : (2 : ℚ) ^ (b.exponent + (52 : ℕ)) < v := by
    calc (2 : ℚ) ^ (b.exponent + (52 : ℕ)) = 2 ^ 52 * 2 ^ b.exponent := two_zpow_add _ _
      _ < (b.mantissa - b.reach) * 2 ^ b.exponent := by
        have : (2 ^ 52 : ℚ) < b.mantissa - b.reach := by linarith
        gcongr
      _ ≤ v := h.1
  exact absurd hbelow hcontra.le.not_gt

end Binary

/-! ## Rounding to a double -/

/-- The bits that are found once the exponent of the last place is known. -/
lemma nearestBits_eq {num den : ℕ} {q : ℤ} {n : ℕ} (hden : 0 < den)
    (hq : max (binaryExponent num den - 52) (-1074) = q)
    (hlow : (n - 1 / 2) * 2 ^ q ≤ (num / den : ℚ)) (hhigh : (num / den : ℚ) ≤ (n + 1 / 2) * 2 ^ q)
    (htie : n % 2 = 0 ∨
      (n - 1 / 2) * 2 ^ q < (num / den : ℚ) ∧ (num / den : ℚ) < (n + 1 / 2) * 2 ^ q) :
    nearestBits num den = min ((q + 1074).toNat * 2 ^ 52 + n) infinityBits := by
  have hpos : (0 : ℚ) < 2 ^ q := zpow_pos (by norm_num) q
  have hround : roundHalfEven (num * 2 ^ (-q).toNat) (den * 2 ^ q.toNat) = n := by
    apply roundHalfEven_of_near (v := (num / den : ℚ) / 2 ^ q)
    · exact Nat.mul_pos hden (Nat.pow_pos (by norm_num))
    · rw [zpow_eq_div 2 q]
      push_cast
      field_simp
    · rwa [le_div_iff₀ hpos]
    · rwa [div_le_iff₀ hpos]
    · rwa [lt_div_iff₀ hpos, div_lt_iff₀ hpos]
  unfold nearestBits
  dsimp only
  simp only [Nat.pow_eq]
  rw [hq, hround]

/-- The exponent of a ratio from the powers of two around it. -/
lemma binaryExponent_eq {num den : ℕ} (hnum : 0 < num) (hden : 0 < den) {e : ℤ}
    (hlow : (2 : ℚ) ^ e ≤ num / den) (hhigh : (num / den : ℚ) < 2 ^ (e + 1)) :
    binaryExponent num den = e := by
  obtain ⟨h, h'⟩ := binaryExponent_spec hnum hden
  have hle := (zpow_lt_zpow_iff_right₀ (by norm_num : (1 : ℚ) < 2)).mp (h.trans_lt hhigh)
  have hge := (zpow_lt_zpow_iff_right₀ (by norm_num : (1 : ℚ) < 2)).mp (hlow.trans_lt h')
  omega

/-- A ratio just below a power of two, where the places are half as large, is rounded up
to it. -/
lemma nearestBits_of_reads_below {b : Binary} {m num den : ℕ} (hb : b.IsOf m)
    (hm : m < infinityBits) (hnum : 0 < num) (hden : 0 < den) (h : b.Reads (num / den))
    (hbelow : (num / den : ℚ) < 2 ^ (b.exponent + (52 : ℕ))) (hmin : -1074 < b.exponent) :
    nearestBits num den = m := by
  have hM := hb.eq_of_reads_below h hbelow hmin
  have hreach : b.reach = 1 / 4 := by
    rw [Binary.reach, if_pos (hb.denser.mpr ⟨hM, hmin⟩)]
  have hbits := hb.bits
  obtain ⟨hlow, -, -⟩ := h
  rw [hM, hreach] at hlow
  generalize b.exponent = e at *
  have hunit : (0 : ℚ) < 2 ^ (e - 1) := zpow_pos (by norm_num) _
  have htwo : (2 : ℚ) ^ e = 2 * 2 ^ (e - 1) := by
    rw [← zpow_one_add₀ (by norm_num)]
    congr 1
    omega
  have hpow : (2 : ℚ) ^ (e + (52 : ℕ)) = 2 ^ 53 * 2 ^ (e - 1) := by
    rw [two_zpow_add, htwo]
    ring
  rw [hpow] at hbelow
  rw [htwo] at hlow
  push_cast at hlow
  have hexp : binaryExponent num den = e + 51 := by
    apply binaryExponent_eq hnum hden
    · calc (2 : ℚ) ^ (e + 51) = 2 ^ 52 * 2 ^ (e - 1) := by
            rw [← two_zpow_add]
            congr 1
            omega
        _ ≤ (2 ^ 52 - 1 / 4) * (2 * 2 ^ (e - 1)) := by linarith
        _ ≤ num / den := hlow
    · calc (num / den : ℚ) < 2 ^ 53 * 2 ^ (e - 1) := hbelow
        _ = 2 ^ (e + 51 + 1) := by
          rw [← two_zpow_add]
          congr 1
          omega
  -- its mantissa in the smaller places is twice the mantissa of the power of two
  have hn : ((2 * b.mantissa : ℕ) : ℚ) = 2 ^ 53 := by
    rw [hM]
    norm_num
  have hq : max (binaryExponent num den - 52) (-1074) = e - 1 := by omega
  have hbits' : (e - 1 + 1074).toNat * 2 ^ 52 + 2 * b.mantissa = m := by
    obtain ⟨k, hk⟩ : ∃ k : ℕ, (e + 1074).toNat = k + 1 := ⟨(e + 1073).toNat, by omega⟩
    have hk' : (e - 1 + 1074).toNat = k := by omega
    rw [← hbits, hk, hk', hM]
    ring
  rw [nearestBits_eq hden hq ?_ ?_ (.inl (Nat.mul_mod_right 2 b.mantissa)), hbits',
    Nat.min_eq_left hm.le]
  · rw [hn]
    linarith
  · rw [hn]
    linarith

/-- **A ratio in the interval of a double is rounded to it.** -/
lemma nearestBits_of_reads {b : Binary} {m num den : ℕ} (hb : b.IsOf m) (hm : m < infinityBits)
    (hnum : 0 < num) (hden : 0 < den) (h : b.Reads (num / den)) : nearestBits num den = m := by
  by_cases hbelow : (num / den : ℚ) < 2 ^ (b.exponent + (52 : ℕ)) ∧ -1074 < b.exponent
  · exact nearestBits_of_reads_below hb hm hnum hden h hbelow.1 hbelow.2
  -- the places of the ratio are those of the double
  have hexp := hb.exponent_ge
  have hq : max (binaryExponent num den - 52) (-1074) = b.exponent := by
    obtain ⟨hle, hlt⟩ := binaryExponent_spec hnum hden
    have hhigh := (zpow_lt_zpow_iff_right₀ (by norm_num : (1 : ℚ) < 2)).mp
      (hle.trans_lt (hb.lt_of_reads h))
    by_cases hmin : -1074 < b.exponent
    · have hge : (2 : ℚ) ^ (b.exponent + (52 : ℕ)) ≤ num / den :=
        not_lt.mp fun hcontra => hbelow ⟨hcontra, hmin⟩
      have := (zpow_lt_zpow_iff_right₀ (by norm_num : (1 : ℚ) < 2)).mp (hge.trans_lt hlt)
      omega
    · omega
  obtain ⟨hlow, hhigh, htie⟩ := h.near
  rw [nearestBits_eq hden hq hlow hhigh htie, hb.bits, Nat.min_eq_left hm.le]

end FlowSketch.Decimal
