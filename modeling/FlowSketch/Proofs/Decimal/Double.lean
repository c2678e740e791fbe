/-
# The bits of a double

A double is its bits: one of the sign, eleven of the exponent and fifty-two of the fraction.
Those of an undefined result are not kept, so the bits are given back only for the others.
Here this is said for the finite ones, whose exponent is not the greatest.

Main statements: `ofBits_toBits`, that a finite double is found again from its bits, and
`magnitude_lt_infinityBits`, which tells them by their bits.
-/
import Mathlib.Algebra.Order.Ring.Nat
import Mathlib.Tactic.Common
import FlowSketch.Decimal.Nearest

namespace FlowSketch.Decimal

open Float.Model Float.Model.UnpackedFloat

/-! ## Taking the bits apart -/

section Packing

variable (b : BitVec Format.binary64.numBits)

lemma toNat_unpackExponent : (unpackExponent b).toNat = b.toNat % 2 ^ 63 / 2 ^ 52 := by
  simp [unpackExponent, BitVec.extractLsb_toNat]
  omega

lemma toBitVec_ofBitVec (s : BitVec 1) : (Sign.ofBitVec s).toBitVec = s := by
  revert s
  decide

/-- The three parts make up the bits. -/
lemma packComponents_unpack :
    packComponents Format.binary64 (Sign.ofBitVec (unpackSign b)) (unpackExponent b)
      (unpackMantissa b) = b := by
  have happend : packComponents Format.binary64 (Sign.ofBitVec (unpackSign b)) (unpackExponent b)
      (unpackMantissa b) = BitVec.cast rfl
        ((b.extractLsb' 63 1 ++ b.extractLsb' 52 11) ++ b.extractLsb' 0 52) := by
    rw [← toBitVec_ofBitVec (b.extractLsb' 63 1)]
    rfl
  rw [happend]
  apply BitVec.eq_of_getLsbD_eq
  intro i hi
  rw [BitVec.getLsbD_cast, BitVec.getLsbD_append, BitVec.getLsbD_append]
  by_cases hlow : i < 52
  · rw [if_pos hlow, BitVec.getLsbD_extractLsb', decide_eq_true hlow, Bool.true_and, Nat.zero_add]
  · have hback : 52 + (i - 52) = i := by omega
    rw [if_neg hlow]
    by_cases hmid : i - 52 < 11
    · rw [if_pos hmid, BitVec.getLsbD_extractLsb', decide_eq_true hmid, Bool.true_and, hback]
    · have hhigh : i - 52 - 11 < 1 := by
        change i < 64 at hi
        omega
      have hback' : 63 + (i - 52 - 11) = i := by omega
      rw [if_neg hmid, BitVec.getLsbD_extractLsb', decide_eq_true hhigh, Bool.true_and, hback']

/-- The fraction with its implicit leading bit. -/
lemma toNat_implicit (m : BitVec 52) : (1#1 ++ m).toNat = 2 ^ 52 + m.toNat := by
  rw [BitVec.toNat_append, ← Nat.shiftLeft_add_eq_or_of_lt m.isLt]
  rfl

/-- A fraction without an implicit bit is packed with the exponent zero. -/
lemma pack_subnormal (hz : unpackExponent b = 0#_) (hmz : unpackMantissa b ≠ 0#52) :
    UnpackedFloat.pack Format.binary64 (UnpackedFloat.unpack Format.binary64 b) = b := by
  have hparts := packComponents_unpack b
  rw [hz] at hparts
  have hm : (unpackMantissa b).toNat < 2 ^ 52 := (unpackMantissa b).isLt
  have hpos : (unpackMantissa b).toNat ≠ 0 := fun h0 =>
    hmz (BitVec.eq_of_toNat_eq (by simpa using h0))
  have hlog : (unpackMantissa b).toNat.log2 < 52 := (Nat.log2_lt hpos).mpr hm
  have hsubnormal : (unpackMantissa b).toNat.log2 + 1 ≠ Format.binary64.mantissaBits := by
    change _ ≠ 53
    omega
  unfold UnpackedFloat.unpack
  dsimp only
  rw [if_neg (by rw [hz]; decide), if_pos hz, dif_neg hmz]
  unfold UnpackedFloat.pack
  dsimp only
  rw [if_neg (by rw [hz]; decide), if_neg hsubnormal, BitVec.ofNat_toNat, BitVec.setWidth_eq]
  exact hparts

/-- A fraction with its implicit bit is packed with the exponent that it had. -/
lemma pack_normal (hz : unpackExponent b ≠ 0#_) (h : unpackExponent b ≠ -1#_) :
    UnpackedFloat.pack Format.binary64 (UnpackedFloat.unpack Format.binary64 b) = b := by
  have hparts := packComponents_unpack b
  have hm : (unpackMantissa b).toNat < 2 ^ 52 := (unpackMantissa b).isLt
  have he : (unpackExponent b).toNat < 2 ^ 11 := (unpackExponent b).isLt
  have he' : (unpackExponent b).toNat ≠ 2047 := by
    intro hall
    apply h
    apply BitVec.eq_of_toNat_eq
    rw [hall]
    decide
  have hlog : (2 ^ 52 + (unpackMantissa b).toNat).log2 = 52 := by
    rw [Nat.log2_eq_iff (by omega)]
    omega
  have hexp : ((unpackExponent b).toNat - (Format.binary64.exponentBias +
      Format.binary64.mantissaBitsWithoutImplicit) + Format.binary64.exponentBias +
      Format.binary64.mantissaBitsWithoutImplicit : ℤ).toNat = (unpackExponent b).toNat := by
    change ((unpackExponent b).toNat - ((1023 : ℕ) + (52 : ℕ)) + (1023 : ℕ) + (52 : ℕ) : ℤ).toNat
      = _
    omega
  have hfraction : BitVec.ofNat 52 (2 ^ 52 + (unpackMantissa b).toNat) = unpackMantissa b := by
    apply BitVec.eq_of_toNat_eq
    rw [BitVec.toNat_ofNat]
    omega
  have hbounded : ¬ 2 ^ Format.binary64.exponentBits ≤ (unpackExponent b).toNat + 1 := by
    change ¬ 2 ^ 11 ≤ _
    omega
  unfold UnpackedFloat.unpack
  dsimp only
  rw [if_neg h, if_neg hz]
  unfold UnpackedFloat.pack
  dsimp only
  rw [toNat_implicit, hlog, hexp, if_neg hbounded,
    if_pos (show 52 + 1 = Format.binary64.mantissaBits from rfl), hfraction, BitVec.ofNat_toNat,
    BitVec.setWidth_eq]
  exact hparts

/-- What is packed after it was unpacked is the same, unless it is beyond the finite
doubles. -/
lemma pack_unpack (h : unpackExponent b ≠ -1#_) :
    UnpackedFloat.pack Format.binary64 (UnpackedFloat.unpack Format.binary64 b) = b := by
  by_cases hz : unpackExponent b = 0#_
  · by_cases hmz : unpackMantissa b = 0#52
    · have hparts := packComponents_unpack b
      rw [hz, hmz] at hparts
      unfold UnpackedFloat.unpack
      dsimp only
      rw [if_neg h, if_pos hz, dif_pos hmz]
      exact hparts
    · exact pack_subnormal b hz hmz
  · exact pack_normal b hz h

end Packing

/-! ## Finite doubles -/

/-- The bits of a double without the sign. -/
def magnitude (x : Float) : ℕ := x.toBits.toNat % 2 ^ 63

variable {x : Float}

lemma unpackExponent_ne_of_isFinite (h : x.isFinite = true) :
    @unpackExponent Format.binary64 x.toBits.toBitVec ≠ -1#_ := by
  intro hall
  have hx : x.isFinite =
      (UnpackedFloat.unpack Format.binary64 x.toBits.toBitVec).isFinite := rfl
  rw [hx] at h
  unfold UnpackedFloat.unpack at h
  dsimp only at h
  rw [if_pos hall] at h
  split at h <;> cases h

/-- A finite double is found again from its bits. -/
lemma ofBits_toBits (h : x.isFinite = true) : Float.ofBits x.toBits = x := by
  have hpack := pack_unpack _ (unpackExponent_ne_of_isFinite h)
  obtain ⟨bits, valid⟩ := x
  unfold Float.ofBits Float.Model.ofBits Float.Model.pack
  congr 2
  exact congrArg UInt64.ofBitVec hpack

/-- The finite doubles are below infinity. -/
lemma magnitude_lt_infinityBits (h : x.isFinite = true) : magnitude x < infinityBits := by
  have hne := unpackExponent_ne_of_isFinite h
  have hlt : (@unpackExponent Format.binary64 x.toBits.toBitVec).toNat < 2 ^ 11 :=
    (@unpackExponent Format.binary64 x.toBits.toBitVec).isLt
  have hne' : (@unpackExponent Format.binary64 x.toBits.toBitVec).toNat ≠ 2047 := by
    intro hall
    apply hne
    apply BitVec.eq_of_toNat_eq
    rw [hall]
    decide
  rw [toNat_unpackExponent] at hlt hne'
  change x.toBits.toNat % 2 ^ 63 < 2047 * 2 ^ 52
  change x.toBits.toNat % 2 ^ 63 / 2 ^ 52 < 2 ^ 11 at hlt
  change x.toBits.toNat % 2 ^ 63 / 2 ^ 52 ≠ 2047 at hne'
  omega

/-- A double without a magnitude is a zero, of one sign or the other. -/
lemma beq_zero_of_magnitude (h : magnitude x = 0) : (x == 0) = true := by
  have hbits : x.toBits.toNat = 0 ∨ x.toBits.toNat = 2 ^ 63 := by
    have hlt : x.toBits.toNat < 2 ^ 64 := x.toBits.toNat_lt
    unfold magnitude at h
    omega
  have hx : ∀ bits : UInt64, x.toBits = bits →
      (x == 0) = (UnpackedFloat.unpack Format.binary64 bits.toBitVec).beq
        (UnpackedFloat.unpack Format.binary64 (0 : Float).toBits.toBitVec) := by
    rintro _ rfl
    rfl
  rcases hbits with h0 | h0
  · rw [hx 0 (UInt64.toNat_inj.mp h0)]
    decide
  · rw [hx (UInt64.ofNat (2 ^ 63)) (UInt64.toNat_inj.mp (h0.trans (by decide)))]
    decide

/-- A finite double equals itself. -/
lemma beq_self_of_isFinite (h : x.isFinite = true) : (x == x) = true := by
  have hx : x.isFinite = (UnpackedFloat.unpack Format.binary64 x.toBits.toBitVec).isFinite := rfl
  rw [hx] at h
  change (UnpackedFloat.unpack Format.binary64 x.toBits.toBitVec).beq
    (UnpackedFloat.unpack Format.binary64 x.toBits.toBitVec) = true
  cases hu : UnpackedFloat.unpack Format.binary64 x.toBits.toBitVec with
  | infinity s =>
    rw [hu] at h
    cases h
  | notANumber =>
    rw [hu] at h
    cases h
  | zero s => rfl
  | finite s m e hm =>
    have he : compare e e = .eq := compare_eq_iff_eq.mpr rfl
    have hm : compare m m = .eq := compare_eq_iff_eq.mpr rfl
    cases s with
    | positive =>
      change (some ((compare e e).then (compare m m)) == some .eq) = true
      rw [he, hm]
      rfl
    | negative =>
      change (some ((compare e e).then (compare m m)).swap == some .eq) = true
      rw [he, hm]
      rfl

/-- Equality with zero is symmetric. -/
lemma zero_beq_of_beq_zero (h : (x == 0) = true) : ((0 : Float) == x) = true := by
  have hzero : UnpackedFloat.unpack Format.binary64 (0 : Float).toBits.toBitVec = .zero .positive :=
    rfl
  change (UnpackedFloat.unpack Format.binary64 x.toBits.toBitVec).beq
    (UnpackedFloat.unpack Format.binary64 (0 : Float).toBits.toBitVec) = true at h
  change (UnpackedFloat.unpack Format.binary64 (0 : Float).toBits.toBitVec).beq
    (UnpackedFloat.unpack Format.binary64 x.toBits.toBitVec) = true
  rw [hzero] at h ⊢
  cases hu : UnpackedFloat.unpack Format.binary64 x.toBits.toBitVec with
  | infinity s =>
    rw [hu] at h
    cases s <;> cases h
  | notANumber =>
    rw [hu] at h
    cases h
  | zero s => rfl
  | finite s m e hm =>
    rw [hu] at h
    cases s <;> cases h
end FlowSketch.Decimal
