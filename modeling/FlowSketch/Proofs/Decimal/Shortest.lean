/-
# The shortest decimal is read back

The integers that stand for the interval of a double are its rational ends, scaled by a
common factor, so a grid point passes the test exactly if it lies in the interval.  On the
grid of seventeen digits half a step is less than the way to either end, and the nearer of
the two neighbours passes.

Main statement: `reads_shortest`, that the chosen decimal lies in the interval of the double.
-/
import FlowSketch.Proofs.Decimal.Rounding

namespace FlowSketch.Decimal

namespace Binary

/-- The double as a ratio. -/
def value (b : Binary) : ℚ := b.mantissa * 2 ^ b.exponent

lemma two_pow_pos (b : Binary) : (0 : ℚ) < 2 ^ b.exponent := zpow_pos (by norm_num) _

lemma value_pos {b : Binary} (h : 0 < b.mantissa) : 0 < b.value := by
  have := b.two_pow_pos
  have : (0 : ℚ) < b.mantissa := by exact_mod_cast h
  unfold value
  positivity

/-- A ratio strictly inside of the interval is read as the double. -/
lemma reads_of_lt {b : Binary} {v : ℚ} (hlow : b.value - b.reach * 2 ^ b.exponent < v)
    (hhigh : v < b.value + 1 / 2 * 2 ^ b.exponent) : b.Reads v := by
  unfold value at hlow hhigh
  rw [← sub_mul] at hlow
  rw [← add_mul] at hhigh
  exact ⟨hlow.le, hhigh.le, .inr ⟨hlow, hhigh⟩⟩

/-- Seventeen digits tell doubles apart: a ten to the sixteenth of a double is less than the
way to the lower end of its interval, doubled. -/
lemma IsOf.value_lt_reach {b : Binary} {m : ℕ} (hb : b.IsOf m) :
    b.value < 2 * 10 ^ 16 * (b.reach * 2 ^ b.exponent) := by
  have hpos := b.two_pow_pos
  have hmantissa : (b.mantissa : ℚ) < 2 * 10 ^ 16 * b.reach := by
    unfold reach
    split
    · rename_i h
      rw [(hb.denser.mp h).1]
      norm_num
    · have : (b.mantissa : ℚ) < 2 ^ 53 := by exact_mod_cast hb.mantissa_lt
      linarith
  unfold value
  rw [← mul_assoc]
  gcongr

end Binary

/-! ## The interval on a grid -/

namespace Interval

variable {b : Binary} {k : ℤ}

/-- The integers of an interval are rational numbers with a common factor. -/
lemma exists_scale (b : Binary) (k : ℤ) (hb : 0 < b.mantissa) : ∃ w : ℚ, 0 < w ∧
    ((ofBinary b k).unit : ℚ) = 10 ^ k * w ∧ ((ofBinary b k).centre : ℚ) = b.value * w ∧
    ((ofBinary b k).low : ℚ) = (b.mantissa - b.reach) * 2 ^ b.exponent * w ∧
    ((ofBinary b k).high : ℚ) = (b.mantissa + 1 / 2) * 2 ^ b.exponent * w := by
  have hexp : (2 : ℚ) ^ b.exponent = 4 * 2 ^ (b.exponent - 2) := by
    rw [← sub_add_cancel b.exponent 2, zpow_add₀ (by norm_num), add_sub_cancel_right, mul_comm]
    norm_num
  refine ⟨2 ^ (-(b.exponent - 2)).toNat * 10 ^ (-k).toNat, by positivity, ?_, ?_, ?_, ?_⟩
  · simp only [ofBinary, Nat.pow_eq]
    rw [zpow_eq_div 10 k]
    push_cast
    field_simp
  · simp only [ofBinary, Nat.pow_eq, Binary.value]
    rw [hexp, zpow_eq_div 2 (b.exponent - 2)]
    push_cast
    field_simp
  · simp only [ofBinary, Nat.pow_eq, Binary.reach]
    rw [hexp, zpow_eq_div 2 (b.exponent - 2)]
    split
    · rw [Nat.cast_mul, Nat.cast_sub (by omega)]
      push_cast
      field_simp
    · rw [Nat.cast_mul, Nat.cast_sub (by omega)]
      push_cast
      field_simp
      ring
  · simp only [ofBinary, Nat.pow_eq]
    rw [hexp, zpow_eq_div 2 (b.exponent - 2)]
    push_cast
    field_simp
    ring

/-- A grid point passes the test if it is read back as the double. -/
lemma contains_iff (hb : 0 < b.mantissa) (d : ℕ) :
    (ofBinary b k).contains d = true ↔ b.Reads (d * 10 ^ k) := by
  obtain ⟨w, hw, hunit, -, hlow, hhigh⟩ := exists_scale b k hb
  have hx : ((d * (ofBinary b k).unit : ℕ) : ℚ) = d * 10 ^ k * w := by
    push_cast
    rw [hunit, mul_assoc]
  have hle : (ofBinary b k).low ≤ d * (ofBinary b k).unit ↔
      (b.mantissa - b.reach) * 2 ^ b.exponent ≤ (d * 10 ^ k : ℚ) := by
    rw [← Nat.cast_le (α := ℚ), hx, hlow, mul_le_mul_iff_of_pos_right hw]
  have hge : d * (ofBinary b k).unit ≤ (ofBinary b k).high ↔
      (d * 10 ^ k : ℚ) ≤ (b.mantissa + 1 / 2) * 2 ^ b.exponent := by
    rw [← Nat.cast_le (α := ℚ), hx, hhigh, mul_le_mul_iff_of_pos_right hw]
  have hlt : (ofBinary b k).low < d * (ofBinary b k).unit ↔
      (b.mantissa - b.reach) * 2 ^ b.exponent < (d * 10 ^ k : ℚ) := by
    rw [← Nat.cast_lt (α := ℚ), hx, hlow, mul_lt_mul_iff_of_pos_right hw]
  have hgt : d * (ofBinary b k).unit < (ofBinary b k).high ↔
      (d * 10 ^ k : ℚ) < (b.mantissa + 1 / 2) * 2 ^ b.exponent := by
    rw [← Nat.cast_lt (α := ℚ), hx, hhigh, mul_lt_mul_iff_of_pos_right hw]
  have hclosed : (ofBinary b k).closed = true ↔ b.mantissa % 2 = 0 := decide_eq_true_iff
  unfold contains Binary.Reads
  dsimp only
  split
  · rename_i h
    rw [Bool.and_eq_true, decide_eq_true_eq, decide_eq_true_eq, hle, hge]
    exact ⟨fun ⟨h₁, h₂⟩ => ⟨h₁, h₂, .inl (hclosed.mp h)⟩, fun ⟨h₁, h₂, _⟩ => ⟨h₁, h₂⟩⟩
  · rename_i h
    rw [Bool.and_eq_true, decide_eq_true_eq, decide_eq_true_eq, hlt, hgt]
    constructor
    · rintro ⟨h₁, h₂⟩
      exact ⟨h₁.le, h₂.le, .inr ⟨h₁, h₂⟩⟩
    · rintro ⟨-, -, heven | hopen⟩
      · exact absurd (hclosed.mpr heven) h
      · exact hopen

/-- The grid point below a double and the one after it enclose the double. -/
lemma floor_spec (hb : 0 < b.mantissa) :
    ((ofBinary b k).floor * 10 ^ k : ℚ) ≤ b.value ∧
      b.value < ((ofBinary b k).floor + 1) * 10 ^ k := by
  obtain ⟨w, hw, hunit, hcentre, -, -⟩ := exists_scale b k hb
  have hpos : (0 : ℚ) < 10 ^ k := zpow_pos (by norm_num) k
  have hunit0 : 0 < (ofBinary b k).unit := by
    have : (0 : ℚ) < (ofBinary b k).unit := by
      rw [hunit]
      positivity
    exact_mod_cast this
  have hle : (((ofBinary b k).floor * (ofBinary b k).unit : ℕ) : ℚ) ≤ (ofBinary b k).centre :=
    Nat.cast_le.mpr (Nat.div_mul_le_self _ _)
  have hlt : ((ofBinary b k).centre : ℚ) <
      (((ofBinary b k).floor + 1) * (ofBinary b k).unit : ℕ) :=
    Nat.cast_lt.mpr (Nat.lt_mul_of_div_lt (Nat.lt_succ_self _) hunit0)
  push_cast at hle hlt
  rw [hunit, hcentre, ← mul_assoc] at hle hlt
  exact ⟨le_of_mul_le_mul_right hle hw, lt_of_mul_lt_mul_right hlt hw.le⟩

/-- A neighbour that passes the test is found. -/
lemma isSome_closest? {i : Interval}
    (h : i.contains i.floor = true ∨ i.contains (i.floor + 1) = true) : i.closest?.isSome := by
  unfold closest?
  dsimp only
  cases hb : i.contains i.floor <;> cases ha : i.contains (i.floor + 1)
  · simp [hb, ha] at h
  · rfl
  · rfl
  · dsimp only
    split <;> rfl

/-- **On the grid of seventeen digits one of the neighbours is read back.** -/
lemma isSome_closest?_of_fine {m : ℕ} (hb : 0 < b.mantissa) (hm : b.IsOf m)
    (hk : 10 ^ 16 * (10 : ℚ) ^ k ≤ b.value) : (ofBinary b k).closest?.isSome := by
  obtain ⟨hbelow, habove⟩ := floor_spec (k := k) hb
  have hreach := hm.value_lt_reach
  have hhalf : b.reach * (2 : ℚ) ^ b.exponent ≤ 1 / 2 * 2 ^ b.exponent := by
    have := b.two_pow_pos
    have := b.reach_le
    gcongr
  apply isSome_closest?
  rw [contains_iff hb, contains_iff hb]
  push_cast
  -- the nearer neighbour is at most half a step away
  by_cases hnear : 2 * (b.value - (ofBinary b k).floor * 10 ^ k) ≤ 10 ^ k
  · left
    apply Binary.reads_of_lt
    · linarith
    · have := Binary.value_pos hb
      linarith
  · right
    apply Binary.reads_of_lt
    · have := Binary.value_pos hb
      linarith
    · linarith

end Interval

/-! ## The number of digits -/

/-- The leading digit of a natural number. -/
lemma ten_pow_length_le {n : ℕ} (h : 0 < n) : 10 ^ ((Nat.toDigits 10 n).length - 1) ≤ n := by
  by_contra hlt
  rw [not_le] at hlt
  have hlen := Nat.length_toDigits_pos (b := 10) (n := n)
  rcases Nat.eq_zero_or_pos ((Nat.toDigits 10 n).length - 1) with hz | hp
  · rw [hz, pow_zero] at hlt
    omega
  · have := (Nat.length_toDigits_le_iff (by norm_num) hp).mpr hlt
    omega

/-- A double is at least the power of ten of its first digit. -/
lemma ten_zpow_wholeDigits_le {b : Binary} (hb : 0 < b.mantissa) :
    (10 : ℚ) ^ (wholeDigits b - 1) ≤ b.value := by
  obtain ⟨s, hs⟩ : ∃ s : ℕ, s = (-(b.exponent + b.mantissa.log2)).toNat := ⟨_, rfl⟩
  have hvalue : (2 : ℚ) ^ (-(s : ℤ)) ≤ b.value := by
    calc (2 : ℚ) ^ (-(s : ℤ)) ≤ 2 ^ (b.exponent + b.mantissa.log2) := by
          apply zpow_le_zpow_right₀ (by norm_num)
          omega
      _ = 2 ^ b.mantissa.log2 * 2 ^ b.exponent := two_zpow_add _ _
      _ ≤ b.value := by
        have := b.two_pow_pos
        have : ((2 ^ b.mantissa.log2 : ℕ) : ℚ) ≤ b.mantissa :=
          Nat.cast_le.mpr (Nat.log2_self_le hb.ne')
        push_cast at this
        unfold Binary.value
        gcongr
  obtain ⟨hfloor, hfloor'⟩ := Interval.floor_spec (k := -(s : ℤ)) hb
  have hten : (0 : ℚ) < 10 ^ (-(s : ℤ)) := zpow_pos (by norm_num) _
  have hunfold : wholeDigits b =
      ((Nat.toDigits 10 (Interval.ofBinary b (-s)).floor).length : ℤ) - s := by
    rw [hs]
    rfl
  generalize (Interval.ofBinary b (-s)).floor = n at *
  -- the scaled double has a whole part
  have hn : 0 < n := by
    rw [Nat.pos_iff_ne_zero]
    rintro rfl
    have : (2 : ℚ) ^ (-(s : ℤ)) < 10 ^ (-(s : ℤ)) := by
      rw [Nat.cast_zero, zero_add, one_mul] at hfloor'
      exact hvalue.trans_lt hfloor'
    rw [zpow_neg, zpow_neg, zpow_natCast, zpow_natCast,
      inv_lt_inv₀ (by positivity) (by positivity)] at this
    exact absurd this (not_lt.mpr (pow_le_pow_left₀ (by norm_num) (by norm_num) s))
  have hlen := Nat.length_toDigits_pos (b := 10) (n := n)
  calc (10 : ℚ) ^ (wholeDigits b - 1)
      = ((10 ^ ((Nat.toDigits 10 n).length - 1) : ℕ) : ℚ) * 10 ^ (-(s : ℤ)) := by
        rw [hunfold, Nat.cast_pow, ← zpow_natCast, Nat.cast_ofNat, ← zpow_add₀ (by norm_num)]
        congr 1
        omega
    _ ≤ n * 10 ^ (-(s : ℤ)) := by
      have : ((10 ^ ((Nat.toDigits 10 n).length - 1) : ℕ) : ℚ) ≤ n :=
        Nat.cast_le.mpr (ten_pow_length_le hn)
      gcongr
    _ ≤ b.value := hfloor

/-! ## The shortest decimal -/

/-- A decimal as a ratio. -/
def Scientific.value (x : Scientific) : ℚ := x.digits * 10 ^ x.exponent

/-- **The shortest decimal of a double is read back as the double.** -/
lemma reads_shortest {b : Binary} {m : ℕ} (hb : 0 < b.mantissa) (hm : b.IsOf m) :
    b.Reads (shortest b).value := by
  have hfine : (Interval.ofBinary b (wholeDigits b - (16 + 1 : ℕ))).closest?.isSome := by
    apply Interval.isSome_closest?_of_fine hb hm
    calc 10 ^ 16 * (10 : ℚ) ^ (wholeDigits b - (16 + 1 : ℕ)) = 10 ^ (wholeDigits b - 1) := by
          rw [← zpow_natCast, ← zpow_add₀ (by norm_num)]
          congr 1
          push_cast
          ring
      _ ≤ b.value := ten_zpow_wholeDigits_le hb
  unfold shortest
  dsimp only
  cases hfind : (List.range 17).findSome? fun n =>
      (Interval.ofBinary b (wholeDigits b - (n + 1 : ℕ))).closest?.map
        (Scientific.mk · (wholeDigits b - (n + 1 : ℕ))) with
  | none =>
    have := List.findSome?_eq_none_iff.mp hfind 16 (by simp)
    rw [Option.map_eq_none_iff] at this
    rw [this] at hfine
    cases hfine
  | some x =>
    obtain ⟨n, -, hx⟩ := List.exists_of_findSome?_eq_some hfind
    obtain ⟨d, hd, rfl⟩ := Option.map_eq_some_iff.mp hx
    exact (Interval.contains_iff hb d).mp (Interval.contains_of_closest? hd)

end FlowSketch.Decimal
