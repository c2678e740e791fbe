/-
# Lines are exact

A line is drawn by a loop: it colors a pixel, ends if that was the end point, and otherwise goes
on to the next place.  Nothing in the loop counts steps.  It ends all the same, since the running
error is an exact record of the steps along both axes, and it makes the loop take every step
along the longer axis and keep the pixel within half a pixel of the ideal line.

Main statement: `drawLine_exact`.
-/
import Mathlib.Tactic.Common
import Mathlib.Tactic.Ring
import Mathlib.Tactic.Linarith
import FlowSketch.Raster.Line

namespace FlowSketch

/-! ## Axes -/

/-- The two axes of a surface. -/
inductive Axis where
  /-- To the right. -/
  | across
  /-- Downwards. -/
  | down
deriving DecidableEq, Repr

namespace Axis

/-- The other axis. -/
def other : Axis → Axis
  | across => down
  | down => across

/-- The place of a point along an axis. -/
def coord : Axis → Point → ℤ
  | across, p => p.x
  | down, p => p.y

/-- The distance of two points along an axis. -/
def span (u : Axis) (a b : Point) : ℕ := (u.coord b - u.coord a).natAbs

/-- Points with the same place along both axes are the same. -/
lemma eq_of_coord {u : Axis} {p q : Point} (h : u.coord p = u.coord q)
    (h' : u.other.coord p = u.other.coord q) : p = q := by
  cases p
  cases q
  cases u <;> simp_all [coord, other]

/-- One of the two axes is the longer one of a line. -/
lemma exists_longer (a b : Point) : ∃ u : Axis, u.other.span a b ≤ u.span a b :=
  (Nat.le_total (down.span a b) (across.span a b)).elim (fun h => ⟨across, h⟩) fun h => ⟨down, h⟩

/-- A line has as many steps as the longer axis has. -/
lemma span_steps (u : Axis) (a b : Point) (h : u.other.span a b ≤ u.span a b) :
    Line.steps a b = u.span a b := by
  cases u
  · exact max_eq_left h
  · exact max_eq_right h

end Axis

namespace Line

/-! ## The loop -/

/-- From a place the loop goes through the given places and ends at the pixel `b`. -/
inductive Pursues (s : Slope) (b : Point) : Place → List Place → Prop
  /-- The pixel is the end point. -/
  | arrived {p : Place} : p.point = b → Pursues s b p [p]
  /-- The loop goes on. -/
  | further {p : Place} {ps : List Place} : p.point ≠ b → Pursues s b (advance s p) ps →
    Pursues s b p (p :: ps)

/-- The place where a line begins. -/
def origin (a b : Point) : Place := ⟨a, (Slope.between a b).dx + (Slope.between a b).dy⟩

/-- A pixel `q` is a step further from `p` on a line with the longer axis `u`: one pixel along
that axis, and none or one along the other, in the direction in which the line goes. -/
def Follows (u : Axis) (a b p q : Point) : Prop :=
  u.coord q = u.coord p + (u.coord b - u.coord a).sign ∧
    (u.other.coord q = u.other.coord p ∨
      u.other.coord q = u.other.coord p + (u.other.coord b - u.other.coord a).sign)

/-- Pixels are those of the line from `a` to `b`, of which `u` is the longer axis. -/
structure Straight (u : Axis) (a b : Point) (ps : List Point) : Prop where
  /-- There is one pixel more than steps along the longer axis. -/
  length_eq : ps.length = u.span a b + 1
  head?_eq : ps.head? = some a
  getLast?_eq : ps.getLast? = some b
  isChain : ps.IsChain (Follows u a b)
  /-- After `i` steps the pixel is within half a pixel of the ideal line. -/
  near (i : ℕ) (p : Point) : ps[i]? = some p → u.span a p = i ∧
    |2 * ((u.span a b : ℤ) * u.other.span a p - u.other.span a b * i)| ≤ u.span a b
  /-- No pixel is outside of the rectangle between the ends. -/
  within (p : Point) : p ∈ ps → ∀ w : Axis,
    min (w.coord a) (w.coord b) ≤ w.coord p ∧ w.coord p ≤ max (w.coord a) (w.coord b)

/-! ## Directions -/

/-- The direction of a line along an axis. -/
def Slope.dir (s : Slope) : Axis → ℤ
  | .across => s.sx
  | .down => s.sy

variable {u : Axis} {a b : Point}

/-- The end of a line is as many pixels away in its direction as the ends are apart. -/
lemma dir_between (u : Axis) (a b : Point) :
    (Slope.between a b).dir u = 1 ∧ u.coord b = u.coord a + u.span a b ∨
      (Slope.between a b).dir u = -1 ∧ u.coord b = u.coord a - u.span a b := by
  have key : ∀ m n : ℤ, (if m < n then (1 : ℤ) else -1) = 1 ∧ n = m + (n - m).natAbs ∨
      (if m < n then (1 : ℤ) else -1) = -1 ∧ n = m - (n - m).natAbs := by
    intro m n
    split <;> omega
  cases u
  · exact key a.x b.x
  · exact key a.y b.y

/-- Between two points that are apart, the direction is the sign of their difference. -/
lemma dir_eq_sign (h : 0 < u.span a b) :
    (Slope.between a b).dir u = (u.coord b - u.coord a).sign := by
  rcases dir_between u a b with ⟨hdir, hb⟩ | ⟨hdir, hb⟩
  · rw [hdir, Int.sign_eq_one_of_pos (by omega)]
  · rw [hdir, Int.sign_eq_neg_one_of_neg (by omega)]

/-! ## Single steps -/

/-- Whether a step from a place goes along an axis. -/
def Slope.Takes (s : Slope) (p : Place) : Axis → Prop
  | .across => s.dy ≤ 2 * p.err
  | .down => 2 * p.err ≤ s.dx

instance (s : Slope) (p : Place) : (w : Axis) → Decidable (s.Takes p w)
  | .across => inferInstanceAs (Decidable (s.dy ≤ 2 * p.err))
  | .down => inferInstanceAs (Decidable (2 * p.err ≤ s.dx))

/-- How the running error counts the steps along an axis. -/
def bias : Axis → ℤ
  | .across => 1
  | .down => -1

lemma coord_advance (s : Slope) (p : Place) (w : Axis) :
    w.coord (advance s p).point = w.coord p.point + if s.Takes p w then s.dir w else 0 := by
  cases w <;> simp only [advance, Axis.coord, Slope.Takes, Slope.dir] <;> split <;> omega

/-- A step along an axis moves the running error by the distance along the other one. -/
lemma err_advance (u : Axis) (a b : Point) (p : Place) :
    (advance (.between a b) p).err = p.err +
      bias u * ((if (Slope.between a b).Takes p u.other then (u.span a b : ℤ) else 0) -
        if (Slope.between a b).Takes p u then (u.other.span a b : ℤ) else 0) := by
  change p.err + (if (Slope.between a b).Takes p .across then -(Axis.down.span a b : ℤ) else 0) +
    (if (Slope.between a b).Takes p .down then (Axis.across.span a b : ℤ) else 0) = _
  by_cases hacross : (Slope.between a b).Takes p .across <;>
    by_cases hdown : (Slope.between a b).Takes p .down <;> cases u <;>
    simp only [bias, Axis.other, hacross, hdown, if_true, if_false] <;> ring

/-! ## Where a line is after some steps -/

/-- A place `i` steps along the axis `u` from the beginning of a line and `j` steps along the
other axis.  The running error is settled by these numbers. -/
structure Reaches (u : Axis) (a b : Point) (i j : ℕ) (p : Place) : Prop where
  along : u.coord p.point = u.coord a + i * (Slope.between a b).dir u
  aside : u.other.coord p.point = u.other.coord a + j * (Slope.between a b).dir u.other
  along_le : i ≤ u.span a b
  aside_le : j ≤ u.other.span a b
  err_eq : p.err = bias u * ((j + 1) * (u.span a b : ℤ) - (i + 1) * u.other.span a b)
  near : |2 * ((u.span a b : ℤ) * j - u.other.span a b * i)| ≤ u.span a b

lemma reaches_origin (u : Axis) (a b : Point) : Reaches u a b 0 0 (origin a b) := by
  constructor
  case along => simp [origin]
  case aside => simp [origin]
  case along_le => exact Nat.zero_le _
  case aside_le => exact Nat.zero_le _
  case err_eq =>
    change (Axis.across.span a b : ℤ) + -(Axis.down.span a b : ℤ) = _
    cases u <;> simp only [bias, Axis.other] <;> ring
  case near => simp

/-- The arithmetic of a step: a step along the longer axis is always due, and whether one along
the other axis is due as well is decided so that the line stays near. -/
lemma near_succ {m n i j : ℤ} (hnm : n ≤ m) (hn : 0 ≤ n) (h : |2 * (m * j - n * i)| ≤ m) :
    -n ≤ 2 * ((j + 1) * m - (i + 1) * n) ∧
      if 2 * ((j + 1) * m - (i + 1) * n) ≤ m then |2 * (m * (j + 1) - n * (i + 1))| ≤ m
      else |2 * (m * j - n * (i + 1))| ≤ m := by
  have hj : (j + 1) * m = m * j + m := by ring
  have hi : (i + 1) * n = n * i + n := by ring
  rw [abs_le] at h
  rw [hj, hi, mul_add, mul_add, mul_one, mul_one]
  refine ⟨by omega, ?_⟩
  split <;> rw [abs_le] <;> omega

/-- A line that stays near takes no more steps along the shorter axis than there are. -/
lemma le_of_near {m n i j : ℤ} (hm : 0 < m) (hn : 0 ≤ n) (hi : i ≤ m)
    (h : |2 * (m * j - n * i)| ≤ m) : j ≤ n := by
  by_contra hlt
  have hj : m * (n + 1) ≤ m * j := mul_le_mul_of_nonneg_left (by omega) hm.le
  have hni : n * i ≤ n * m := mul_le_mul_of_nonneg_left hi hn
  rw [mul_add, mul_one, mul_comm m n] at hj
  rw [abs_le] at h
  omega

/-- A line that stays near has taken all steps along the shorter axis in the end. -/
lemma ge_of_near {m n j : ℤ} (hm : 0 < m) (h : |2 * (m * j - n * m)| ≤ m) : n ≤ j := by
  by_contra hlt
  have hj : m * (j + 1) ≤ m * n := mul_le_mul_of_nonneg_left (by omega) hm.le
  rw [mul_add, mul_one, mul_comm m n] at hj
  rw [abs_le] at h
  omega

namespace Reaches

variable {i j : ℕ} {p : Place}

/-- A step along the other axis is taken if the running error asks for it. -/
lemma takes_other_iff (h : Reaches u a b i j p) : (Slope.between a b).Takes p u.other ↔
    2 * ((j + 1) * (u.span a b : ℤ) - (i + 1) * u.other.span a b) ≤ u.span a b := by
  have herr := h.err_eq
  cases u
  case across =>
    change 2 * p.err ≤ (Axis.across.span a b : ℤ) ↔ _
    rw [herr, bias, one_mul]
  case down =>
    change -(Axis.down.span a b : ℤ) ≤ 2 * p.err ↔ _
    rw [herr, bias, neg_one_mul, mul_neg, neg_le_neg_iff]

/-- A step along the longer axis is always taken. -/
lemma takes (hu : u.other.span a b ≤ u.span a b) (h : Reaches u a b i j p) :
    (Slope.between a b).Takes p u := by
  have hnear := (near_succ (by exact_mod_cast hu) (Int.natCast_nonneg _) h.near).1
  have herr := h.err_eq
  cases u
  case across =>
    change -(Axis.down.span a b : ℤ) ≤ 2 * p.err
    rwa [herr, bias, one_mul]
  case down =>
    change 2 * p.err ≤ (Axis.across.span a b : ℤ)
    rw [herr, bias, neg_one_mul, mul_neg]
    exact neg_le.mp hnear

/-- Before the end a step of the loop is a step along the longer axis, and one or none along
the other. -/
lemma advance (hu : u.other.span a b ≤ u.span a b) (h : Reaches u a b i j p)
    (hi : i < u.span a b) : ∃ j', (j' = j ∨ j' = j + 1) ∧
      Reaches u a b (i + 1) j' (advance (.between a b) p) := by
  have hnear := (near_succ (by exact_mod_cast hu) (Int.natCast_nonneg _) h.near).2
  have halong := coord_advance (.between a b) p u
  have haside := coord_advance (.between a b) p u.other
  have herr := err_advance u a b p
  rw [if_pos (h.takes hu), h.along] at halong
  rw [h.aside] at haside
  rw [if_pos (h.takes hu), h.err_eq] at herr
  by_cases hother : (Slope.between a b).Takes p u.other
  · rw [if_pos hother] at haside herr
    rw [if_pos (h.takes_other_iff.mp hother)] at hnear
    have hle : (j + 1 : ℤ) ≤ u.other.span a b :=
      le_of_near (by omega) (Int.natCast_nonneg _) (by omega) hnear
    refine ⟨j + 1, .inr rfl, ?_, ?_, hi, by omega, ?_, by exact_mod_cast hnear⟩
    · rw [halong, Nat.cast_succ]
      ring
    · rw [haside, Nat.cast_succ]
      ring
    · rw [herr, Nat.cast_succ, Nat.cast_succ]
      ring
  · rw [if_neg hother] at haside herr
    rw [if_neg fun hle => hother (h.takes_other_iff.mpr hle)] at hnear
    refine ⟨j, .inl rfl, ?_, ?_, hi, h.aside_le, ?_, by exact_mod_cast hnear⟩
    · rw [halong, Nat.cast_succ]
      ring
    · rw [haside, add_zero]
    · rw [herr, Nat.cast_succ]
      ring

/-- Two places a step apart follow each other. -/
lemma follows {j' : ℕ} {q : Place} (h : Reaches u a b i j p) (h' : Reaches u a b (i + 1) j' q)
    (hj : j' = j ∨ j' = j + 1) : Follows u a b p.point q.point := by
  constructor
  · rw [h.along, h'.along, ← dir_eq_sign (by have := h'.along_le; omega), Nat.cast_succ]
    ring
  · rcases hj with rfl | rfl
    · exact .inl (by rw [h.aside, h'.aside])
    · right
      rw [h.aside, h'.aside, ← dir_eq_sign (by have := h'.aside_le; omega), Nat.cast_succ]
      ring

/-- The end point is reached by taking all steps along the longer axis, and not before. -/
lemma point_eq_iff (hu : u.other.span a b ≤ u.span a b) (h : Reaches u a b i j p) :
    p.point = b ↔ i = u.span a b := by
  have halong := h.along
  have haside := h.aside
  constructor
  · rintro rfl
    rcases dir_between u a p.point with ⟨hdir, hb⟩ | ⟨hdir, hb⟩ <;> rw [hdir] at halong <;> omega
  · intro hi
    have hj : j = u.other.span a b := by
      rcases Nat.eq_zero_or_pos (u.span a b) with hzero | hpos
      · have := h.aside_le
        omega
      · have hnear := h.near
        rw [hi] at hnear
        have := ge_of_near (by exact_mod_cast hpos) hnear
        have := h.aside_le
        omega
    have hend : ∀ w : Axis, w.coord a + w.span a b * (Slope.between a b).dir w = w.coord b := by
      intro w
      rcases dir_between w a b with ⟨hdir, hb⟩ | ⟨hdir, hb⟩ <;> rw [hdir, hb] <;> ring
    rw [hi, hend] at halong
    rw [hj, hend] at haside
    exact Axis.eq_of_coord halong haside

/-- No place on the way lies outside of the rectangle between the ends. -/
lemma within (h : Reaches u a b i j p) (w : Axis) :
    min (w.coord a) (w.coord b) ≤ w.coord p.point ∧
      w.coord p.point ≤ max (w.coord a) (w.coord b) := by
  obtain ⟨k, hk, hle⟩ : ∃ k : ℕ, w.coord p.point = w.coord a + k * (Slope.between a b).dir w ∧
      k ≤ w.span a b := by
    cases u <;> cases w
    · exact ⟨i, h.along, h.along_le⟩
    · exact ⟨j, h.aside, h.aside_le⟩
    · exact ⟨j, h.aside, h.aside_le⟩
    · exact ⟨i, h.along, h.along_le⟩
  rcases dir_between w a b with ⟨hdir, hb⟩ | ⟨hdir, hb⟩ <;> rw [hdir] at hk <;> omega

/-- The number of steps is the distance from the beginning. -/
lemma span_point (h : Reaches u a b i j p) : u.span a p.point = i ∧ u.other.span a p.point = j := by
  have key : ∀ (w : Axis) (k : ℕ),
      w.coord p.point = w.coord a + k * (Slope.between a b).dir w → w.span a p.point = k := by
    intro w k hk
    unfold Axis.span
    rcases dir_between w a b with ⟨hdir, -⟩ | ⟨hdir, -⟩ <;> rw [hdir] at hk <;> omega
  exact ⟨key u i h.along, key u.other j h.aside⟩

/-- Twice the running error is never more than three times the longer side. -/
lemma abs_err_le (hu : u.other.span a b ≤ u.span a b) (h : Reaches u a b i j p) :
    |2 * p.err| ≤ 3 * u.span a b := by
  have hnear := abs_le.mp h.near
  have hle : (u.other.span a b : ℤ) ≤ u.span a b := by exact_mod_cast hu
  have hsteps : |2 * ((j + 1) * (u.span a b : ℤ) - (i + 1) * u.other.span a b)| ≤
      3 * u.span a b := by
    rw [add_mul, add_mul, one_mul, one_mul, mul_comm (j : ℤ), mul_comm (i : ℤ), abs_le]
    omega
  rw [h.err_eq]
  cases u
  · rwa [bias, one_mul]
  · rwa [bias, neg_one_mul, mul_neg, abs_neg]

end Reaches

/-! ## The whole loop -/

namespace Pursues

variable {s : Slope} {p : Place} {ps : List Place}

lemma head?_eq (h : Pursues s b p ps) : ps.head? = some p := by
  cases h <;> rfl

lemma getLast?_eq (h : Pursues s b p ps) : ps.getLast?.map Place.point = some b := by
  induction h with
  | arrived hp => exact congrArg some hp
  | @further p ps _ h ih =>
    obtain ⟨q, hq⟩ : ∃ q, ps.head? = some q := ⟨_, h.head?_eq⟩
    cases ps with
    | nil => cases hq
    | cons q qs => rwa [List.getLast?_cons_cons]

/-- The loop goes through the places that are counted out beforehand. -/
lemma map_point_eq (h : Pursues s b p ps) : ps.map Place.point = walk s (ps.length - 1) p := by
  induction h with
  | arrived _ => rfl
  | @further p ps _ h ih =>
    cases ps with
    | nil => cases h
    | cons q qs => exact congrArg (p.point :: ·) ih

end Pursues

namespace Reaches

variable {i j : ℕ} {p : Place} {ps : List Place}

/-- **The loop ends.** -/
lemma exists_pursues (hu : u.other.span a b ≤ u.span a b) (h : Reaches u a b i j p) :
    ∃ ps, Pursues (.between a b) b p ps := by
  -- every step brings the loop nearer to the last one along the longer axis
  obtain ⟨n, hn⟩ : ∃ n, i + n = u.span a b := ⟨_, Nat.add_sub_of_le h.along_le⟩
  induction n generalizing i j p with
  | zero => exact ⟨[p], .arrived ((h.point_eq_iff hu).mpr hn)⟩
  | succ n ih =>
    obtain ⟨j', -, h'⟩ := h.advance hu (by omega)
    obtain ⟨ps, hps⟩ := ih h' (by omega)
    refine ⟨p :: ps, .further (fun hp => ?_) hps⟩
    have := (h.point_eq_iff hu).mp hp
    omega

/-- A place from which the loop goes on is one before the end. -/
lemma advance_of_ne (hu : u.other.span a b ≤ u.span a b) (h : Reaches u a b i j p)
    (hp : p.point ≠ b) : ∃ j', (j' = j ∨ j' = j + 1) ∧
      Reaches u a b (i + 1) j' (Line.advance (.between a b) p) := by
  refine h.advance hu (lt_of_le_of_ne h.along_le fun hi => hp ?_)
  exact (h.point_eq_iff hu).mpr hi

/-- The loop takes one step along the longer axis in every round. -/
lemma of_pursues (hu : u.other.span a b ≤ u.span a b) (h : Reaches u a b i j p)
    (hps : Pursues (.between a b) b p ps) (k : ℕ) (q : Place) (hq : ps[k]? = some q) :
    ∃ j', Reaches u a b (i + k) j' q := by
  induction hps generalizing i j k with
  | arrived hp =>
    cases k with
    | zero =>
      cases hq
      exact ⟨j, h⟩
    | succ k => cases hq
  | further hp hps ih =>
    cases k with
    | zero =>
      cases hq
      exact ⟨j, h⟩
    | succ k =>
      obtain ⟨j', -, h'⟩ := h.advance_of_ne hu hp
      rw [Nat.add_comm k 1, ← Nat.add_assoc]
      exact ih h' k hq

lemma length_of_pursues (hu : u.other.span a b ≤ u.span a b) (h : Reaches u a b i j p)
    (hps : Pursues (.between a b) b p ps) : i + ps.length = u.span a b + 1 := by
  induction hps generalizing i j with
  | arrived hp => exact congrArg (· + 1) ((h.point_eq_iff hu).mp hp)
  | further hp hps ih =>
    obtain ⟨j', -, h'⟩ := h.advance_of_ne hu hp
    have := ih h'
    rw [List.length_cons]
    omega

lemma isChain_of_pursues (hu : u.other.span a b ≤ u.span a b) (h : Reaches u a b i j p)
    (hps : Pursues (.between a b) b p ps) : (ps.map Place.point).IsChain (Follows u a b) := by
  induction hps generalizing i j with
  | arrived _ => exact .singleton _
  | @further p ps hp hps ih =>
    obtain ⟨j', hj, h'⟩ := h.advance_of_ne hu hp
    have hchain := ih h'
    cases ps with
    | nil => cases hps
    | cons q qs =>
      have hq : q = Line.advance (.between a b) p := Option.some.inj hps.head?_eq
      rw [hq] at hchain ⊢
      exact .cons_cons (h.follows h' hj) hchain

end Reaches

/-- **A loop that pursues the end point of a line draws it straight.** -/
lemma straight_of_pursues {ps : List Place} (hu : u.other.span a b ≤ u.span a b)
    (hps : Pursues (.between a b) b (origin a b) ps) : Straight u a b (ps.map Place.point) := by
  have hstart := reaches_origin u a b
  constructor
  case length_eq =>
    have := hstart.length_of_pursues hu hps
    rw [List.length_map]
    omega
  case head?_eq =>
    rw [List.head?_map, hps.head?_eq]
    rfl
  case getLast?_eq =>
    rw [List.getLast?_map]
    exact hps.getLast?_eq
  case isChain => exact hstart.isChain_of_pursues hu hps
  case near =>
    intro i p hp
    rw [List.getElem?_map, Option.map_eq_some_iff] at hp
    obtain ⟨q, hq, rfl⟩ := hp
    obtain ⟨j, hj⟩ := hstart.of_pursues hu hps i q hq
    rw [Nat.zero_add] at hj
    rw [hj.span_point.2]
    exact ⟨hj.span_point.1, hj.near⟩
  case within =>
    intro p hp
    obtain ⟨q, hq, rfl⟩ := List.mem_map.mp hp
    obtain ⟨k, hk⟩ := List.mem_iff_getElem?.mp hq
    obtain ⟨j, hj⟩ := hstart.of_pursues hu hps k q hk
    exact hj.within

end Line

/-- **Lines are exact.**  The loop that draws a line ends, with the running error always within
reach.  The pixels that it has colored by then are those of a straight line from one end to the
other, and the rest of the surface is unchanged. -/
theorem drawLine_exact {α : Type} (g : Grid α) (a b : Point) (ink : α) :
    ∃ ps, Line.Pursues (.between a b) b (Line.origin a b) ps ∧
      (∀ p ∈ ps, |2 * p.err| ≤ 3 * Line.steps a b) ∧
      (∀ u : Axis, u.other.span a b ≤ u.span a b →
        Line.Straight u a b (ps.map Line.Place.point)) ∧
      g.drawLine a b ink = g.paint (ps.map Line.Place.point) ink ∧
      ∀ q, (g.drawLine a b ink).get? q =
        if q ∈ ps.map Line.Place.point ∧ g.bounds.covers q = true then some ink else g.get? q := by
  obtain ⟨u, hu⟩ := Axis.exists_longer a b
  have hstart := Line.reaches_origin u a b
  obtain ⟨ps, hps⟩ := hstart.exists_pursues hu
  have hpoints : Line.points a b = ps.map Line.Place.point := by
    have hlength := hstart.length_of_pursues hu hps
    rw [hps.map_point_eq, show ps.length - 1 = Line.steps a b by rw [u.span_steps a b hu]; omega]
    rfl
  have hpaint : g.drawLine a b ink = g.paint (ps.map Line.Place.point) ink := by
    rw [g.drawLine_eq_paint, hpoints]
  refine ⟨ps, hps, fun p hp => ?_, fun w hw => Line.straight_of_pursues hw hps, hpaint,
    fun q => ?_⟩
  · obtain ⟨k, hk⟩ := List.mem_iff_getElem?.mp hp
    obtain ⟨j, hj⟩ := hstart.of_pursues hu hps k p hk
    rw [u.span_steps a b hu]
    exact hj.abs_err_le hu
  · rw [hpaint, Grid.get?_paint]

end FlowSketch
