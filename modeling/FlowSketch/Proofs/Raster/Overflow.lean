/-
# When drawing overflows

Drawing with numbers of thirty-two bits does the same as drawing with unlimited ones, or it ends
with an overflow.  Which of the two is settled by the numbers of the drawing alone and not by what
is on the surface, so it can be told beforehand.

For a line these are the differences of its ends and the numbers of each round but the last.  They
have room if the ends are less than a third of the range apart.  A line along an axis doubles its
length in every round, so it overflows exactly if that has no room.  The marker of a flow is drawn
with four such lines.

Main statements: `yields_drawLine`, `yields_drawOutline` and `Rect.markerFits_iff`.
-/
import FlowSketch.Proofs.Journal.Spelling
import FlowSketch.Proofs.Raster.Outlines
import FlowSketch.Raster.Checked

namespace FlowSketch

namespace Checked

/-! ## Results and room for them -/

/-- Some work has the result `a` if there is room for its numbers, and it ends with an overflow if
there is not. -/
structure Yields {α : Type} (room : Prop) (r : Except Overflow α) (a : α) : Prop where
  eq_ok : room → r = .ok a
  eq_error : ¬ room → ∃ o, r = .error o

namespace Yields

variable {α β σ ι : Type} {P Q : Prop} {r : Except Overflow α} {a a' : α} {b : β}
  {f : α → Except Overflow β}

lemma pure (a : α) : Yields True (.ok a) a :=
  ⟨fun _ => rfl, fun h => absurd trivial h⟩

lemma congr (h : Yields P r a) (hPQ : P ↔ Q) : Yields Q r a :=
  ⟨fun hQ => h.eq_ok (hPQ.mpr hQ), fun hQ => h.eq_error fun hP => hQ (hPQ.mp hP)⟩

/-- The work that comes after an overflow is not done. -/
lemma bind (h : Yields P r a) (hf : P → Yields Q (f a) b) : Yields (P ∧ Q) (r >>= f) b := by
  by_cases hP : P
  · rw [h.eq_ok hP]
    exact (hf hP).congr (and_iff_right hP).symm
  · obtain ⟨o, ho⟩ := h.eq_error hP
    rw [ho]
    exact ⟨fun hPQ => absurd hPQ.1 hP, fun _ => ⟨o, rfl⟩⟩

/-- Work that ends with another form of the result. -/
lemma map (h : Yields P r a) (f : α → β) : Yields P (r >>= fun a => .ok (f a)) (f a) :=
  (h.bind fun _ => pure (f a)).congr (and_iff_left trivial)

lemma eq_of_ok (h : Yields P r a) (hr : r = .ok a') : P ∧ a = a' := by
  by_cases hP : P
  · exact ⟨hP, Except.ok.inj ((h.eq_ok hP).symm.trans hr)⟩
  · obtain ⟨o, ho⟩ := h.eq_error hP
    cases ho.symm.trans hr

/-- Work on items that each need room does not overflow without one that has none. -/
lemma exists_of_error {room : ι → Prop} {is : List ι} (h : Yields (∀ i ∈ is, room i) r a)
    {o : Overflow} (hr : r = .error o) : ∃ i ∈ is, ¬ room i := by
  by_contra hall
  push Not at hall
  cases (h.eq_ok hall).symm.trans hr

/-- The same kind of work for each item of a list. -/
lemma foldlM {room : ι → Prop} {step : σ → ι → Except Overflow σ} {ideal : σ → ι → σ}
    (h : ∀ s i, Yields (room i) (step s i) (ideal s i)) (s : σ) (is : List ι) :
    Yields (∀ i ∈ is, room i) (is.foldlM step s) (is.foldl ideal s) := by
  induction is generalizing s with
  | nil => exact (pure s).congr (by simp)
  | cons i is ih =>
    rw [List.foldlM_cons]
    exact ((h s i).bind fun _ => ih (ideal s i)).congr (by simp)

/-- Steps that succeed as long as they have room, and keep to an invariant: in turn they overflow
exactly if one of them has no room. -/
lemma inTurn {ε : Type} (inv : σ → Prop) (ok : ι → Prop) {room : ι → Prop}
    {step : σ → ι → Except Overflow (Except ε σ)} {ideal : σ → ι → Except ε σ}
    (h : ∀ s i, inv s → ok i →
      ∃ s', ideal s i = .ok s' ∧ inv s' ∧ Yields (room i) (step s i) (.ok s'))
    {s : σ} (hs : inv s) {is : List ι} (his : ∀ i ∈ is, ok i) :
    Yields (∀ i ∈ is, room i) (Checked.inTurn step s is) (is.foldlM ideal s) := by
  induction is generalizing s with
  | nil => exact (pure _).congr (by simp)
  | cons i is ih =>
    obtain ⟨s', hideal, hs', hstep⟩ := h s i hs (his i (by simp))
    have hrest := ih hs' fun i' hi' => his i' (by simp [hi'])
    rw [List.foldlM_cons, hideal]
    exact (hstep.bind fun _ => hrest).congr (by simp)

end Yields

/-! ## Numbers and points -/

lemma yields_word (operation : Overflow) (n : ℤ) : Yields (FitsWord n) (word operation n) n :=
  ⟨fun h => if_pos h, fun h => ⟨operation, if_neg h⟩⟩

lemma yields_add (m n : ℤ) : Yields (FitsWord (m + n)) (add m n) (m + n) := yields_word ..

lemma yields_sub (m n : ℤ) : Yields (FitsWord (m - n)) (sub m n) (m - n) := yields_word ..

lemma yields_mul (m n : ℤ) : Yields (FitsWord (m * n)) (mul m n) (m * n) := yields_word ..

lemma yields_neg (n : ℤ) : Yields (FitsWord (-n)) (neg n) (-n) := yields_word ..

lemma yields_abs (n : ℤ) : Yields (n < 0 → FitsWord (-n)) (abs n) n.natAbs := by
  unfold abs
  split
  · rename_i hneg
    rw [Int.ofNat_natAbs_of_nonpos hneg.le]
    exact (yields_neg n).congr (imp_iff_right hneg).symm
  · rename_i hpos
    rw [Int.natAbs_of_nonneg (not_lt.mp hpos)]
    exact (Yields.pure n).congr (by simp [hpos])

lemma yields_addIf (due : Prop) [Decidable due] (m n : ℤ) :
    Yields (due → FitsWord (m + n)) (addIf due m n) (if due then m + n else m) := by
  unfold addIf
  by_cases h : due
  · rw [decide_eq_true h, if_pos rfl, if_pos h]
    exact (yields_add m n).congr (imp_iff_right h).symm
  · rw [decide_eq_false h, if_neg Bool.false_ne_true, if_neg h]
    exact (Yields.pure m).congr (by simp [h])

/-- A point can be moved if the place has room that it is moved to. -/
lemma yields_shift (p : Point) (dx dy : ℤ) :
    Yields (p.shift dx dy).Fits (shift p dx dy) (p.shift dx dy) :=
  (yields_add p.x dx).bind fun _ => (yields_add p.y dy).map _

/-- Both coordinates of a place are sums. -/
lemma shift_of_not_fits {p : Point} {dx dy : ℤ} (h : ¬ (p.shift dx dy).Fits) :
    shift p dx dy = .error .add := by
  unfold shift add word
  by_cases hx : FitsWord (p.x + dx)
  · have hy : ¬ FitsWord (p.y + dy) := fun hy => h ⟨hx, hy⟩
    rw [if_pos hx, if_neg hy]
    rfl
  · rw [if_neg hx]
    rfl

/-! ## Lines -/

/-- Ends that are not too far apart have a slope. -/
lemma yields_slope (a b : Point) :
    Yields (Line.steps a b < 0x80000000) (slope a b) (.between a b) := by
  refine ((yields_sub b.x a.x).bind fun _ => (yields_abs _).bind fun _ =>
    (yields_sub b.y a.y).bind fun _ => (yields_abs _).bind fun _ =>
    (yields_neg _).map _).congr ?_
  simp only [FitsWord, Line.steps]
  omega

lemma yields_origin {a b : Point} (h : Line.steps a b < 0x80000000) :
    Yields True (origin (.between a b) a) (Line.origin a b) := by
  refine ((yields_add _ _).map _).congr (iff_of_true ?_ trivial)
  simp only [FitsWord, Line.Slope.between, Line.steps] at h ⊢
  omega

end Checked

namespace Line

/-- The running error after what is due along one axis and before what is due along the other. -/
def partway (s : Slope) (p : Place) : ℤ := if s.dy ≤ 2 * p.err then p.err + s.dy else p.err

lemma err_advance_eq (s : Slope) (p : Place) : (advance s p).err =
    if 2 * p.err ≤ s.dx then partway s p + s.dx else partway s p := by
  simp only [advance, partway]
  split <;> split <;> omega

/-- The numbers for a step from a place on a line have room. -/
structure Safe (s : Slope) (p : Place) : Prop where
  double : FitsWord (2 * p.err)
  /-- A step to the side needs a new error and a new column. -/
  across : s.dy ≤ 2 * p.err → FitsWord (p.err + s.dy) ∧ FitsWord (p.point.x + s.sx)
  /-- A step down or up needs a new error and a new row. -/
  down : 2 * p.err ≤ s.dx → FitsWord (advance s p).err ∧ FitsWord (p.point.y + s.sy)

/-- The numbers for a step, in the order in which they are needed. -/
lemma safe_iff {s : Slope} {p : Place} : Safe s p ↔ FitsWord (2 * p.err) ∧
    (s.dy ≤ 2 * p.err → FitsWord (p.err + s.dy)) ∧
    (s.dy ≤ 2 * p.err → FitsWord (p.point.x + s.sx)) ∧
    (2 * p.err ≤ s.dx → FitsWord (partway s p + s.dx)) ∧
    (2 * p.err ≤ s.dx → FitsWord (p.point.y + s.sy)) := by
  have herr (h : 2 * p.err ≤ s.dx) : (advance s p).err = partway s p + s.dx :=
    (err_advance_eq s p).trans (if_pos h)
  constructor
  · rintro ⟨hdouble, hacross, hdown⟩
    exact ⟨hdouble, fun h => (hacross h).1, fun h => (hacross h).2,
      fun h => herr h ▸ (hdown h).1, fun h => (hdown h).2⟩
  · rintro ⟨hdouble, hdy, hx, hdx, hy⟩
    exact ⟨hdouble, fun h => ⟨hdy h, hx h⟩, fun h => ⟨(herr h).symm ▸ hdx h, hy h⟩⟩

/-- The numbers for a line have room: those for its slope, and those of every round of the loop
before it comes to the end point. -/
structure Fits (a b : Point) : Prop where
  steps_lt : steps a b < 0x80000000
  rounds (ps : List Place) : Pursues (.between a b) b (origin a b) ps →
    ∀ p ∈ ps.dropLast, Safe (.between a b) p

end Line

namespace Checked

open Line (Place Pursues Safe)

lemma yields_advance (s : Line.Slope) (p : Place) :
    Yields (Safe s p) (advance s p) (Line.advance s p) := by
  have hresult : Line.advance s p =
      ⟨⟨if s.dy ≤ 2 * p.err then p.point.x + s.sx else p.point.x,
        if 2 * p.err ≤ s.dx then p.point.y + s.sy else p.point.y⟩,
        if 2 * p.err ≤ s.dx then Line.partway s p + s.dx else Line.partway s p⟩ :=
    congrArg (Place.mk _) (Line.err_advance_eq s p)
  rw [hresult]
  exact ((yields_mul 2 p.err).bind fun _ => (yields_addIf _ p.err s.dy).bind fun _ =>
    (yields_addIf _ p.point.x s.sx).bind fun _ => (yields_addIf _ _ s.dx).bind fun _ =>
    (yields_addIf _ p.point.y s.sy).map _).congr Line.safe_iff.symm

variable {σ α : Type}

/-- Going along a line overflows in the first round that has no room. -/
lemma yields_follow (f : σ → Point → σ) {s : Line.Slope} {b : Point} {p : Place}
    {ps : List Place} (hps : Pursues s b p ps) (acc : σ) :
    Yields (∀ q ∈ ps.dropLast, Safe s q) (follow f s (ps.length - 1) p acc)
      (Line.follow f s (ps.length - 1) p acc) := by
  induction hps generalizing acc with
  | arrived _ => exact (Yields.pure _).congr (by simp)
  | @further p ps _ hps ih =>
    obtain ⟨q, qs, rfl⟩ : ∃ q qs, ps = q :: qs := by
      cases hps with
      | arrived _ => exact ⟨_, _, rfl⟩
      | further _ _ => exact ⟨_, _, rfl⟩
    exact ((yields_advance s p).bind fun _ => ih (f acc p.point)).congr (by simp)

end Checked

namespace Line

/-- There is only one way in which the loop can go. -/
lemma Pursues.unique {s : Slope} {b : Point} {p : Place} {ps qs : List Place}
    (h : Pursues s b p ps) (h' : Pursues s b p qs) : ps = qs := by
  induction h generalizing qs with
  | arrived hp =>
    cases h' with
    | arrived _ => rfl
    | further hp' _ => exact absurd hp hp'
  | further hp _ ih =>
    cases h' with
    | arrived hp' => exact absurd hp' hp
    | further _ h' => rw [ih h']

lemma fits_iff {a b : Point} {ps : List Place}
    (hps : Pursues (.between a b) b (origin a b) ps) :
    Fits a b ↔ steps a b < 0x80000000 ∧ ∀ p ∈ ps.dropLast, Safe (.between a b) p :=
  ⟨fun h => ⟨h.steps_lt, h.rounds ps hps⟩,
    fun h => ⟨h.1, fun _ hqs => hps.unique hqs ▸ h.2⟩⟩

end Line

namespace Checked

/-- **A line is drawn if its numbers have room, and overflows if they have not.** -/
lemma yields_drawLine {α : Type} (g : Grid α) (a b : Point) (ink : α) :
    Yields (Line.Fits a b) (drawLine g a b ink) (g.drawLine a b ink) := by
  obtain ⟨ps, hps, hpoints⟩ := Line.exists_pursues_points a b
  have hlength : ps.length - 1 = Line.steps a b := by
    rw [← List.length_map Line.Place.point, hpoints, Line.length_points, Nat.add_sub_cancel]
  have hfollow := yields_follow (fun (g : Grid α) p => g.set p ink) hps g
  rw [hlength] at hfollow
  refine ((yields_slope a b).bind fun hsteps =>
    (yields_origin hsteps).bind fun _ => hfollow).congr ?_
  rw [true_and, Line.fits_iff hps]

end Checked

namespace Line

variable {u : Axis} {a b : Point} {p : Place} {ps : List Place} {i j i' j' : ℕ}

/-! ## Lines that have room -/

/-- In a round before the last the loop goes from one place on the line to the next. -/
lemma exists_reaches_of_mem (hu : u.other.span a b ≤ u.span a b)
    (hps : Pursues (.between a b) b (origin a b) ps) (hp : p ∈ ps.dropLast) :
    ∃ i j j', Reaches u a b i j p ∧ Reaches u a b (i + 1) j' (advance (.between a b) p) := by
  have hstart := reaches_origin u a b
  obtain ⟨i, hi⟩ := List.mem_iff_getElem?.mp hp
  rw [List.getElem?_dropLast] at hi
  split at hi
  · rename_i hlt
    obtain ⟨j, hreach⟩ := hstart.of_pursues hu hps i p hi
    have hlength := hstart.length_of_pursues hu hps
    rw [Nat.zero_add] at hreach
    obtain ⟨j', -, hnext⟩ := hreach.advance hu (by omega)
    exact ⟨i, j, j', hreach, hnext⟩
  · cases hi

/-- The columns and rows of a line between points that fit have room. -/
lemma Reaches.fits (ha : a.Fits) (hb : b.Fits) (h : Reaches u a b i j p) : p.point.Fits := by
  have hx := h.within .across
  have hy := h.within .down
  simp only [Axis.coord, Point.Fits] at *
  omega

lemma safe_of_reaches (ha : a.Fits) (hb : b.Fits) (hdouble : FitsWord (2 * p.err))
    (hcorner : (Slope.between a b).dy ≤ 2 * p.err → FitsWord (p.err + (Slope.between a b).dy))
    (hnext : Reaches u a b i' j' (advance (.between a b) p))
    (herr : FitsWord (advance (.between a b) p).err) : Safe (.between a b) p := by
  have hpoint := hnext.fits ha hb
  refine ⟨hdouble, fun h => ⟨hcorner h, ?_⟩, fun h => ⟨herr, ?_⟩⟩
  · have hx : (advance (.between a b) p).point.x = p.point.x + (Slope.between a b).sx := if_pos h
    exact hx ▸ hpoint.1
  · have hy : (advance (.between a b) p).point.y = p.point.y + (Slope.between a b).sy := if_pos h
    exact hy ▸ hpoint.2

/-- **A line has room if it has fewer steps than a third of the range.** -/
lemma fits_of_steps (ha : a.Fits) (hb : b.Fits) (h : 3 * steps a b < 0x80000000) : Fits a b := by
  obtain ⟨u, hu⟩ := Axis.exists_longer a b
  obtain ⟨ps, hps, -⟩ := exists_pursues_points a b
  refine (fits_iff hps).mpr ⟨by omega, fun p hp => ?_⟩
  obtain ⟨i, j, j', hreach, hnext⟩ := exists_reaches_of_mem hu hps hp
  have hsteps := u.span_steps a b hu
  have herr := abs_le.mp (hreach.abs_err_le hu)
  have herr' := abs_le.mp (hnext.abs_err_le hu)
  have hdy : (Slope.between a b).dy = -((b.y - a.y).natAbs : ℤ) := rfl
  have hle : (b.y - a.y).natAbs ≤ steps a b := le_max_right ..
  refine safe_of_reaches ha hb ?_ (fun _ => ?_) hnext ?_ <;> unfold FitsWord <;> omega

/-- The running error of a line along an axis is its length. -/
lemma Reaches.err_of_axis (h : Reaches u a b i j p) (hother : u.other.span a b = 0) :
    p.err = bias u * u.span a b := by
  have hj : j = 0 := by
    have := h.aside_le
    omega
  rw [h.err_eq, hj, hother]
  simp

/-- **A line along an axis has room exactly if twice its length has.** -/
lemma fits_iff_of_axis (ha : a.Fits) (hb : b.Fits) (hother : u.other.span a b = 0)
    (hpos : 0 < u.span a b) : Fits a b ↔ FitsWord (2 * (bias u * u.span a b)) := by
  have hu : u.other.span a b ≤ u.span a b := by omega
  have hsteps := u.span_steps a b hu
  obtain ⟨ps, hps, -⟩ := exists_pursues_points a b
  rw [fits_iff hps]
  constructor
  · rintro ⟨-, hsafe⟩
    -- the first round is not the last
    have hlength := (reaches_origin u a b).length_of_pursues hu hps
    have hfirst : origin a b ∈ ps.dropLast := by
      cases hps with
      | arrived _ => simp at hlength; omega
      | further _ h => cases h <;> simp
    have hdouble := (hsafe _ hfirst).double
    rwa [(reaches_origin u a b).err_of_axis hother] at hdouble
  · intro hdouble
    refine ⟨?_, fun p hp => ?_⟩
    · cases u <;> simp only [bias, FitsWord] at hdouble <;> omega
    · obtain ⟨i, j, j', hreach, hnext⟩ := exists_reaches_of_mem hu hps hp
      have herr := hreach.err_of_axis hother
      have herr' := hnext.err_of_axis hother
      have hdy : (Slope.between a b).dy = -(Axis.down.span a b : ℤ) := rfl
      refine safe_of_reaches ha hb (by rwa [herr]) (fun hdue => ?_) hnext ?_
      · rw [herr, hdy] at hdue ⊢
        cases u <;> simp only [bias, FitsWord, Axis.other] at * <;> omega
      · rw [herr']
        cases u <;> simp only [bias, FitsWord] at * <;> omega

lemma fits_row_iff {x x' y : ℤ} (ha : Point.Fits ⟨x, y⟩) (hb : Point.Fits ⟨x', y⟩) (h : x ≠ x') :
    Fits ⟨x, y⟩ ⟨x', y⟩ ↔ FitsWord (2 * (x' - x).natAbs) := by
  have hother : Axis.across.other.span ⟨x, y⟩ ⟨x', y⟩ = 0 := by
    simp [Axis.span, Axis.other, Axis.coord]
  have hpos : 0 < Axis.across.span ⟨x, y⟩ ⟨x', y⟩ := by
    simp only [Axis.span, Axis.coord]
    omega
  rw [fits_iff_of_axis ha hb hother hpos, bias, one_mul]
  rfl

lemma fits_column_iff {x y y' : ℤ} (ha : Point.Fits ⟨x, y⟩) (hb : Point.Fits ⟨x, y'⟩)
    (h : y ≠ y') : Fits ⟨x, y⟩ ⟨x, y'⟩ ↔ FitsWord (2 * -(y' - y).natAbs) := by
  have hother : Axis.down.other.span ⟨x, y⟩ ⟨x, y'⟩ = 0 := by
    simp [Axis.span, Axis.other, Axis.coord]
  have hpos : 0 < Axis.down.span ⟨x, y⟩ ⟨x, y'⟩ := by
    simp only [Axis.span, Axis.coord]
    omega
  rw [fits_iff_of_axis ha hb hother hpos, bias, neg_one_mul]
  rfl

end Line

/-! ## Markers -/

/-- The numbers for the corner of a rectangle that is opposite to the first one have room. -/
def Rect.CornerFits (r : Rect) : Prop :=
  (FitsWord (r.x + r.w) ∧ FitsWord (r.x + r.w - 1)) ∧
    FitsWord (r.y + r.h) ∧ FitsWord (r.y + r.h - 1)

/-- The numbers for the marker around a point have room: those for the square, and if it has
pixels, those for its far corner and its sides. -/
structure Point.MarkerFits (p : Point) (radius : ℤ) : Prop where
  near : FitsWord (p.x - radius) ∧ FitsWord (p.y - radius)
  side : FitsWord (radius * 2)
  far : 0 < radius → FitsWord (p.x + radius) ∧ FitsWord (p.y + radius)
  length : radius ≤ 0x20000000

namespace Checked

lemma yields_square (p : Point) (radius : ℤ) :
    Yields ((FitsWord (p.x - radius) ∧ FitsWord (p.y - radius)) ∧ FitsWord (radius * 2))
      (square p radius) (.square p radius) := by
  refine ((yields_sub p.x radius).bind fun _ => (yields_sub p.y radius).bind fun _ =>
    (yields_mul radius 2).bind fun _ => (yields_mul radius 2).map _).congr ?_
  rw [and_self, and_assoc]

lemma yields_sides (r : Rect) :
    Yields (0 < r.w ∧ 0 < r.h → r.CornerFits) (sides r) r.sides := by
  by_cases hempty : r.w ≤ 0 ∨ r.h ≤ 0
  · rw [sides, if_pos hempty, Rect.sides, if_pos hempty]
    exact (Yields.pure _).congr ⟨fun _ hpos => by omega, fun _ => trivial⟩
  · rw [sides, if_neg hempty, Rect.sides, if_neg hempty]
    refine ((yields_add r.x r.w).bind fun _ => (yields_sub _ 1).bind fun _ =>
      (yields_add r.y r.h).bind fun _ => (yields_sub _ 1).map _).congr ?_
    rw [imp_iff_right (show 0 < r.w ∧ 0 < r.h by omega), Rect.CornerFits, and_assoc]

/-- **An outline is drawn if its numbers have room, and overflows if they have not.** -/
lemma yields_drawOutline {α : Type} (g : Grid α) (r : Rect) (ink : α) :
    Yields ((0 < r.w ∧ 0 < r.h → r.CornerFits) ∧ ∀ side ∈ r.sides, Line.Fits side.1 side.2)
      (drawOutline g r ink) (g.drawOutline r ink) :=
  (yields_sides r).bind fun _ => Yields.foldlM (fun g side => yields_drawLine g side.1 side.2 ink) g _

end Checked

namespace Rect

variable {p : Point} {radius : ℤ}

/-- The sides of a square with pixels have room if it has room itself and is not too large. -/
lemma fits_sides_square_iff (hnear : FitsWord (p.x - radius) ∧ FitsWord (p.y - radius))
    (hpos : 0 < radius) (hfar : FitsWord (p.x + radius) ∧ FitsWord (p.y + radius)) :
    (∀ side ∈ (square p radius).sides, Line.Fits side.1 side.2) ↔ radius ≤ 0x20000000 := by
  have hfull : ¬ ((square p radius).w ≤ 0 ∨ (square p radius).h ≤ 0) := by
    simp only [square]
    omega
  have hfits : ∀ x ∈ [p.x - radius, p.x - radius + radius * 2 - 1],
      ∀ y ∈ [p.y - radius, p.y - radius + radius * 2 - 1], Point.Fits ⟨x, y⟩ := by
    simp only [List.forall_mem_cons, List.not_mem_nil, false_imp_iff, implies_true, and_true,
      Point.Fits, FitsWord] at *
    omega
  simp only [List.forall_mem_cons, List.not_mem_nil, false_imp_iff, implies_true, and_true]
    at hfits
  obtain ⟨⟨hnn, hnf⟩, hfn, hff⟩ := hfits
  rw [sides, if_neg hfull]
  simp only [square, List.forall_mem_cons, List.not_mem_nil, false_imp_iff, implies_true,
    and_true]
  rw [Line.fits_row_iff hnn hfn (by omega), Line.fits_column_iff hfn hff (by omega),
    Line.fits_row_iff hff hnf (by omega), Line.fits_column_iff hnf hnn (by omega)]
  unfold FitsWord
  omega

/-- What a square and its outline need is what a marker needs. -/
lemma markerFits_iff : p.MarkerFits radius ↔
    ((FitsWord (p.x - radius) ∧ FitsWord (p.y - radius)) ∧ FitsWord (radius * 2)) ∧
      (0 < (square p radius).w ∧ 0 < (square p radius).h → (square p radius).CornerFits) ∧
        ∀ side ∈ (square p radius).sides, Line.Fits side.1 side.2 := by
  have hwidth : (square p radius).w = radius * 2 ∧ (square p radius).h = radius * 2 := ⟨rfl, rfl⟩
  by_cases hpos : 0 < radius
  · have hcorner (hnear : FitsWord (p.x - radius) ∧ FitsWord (p.y - radius)) :
        (square p radius).CornerFits ↔ FitsWord (p.x + radius) ∧ FitsWord (p.y + radius) := by
      simp only [CornerFits, square, FitsWord] at *
      omega
    constructor
    · rintro ⟨hnear, hside, hfar, hlength⟩
      exact ⟨⟨hnear, hside⟩, fun _ => (hcorner hnear).mpr (hfar hpos),
        (fits_sides_square_iff hnear hpos (hfar hpos)).mpr hlength⟩
    · rintro ⟨⟨hnear, hside⟩, hfar, hsides⟩
      have hfar := (hcorner hnear).mp (hfar (by omega))
      exact ⟨hnear, hside, fun _ => hfar, (fits_sides_square_iff hnear hpos hfar).mp hsides⟩
  · have hempty : (square p radius).sides = [] := sides_of_empty (by omega)
    constructor
    · rintro ⟨hnear, hside, -, -⟩
      exact ⟨⟨hnear, hside⟩, by omega, by simp [hempty]⟩
    · rintro ⟨⟨hnear, hside⟩, -, -⟩
      exact ⟨hnear, hside, fun h => absurd h hpos, by omega⟩

end Rect

end FlowSketch
