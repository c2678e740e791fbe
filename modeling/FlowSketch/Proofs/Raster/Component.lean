/-
# A fill claims one connected area

The search behind a fill claims pixels one after the other.  At every moment the surface and the
owners are the old ones with the claimed pixels painted over, each pixel that was claimed is
connected with the seed, and each neighbour of it inside the bounds has its mark.  A pixel with a
mark is on the stack, or it was claimed, or it does not have the color of the seed.  So when the
stack is empty, the claimed pixels are all that are connected with the seed.

Main statement: `floodFill_claims`.
-/
import Mathlib.Data.Set.Card
import FlowSketch.Proofs.Raster.Fill

namespace FlowSketch

/-! ## Connected pixels -/

/-- The pixels to which steps from pixel to neighbour lead from a seed, without leaving an area
and through pixels of the seed's color only. -/
inductive Connected (canvas : Canvas) (area : Rect) (seed : Point) : Point → Prop
  /-- No step is taken. -/
  | seed : Connected canvas area seed seed
  /-- One more step is taken. -/
  | step {p q : Point} : Connected canvas area seed p → q ∈ p.neighbours →
    area.covers q = true → canvas.get? q = canvas.get? seed → Connected canvas area seed q

lemma Connected.color {canvas : Canvas} {area : Rect} {seed p : Point}
    (h : Connected canvas area seed p) : canvas.get? p = canvas.get? seed := by
  cases h with
  | seed => rfl
  | step _ _ _ hcolor => exact hcolor

namespace Grid

variable {α : Type} (g : Grid α) (ps : List Point) (p : Point) (a : α)

lemma paint_concat : g.paint (ps ++ [p]) a = (g.paint ps a).set p a := by
  rw [paint, List.foldl_append]
  rfl

@[simp] lemma width_paint : (g.paint ps a).width = g.width := by
  induction ps generalizing g with
  | nil => rfl
  | cons q ps ih => exact (ih (g.set q a)).trans (width_set g q a)

@[simp] lemma height_paint : (g.paint ps a).height = g.height := by
  induction ps generalizing g with
  | nil => rfl
  | cons q ps ih => exact (ih (g.set q a)).trans (height_set g q a)

end Grid

namespace Fill

/-! ## Marks -/

/-- What putting pixels on the stack does to the marks and the stack. -/
structure Pushed (area : Rect) (ps : List Point) (before after : Grid Bool × List Point) :
    Prop where
  /-- The marks are for the same surface. -/
  bounds : after.1.bounds = before.1.bounds
  /-- What is on the stack stays there. -/
  kept : ∀ q ∈ before.2, q ∈ after.2
  /-- Only the given pixels come to the stack, and only those of the area. -/
  added : ∀ q ∈ after.2, q ∈ before.2 ∨ q ∈ ps ∧ area.covers q = true
  /-- No mark is lost. -/
  stays : ∀ q, before.1.get? q = some true → after.1.get? q = some true
  /-- A pixel with a new mark is on the stack. -/
  marked : ∀ q, after.1.get? q = some true → before.1.get? q = some true ∨ q ∈ after.2
  /-- All of the given pixels that are in the area have marks afterwards. -/
  all : ∀ q ∈ ps, area.covers q = true → before.1.bounds.covers q = true →
    after.1.get? q = some true

lemma Pushed.refl (area : Rect) (acc : Grid Bool × List Point) : Pushed area [] acc acc where
  bounds := rfl
  kept _ hq := hq
  added _ hq := .inl hq
  stays _ hq := hq
  marked _ hq := .inl hq
  all _ hq := absurd hq List.not_mem_nil

lemma Pushed.cons {area : Rect} {p : Point} {ps : List Point} {a b c : Grid Bool × List Point}
    (hab : Pushed area [p] a b) (hbc : Pushed area ps b c) : Pushed area (p :: ps) a c where
  bounds := hbc.bounds.trans hab.bounds
  kept q hq := hbc.kept q (hab.kept q hq)
  added := by
    intro q hq
    rcases hbc.added q hq with hq | ⟨hq, hcov⟩
    · rcases hab.added q hq with hq | ⟨hq, hcov⟩
      · exact .inl hq
      · rw [List.mem_singleton] at hq
        exact .inr ⟨hq ▸ List.mem_cons_self, hcov⟩
    · exact .inr ⟨List.mem_cons_of_mem p hq, hcov⟩
  stays q hq := hbc.stays q (hab.stays q hq)
  marked := by
    intro q hq
    rcases hbc.marked q hq with hq | hq
    · exact (hab.marked q hq).imp_right (hbc.kept q)
    · exact .inr hq
  all := by
    intro q hq hcov hin
    rcases List.mem_cons.mp hq with rfl | hq
    · exact hbc.stays q (hab.all q List.mem_cons_self hcov hin)
    · exact hbc.all q hq hcov (hab.bounds ▸ hin)

/-- A pixel that is not pushed changes nothing. -/
lemma Pushed.same {area : Rect} {p : Point} {acc : Grid Bool × List Point}
    (hp : area.covers p = true → acc.1.bounds.covers p = true → acc.1.get? p = some true) :
    Pushed area [p] acc acc where
  bounds := rfl
  kept _ hq := hq
  added _ hq := .inl hq
  stays _ hq := hq
  marked _ hq := .inl hq
  all := by
    intro q hq hcov hin
    rw [List.mem_singleton] at hq
    subst hq
    exact hp hcov hin

/-- A pixel of the area that has no mark gets one and comes to the stack. -/
lemma Pushed.set {area : Rect} {p : Point} {marked : Grid Bool} {stack : List Point}
    (hcov : area.covers p = true) (hfree : marked.get? p = some false) :
    Pushed area [p] (marked, stack) (marked.set p true, p :: stack) where
  bounds := Grid.bounds_set ..
  kept q hq := List.mem_cons_of_mem p hq
  added := by
    intro q hq
    rcases List.mem_cons.mp hq with rfl | hq
    · exact .inr ⟨List.mem_singleton_self q, hcov⟩
    · exact .inl hq
  stays := by
    intro q hq
    rw [Grid.get?_set]
    split
    · rfl
    · exact hq
  marked := by
    intro q hq
    rw [Grid.get?_set] at hq
    split at hq
    · rename_i hpq
      exact .inr (hpq.1 ▸ List.mem_cons_self)
    · exact .inl hq
  all := by
    intro q hq _ _
    rw [List.mem_singleton] at hq
    subst hq
    rw [Grid.get?_set, if_pos ⟨rfl, Grid.covers_of_get? hfree⟩]

lemma pushed_push (area : Rect) (marked : Grid Bool) (stack : List Point) (p : Point) :
    Pushed area [p] (marked, stack) (push area (marked, stack) p) := by
  unfold push
  dsimp only
  split
  · rename_i hcov
    split
    · rename_i hfree
      exact .set hcov hfree
    · rename_i hother
      refine .same fun _ hin => ?_
      cases hp : marked.get? p with
      | none => simp [Grid.get?_eq_none_iff.mp hp] at hin
      | some b =>
        cases b with
        | true => rfl
        | false => exact absurd hp hother
  · rename_i hcov
    exact .same fun h => absurd h hcov

lemma pushed_foldl (area : Rect) (ps : List Point) (acc : Grid Bool × List Point) :
    Pushed area ps acc (ps.foldl (push area) acc) := by
  induction ps generalizing acc with
  | nil => exact Pushed.refl area acc
  | cons p ps ih => exact (pushed_push area acc.1 acc.2 p).cons (ih _)

/-! ## The search -/

/-- A search that began on a surface with owners at a seed is at a state, with a stack, and has
claimed certain pixels, in this order. -/
structure Reached (t : Task) (canvas : Canvas) (owners : TerritoryMap) (seed : Point) (s : State)
    (stack ps : List Point) : Prop where
  /-- The claimed pixels are painted, and nothing else is. -/
  canvas_eq : s.canvas = canvas.paint ps t.ink
  /-- The claimed pixels have their new owner, and no other pixel has. -/
  owners_eq : s.owners = owners.paint ps t.node
  /-- The claimed pixels are counted. -/
  claimed_eq : s.claimed = ps.length
  /-- No pixel is claimed twice. -/
  nodup : ps.Nodup
  /-- Only connected pixels are claimed. -/
  connected : ∀ p ∈ ps, Connected canvas t.area seed p
  /-- What waits to be claimed is connected. -/
  waiting : ∀ p ∈ stack, canvas.get? p = some t.target → Connected canvas t.area seed p
  /-- The marks are for the surface. -/
  bounds : s.marked.bounds = canvas.bounds
  /-- The seed has a mark. -/
  seed_marked : s.marked.get? seed = some true
  /-- The neighbours of a claimed pixel have marks. -/
  closed : ∀ p ∈ ps, ∀ q ∈ p.neighbours, t.area.covers q = true → canvas.bounds.covers q = true →
    s.marked.get? q = some true
  /-- A pixel with a mark is waiting, or claimed, or has another color. -/
  marked : ∀ p, s.marked.get? p = some true →
    p ∈ stack ∨ p ∈ ps ∨ canvas.get? p ≠ some t.target

namespace Reached

variable {t : Task} {canvas : Canvas} {owners : TerritoryMap} {seed p : Point} {s : State}
  {stack ps : List Point}

/-- A pixel that waits has the color to claim exactly if it had it at first and was not claimed
since. -/
lemma color_iff (h : Reached t canvas owners seed s stack ps) (hink : t.ink ≠ t.target) :
    s.canvas.get? p = some t.target ↔ canvas.get? p = some t.target ∧ p ∉ ps := by
  rw [h.canvas_eq, Grid.get?_paint]
  split
  · rename_i hp
    simp [hink, hp.1]
  · rename_i hp
    exact ⟨fun hcolor => ⟨hcolor, fun hmem => hp ⟨hmem, Grid.covers_of_get? hcolor⟩⟩,
      fun hcolor => hcolor.1⟩

/-- A pixel of another color is passed over. -/
lemma skip (h : Reached t canvas owners seed s (p :: stack) ps) (hink : t.ink ≠ t.target)
    (hcolor : s.canvas.get? p ≠ some t.target) : Reached t canvas owners seed s stack ps where
  canvas_eq := h.canvas_eq
  owners_eq := h.owners_eq
  claimed_eq := h.claimed_eq
  nodup := h.nodup
  connected := h.connected
  waiting q hq := h.waiting q (List.mem_cons_of_mem p hq)
  bounds := h.bounds
  seed_marked := h.seed_marked
  closed := h.closed
  marked := by
    intro q hq
    rcases h.marked q hq with hwait | hdone
    · rcases List.mem_cons.mp hwait with rfl | hwait
      · rw [ne_eq, h.color_iff hink, not_and_not_right] at hcolor
        by_cases hold : canvas.get? q = some t.target
        · exact .inr (.inl (hcolor hold))
        · exact .inr (.inr hold)
      · exact .inl hwait
    · exact .inr hdone

/-- A pixel of the color to claim is claimed, and its neighbours come to the stack. -/
lemma claim (h : Reached t canvas owners seed s (p :: stack) ps) (hink : t.ink ≠ t.target)
    (hseed : canvas.get? seed = some t.target) (hcolor : s.canvas.get? p = some t.target) :
    Reached t canvas owners seed (claim t s p stack).1 (claim t s p stack).2 (ps ++ [p]) := by
  obtain ⟨hold, hnew⟩ := (h.color_iff hink).mp hcolor
  have hp : Connected canvas t.area seed p := h.waiting p List.mem_cons_self hold
  have hpush := pushed_foldl t.area p.neighbours (s.marked, stack)
  have hconnected : ∀ q ∈ ps ++ [p], Connected canvas t.area seed q := by
    intro q hq
    rcases List.mem_append.mp hq with hq | hq
    · exact h.connected q hq
    · rw [List.mem_singleton] at hq
      exact hq ▸ hp
  constructor
  case canvas_eq =>
    rw [Grid.paint_concat, ← h.canvas_eq]
    rfl
  case owners_eq =>
    rw [Grid.paint_concat, ← h.owners_eq]
    rfl
  case claimed_eq =>
    rw [List.length_append, ← h.claimed_eq]
    rfl
  case nodup => exact List.nodup_append.mpr ⟨h.nodup, List.nodup_singleton p, by
    rintro a ha b hb rfl
    rw [List.mem_singleton] at hb
    exact hnew (hb ▸ ha)⟩
  case connected => exact hconnected
  case waiting =>
    intro q hq hqcolor
    rcases hpush.added q hq with hq | ⟨hq, hcov⟩
    · exact h.waiting q (List.mem_cons_of_mem p hq) hqcolor
    · exact .step hp hq hcov (hqcolor.trans hseed.symm)
  case bounds => exact hpush.bounds.trans h.bounds
  case seed_marked => exact hpush.stays seed h.seed_marked
  case closed =>
    intro r hr q hq hcov hin
    rcases List.mem_append.mp hr with hr | hr
    · exact hpush.stays q (h.closed r hr q hq hcov hin)
    · rw [List.mem_singleton] at hr
      subst hr
      exact hpush.all q hq hcov (h.bounds ▸ hin)
  case marked =>
    intro q hq
    rcases hpush.marked q hq with hq | hq
    · rcases h.marked q hq with hq | hq | hq
      · rcases List.mem_cons.mp hq with rfl | hq
        · exact .inr (.inl (by simp))
        · exact .inl (hpush.kept q hq)
      · exact .inr (.inl (List.mem_append_left _ hq))
      · exact .inr (.inr hq)
    · exact .inl hq

/-- A search that is done has come from where it was to an empty stack. -/
lemma search {budget : ℕ} {s' : State} (h : Reached t canvas owners seed s stack ps)
    (hink : t.ink ≠ t.target) (hseed : canvas.get? seed = some t.target)
    (hs : search t budget s stack = .ok s') :
    ∃ ps', Reached t canvas owners seed s' [] ps' := by
  induction budget generalizing s stack ps with
  | zero =>
    cases stack with
    | nil =>
      rw [Fill.search] at hs
      cases hs
      exact ⟨ps, h⟩
    | cons p stack =>
      rw [Fill.search] at hs
      cases hs
  | succ budget ih =>
    cases stack with
    | nil =>
      rw [Fill.search] at hs
      cases hs
      exact ⟨ps, h⟩
    | cons p stack =>
      rw [Fill.search] at hs
      split at hs
      · rename_i hcolor
        exact ih (h.claim hink hseed hcolor) hs
      · rename_i hcolor
        exact ih (h.skip hink hcolor) hs

/-- When nothing waits any more, all connected pixels are claimed. -/
lemma mem_iff (h : Reached t canvas owners seed s [] ps)
    (hseed : canvas.get? seed = some t.target) : p ∈ ps ↔ Connected canvas t.area seed p := by
  -- a pixel with a mark and the right color can only be a claimed one
  have hclaimed : ∀ q, canvas.get? q = some t.target → s.marked.get? q = some true → q ∈ ps := by
    intro q hcolor hq
    rcases h.marked q hq with hq | hq | hq
    · cases hq
    · exact hq
    · exact absurd hcolor hq
  refine ⟨h.connected p, fun hp => ?_⟩
  induction hp with
  | seed => exact hclaimed seed hseed h.seed_marked
  | step _ hq hcov hcolor ih =>
    rw [hseed] at hcolor
    exact hclaimed _ hcolor (h.closed _ ih _ hq hcov (Grid.covers_of_get? hcolor))

end Reached

/-- The search begins with the seed on the stack. -/
lemma reached_start {t : Task} {canvas : Canvas} (owners : TerritoryMap) {seed : Point}
    (hseed : canvas.get? seed = some t.target) :
    Reached t canvas owners seed
      ⟨canvas, owners, (Grid.filled canvas.width canvas.height false).set seed true, 0⟩ [seed]
      [] := by
  have hin := Grid.covers_of_get? hseed
  constructor
  case canvas_eq => rfl
  case owners_eq => rfl
  case claimed_eq => rfl
  case nodup => exact List.nodup_nil
  case connected => exact fun p hp => absurd hp List.not_mem_nil
  case waiting =>
    intro p hp _
    rw [List.mem_singleton] at hp
    exact hp ▸ .seed
  case bounds => exact Grid.bounds_set ..
  case seed_marked => rw [Grid.get?_set, if_pos ⟨rfl, hin⟩]
  case closed => exact fun p hp => absurd hp List.not_mem_nil
  case marked =>
    intro p hp
    rw [Grid.get?_set, Grid.get?_filled] at hp
    split at hp
    · rename_i hsp
      exact .inl (hsp.1 ▸ List.mem_singleton_self seed)
    · split at hp <;> cases hp

/-! ## Fills -/

/-- A fill has claimed the pixels of a set for a node, and has changed nothing else. -/
structure Claims (canvas : Canvas) (owners : TerritoryMap) (node : NodeId) (area : Set Point)
    (r : Result) : Prop where
  /-- The pixels are counted. -/
  count : area.encard = r.claimed
  /-- Each of them has the color of the node. -/
  painted : ∀ p ∈ area, r.canvas.get? p = some (Color.territory node)
  /-- Each of them that has an owner is owned by the node. -/
  owned : ∀ p ∈ area, owners.bounds.covers p = true → r.owners.get? p = some node
  /-- The other pixels have the color that they had. -/
  canvas_other : ∀ p ∉ area, r.canvas.get? p = canvas.get? p
  /-- The other pixels have the owner that they had. -/
  owners_other : ∀ p ∉ area, r.owners.get? p = owners.get? p
  /-- The surface is as large as before. -/
  canvas_size : r.canvas.width = canvas.width ∧ r.canvas.height = canvas.height
  /-- There are owners for as many pixels as before. -/
  owners_size : r.owners.width = owners.width ∧ r.owners.height = owners.height

lemma Reached.claims {t : Task} {canvas : Canvas} {owners : TerritoryMap} {seed : Point}
    {s : State} {ps : List Point} (h : Reached t canvas owners seed s [] ps)
    (hseed : canvas.get? seed = some t.target) (hink : t.ink = Color.territory t.node) :
    Claims canvas owners t.node {p | Connected canvas t.area seed p}
      ⟨s.canvas, s.owners, s.claimed⟩ := by
  have hset : {p | Connected canvas t.area seed p} = ↑ps.toFinset := by
    ext p
    rw [Set.mem_ofPred_eq, ← h.mem_iff hseed, List.coe_toFinset, Set.mem_ofPred_eq]
  have hmem : ∀ {p}, p ∈ {p | Connected canvas t.area seed p} ↔ p ∈ ps := by
    intro p
    exact (h.mem_iff hseed).symm
  constructor
  case count =>
    rw [hset, Set.encard_coe_eq_coe_finsetCard, List.toFinset_card_of_nodup h.nodup, h.claimed_eq]
  case painted =>
    intro p hp
    have hin := Grid.covers_of_get? (hp.color.trans hseed)
    rw [h.canvas_eq, Grid.get?_paint, if_pos ⟨hmem.mp hp, hin⟩, hink]
  case owned =>
    intro p hp hin
    rw [h.owners_eq, Grid.get?_paint, if_pos ⟨hmem.mp hp, hin⟩]
  case canvas_other =>
    intro p hp
    rw [h.canvas_eq, Grid.get?_paint, if_neg fun hq => hp (hmem.mpr hq.1)]
  case owners_other =>
    intro p hp
    rw [h.owners_eq, Grid.get?_paint, if_neg fun hq => hp (hmem.mpr hq.1)]
  case canvas_size => simp [h.canvas_eq]
  case owners_size => simp [h.owners_eq]

end Fill

variable {canvas : Canvas} {owners : TerritoryMap} {seed : Point} {node : NodeId} {bounds : Rect}

/-- A seed out of bounds or in the color of the node claims nothing. -/
lemma floodFill_of_barred (h : ¬ ((bounds.inter canvas.bounds).covers seed = true ∧
      canvas.get? seed ≠ some (Color.territory node))) :
    floodFill canvas owners seed node bounds = .ok ⟨canvas, owners, 0⟩ := by
  by_cases hcolor : canvas.get? seed = some (Color.territory node)
  · exact floodFill_of_own_color hcolor
  · unfold floodFill
    exact if_neg fun hcov => h ⟨hcov, hcolor⟩

/-- Any other seed is searched from until nothing waits any more. -/
lemma exists_reached (owners : TerritoryMap)
    (hcov : (bounds.inter canvas.bounds).covers seed = true)
    (hcolor : canvas.get? seed ≠ some (Color.territory node)) :
    ∃ target s ps, canvas.get? seed = some target ∧
      Fill.Reached ⟨node, bounds.inter canvas.bounds, target, Color.territory node⟩ canvas owners
        seed s [] ps ∧
      floodFill canvas owners seed node bounds = .ok ⟨s.canvas, s.owners, s.claimed⟩ := by
  obtain ⟨r, hr⟩ := floodFill_isOk canvas owners seed node bounds
  have hfill := hr
  unfold floodFill at hr
  dsimp only at hr
  rw [if_pos hcov] at hr
  split at hr
  · -- a seed on the surface has a color
    rename_i hnone
    rw [Rect.covers_inter, Grid.get?_eq_none_iff.mp hnone, Bool.and_false] at hcov
    cases hcov
  · rename_i target hseed
    rw [hseed, ne_eq, Option.some.injEq] at hcolor
    rw [if_neg hcolor] at hr
    obtain ⟨s, hs, rfl⟩ : ∃ s, Fill.search _ _ _ _ = .ok s ∧ _ = r := by
      cases hsearch : Fill.search _ _ _ _ with
      | error e =>
        rw [hsearch] at hr
        cases hr
      | ok s =>
        rw [hsearch] at hr
        exact ⟨s, hsearch, Except.ok.inj hr⟩
    obtain ⟨ps, hps⟩ := (Fill.reached_start owners hseed).search (Ne.symm hcolor) hseed hs
    exact ⟨target, s, ps, hseed, hps, hfill⟩

/-- The component of such a seed is claimed. -/
lemma exists_claims (hcov : (bounds.inter canvas.bounds).covers seed = true)
    (hcolor : canvas.get? seed ≠ some (Color.territory node)) :
    ∃ r, floodFill canvas owners seed node bounds = .ok r ∧
      Fill.Claims canvas owners node
        {p | Connected canvas (bounds.inter canvas.bounds) seed p} r := by
  obtain ⟨target, s, ps, hseed, hps, hfill⟩ := exists_reached owners hcov hcolor
  exact ⟨_, hfill, hps.claims hseed rfl⟩

/-- A fill paints the same pixels on the surface and in the map of owners. -/
lemma exists_paint_of_floodFill {r : Fill.Result}
    (h : floodFill canvas owners seed node bounds = .ok r) :
    ∃ ps, r.canvas = canvas.paint ps (Color.territory node) ∧ r.owners = owners.paint ps node := by
  by_cases hseed : (bounds.inter canvas.bounds).covers seed = true ∧
      canvas.get? seed ≠ some (Color.territory node)
  · obtain ⟨target, s, ps, -, hps, hfill⟩ := exists_reached owners hseed.1 hseed.2
    rw [hfill] at h
    cases h
    exact ⟨ps, hps.canvas_eq, hps.owners_eq⟩
  · rw [floodFill_of_barred hseed] at h
    cases h
    exact ⟨[], rfl, rfl⟩

/-- **A fill never fails.  From a seed within the bounds and on the surface that does not have
the node's color yet, it claims exactly the pixels that are connected with the seed.  From any
other seed it claims nothing and changes nothing, and neither does it when it is repeated.** -/
theorem floodFill_claims (canvas : Canvas) (owners : TerritoryMap) (seed : Point) (node : NodeId)
    (bounds : Rect) :
    ∃ r, floodFill canvas owners seed node bounds = .ok r ∧
      (if (bounds.inter canvas.bounds).covers seed = true ∧
          canvas.get? seed ≠ some (Color.territory node) then
        Fill.Claims canvas owners node
          {p | Connected canvas (bounds.inter canvas.bounds) seed p} r
      else r = ⟨canvas, owners, 0⟩) ∧
      floodFill r.canvas r.owners seed node bounds = .ok ⟨r.canvas, r.owners, 0⟩ := by
  split
  · rename_i h
    obtain ⟨r, hr, hclaims⟩ := exists_claims h.1 h.2
    exact ⟨r, hr, hclaims, floodFill_of_own_color (hclaims.painted seed .seed)⟩
  · rename_i h
    have hr : floodFill canvas owners seed node bounds = .ok ⟨canvas, owners, 0⟩ :=
      floodFill_of_barred h
    exact ⟨_, hr, rfl, hr⟩

end FlowSketch
