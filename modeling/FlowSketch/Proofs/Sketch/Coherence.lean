/-
# The surface and the owners agree

A sketch keeps two grids, one of colors and one of owners.  Strokes and markers are painted on
the first one only, fills on both.  What links them is the opacity: ink is opaque and the blank
surface is, so a pixel with the opacity of a territory was painted by a fill, and since then
nothing was painted over it; it has the color of its owner.

Owners are nodes, and the node that a fill claims for is newer than all of them.  So a pixel that
changes its owner gets a newer one.  Colors of different nodes are different as long as there are
fewer than 2 ^ 24 nodes, so no pixel has the color of a node that is still to come.

Main statement: `coherent_of_operations`.
-/
import Mathlib.Algebra.Order.BigOperators.Group.Finset
import FlowSketch.Proofs.Sketch.Operations

namespace FlowSketch

/-! ## Grids of values -/

namespace Grid

variable {α β : Type} {g : Grid α} {p : Point} {ps : List Point} {a b : α}

lemma mem_cells_of_get? (h : g.get? p = some a) : a ∈ g.cells := by
  unfold get? at h
  split at h
  · rename_i hin
    cases h
    exact Array.getElem_mem (slot_lt hin)
  · cases h

lemma exists_get? (h : g.bounds.covers p = true) : ∃ a, g.get? p = some a := by
  cases ha : g.get? p with
  | some a => exact ⟨a, rfl⟩
  | none =>
    rw [get?_eq_none_iff.mp ha] at h
    cases h

lemma mem_cells_set (h : b ∈ (g.set p a).cells) : b = a ∨ b ∈ g.cells := by
  unfold set at h
  split at h
  · exact (Array.mem_or_eq_of_mem_setIfInBounds h).symm
  · exact .inr h

/-- A value that is in a painted grid was painted or was there before. -/
lemma mem_cells_paint (h : b ∈ (g.paint ps a).cells) : b = a ∨ b ∈ g.cells := by
  induction ps generalizing g with
  | nil => exact .inr h
  | cons p ps ih =>
    rcases ih h with rfl | h
    · exact .inl rfl
    · exact mem_cells_set h

lemma bounds_congr {g' : Grid β} (hw : g.width = g'.width) (hh : g.height = g'.height) :
    g.bounds = g'.bounds := by
  rw [bounds, bounds, hw, hh]

end Grid

namespace Sketch

/-! ## The invariant -/

/-- The surface and the owners of a sketch agree. -/
structure Coherent (s : Sketch) (width height : ℕ) : Prop where
  /-- The surface has its size. -/
  canvas_size : s.canvas.width = width ∧ s.canvas.height = height
  /-- The map of owners has the same size. -/
  owners_size : s.owners.width = width ∧ s.owners.height = height
  /-- Owners are nodes. -/
  owned : ∀ id ∈ s.owners.cells, s.graph.contains id = true
  /-- A pixel with the opacity of a territory has the color of its owner. -/
  painted : ∀ p color, s.canvas.get? p = some color → color.alpha = Color.territoryAlpha →
    ∃ id, s.owners.get? p = some id ∧ color = Color.territory id

lemma coherent_blank (settings : Settings) (width height : ℕ) :
    (onCanvas settings (Canvas.blank width height)).Coherent width height := by
  constructor
  case canvas_size => exact ⟨rfl, rfl⟩
  case owners_size => exact ⟨rfl, rfl⟩
  case owned =>
    intro id hid
    rw [show id = NodeId.root from (Array.mem_replicate.mp hid).2]
    rfl
  case painted =>
    intro p color hcolor halpha
    have hwhite : (Canvas.blank width height).get? p = some color := hcolor
    rw [Canvas.blank, Grid.get?_filled] at hwhite
    split at hwhite
    · cases hwhite
      exact absurd halpha (by decide)
    · cases hwhite

namespace Coherent

variable {s k : Sketch} {width height : ℕ} {p : Point} {id : NodeId}

lemma bounds_eq (hs : s.Coherent width height) : s.canvas.bounds = s.owners.bounds :=
  Grid.bounds_congr (hs.canvas_size.1.trans hs.owners_size.1.symm)
    (hs.canvas_size.2.trans hs.owners_size.2.symm)

/-- The owner of a pixel is older than any node that is still to come. -/
lemma index_lt (hs : s.Coherent width height) (h : s.owners.get? p = some id) :
    id.index < s.graph.nodes.size :=
  Graph.contains_iff.mp (hs.owned id (Grid.mem_cells_of_get? h))

/-- What an operation paints keeps the surface and the owners in agreement. -/
lemma of_paints (hs : s.Coherent width height) (hpaints : s.Paints k) :
    k.Coherent width height := by
  cases hpaints with
  | ink ps halpha hcanvas howners hsize =>
    constructor
    case canvas_size => simpa [hcanvas] using hs.canvas_size
    case owners_size => simpa [howners] using hs.owners_size
    case owned =>
      intro id hid
      rw [howners] at hid
      rw [Graph.contains_iff, hsize]
      exact Graph.contains_iff.mp (hs.owned id hid)
    case painted =>
      intro p color hcolor hterritory
      rw [hcanvas, Grid.get?_paint] at hcolor
      rw [howners]
      split at hcolor
      · -- a pixel with ink has not the opacity of a territory
        cases hcolor
        exact absurd hterritory halpha
      · exact hs.painted p color hcolor hterritory
  | claim ps hcanvas howners hsize =>
    constructor
    case canvas_size => simpa [hcanvas] using hs.canvas_size
    case owners_size => simpa [howners] using hs.owners_size
    case owned =>
      -- an owner is the new node or was there before
      intro id hid
      rw [howners] at hid
      rw [Graph.contains_iff, hsize]
      rcases Grid.mem_cells_paint hid with rfl | hid
      · exact Nat.lt_succ_self _
      · exact Nat.lt_succ_of_lt (Graph.contains_iff.mp (hs.owned id hid))
    case painted =>
      intro p color hcolor hterritory
      -- the two grids have the same bounds, so the same pixels of both are painted
      rw [hcanvas, Grid.get?_paint, hs.bounds_eq] at hcolor
      rw [howners, Grid.get?_paint]
      split at hcolor
      · rename_i hp
        cases hcolor
        exact ⟨_, if_pos hp, rfl⟩
      · rename_i hp
        rw [if_neg hp]
        exact hs.painted p color hcolor hterritory

/-- An operation leaves a pixel with its owner or gives it a newer one. -/
lemma exists_owner_le (hs : s.Coherent width height) (hpaints : s.Paints k)
    (h : s.owners.get? p = some id) :
    ∃ id', k.owners.get? p = some id' ∧ id.index ≤ id'.index := by
  cases hpaints with
  | ink ps _ _ howners _ => exact ⟨id, howners ▸ h, Nat.le_refl _⟩
  | claim ps _ howners _ =>
    rw [howners, Grid.get?_paint]
    split
    · -- the new node is newer than every owner
      exact ⟨_, rfl, Nat.le_of_lt (hs.index_lt h)⟩
    · exact ⟨id, h, Nat.le_refl _⟩

/-- Every pixel is counted for one node. -/
lemma sum_count (hs : s.Coherent width height) :
    ∑ i ∈ Finset.range s.graph.nodes.size, s.owners.count ⟨i⟩ = width * height := by
  -- the pixels of a node are its occurrences among the numbers of all owners
  have hcount : ∀ i, s.owners.count ⟨i⟩ =
      (s.owners.cells.toList.map NodeId.index : Multiset ℕ).count i := by
    intro i
    rw [Multiset.coe_count, List.count, List.countP_map, Grid.count, ← Array.countP_toList]
    refine List.countP_congr fun id _ => ?_
    cases id
    simp
  have hmem : ∀ i ∈ (s.owners.cells.toList.map NodeId.index : Multiset ℕ),
      i ∈ Finset.range s.graph.nodes.size := by
    intro i hi
    obtain ⟨id, hid, rfl⟩ := List.mem_map.mp (Multiset.mem_coe.mp hi)
    exact Finset.mem_range.mpr (Graph.contains_iff.mp (hs.owned id (Array.mem_toList_iff.mp hid)))
  rw [Finset.sum_congr rfl fun i _ => hcount i, Multiset.sum_count_eq_card hmem,
    Multiset.coe_card, List.length_map, Array.length_toList, s.owners.size_cells,
    hs.owners_size.1, hs.owners_size.2]

/-- No pixel has the color of a node that is still to come. -/
lemma canvas_ne_territory (hs : s.Coherent width height)
    (hsize : s.graph.nodes.size < 0x1000000) (hid : id.index < 0x1000000)
    (hnew : s.graph.contains id = false) (p : Point) :
    s.canvas.get? p ≠ some (Color.territory id) := by
  intro hcolor
  obtain ⟨owner, howner, hsame⟩ := hs.painted p _ hcolor (Color.territory_alpha id)
  have hlt := hs.index_lt howner
  have hold : s.graph.contains id = true := by
    rw [Color.territory_inj hid (hlt.trans hsize) hsame]
    exact Graph.contains_iff.mpr hlt
  rw [hold] at hnew
  cases hnew

end Coherent

/-- Operations in turn keep the surface and the owners in agreement, and no pixel gets an older
owner. -/
lemma Coherent.performAll {s : Sketch} {width height : ℕ} (hs : s.Coherent width height)
    (ops : List Op) : ∃ k, s.performAll ops = .ok k ∧ k.Coherent width height ∧
      ∀ p a, s.owners.get? p = some a → ∃ b, k.owners.get? p = some b ∧ a.index ≤ b.index := by
  refine performAll_induction (P := fun _ k => k.Coherent width height ∧ ∀ p a,
      s.owners.get? p = some a → ∃ b, k.owners.get? p = some b ∧ a.index ≤ b.index)
    ⟨hs, fun p a ha => ⟨a, ha, Nat.le_refl _⟩⟩ (fun _ op k k' ⟨hk, hle⟩ hop => ?_) ops
  have hpaints := paints_of_perform hop
  refine ⟨hk.of_paints hpaints, fun p a ha => ?_⟩
  obtain ⟨b, hb, hab⟩ := hle p a ha
  obtain ⟨c, hc, hbc⟩ := hk.exists_owner_le hpaints hb
  exact ⟨c, hc, hab.trans hbc⟩

/-- **After any operations on a blank surface, the surface and the owners agree.**  Every pixel is
counted for one node, no pixel has the color of a node that is still to come, and whatever is
done next, no pixel gets an older owner. -/
theorem coherent_of_operations (settings : Settings) (width height : ℕ) (ops : List Op) :
    ∃ s, (onCanvas settings (Canvas.blank width height)).performAll ops = .ok s ∧
      s.Coherent width height ∧
      ∑ i ∈ Finset.range s.graph.nodes.size, s.owners.count ⟨i⟩ = width * height ∧
      (s.graph.nodes.size < 0x1000000 → ∀ id : NodeId, id.index < 0x1000000 →
        s.graph.contains id = false → ∀ p, s.canvas.get? p ≠ some (Color.territory id)) ∧
      ∀ next, ∃ k, s.performAll next = .ok k ∧ k.Coherent width height ∧
        ∀ p a, s.owners.get? p = some a →
          ∃ b, k.owners.get? p = some b ∧ a.index ≤ b.index := by
  obtain ⟨s, hs, hcoherent, -⟩ := (coherent_blank settings width height).performAll ops
  exact ⟨s, hs, hcoherent, hcoherent.sum_count,
    fun hsize _ hid hnew => hcoherent.canvas_ne_territory hsize hid hnew, hcoherent.performAll⟩

/-- A scope that is drawn with a single dot. -/
def dot : List Op := [.apply ⟨.scope, ⟨1, 0⟩, ⟨1, 0⟩⟩]

/-- On a surface with a dot no pixel has the color of node 7. -/
theorem coherent_of_operations_dot :
    ∃ s, (onCanvas {} (Canvas.blank 3 3)).performAll dot = .ok s ∧
      ∀ p, s.canvas.get? p ≠ some (Color.territory ⟨7⟩) := by
  obtain ⟨s, hs, -, -, hnew, -⟩ := coherent_of_operations {} 3 3 dot
  have hsize : (Except.ok s : Except FillError Sketch).toOption.map (·.graph.nodes.size) =
      some 2 := by
    rw [← hs]
    decide +kernel
  have hsize : s.graph.nodes.size = 2 := Option.some.inj hsize
  refine ⟨s, hs, hnew (by omega) ⟨7⟩ (by decide) ?_⟩
  rw [Graph.contains, hsize]
  rfl

end Sketch

end FlowSketch
