/-
# The territory of a new node

A node that is drawn claims the area around its probe, the pixel next to the end of its stroke.  A
fill does nothing if its seed already has the color to paint; but a new node has a color that no
pixel has yet, as long as there are fewer than 2 ^ 24 nodes.  So the node gets all pixels that are
connected with the probe, and they are the only ones that it owns.  If the probe is off the surface
there is nothing to claim.

Main statement: `Coherent.claims_of_apply`.
-/
import FlowSketch.Proofs.Sketch.Tally

namespace FlowSketch

/-! ## Counting painted cells -/

namespace Grid

variable {α : Type} [DecidableEq α] {g : Grid α} {p : Point} {ps : List Point} {a : α}

/-- A cell that gets a value that it did not have is one more with this value. -/
lemma count_set (hp : g.bounds.covers p = true) (ha : g.get? p ≠ some a) :
    (g.set p a).count a = g.count a + 1 := by
  have hlt : g.slot p < g.cells.size := slot_lt hp
  have hne : g.cells[g.slot p] ≠ a := by
    intro h
    refine ha ?_
    rw [get?, dif_pos hp]
    exact congrArg some h
  have hcells : (g.set p a).cells = g.cells.set (g.slot p) a hlt := by
    simp only [set, hp, if_true, Array.setIfInBounds, hlt, dite_true]
  rw [count, hcells, Array.countP_set hlt, if_neg (by simpa using hne), if_pos (by simp)]
  rfl

/-- There are as many cells with a value that is new to a grid as were painted with it. -/
lemma count_paint (hnew : a ∉ g.cells) (hps : ps.Nodup)
    (hin : ∀ p ∈ ps, g.bounds.covers p = true) : (g.paint ps a).count a = ps.length := by
  induction ps using List.reverseRecOn with
  | nil =>
    refine Array.countP_eq_zero.mpr fun b hb hba => hnew ?_
    rw [← eq_of_beq hba]
    exact hb
  | append_singleton ps p ih =>
    have hp : (g.paint ps a).get? p ≠ some a := by
      rw [get?_paint, if_neg fun h => (List.nodup_append.mp hps).2.2 p h.1 p (by simp) rfl]
      exact fun h => hnew (mem_cells_of_get? h)
    rw [paint_concat, count_set (by rw [bounds_paint]; exact hin p (by simp)) hp,
      ih (List.nodup_append.mp hps).1 fun q hq => hin q (by simp [hq]), List.length_append]
    rfl

end Grid

/-- A rectangle that covers a pixel is its own common part with itself. -/
lemma Rect.inter_self {r : Rect} {p : Point} (h : r.covers p = true) : r.inter r = r := by
  rw [covers_iff] at h
  cases r
  simp only [inter, Rect.mk.injEq] at *
  omega

/-- From a seed off the surface nothing is claimed. -/
lemma floodFill_of_off {canvas : Canvas} (owners : TerritoryMap) {seed : Point} (node : NodeId)
    (h : canvas.bounds.covers seed = false) :
    floodFill canvas owners seed node canvas.bounds = .ok ⟨canvas, owners, 0⟩ := by
  refine floodFill_of_barred fun hseed => ?_
  rw [Rect.covers_inter, h] at hseed
  exact Bool.false_ne_true hseed.1

/-- A fill for a node that owns nothing yet leaves it as many pixels as were claimed. -/
lemma exists_claims_count {canvas : Canvas} {owners : TerritoryMap} {seed : Point} {node : NodeId}
    (hbounds : canvas.bounds = owners.bounds) (hnew : node ∉ owners.cells)
    (hcov : canvas.bounds.covers seed = true)
    (hcolor : canvas.get? seed ≠ some (Color.territory node)) :
    ∃ r, floodFill canvas owners seed node canvas.bounds = .ok r ∧
      Fill.Claims canvas owners node {p | Connected canvas canvas.bounds seed p} r ∧
      r.owners.count node = r.claimed := by
  have hself := Rect.inter_self hcov
  obtain ⟨target, s, ps, hseed, hps, hfill⟩ := exists_reached owners (hself.symm ▸ hcov) hcolor
  have hclaims := hps.claims hseed rfl
  rw [hself] at hclaims
  refine ⟨_, hfill, hclaims, ?_⟩
  have hin : ∀ p ∈ ps, owners.bounds.covers p = true := fun p hp =>
    hbounds ▸ Grid.covers_of_get? ((hps.connected p hp).color.trans hseed)
  rw [hps.owners_eq, Grid.count_paint hnew hps.nodup hin, hps.claimed_eq]

namespace Sketch

variable {s k : Sketch} {width height : ℕ} {finish : Point} {kind : NodeKind} {r : Fill.Result}

/-- The pixel next to the end of a stroke that tells which area a node claims. -/
def probeAt (s : Sketch) (finish : Point) : Point :=
  finish.shift s.settings.probe.1 s.settings.probe.2

/-- The parent of a node whose stroke ends at a point: the owner of the point, or the root if the
point is off the surface. -/
def parentAt (s : Sketch) (finish : Point) : NodeId := (s.ownerAt finish).getD NodeId.root

/-- What a node that is drawn does to the graph and to the surface. -/
lemma addNode_of_floodFill (kind : NodeKind) (h : floodFill s.canvas s.owners (s.probeAt finish)
      s.graph.nextNode s.canvas.bounds = .ok r) :
    s.addNode finish kind = .ok (.node s.graph.nextNode, { s with
      canvas := r.canvas
      owners := r.owners
      graph := (s.graph.addNode (s.parentAt finish) kind).2 }) := by
  obtain ⟨settings, canvas, owners, graph, untied⟩ := s
  have hfill : floodFill canvas owners (finish.shift settings.probe.1 settings.probe.2)
      (graph.addNode ((owners.get? finish).getD NodeId.root) kind).1 canvas.bounds = .ok r := h
  simp only [addNode, hfill]
  rfl

/-- A node that is drawn has the owner of the stroke's end as its parent. -/
lemma Coherent.node?_addNode (hs : s.Coherent width height) (finish : Point) (kind : NodeKind) :
    (s.graph.addNode (s.parentAt finish) kind).2.node? s.graph.nextNode =
      some ⟨s.graph.nextNode, some (s.parentAt finish), kind⟩ := by
  have hparent := hs.ownerFor_eq finish
  rw [Graph.ownerFor] at hparent
  rw [Graph.node?_addNode_self, parentAt, hparent]

/-- A sketch has become another one by a new node that has claimed an area. -/
structure Claims (s k : Sketch) (area : Set Point) : Prop where
  /-- The node owns the area and nothing else. -/
  owned (p : Point) : k.ownerAt p = some s.graph.nextNode ↔ p ∈ area
  /-- The pixels of the area are counted for it. -/
  count : area.encard = k.owners.count s.graph.nextNode
  /-- The area has the color of the node. -/
  painted (p : Point) : p ∈ area → k.canvas.get? p = some (Color.territory s.graph.nextNode)
  /-- The other pixels have the owner that they had. -/
  owners_other (p : Point) : p ∉ area → k.ownerAt p = s.ownerAt p
  /-- The other pixels have the color that they had. -/
  canvas_other (p : Point) : p ∉ area → k.canvas.get? p = s.canvas.get? p

/-- **A node whose probe is on the surface claims all that is connected with the probe.** -/
lemma exists_claims_of_addNode (hs : s.Coherent width height)
    (hsize : s.graph.nodes.size + 1 < 0x1000000)
    (hprobe : s.canvas.bounds.covers (s.probeAt finish) = true) (kind : NodeKind) :
    ∃ k, s.addNode finish kind = .ok (.node s.graph.nextNode, k) ∧
      k.graph = (s.graph.addNode (s.parentAt finish) kind).2 ∧
      s.Claims k {p | Connected s.canvas s.canvas.bounds (s.probeAt finish) p} := by
  have hnew : s.graph.contains s.graph.nextNode = false := by
    rw [Bool.eq_false_iff, ne_eq, Graph.contains_iff]
    exact Nat.lt_irrefl _
  have hnone : s.graph.nextNode ∉ s.owners.cells := fun h => by
    rw [hs.owned _ h] at hnew
    cases hnew
  obtain ⟨r, hfill, hclaims, hcount⟩ := exists_claims_count hs.bounds_eq hnone hprobe
    (hs.canvas_ne_territory (by omega) (Nat.lt_of_succ_lt hsize) hnew _)
  refine ⟨_, addNode_of_floodFill kind hfill, rfl, ?_⟩
  constructor
  case owned =>
    intro p
    constructor
    · intro hp
      by_contra hout
      -- outside of the area nothing belongs to a node that is new
      have hold : s.owners.get? p = some s.graph.nextNode :=
        (hclaims.owners_other p hout).symm.trans hp
      exact hnone (Grid.mem_cells_of_get? hold)
    · intro hp
      refine hclaims.owned p hp ?_
      obtain ⟨color, hcolor⟩ := Grid.exists_get? hprobe
      rw [← hs.bounds_eq]
      exact Grid.covers_of_get? (hp.color.trans hcolor)
  case count => rw [hclaims.count, hcount]
  case painted => exact hclaims.painted
  case owners_other => exact hclaims.owners_other
  case canvas_other => exact hclaims.canvas_other

/-- A stroke with a node tool makes a node at its end. -/
lemma apply_of_nodeKind? {stroke : Stroke} (h : stroke.tool.nodeKind? = some kind) :
    s.apply stroke = s.addNode stroke.finish kind := by
  rw [apply, h]

/-- What operations on a blank surface lead to. -/
lemma exists_coherent (settings : Settings) (width height : ℕ) (ops : List Op) :
    ∃ s, (onCanvas settings (Canvas.blank width height)).performAll ops = .ok s ∧
      s.settings = settings ∧ s.Coherent width height :=
  performAll_induction
    (P := fun _ k => k.settings = settings ∧ k.Coherent width height)
    ⟨rfl, coherent_blank settings width height⟩
    (fun _ _ _ _ ⟨hsettings, hcoherent⟩ hop => ⟨(settings_of_perform hop).trans hsettings,
      hcoherent.of_paints (paints_of_perform hop)⟩) ops

/-- **A new node always gets a territory if its probe is on the surface.**  A stroke with a node
tool is the next node, and its parent is the owner of the stroke's end.  If the probe is on the
surface the node owns exactly the pixels that are connected with the probe, which is one of them.
If it is not, the node owns no pixel, and the surface and the owners are as before. -/
theorem Coherent.claims_of_apply (hs : s.Coherent width height) {stroke : Stroke}
    (hkind : stroke.tool.nodeKind? = some kind) :
    ∃ k, s.apply stroke = .ok (.node s.graph.nextNode, k) ∧
      k.graph.node? s.graph.nextNode =
        some ⟨s.graph.nextNode, some (s.parentAt stroke.finish), kind⟩ ∧
      (s.canvas.bounds.covers (s.probeAt stroke.finish) = true → k.graph.nodes.size < 0x1000000 →
        s.Claims k {p | Connected s.canvas s.canvas.bounds (s.probeAt stroke.finish) p} ∧
        k.ownerAt (s.probeAt stroke.finish) = some s.graph.nextNode) ∧
      (s.canvas.bounds.covers (s.probeAt stroke.finish) = false →
        k.canvas = s.canvas ∧ k.owners = s.owners ∧
        ∀ p, k.ownerAt p ≠ some s.graph.nextNode) := by
  obtain ⟨r, hr⟩ := floodFill_isOk s.canvas s.owners (s.probeAt stroke.finish) s.graph.nextNode
    s.canvas.bounds
  have hadd := addNode_of_floodFill kind hr
  refine ⟨_, (apply_of_nodeKind? hkind).trans hadd, hs.node?_addNode stroke.finish kind,
    fun hprobe hsize => ?_, fun hprobe => ?_⟩
  · rw [Graph.size_addNode] at hsize
    obtain ⟨k, hk, -, hclaims⟩ := exists_claims_of_addNode hs hsize hprobe kind
    cases hadd.symm.trans hk
    exact ⟨hclaims, (hclaims.owned _).mpr .seed⟩
  · cases hr.symm.trans (floodFill_of_off s.owners s.graph.nextNode hprobe)
    refine ⟨rfl, rfl, fun p hp => ?_⟩
    exact absurd (hs.index_lt hp) (Nat.lt_irrefl _)

end Sketch

end FlowSketch
