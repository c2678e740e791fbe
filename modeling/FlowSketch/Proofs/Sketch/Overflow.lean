/-
# Strokes and overflows

A sketch computes with the coordinates of a stroke in two places.  A node needs the place of its
probe, and a flow needs its marker.  Lines of ink need the numbers of the line.  None of this
depends on what was drawn before, so every operation can be said to have room or not, and operations
in turn end with an overflow exactly if one of them has no room.

As long as there is room a stroke is taken in and counts once, and a new node gets its territory.

Main statements: `counted_or_overflow` and `claimed_or_overflow`.
-/
import FlowSketch.Proofs.Raster.Overflow
import FlowSketch.Proofs.Sketch.Claiming
import FlowSketch.Sketch.Checked

namespace FlowSketch

/-- The numbers for taking a stroke in have room. -/
structure Stroke.Fits (settings : Settings) (stroke : Stroke) : Prop where
  /-- A node needs its probe. -/
  probe : stroke.tool.nodeKind?.isSome = true →
    (stroke.finish.shift settings.probe.1 settings.probe.2).Fits
  /-- A flow needs its marker. -/
  marker : stroke.tool = .flow → stroke.finish.MarkerFits settings.markerRadius

/-- A node needs only its probe. -/
lemma Stroke.fits_of_nodeKind? {settings : Settings} {stroke : Stroke} {kind : NodeKind}
    (hkind : stroke.tool.nodeKind? = some kind) : stroke.Fits settings ↔
      (stroke.finish.shift settings.probe.1 settings.probe.2).Fits := by
  refine ⟨fun h => h.probe (by simp [hkind]), fun h => ⟨fun _ => h, fun hflow => ?_⟩⟩
  rw [hflow] at hkind
  cases hkind

/-- The numbers for taking a stroke in do not depend on where it begins. -/
lemma Stroke.Fits.of_finish {settings : Settings} {tool : Tool} {a a' b : Point}
    (h : Stroke.Fits settings ⟨tool, a, b⟩) : Stroke.Fits settings ⟨tool, a', b⟩ :=
  ⟨h.probe, h.marker⟩

/-- The numbers for an operation have room. -/
def Sketch.Op.Fits (settings : Settings) : Sketch.Op → Prop
  | .trace _ a b => Line.Fits a b
  | .apply stroke => stroke.Fits settings
  | .writeText .. => True

namespace Checked

open Sketch (Op)

/-! ## Single operations -/

lemma yields_trace (s : Sketch) (tool : Tool) (a b : Point) :
    Yields (Line.Fits a b) (trace s tool a b) (s.trace tool a b) := by
  obtain ⟨settings, canvas, owners, graph, untied⟩ := s
  exact (yields_drawLine canvas a b tool.ink).map _

lemma yields_addNode (s : Sketch) (finish : Point) (kind : NodeKind) :
    Yields (s.probeAt finish).Fits (addNode s finish kind) (s.addNode finish kind) := by
  obtain ⟨settings, canvas, owners, graph, untied⟩ := s
  exact (yields_shift finish settings.probe.1 settings.probe.2).map _

lemma yields_addFlow (s : Sketch) (start finish : Point) :
    Yields (finish.MarkerFits s.settings.markerRadius) (addFlow s start finish)
      (s.addFlow start finish) := by
  obtain ⟨settings, canvas, owners, graph, untied⟩ := s
  exact ((yields_square finish settings.markerRadius).bind fun _ =>
    (yields_drawOutline canvas _ Tool.flow.ink).map _).congr Rect.markerFits_iff.symm

lemma apply_of_nodeKind? {s : Sketch} {stroke : Stroke} {kind : NodeKind}
    (hkind : stroke.tool.nodeKind? = some kind) : apply s stroke = addNode s stroke.finish kind := by
  simp only [apply, hkind]

/-- Without room for its probe a node ends with a sum that has none. -/
lemma addNode_of_not_fits {s : Sketch} {finish : Point} {kind : NodeKind}
    (h : ¬ (s.probeAt finish).Fits) : addNode s finish kind = .error .add := by
  obtain ⟨settings, canvas, owners, graph, untied⟩ := s
  simp only [addNode, shift_of_not_fits h]
  rfl

/-- **A stroke is taken in if it has room, and overflows if it has not.** -/
lemma yields_apply (s : Sketch) (stroke : Stroke) :
    Yields (stroke.Fits s.settings) (apply s stroke) (s.apply stroke) := by
  cases hkind : stroke.tool.nodeKind? with
  | some kind =>
    rw [apply_of_nodeKind? hkind, Sketch.apply_of_nodeKind? hkind]
    exact (yields_addNode s stroke.finish kind).congr (Stroke.fits_of_nodeKind? hkind).symm
  | none =>
    have hprobe : ¬ stroke.tool.nodeKind?.isSome = true := by simp [hkind]
    simp only [apply, Sketch.apply, hkind]
    split
    · rename_i hflow
      refine ((yields_addFlow s stroke.start stroke.finish).map _).congr ?_
      exact ⟨fun h => ⟨fun h' => absurd h' hprobe, fun _ => h⟩, fun h => h.marker hflow⟩
    · rename_i hflow
      refine (Yields.pure _).congr (iff_of_true trivial ?_)
      exact ⟨fun h => absurd h hprobe, fun h => absurd h hflow⟩

/-! ## Operations in turn -/

/-- The sketch after an operation.  A text at a place without an owner changes nothing. -/
def perform (s : Sketch) : Op → Except Overflow (Except FillError Sketch)
  | .trace tool a b => do
    let s ← trace s tool a b
    return .ok s
  | .apply stroke => do
    let result ← apply s stroke
    return result.map (·.2)
  | .writeText place text => .ok (.ok (((s.writeText place text).map (·.2)).getD s))

/-- The sketch after operations in turn. -/
def performAll (s : Sketch) (ops : List Op) : Except Overflow (Except FillError Sketch) :=
  inTurn perform s ops

lemma yields_perform (s : Sketch) (op : Op) :
    Yields (op.Fits s.settings) (perform s op) (s.perform op) := by
  cases op with
  | trace tool a b => exact (yields_trace s tool a b).map _
  | apply stroke => exact (yields_apply s stroke).map _
  | writeText place text => exact Yields.pure _

/-- **Operations in turn overflow exactly if one of them has no room.** -/
lemma yields_performAll {s : Sketch} {settings : Settings} (hs : s.settings = settings)
    (ops : List Op) :
    Yields (∀ op ∈ ops, op.Fits settings) (performAll s ops) (s.performAll ops) := by
  refine Yields.inTurn (fun s => s.settings = settings) (fun _ => True) (fun s op hs _ => ?_) hs
    fun _ _ => trivial
  obtain ⟨k, hk⟩ := Sketch.perform_isOk s op
  exact ⟨k, hk, (Sketch.settings_of_perform hk).trans hs, hk ▸ hs ▸ yields_perform s op⟩

end Checked

/-- The columns and rows of a surface have room. -/
lemma Grid.fits_of_covers {α : Type} {g : Grid α} {p : Point} (h : g.bounds.covers p = true) :
    (0 ≤ p.x ∧ 0 ≤ p.y) ∧ p.Fits := by
  have hwidth := (Int32.ofNat g.width).toInt_lt
  have hheight := (Int32.ofNat g.height).toInt_lt
  rw [Rect.covers_iff] at h
  simp only [Grid.bounds, Grid.side] at h
  simp only [Point.Fits]
  omega

namespace Sketch

open Checked (yields_apply yields_performAll)

/-- The numbers for the far corner of a marker have room if the marker was drawn around a pixel of
the surface. -/
lemma far_of_markerFits {α : Type} {g : Grid α} {p : Point} {radius : ℤ}
    (hp : g.bounds.covers p = true) (h : p.MarkerFits radius) :
    FitsWord ((Rect.square p radius).x + (Rect.square p radius).w) ∧
      FitsWord ((Rect.square p radius).y + (Rect.square p radius).h) := by
  obtain ⟨hnonneg, hpoint⟩ := Grid.fits_of_covers hp
  obtain ⟨-, hside, hfar, -⟩ := h
  simp only [Rect.square, FitsWord, Point.Fits] at *
  omega

variable {settings : Settings} {ops : List Op} {s : Sketch}

/-- The far corners of the markers of all flows have room. -/
lemma Tallied.far (h : s.Tallied settings (ops.filterMap Op.stroke?))
    (hfits : ∀ op ∈ ops, op.Fits settings) (f : Flow) (hf : f ∈ s.graph.flows) :
    FitsWord (f.bounds.x + f.bounds.w) ∧ FitsWord (f.bounds.y + f.bounds.h) := by
  have hmem := List.mem_map_of_mem (f := fun f : Flow => (f.origin, f.bounds))
    (Array.mem_toList_iff.mpr hf)
  rw [h.flows] at hmem
  obtain ⟨stroke, hstroke, heq⟩ := List.mem_map.mp hmem
  obtain ⟨hstroke, hlands⟩ := List.mem_filter.mp hstroke
  obtain ⟨hstroke, htool⟩ := List.mem_filter.mp hstroke
  obtain ⟨op, hop, happly⟩ := List.mem_filterMap.mp hstroke
  cases op with
  | apply stroke' =>
    cases happly
    obtain ⟨-, hbounds⟩ := Prod.mk.inj heq
    rw [← hbounds]
    exact far_of_markerFits ((Bool.and_eq_true ..).mp hlands).2
      ((hfits _ hop).marker (of_decide_eq_true htool))
  | trace => cases happly
  | writeText => cases happly

/-- **Every stroke with room for its numbers counts once.**  Operations on an empty sketch end with
an overflow exactly if one of them has no room.  If they do not, the next stroke ends with an
overflow if it has no room, and else it is one node, one flow or one untied flow; and the nodes, the
flows and the untied flows are as many as the strokes with the tools for them, in their order.  The
far corners of the markers of all flows have room. -/
theorem counted_or_overflow (settings : Settings) (ops : List Op) :
    match Checked.performAll (blank settings) ops with
    | .error _ => ∃ op ∈ ops, ¬ op.Fits settings
    | .ok result => (∀ op ∈ ops, op.Fits settings) ∧ ∃ s, result = .ok s ∧
        s.canvas.bounds = settings.surface ∧
        (∀ stroke, ¬ stroke.Fits settings → ∃ overflow, Checked.apply s stroke = .error overflow) ∧
        (∀ stroke, stroke.Fits settings →
          ∃ effect k, Checked.apply s stroke = .ok (.ok (effect, k)) ∧ s.Counted stroke effect k) ∧
        s.Tallied settings (ops.filterMap Op.stroke?) ∧
        s.graph.nodes.size = 1 + (ops.filterMap Op.stroke?).countP (·.tool.nodeKind?.isSome) ∧
        s.graph.flows.size + s.untied.size =
          (ops.filterMap Op.stroke?).countP (·.tool = .flow) ∧
        ∀ f ∈ s.graph.flows, FitsWord (f.bounds.x + f.bounds.w) ∧
          FitsWord (f.bounds.y + f.bounds.h) := by
  have hyields := yields_performAll (s := blank settings) rfl ops
  split
  · rename_i overflow hrun
    exact hyields.exists_of_error hrun
  · rename_i result hrun
    obtain ⟨hfits, hideal⟩ := hyields.eq_of_ok hrun
    obtain ⟨s, hs, hsettings, hbounds, hcounted, htallied⟩ := exists_tallied settings ops
    refine ⟨hfits, s, hideal.symm.trans hs, hbounds, fun stroke hstroke => ?_,
      fun stroke hstroke => ?_, htallied, htallied.size_nodes, htallied.size_flows,
      htallied.far hfits⟩
    · exact (yields_apply s stroke).eq_error (hsettings ▸ hstroke)
    · obtain ⟨effect, k, happly, hcounts⟩ := hcounted stroke
      refine ⟨effect, k, ?_, hcounts⟩
      rw [(yields_apply s stroke).eq_ok (hsettings ▸ hstroke), happly]

/-- A flow whose marker is as large as the numbers allow cannot be taken in: its sides are too long
to be drawn. -/
theorem overflow_of_large_marker :
    Checked.apply (blank { width := 4, height := 3, markerRadius := 0x3fffffff })
      ⟨.flow, ⟨1, 1⟩, ⟨1, 1⟩⟩ = .error .multiply := rfl

/-- **A new node always gets a territory if its probe is on the surface.**  After operations on a
blank surface that have not overflowed, a stroke with a node tool ends with an overflow if its probe
has no room.  Else it is the next node, and its parent is the owner of the stroke's end.  If the
probe is on the surface the node owns exactly the pixels that are connected with the probe, which is
one of them.  If it is not, the node owns no pixel, and the surface and the owners are as before. -/
theorem claimed_or_overflow (settings : Settings) (width height : ℕ) (ops : List Op)
    {stroke : Stroke} {kind : NodeKind} (hkind : stroke.tool.nodeKind? = some kind) :
    match Checked.performAll (onCanvas settings (Canvas.blank width height)) ops with
    | .error _ => ∃ op ∈ ops, ¬ op.Fits settings
    | .ok result => ∃ s, result = .ok s ∧ s.settings = settings ∧
        (¬ (s.probeAt stroke.finish).Fits → Checked.apply s stroke = .error .add) ∧
        ((s.probeAt stroke.finish).Fits →
          ∃ k, Checked.apply s stroke = .ok (.ok (.node s.graph.nextNode, k)) ∧
            k.graph.node? s.graph.nextNode =
              some ⟨s.graph.nextNode, some (s.parentAt stroke.finish), kind⟩ ∧
            (s.canvas.bounds.covers (s.probeAt stroke.finish) = true →
              k.graph.nodes.size < 0x1000000 →
              s.Claims k {p | Connected s.canvas s.canvas.bounds (s.probeAt stroke.finish) p} ∧
              k.ownerAt (s.probeAt stroke.finish) = some s.graph.nextNode) ∧
            (s.canvas.bounds.covers (s.probeAt stroke.finish) = false →
              k.canvas = s.canvas ∧ k.owners = s.owners ∧
              ∀ p, k.ownerAt p ≠ some s.graph.nextNode)) := by
  have hyields := yields_performAll (s := onCanvas settings (Canvas.blank width height)) rfl ops
  split
  · rename_i overflow hrun
    exact hyields.exists_of_error hrun
  · rename_i result hrun
    obtain ⟨-, hideal⟩ := hyields.eq_of_ok hrun
    obtain ⟨s, hs, hsettings, hcoherent⟩ := exists_coherent settings width height ops
    obtain ⟨k, happly, hnode, hon, hoff⟩ := hcoherent.claims_of_apply hkind
    refine ⟨s, hideal.symm.trans hs, hsettings, fun hprobe => ?_, fun hprobe => ?_⟩
    · rw [Checked.apply_of_nodeKind? hkind]
      exact Checked.addNode_of_not_fits hprobe
    · refine ⟨k, ?_, hnode, hon, hoff⟩
      rw [(yields_apply s stroke).eq_ok ((Stroke.fits_of_nodeKind? hkind).mpr hprobe), happly]

/-- Of two scopes under a line, the one that ends on the line gets the pixel below it, and the one
that ends on the last row gets nothing. -/
theorem claimed_or_overflow_underLine :
    ∃ s k k', Checked.performAll (onCanvas {} (Canvas.blank 4 3))
        [.trace .scope ⟨0, 0⟩ ⟨3, 0⟩] = .ok (.ok s) ∧
      Checked.apply s ⟨.scope, ⟨0, 0⟩, ⟨3, 0⟩⟩ = .ok (.ok (.node ⟨1⟩, k)) ∧
      k.ownerAt ⟨3, 1⟩ = some ⟨1⟩ ∧
      Checked.apply s ⟨.scope, ⟨0, 0⟩, ⟨3, 2⟩⟩ = .ok (.ok (.node ⟨1⟩, k')) ∧
      k'.owners = s.owners := by
  have hline (finish : Point) := @claimed_or_overflow {} 4 3 [.trace .scope ⟨0, 0⟩ ⟨3, 0⟩]
    ⟨.scope, ⟨0, 0⟩, finish⟩ (.scope {}) rfl
  obtain ⟨s, hs, hsettings, -, hnear⟩ := hline ⟨3, 0⟩
  obtain ⟨s', hs', -, -, hfar⟩ := hline ⟨3, 2⟩
  cases hs.symm.trans hs'
  obtain ⟨k, happly, -, hon, -⟩ := hnear (by simp [probeAt, hsettings, Point.shift, Point.Fits])
  obtain ⟨k', happly', -, -, hoff⟩ := hfar (by simp [probeAt, hsettings, Point.shift, Point.Fits])
  have hadd : s.addNode ⟨3, 0⟩ (.scope {}) = .ok (.node s.graph.nextNode, k) :=
    ((yields_apply s _).eq_of_ok happly).2
  have hsize : k.graph.nodes.size = s.graph.nodes.size + 1 := by
    rw [(addNode_eq_ok hadd).1, Graph.size_addNode]
  cases hs
  exact ⟨_, k, k', rfl, happly, (hon (by decide +kernel) (hsize ▸ by decide +kernel)).2, happly',
    (hoff (by decide +kernel)).2.1⟩

/-- The probe to the left of a stroke that ends in the leftmost column that there can be has no
place. -/
theorem overflow_of_far_probe :
    Checked.apply (blank { width := 4, height := 5, probe := (-0x80000000, 0) })
      ⟨.scope, ⟨0, 0⟩, ⟨-0x80000000, 3⟩⟩ = .error .add := rfl

end Sketch

end FlowSketch
