/-
# What one can do to a sketch

Three operations change a sketch: ink is left, a finished stroke is taken in, and a text is
written.  They may come in any order, at places on the surface or off it.

To the surface and to the map of owners an operation does one of two things.  It leaves ink, in a
color that is no territory's, and all owners stay.  Or it makes a node, and the same pixels get
the color of the node on the surface and the node as their owner.

Main statement: `paints_of_perform`.
-/
import Mathlib.Data.List.Induction
import FlowSketch.Proofs.Graph.Representation
import FlowSketch.Proofs.Raster.Component
import FlowSketch.Proofs.Sketch.Strokes

namespace FlowSketch

lemma Tool.alpha_ink_ne (t : Tool) : t.ink.alpha ≠ Color.territoryAlpha := by
  cases t <;> decide

namespace Sketch

/-! ## Operations -/

/-- Something that can be done to a sketch. -/
inductive Op where
  /-- A line of ink is left. -/
  | trace (tool : Tool) (a b : Point)
  /-- A finished stroke is taken in. -/
  | apply (stroke : Stroke)
  /-- A text is written at a place. -/
  | writeText (place : Point) (text : String)
deriving DecidableEq

/-- The sketch after an operation.  A text at a place without an owner changes nothing. -/
def perform (s : Sketch) : Op → Except FillError Sketch
  | .trace tool a b => .ok (s.trace tool a b)
  | .apply stroke => (s.apply stroke).map (·.2)
  | .writeText place text => .ok (((s.writeText place text).map (·.2)).getD s)

/-- The sketch after operations in turn. -/
def performAll (s : Sketch) (ops : List Op) : Except FillError Sketch := ops.foldlM perform s

variable {s k : Sketch} {op : Op} {ops : List Op}

/-- An operation never fails. -/
lemma perform_isOk (s : Sketch) (op : Op) : ∃ k, s.perform op = .ok k := by
  cases op with
  | trace tool a b => exact ⟨_, rfl⟩
  | apply stroke =>
    obtain ⟨effect, k, h⟩ := apply_isOk s stroke
    exact ⟨k, by rw [perform, h]; rfl⟩
  | writeText place text => exact ⟨_, rfl⟩

/-- What an operation can do.  A text that is written changes the graph only. -/
lemma perform_cases (h : s.perform op = .ok k) :
    (∃ tool a b, op = .trace tool a b ∧ k = s.trace tool a b) ∨
    (∃ stroke effect, op = .apply stroke ∧ s.apply stroke = .ok (effect, k)) ∨
    ∃ place text, op = .writeText place text ∧ (k = s ∨ ∃ id effect graph,
      s.graph.writeText id text = some (effect, graph) ∧ k = { s with graph }) := by
  cases op with
  | trace tool a b =>
    cases h
    exact .inl ⟨tool, a, b, rfl, rfl⟩
  | apply stroke =>
    obtain ⟨effect, k', happly⟩ := apply_isOk s stroke
    rw [perform, happly] at h
    cases h
    exact .inr (.inl ⟨stroke, effect, rfl, happly⟩)
  | writeText place text =>
    cases h
    refine .inr (.inr ⟨place, text, rfl, ?_⟩)
    cases hwrite : s.writeText place text with
    | none => exact .inl rfl
    | some result =>
      obtain ⟨id, -, hwrite⟩ := Option.bind_eq_some_iff.mp hwrite
      obtain ⟨⟨effect, graph⟩, hgraph, hwrite⟩ := Option.bind_eq_some_iff.mp hwrite
      cases hwrite
      exact .inr ⟨id, effect, graph, hgraph, rfl⟩

lemma performAll_concat (s : Sketch) (ops : List Op) (op : Op) :
    s.performAll (ops ++ [op]) = (s.performAll ops).bind fun k => k.perform op := by
  rw [performAll, List.foldlM_append]
  simp only [List.foldlM_cons, List.foldlM_nil, bind_pure]
  rfl

/-- Operations never fail, and what each of them keeps is kept by all in turn. -/
theorem performAll_induction {P : List Op → Sketch → Prop} (start : P [] s)
    (step : ∀ ops op k k', P ops k → k.perform op = .ok k' → P (ops ++ [op]) k') (ops : List Op) :
    ∃ k, s.performAll ops = .ok k ∧ P ops k := by
  -- an operation is added behind the others, where the state before it is known
  induction ops using List.reverseRecOn with
  | nil => exact ⟨s, rfl, start⟩
  | append_singleton ops op ih =>
    obtain ⟨k, hk, hP⟩ := ih
    obtain ⟨k', hk'⟩ := perform_isOk k op
    refine ⟨k', ?_, step ops op k k' hP hk'⟩
    rw [performAll_concat, hk]
    exact hk'

/-! ## What operations paint -/

/-- What an operation does to the surface and the owners. -/
inductive Paints (s k : Sketch) : Prop
  /-- Ink is left, or nothing is painted. -/
  | ink (ps : List Point) {color : Color} : color.alpha ≠ Color.territoryAlpha →
    k.canvas = s.canvas.paint ps color → k.owners = s.owners →
    k.graph.nodes.size = s.graph.nodes.size → Paints s k
  /-- A new node claims pixels. -/
  | claim (ps : List Point) : k.canvas = s.canvas.paint ps (Color.territory s.graph.nextNode) →
    k.owners = s.owners.paint ps s.graph.nextNode →
    k.graph.nodes.size = s.graph.nodes.size + 1 → Paints s k

lemma paints_of_canvas_eq (hcanvas : k.canvas = s.canvas) (howners : k.owners = s.owners)
    (hsize : k.graph.nodes.size = s.graph.nodes.size) : s.Paints k :=
  .ink [] (Tool.alpha_ink_ne .comment) hcanvas howners hsize

lemma paints_of_addNode {finish : Point} {kind : NodeKind} {effect : StrokeEffect}
    (h : s.addNode finish kind = .ok (effect, k)) : s.Paints k := by
  obtain ⟨filled, hfill, -, rfl⟩ := exists_filled_of_addNode h
  obtain ⟨ps, hcanvas, howners⟩ := exists_paint_of_floodFill hfill
  exact .claim ps hcanvas howners (Graph.size_addNode ..)

lemma paints_of_addFlow (s : Sketch) (start finish : Point) :
    s.Paints (s.addFlow start finish).2 := by
  -- the marker is painted whether or not the ends can be connected
  have hcanvas : (s.addFlow start finish).2.canvas = s.canvas.paint
      (Rect.square finish s.settings.markerRadius).outline Tool.flow.ink := by
    rw [← Grid.drawOutline_eq_paint]
    rcases tied_or_untied s start finish with ⟨_, _, _, _, _, -, -, -, hflow⟩ | ⟨-, hflow⟩
    · rw [hflow]
    · rw [hflow]
  refine .ink _ (Tool.alpha_ink_ne .flow) hcanvas (owners_addFlow ..) ?_
  rcases addFlow_cases s start finish with ⟨f, -, -, hnodes, -⟩ | ⟨hgraph, -⟩
  · exact hnodes
  · rw [hgraph]

/-- **An operation leaves ink, or it makes a node that claims what is painted in its color.** -/
lemma paints_of_perform (h : s.perform op = .ok k) : s.Paints k := by
  rcases perform_cases h with ⟨tool, a, b, -, rfl⟩ | ⟨stroke, effect, -, happly⟩ |
    ⟨place, text, -, rfl | ⟨id, effect, graph, hwrite, rfl⟩⟩
  · exact .ink _ tool.alpha_ink_ne (Grid.drawLine_eq_paint ..) rfl rfl
  · rcases apply_cases happly with ⟨kind, -, hadd⟩ | ⟨-, hadd⟩ | ⟨-, rfl⟩
    · exact paints_of_addNode hadd
    · have hk : k = (s.addFlow stroke.start stroke.finish).2 := congrArg Prod.snd hadd
      rw [hk]
      exact paints_of_addFlow s stroke.start stroke.finish
    · exact paints_of_canvas_eq rfl rfl rfl
  · exact paints_of_canvas_eq rfl rfl rfl
  · refine paints_of_canvas_eq rfl rfl ?_
    rw [← Graph.length_births, ← Graph.length_births, Graph.births_writeText hwrite]

end Sketch

end FlowSketch
