/-
# What the sketch keeps of a stroke

A stroke is always taken in, since claiming an area never runs out of budget.  A stroke with a
node tool adds one node, a stroke with the flow tool adds one flow, tied or untied, and a comment
adds nothing.  So the sketch tells afterwards which tool the stroke was drawn with, and if it was
the flow tool, where it began.

Main statement: `eq_iff_of_apply`.
-/
import FlowSketch.Proofs.Graph.Edits
import FlowSketch.Proofs.Raster.Fill
import FlowSketch.Sketch.Basic

namespace FlowSketch

namespace Tool

/-- Different node tools draw different kinds of nodes. -/
lemma nodeKind?_inj {t u : Tool} {kind : NodeKind} (ht : t.nodeKind? = some kind)
    (hu : u.nodeKind? = some kind) : t = u := by
  cases t <;> cases u <;> cases ht <;> cases hu <;> rfl

@[simp] lemma nodeKind?_flow : flow.nodeKind? = none := rfl

@[simp] lemma nodeKind?_comment : comment.nodeKind? = none := rfl

end Tool

namespace Sketch

variable {s k k' : Sketch} {effect effect' : StrokeEffect} {tool tool' : Tool}
  {start start' finish : Point}

/-- A stroke is always taken in. -/
lemma apply_isOk (s : Sketch) (stroke : Stroke) :
    ∃ effect s', s.apply stroke = .ok (effect, s') := by
  unfold apply
  split
  · rename_i kind _
    unfold addNode
    dsimp only
    split
    · rename_i hfill
      obtain ⟨r, hr⟩ := floodFill_isOk s.canvas s.owners
        (stroke.finish.shift s.settings.probe.1 s.settings.probe.2)
        (s.graph.addNode ((s.owners.get? stroke.finish).getD NodeId.root) kind).1 s.canvas.bounds
      rw [hr] at hfill
      cases hfill
    · exact ⟨_, _, rfl⟩
  · split
    · exact ⟨_, _, rfl⟩
    · exact ⟨_, _, rfl⟩

/-- A new node is drawn in the owner of the stroke's end, and claims what the fill from its probe
takes. -/
lemma exists_filled_of_addNode {kind : NodeKind} (h : s.addNode finish kind = .ok (effect, k)) :
    ∃ filled, floodFill s.canvas s.owners (finish.shift s.settings.probe.1 s.settings.probe.2)
        s.graph.nextNode s.canvas.bounds = .ok filled ∧
      effect = .node s.graph.nextNode ∧
      k = { s with
        canvas := filled.canvas
        owners := filled.owners
        graph := (s.graph.addNode ((s.ownerAt finish).getD NodeId.root) kind).2 } := by
  unfold addNode at h
  dsimp only at h
  split at h
  · cases h
  · rename_i filled hfill
    cases h
    exact ⟨filled, hfill, rfl, rfl⟩

/-- Only the graph, the surface and the territories change with a new node. -/
lemma addNode_eq_ok {kind : NodeKind} (h : s.addNode finish kind = .ok (effect, k)) :
    k.graph = (s.graph.addNode ((s.owners.get? finish).getD NodeId.root) kind).2 ∧
      k.untied = s.untied := by
  obtain ⟨filled, -, -, rfl⟩ := exists_filled_of_addNode h
  exact ⟨rfl, rfl⟩

/-- A flow that is drawn is marked where it arrives.  It connects the owners of its ends if that
can be done, and else it is kept as untied. -/
lemma tied_or_untied (s : Sketch) (start finish : Point) :
    (∃ source target id role graph, s.ownerAt start = some source ∧
      s.ownerAt finish = some target ∧
      s.graph.connect source target (Rect.square finish s.settings.markerRadius) start =
        some (id, role, graph) ∧
      s.addFlow start finish = (.flow id role, { s with
        canvas := s.canvas.drawOutline (Rect.square finish s.settings.markerRadius) Tool.flow.ink
        graph })) ∨
    (∀ source target, s.ownerAt start = some source → s.ownerAt finish = some target →
      s.graph.connect source target (Rect.square finish s.settings.markerRadius) start = none) ∧
    s.addFlow start finish = (.untied s.untied.size, { s with
      canvas := s.canvas.drawOutline (Rect.square finish s.settings.markerRadius) Tool.flow.ink
      untied := s.untied.push ⟨start, finish⟩ }) := by
  unfold addFlow
  dsimp only
  split
  · rename_i id role graph hconnected
    obtain ⟨source, hsource, hconnected⟩ := Option.bind_eq_some_iff.mp hconnected
    obtain ⟨target, htarget, hconnect⟩ := Option.bind_eq_some_iff.mp hconnected
    exact .inl ⟨source, target, id, role, graph, hsource, htarget, hconnect, rfl⟩
  · rename_i hnone
    refine .inr ⟨fun source target hsource htarget => ?_, rfl⟩
    have hconnected := Option.bind_eq_none_iff.mp hnone source hsource
    exact Option.bind_eq_none_iff.mp hconnected target htarget

/-- A flow that is drawn is tied to two nodes or is kept as untied. -/
lemma addFlow_cases (s : Sketch) (start finish : Point) :
    (∃ flow, (s.addFlow start finish).2.graph.flows = s.graph.flows.push flow ∧
      flow.origin = start ∧ (s.addFlow start finish).2.graph.nodes.size = s.graph.nodes.size ∧
      (s.addFlow start finish).2.untied = s.untied) ∨
    (s.addFlow start finish).2.graph = s.graph ∧
      (s.addFlow start finish).2.untied = s.untied.push ⟨start, finish⟩ := by
  rcases tied_or_untied s start finish with
    ⟨source, target, id, role, graph, -, -, hconnect, hflow⟩ | ⟨-, hflow⟩
  · rw [hflow]
    obtain ⟨n, -, -, -, -, hflows, -⟩ := Graph.node?_connect hconnect
    exact .inl ⟨_, hflows, rfl, Graph.size_connect hconnect, rfl⟩
  · rw [hflow]
    exact .inr ⟨rfl, rfl⟩

/-- What a stroke does is settled by its tool. -/
lemma apply_cases (h : s.apply ⟨tool, start, finish⟩ = .ok (effect, k)) :
    (∃ kind, tool.nodeKind? = some kind ∧ s.addNode finish kind = .ok (effect, k)) ∨
    (tool = .flow ∧ (effect, k) = s.addFlow start finish) ∨ (tool = .comment ∧ k = s) := by
  cases tool with
  | scope => exact .inl ⟨_, rfl, h⟩
  | var => exact .inl ⟨_, rfl, h⟩
  | symbol => exact .inl ⟨_, rfl, h⟩
  | flow => exact .inr (.inl ⟨rfl, (Except.ok.inj h).symm⟩)
  | comment => exact .inr (.inr ⟨rfl, (congrArg Prod.snd (Except.ok.inj h)).symm⟩)

/-- The number of nodes, and of flows tied and untied. -/
def tally (s : Sketch) : ℕ × ℕ := (s.graph.nodes.size, s.graph.flows.size + s.untied.size)

/-- A stroke with a node tool is one more node, one with the flow tool one more flow. -/
lemma tally_apply (h : s.apply ⟨tool, start, finish⟩ = .ok (effect, k)) :
    k.tally = (s.tally.1 + if tool.nodeKind?.isSome then 1 else 0,
      s.tally.2 + if tool = .flow then 1 else 0) := by
  rcases apply_cases h with ⟨kind, hkind, hadd⟩ | ⟨rfl, hadd⟩ | ⟨rfl, rfl⟩
  · obtain ⟨hgraph, huntied⟩ := addNode_eq_ok hadd
    have hflow : tool ≠ .flow := by
      rintro rfl
      cases hkind
    simp [tally, hgraph, huntied, hkind, hflow]
  · have hk : k = (s.addFlow start finish).2 := congrArg Prod.snd hadd
    subst hk
    rcases addFlow_cases s start finish with ⟨f, hflows, -, hnodes, huntied⟩ | ⟨hgraph, huntied⟩
    · simp [tally, hflows, hnodes, huntied]
      omega
    · simp [tally, hgraph, huntied]
      omega
  · simp [tally]

/-- Flows from different points leave different sketches. -/
lemma start_eq_of_addFlow {s : Sketch} {start start' finish : Point}
    (h : (s.addFlow start finish).2 = (s.addFlow start' finish).2) : start = start' := by
  rcases addFlow_cases s start finish with ⟨f, hf, hstart, -, hu⟩ | ⟨hf, hu⟩ <;>
  rcases addFlow_cases s start' finish with ⟨f', hf', hstart', -, hu'⟩ | ⟨hf', hu'⟩
  · rw [h, hf'] at hf
    rw [← hstart, ← hstart', Array.push_inj_right.mp hf]
  · have := congrArg Array.size (hf.symm.trans (by rw [h, hf']))
    simp at this
  · have := congrArg Array.size (hf'.symm.trans (by rw [← h, hf]))
    simp at this
  · rw [h, hu'] at hu
    have := Array.push_inj_right.mp hu
    exact (congrArg UntiedFlow.start this).symm

/-- **Two strokes that end in the same place leave the same sketch exactly if they were drawn
with the same tool and, if that is the flow tool, begin in the same place.** -/
lemma eq_iff_of_apply (h : s.apply ⟨tool, start, finish⟩ = .ok (effect, k))
    (h' : s.apply ⟨tool', start', finish⟩ = .ok (effect', k')) :
    k = k' ↔ tool = tool' ∧ (tool' = .flow → start = start') := by
  constructor
  · rintro rfl
    have htally := (tally_apply h).symm.trans (tally_apply h')
    simp only [Prod.mk.injEq, Nat.add_left_cancel_iff] at htally
    rcases apply_cases h with ⟨kind, hkind, hadd⟩ | ⟨rfl, hadd⟩ | ⟨rfl, -⟩
    · rcases apply_cases h' with ⟨kind', hkind', hadd'⟩ | ⟨rfl, -⟩ | ⟨rfl, -⟩
      · -- the new node tells the tool
        have hnode := congrArg (·.node? s.graph.nextNode)
          ((addNode_eq_ok hadd).1.symm.trans (addNode_eq_ok hadd').1)
        simp only [Graph.node?_addNode_self, Option.some.injEq, Node.mk.injEq, true_and] at hnode
        rw [← hnode] at hkind'
        have htool := Tool.nodeKind?_inj hkind hkind'
        refine ⟨htool, ?_⟩
        rintro rfl
        cases hkind'
      · simp [hkind] at htally
      · simp [hkind] at htally
    · rcases apply_cases h' with ⟨kind', hkind', -⟩ | ⟨rfl, hadd'⟩ | ⟨rfl, -⟩
      · simp [hkind'] at htally
      · have hsame : (s.addFlow start finish).2 = (s.addFlow start' finish).2 := by
          rw [← congrArg Prod.snd hadd, ← congrArg Prod.snd hadd']
        exact ⟨rfl, fun _ => start_eq_of_addFlow hsame⟩
      · simp at htally
    · cases tool' <;> simp [Tool.nodeKind?] at htally ⊢
  · rintro ⟨rfl, hstart⟩
    rcases apply_cases h with ⟨kind, hkind, hadd⟩ | ⟨rfl, -⟩ | ⟨rfl, rfl⟩
    · rcases apply_cases h' with ⟨kind', hkind', hadd'⟩ | ⟨rfl, -⟩ | ⟨rfl, -⟩
      · rw [Option.some.inj (hkind.symm.trans hkind')] at hadd
        exact congrArg Prod.snd (Except.ok.inj (hadd.symm.trans hadd'))
      · cases hkind
      · cases hkind
    · rw [hstart rfl] at h
      exact congrArg Prod.snd (Except.ok.inj (h.symm.trans h'))
    · exact congrArg Prod.snd (Except.ok.inj h')

end Sketch

end FlowSketch
