/-
# Every stroke counts once

A stroke with a node tool is one node, and a stroke with the flow tool is one flow or one untied
flow.  It becomes a flow exactly if both of its ends are on the surface: there every pixel has an
owner, and owners are nodes, so the two ends can be connected.  Nothing else adds nodes or flows,
and so the nodes, the flows and the untied flows tell the strokes in the order in which they were
drawn.

Main statement: `exists_tallied`.
-/
import FlowSketch.Proofs.Sketch.Coherence

namespace FlowSketch

/-- The pixels of the surface. -/
def Settings.surface (settings : Settings) : Rect :=
  (Canvas.blank settings.width settings.height).bounds

/-- Whether a stroke begins and ends on a surface. -/
def Stroke.landsOn (surface : Rect) (stroke : Stroke) : Bool :=
  surface.covers stroke.start && surface.covers stroke.finish

namespace Sketch

/-! ## One stroke -/

/-- What becomes of a stroke: one node, one flow, one untied flow or nothing. -/
inductive Counted (s : Sketch) : Stroke → StrokeEffect → Sketch → Prop
  /-- A stroke with a node tool is the next node.  Its parent is the owner of the stroke's end
  before the stroke, or the root if the end is off the surface. -/
  | node {tool : Tool} {start finish : Point} {kind : NodeKind} {k : Sketch} :
    tool.nodeKind? = some kind →
    k.graph.births = s.graph.births ++
      [⟨s.graph.nextNode, some ((s.ownerAt finish).getD NodeId.root), kind.tag⟩] →
    k.graph.flows = s.graph.flows → k.untied = s.untied →
    Counted s ⟨tool, start, finish⟩ (.node s.graph.nextNode) k
  /-- A flow with both ends on the surface connects their owners. -/
  | flow {start finish : Point} {source target : NodeId} {role : FlowRole} {k : Sketch} :
    s.canvas.bounds.covers start = true → s.canvas.bounds.covers finish = true →
    s.ownerAt start = some source → s.ownerAt finish = some target →
    k.graph.births = s.graph.births →
    k.graph.flows = s.graph.flows.push ⟨s.graph.nextFlow, source, target,
      Rect.square finish s.settings.markerRadius, start, role⟩ → k.untied = s.untied →
    Counted s ⟨.flow, start, finish⟩ (.flow s.graph.nextFlow role) k
  /-- A flow with an end off the surface is the next untied flow. -/
  | untied {start finish : Point} {k : Sketch} :
    ¬ (s.canvas.bounds.covers start = true ∧ s.canvas.bounds.covers finish = true) →
    k.graph = s.graph → k.untied = s.untied.push ⟨start, finish⟩ →
    Counted s ⟨.flow, start, finish⟩ (.untied s.untied.size) k
  /-- A comment counts for nothing. -/
  | comment {start finish : Point} : Counted s ⟨.comment, start, finish⟩ .ignored s

variable {s k : Sketch} {width height : ℕ} {stroke : Stroke} {effect : StrokeEffect}

/-- A node is drawn inside the owner of the stroke's end. -/
lemma Coherent.ownerFor_eq (hs : s.Coherent width height) (p : Point) :
    s.graph.ownerFor ((s.ownerAt p).getD NodeId.root) = (s.ownerAt p).getD NodeId.root := by
  rw [Graph.ownerFor]
  split
  · rfl
  · rename_i hmissing
    cases howner : s.ownerAt p with
    | none => rfl
    | some id =>
      rw [howner] at hmissing
      exact absurd (hs.owned id (Grid.mem_cells_of_get? howner)) hmissing

lemma counted_of_addNode (hs : s.Coherent width height) {tool : Tool} {start finish : Point}
    {kind : NodeKind} (hkind : tool.nodeKind? = some kind)
    (h : s.addNode finish kind = .ok (effect, k)) :
    s.Counted ⟨tool, start, finish⟩ effect k := by
  obtain ⟨filled, -, rfl, rfl⟩ := exists_filled_of_addNode h
  refine .node hkind ?_ (Graph.flows_addNode ..) rfl
  -- the owner of a pixel is in the graph, so the parent is not replaced by the root
  rw [Graph.births_addNode, hs.ownerFor_eq]

lemma counted_of_addFlow (hs : s.Coherent width height) {start finish : Point}
    (h : s.addFlow start finish = (effect, k)) : s.Counted ⟨.flow, start, finish⟩ effect k := by
  rcases tied_or_untied s start finish with
    ⟨source, target, id, role, graph, hsource, htarget, hconnect, hflow⟩ | ⟨hnone, hflow⟩
  · cases h.symm.trans hflow
    obtain ⟨n, -, -, rfl, -, hflows, -⟩ := Graph.node?_connect hconnect
    have hstart : s.canvas.bounds.covers start = true :=
      hs.bounds_eq ▸ Grid.covers_of_get? hsource
    have hfinish : s.canvas.bounds.covers finish = true :=
      hs.bounds_eq ▸ Grid.covers_of_get? htarget
    exact .flow hstart hfinish hsource htarget (Graph.births_connect hconnect) hflows rfl
  · cases h.symm.trans hflow
    refine .untied ?_ rfl rfl
    rintro ⟨hstart, hfinish⟩
    -- on the surface both ends have owners, these are nodes, and nodes can be connected
    rw [hs.bounds_eq] at hstart hfinish
    obtain ⟨source, hsource⟩ := Grid.exists_get? hstart
    obtain ⟨target, htarget⟩ := Grid.exists_get? hfinish
    have hconnect := Graph.connect_isSome s.graph source target
      (Rect.square finish s.settings.markerRadius) start
    rw [hs.owned source (Grid.mem_cells_of_get? hsource),
      hs.owned target (Grid.mem_cells_of_get? htarget)] at hconnect
    rw [hnone source target hsource htarget] at hconnect
    cases hconnect

/-- **A stroke is one node, one flow or one untied flow.** -/
lemma counted_of_apply (hs : s.Coherent width height) (h : s.apply stroke = .ok (effect, k)) :
    s.Counted stroke effect k := by
  obtain ⟨tool, start, finish⟩ := stroke
  cases tool with
  | scope => exact counted_of_addNode hs rfl h
  | var => exact counted_of_addNode hs rfl h
  | symbol => exact counted_of_addNode hs rfl h
  | flow => exact counted_of_addFlow hs (Except.ok.inj h)
  | comment =>
    cases h
    exact .comment

/-! ## Strokes in turn -/

/-- The stroke of an operation. -/
def Op.stroke? : Op → Option Stroke
  | .apply stroke => some stroke
  | .trace .. => none
  | .writeText .. => none

/-- The nodes and flows of a sketch tell the strokes that were drawn, in order. -/
structure Tallied (s : Sketch) (settings : Settings) (strokes : List Stroke) : Prop where
  /-- The root comes first, and then a node of the right kind for each stroke with a node
  tool. -/
  nodes : s.graph.births.map (·.tag) =
    .scope :: strokes.filterMap fun stroke => stroke.tool.nodeKind?.map NodeKind.tag
  /-- There is a flow for each stroke with the flow tool that begins and ends on the surface. -/
  flows : (s.graph.flows.toList.map fun f => (f.origin, f.bounds)) =
    ((strokes.filter (·.tool = .flow)).filter (Stroke.landsOn settings.surface)).map
      fun stroke => (stroke.start, Rect.square stroke.finish settings.markerRadius)
  /-- There is an untied flow for each of the others. -/
  untied : s.untied.toList =
    ((strokes.filter (·.tool = .flow)).filter (!Stroke.landsOn settings.surface ·)).map
      fun stroke => ⟨stroke.start, stroke.finish⟩

namespace Tallied

variable {settings : Settings} {strokes : List Stroke}

lemma blank (settings : Settings) : (Sketch.blank settings).Tallied settings [] := ⟨rfl, rfl, rfl⟩

lemma congr (hs : s.Tallied settings strokes) (hbirths : k.graph.births = s.graph.births)
    (hflows : k.graph.flows = s.graph.flows) (huntied : k.untied = s.untied) :
    k.Tallied settings strokes :=
  ⟨hbirths ▸ hs.nodes, hflows ▸ hs.flows, huntied ▸ hs.untied⟩

/-- A stroke that is taken in is told after the others. -/
lemma of_counted (hs : s.Tallied settings strokes) (hsettings : s.settings = settings)
    (hsurface : s.canvas.bounds = settings.surface) (h : s.Counted stroke effect k) :
    k.Tallied settings (strokes ++ [stroke]) := by
  cases h with
  | @node tool _ _ _ _ hkind hbirths hflows huntied =>
    have htool : tool ≠ .flow := by
      rintro rfl
      cases hkind
    constructor
    case nodes => simp [hbirths, hs.nodes, hkind]
    case flows => simp [hflows, hs.flows, htool]
    case untied => simp [huntied, hs.untied, htool]
  | flow hstart hfinish _ _ hbirths hflows huntied =>
    rw [hsurface] at hstart hfinish
    constructor
    case nodes => simp [hbirths, hs.nodes]
    case flows => simp [hflows, hs.flows, hsettings, Stroke.landsOn, hstart, hfinish]
    case untied => simp [huntied, hs.untied, Stroke.landsOn, hstart, hfinish]
  | @untied start finish _ hoff hgraph huntied =>
    have hoff : Stroke.landsOn settings.surface ⟨.flow, start, finish⟩ = false := by
      rw [hsurface, ← Bool.and_eq_true] at hoff
      exact Bool.eq_false_iff.mpr hoff
    constructor
    case nodes => simp [hgraph, hs.nodes]
    case flows => simp [hgraph, hs.flows, hoff]
    case untied => simp [huntied, hs.untied, hoff]
  | comment =>
    constructor
    case nodes => simp [hs.nodes]
    case flows => simp [hs.flows]
    case untied => simp [hs.untied]

lemma size_nodes (hs : s.Tallied settings strokes) :
    s.graph.nodes.size = 1 + strokes.countP (·.tool.nodeKind?.isSome) := by
  have hlength := congrArg List.length hs.nodes
  rw [List.length_map, Graph.length_births, List.length_cons, List.length_filterMap_eq_countP]
    at hlength
  simpa [Nat.add_comm] using hlength

lemma size_flows (hs : s.Tallied settings strokes) :
    s.graph.flows.size + s.untied.size = strokes.countP (·.tool = .flow) := by
  have hflows := congrArg List.length hs.flows
  have huntied := congrArg List.length hs.untied
  rw [List.length_map, List.length_map, Array.length_toList] at hflows
  rw [List.length_map, Array.length_toList] at huntied
  -- a stroke with the flow tool lands on the surface or does not
  rw [hflows, huntied, List.countP_eq_length_filter]
  exact (List.length_eq_length_filter_add _).symm

end Tallied

lemma settings_of_apply (h : s.apply stroke = .ok (effect, k)) : k.settings = s.settings := by
  rcases apply_cases h with ⟨kind, -, hadd⟩ | ⟨-, hadd⟩ | ⟨-, rfl⟩
  · obtain ⟨filled, -, -, rfl⟩ := exists_filled_of_addNode hadd
    rfl
  · rcases tied_or_untied s stroke.start stroke.finish with
      ⟨_, _, _, _, _, -, -, -, hflow⟩ | ⟨-, hflow⟩
    · cases hadd.trans hflow
      rfl
    · cases hadd.trans hflow
      rfl
  · rfl

lemma settings_of_perform {op : Op} (h : s.perform op = .ok k) : k.settings = s.settings := by
  rcases perform_cases h with ⟨tool, a, b, -, rfl⟩ | ⟨stroke, effect, -, happly⟩ |
    ⟨place, text, -, rfl | ⟨id, effect, graph, -, rfl⟩⟩
  · rfl
  · exact settings_of_apply happly
  · rfl
  · rfl

lemma Coherent.bounds_eq_surface {settings : Settings}
    (hs : s.Coherent settings.width settings.height) : s.canvas.bounds = settings.surface :=
  Grid.bounds_congr hs.canvas_size.1 hs.canvas_size.2

/-- An operation that is a stroke is told after the others, and any other one is not told. -/
lemma Tallied.of_perform {settings : Settings} {strokes : List Stroke} {op : Op}
    (hs : s.Tallied settings strokes) (hsettings : s.settings = settings)
    (hcoherent : s.Coherent settings.width settings.height) (h : s.perform op = .ok k) :
    k.Tallied settings (strokes ++ op.stroke?.toList) := by
  rcases perform_cases h with ⟨tool, a, b, rfl, rfl⟩ | ⟨stroke, effect, rfl, happly⟩ |
    ⟨place, text, rfl, hwritten⟩
  · rw [Op.stroke?, Option.toList_none, List.append_nil]
    exact hs.congr rfl rfl rfl
  · exact hs.of_counted hsettings hcoherent.bounds_eq_surface (counted_of_apply hcoherent happly)
  · rw [Op.stroke?, Option.toList_none, List.append_nil]
    rcases hwritten with rfl | ⟨id, effect, graph, hwrite, rfl⟩
    · exact hs
    · obtain ⟨-, -, -, hflows, -⟩ := Graph.node?_writeText hwrite
      exact hs.congr (Graph.births_writeText hwrite) hflows rfl

/-- **Every stroke counts once.**  After any operations on an empty sketch, the next stroke is one
node, one flow or one untied flow; and the nodes, the flows and the untied flows tell the strokes
that were drawn, in their order. -/
theorem exists_tallied (settings : Settings) (ops : List Op) :
    ∃ s, (blank settings).performAll ops = .ok s ∧ s.settings = settings ∧
      s.canvas.bounds = settings.surface ∧
      (∀ stroke, ∃ effect k, s.apply stroke = .ok (effect, k) ∧ s.Counted stroke effect k) ∧
      s.Tallied settings (ops.filterMap Op.stroke?) := by
  obtain ⟨s, hs, hsettings, hcoherent, htallied⟩ := performAll_induction
    (P := fun ops k => k.settings = settings ∧ k.Coherent settings.width settings.height ∧
      k.Tallied settings (ops.filterMap Op.stroke?))
    ⟨rfl, coherent_blank settings settings.width settings.height, .blank settings⟩
    (fun ops op k k' ⟨hsettings, hcoherent, htallied⟩ hop => by
      refine ⟨(settings_of_perform hop).trans hsettings,
        hcoherent.of_paints (paints_of_perform hop), ?_⟩
      have hstroke : [op].filterMap Op.stroke? = op.stroke?.toList := by
        cases h : op.stroke? <;> simp [h]
      rw [List.filterMap_append, hstroke]
      exact htallied.of_perform hsettings hcoherent hop) ops
  refine ⟨s, hs, hsettings, hcoherent.bounds_eq_surface, fun stroke => ?_, htallied⟩
  obtain ⟨effect, k, happly⟩ := apply_isOk s stroke
  exact ⟨effect, k, happly, counted_of_apply hcoherent happly⟩

end Sketch

end FlowSketch
