/-
# Graphs only grow

Whatever is done to a graph, nothing is taken away from it.  A flow stays as it was drawn.  A node
keeps its number, its owner and its tag; its lists only become longer, at their ends; the start of a
body and the purpose that was written on a symbol stay what they were first.  What may change is the
value of a variable and where a node continues to.

A single operation changes few nodes: the one that lists the new node, the two ends of the new flow,
or the one that is written on.  The kind of a new node is any kind here, it need not be blank.

Main statement: `grows_and_keeps`.
-/
import Mathlib.Logic.Relation
import FlowSketch.Proofs.Graph.Edits

namespace FlowSketch

open Relation (ReflTransGen)

/-! ## Flows of a node -/

/-- No flow is taken from a node. -/
structure Links.Grows (l l' : Links) : Prop where
  incoming : l.incoming <+: l'.incoming
  outgoing : l.outgoing <+: l'.outgoing
  branches : l.branches <+: l'.branches

namespace Links

variable {l l' l'' : Links}

@[refl] lemma Grows.refl (l : Links) : l.Grows l :=
  ⟨List.prefix_rfl, List.prefix_rfl, List.prefix_rfl⟩

@[trans] lemma Grows.trans (h : l.Grows l') (h' : l'.Grows l'') : l.Grows l'' where
  incoming := h.incoming.trans h'.incoming
  outgoing := h.outgoing.trans h'.outgoing
  branches := h.branches.trans h'.branches

lemma grows_arrive (l : Links) (f : FlowId) : l.Grows (l.arrive f) :=
  ⟨List.prefix_append _ _, List.prefix_rfl, List.prefix_rfl⟩

lemma grows_depart (l : Links) (f : FlowId) (target : NodeId) (role : FlowRole) :
    l.Grows (l.depart f target role) where
  incoming := by cases role <;> exact List.prefix_rfl
  outgoing := by cases role <;> exact List.prefix_append _ _
  branches := by
    cases role with
    | branch => exact List.prefix_append _ _
    | _ => exact List.prefix_rfl

end Links

/-! ## Nodes -/

namespace NodeKind

/-- The purpose that was written on a symbol, if any was. -/
def purpose? : NodeKind → Option Purpose
  | symbol y => if y.purpose = .unset then none else some y.purpose
  | _ => none

/-- What a node lists stays listed, and what was set once stays as it is. -/
structure Grows (k k' : NodeKind) : Prop where
  tag : k'.tag = k.tag
  owned (t : NodeTag) : k.owned t <+: k'.owned t
  links : k.links.Grows k'.links
  start (id : NodeId) : k.start? = some id → k'.start? = some id
  purpose (p : Purpose) : k.purpose? = some p → k'.purpose? = some p

variable {k k' k'' : NodeKind}

@[refl] lemma Grows.refl (k : NodeKind) : k.Grows k :=
  ⟨rfl, fun _ => List.prefix_rfl, .refl _, fun _ => id, fun _ => id⟩

@[trans] lemma Grows.trans (h : k.Grows k') (h' : k'.Grows k'') : k.Grows k'' where
  tag := h'.tag.trans h.tag
  owned t := (h.owned t).trans (h'.owned t)
  links := h.links.trans h'.links
  start id := h'.start id ∘ h.start id
  purpose p := h'.purpose p ∘ h.purpose p

variable (k) (child : NodeKind) (f : FlowId) (id target : NodeId) (drawnOn : Bool) (text : String)

@[simp] lemma purpose?_adopt : (k.adopt id child).purpose? = k.purpose? := by
  cases k <;> cases child <;> rfl

@[simp] lemma purpose?_receive : (k.receive f).purpose? = k.purpose? := by
  cases k <;> rfl

@[simp] lemma purpose?_send : (k.send f target drawnOn).2.purpose? = k.purpose? := by
  cases k <;> rfl

/-- Of two purposes that are written on a symbol, the first one stays. -/
lemma purpose?_write {p : Purpose} (h : k.purpose? = some p) :
    (k.write text).2.purpose? = some p := by
  cases k with
  | scope s => cases h
  | var v => cases h
  | symbol y =>
    have hset : y.purpose ≠ .unset := by
      intro hunset
      simp [purpose?, hunset] at h
    have hsame : ((symbol y).write text).2 = symbol y := by
      simp only [write, if_neg hset]
      split <;> rfl
    rwa [hsame]

/-- A node that takes another one in notes it last. -/
lemma grows_adopt : k.Grows (k.adopt id child) where
  tag := tag_adopt k child id
  owned t := by
    rw [owned_adopt]
    exact List.prefix_append _ _
  links := by rw [links_adopt]
  start _ h := by rwa [start?_adopt]
  purpose _ h := by rwa [purpose?_adopt]

lemma grows_receive : k.Grows (k.receive f) where
  tag := tag_receive k f
  owned t := by simp
  links := by
    rw [links_receive]
    exact k.links.grows_arrive f
  start _ h := by rwa [start?_receive]
  purpose _ h := by rwa [purpose?_receive]

/-- A second flow into the body leaves the start alone. -/
lemma grows_send : k.Grows (k.send f target drawnOn).2 where
  tag := tag_send k f target drawnOn
  owned t := by simp
  links := by
    rw [links_send]
    exact k.links.grows_depart f target _
  start _ h := by
    rw [start?_send, h]
    split <;> rfl
  purpose _ h := by rwa [purpose?_send]

/-- The ends of a flow may be one node, which then sends before it receives. -/
lemma grows_join (source : NodeId) : k.Grows (k.join f target drawnOn source id) := by
  have hsent : k.Grows (if source = id then (k.send f target drawnOn).2 else k) := by
    split
    · exact k.grows_send f target drawnOn
    · rfl
  unfold join
  dsimp only
  split
  · exact hsent.trans (grows_receive _ f)
  · exact hsent

lemma grows_write : k.Grows (k.write text).2 where
  tag := tag_write k text
  owned t := by simp
  links := by rw [links_write]
  start _ h := by rwa [start?_write]
  purpose _ h := k.purpose?_write text h

/-- A flow leaves a node alone that is at none of its ends. -/
lemma join_of_ne {source : NodeId} (hs : id ≠ source) (ht : id ≠ target) :
    k.join f target drawnOn source id = k := by
  rw [join, if_neg hs.symm, if_neg ht.symm]

/-- A node that does not list a child's tag notes nothing. -/
lemma adopt_of_not_lists (h : k.tag.lists child.tag = false) : k.adopt id child = k := by
  cases k <;> cases child <;> first | rfl | cases h

end NodeKind

/-- A node stays the same node, and its kind grows. -/
structure Node.Grows (n n' : Node) : Prop where
  id : n'.id = n.id
  parent : n'.parent = n.parent
  kind : n.kind.Grows n'.kind

namespace Node

variable {n n' n'' : Node}

@[refl] lemma Grows.refl (n : Node) : n.Grows n := ⟨rfl, rfl, .refl _⟩

@[trans] lemma Grows.trans (h : n.Grows n') (h' : n'.Grows n'') : n.Grows n'' :=
  ⟨h'.id.trans h.id, h'.parent.trans h.parent, h.kind.trans h'.kind⟩

end Node

/-! ## Graphs -/

namespace Graph

/-- The flows stay as they are, and every node is still there and has grown. -/
structure Grows (g g' : Graph) : Prop where
  flows : g.flows.toList <+: g'.flows.toList
  nodes (id : NodeId) (n : Node) : g.node? id = some n → ∃ n', g'.node? id = some n' ∧ n.Grows n'

/-- What one operation makes of a graph.  The kind of a new node is any one. -/
inductive Changes (g : Graph) : Graph → Prop
  /-- A node is drawn inside another one. -/
  | addNode (parent : NodeId) (kind : NodeKind) : Changes g (g.addNode parent kind).2
  /-- A flow is drawn. -/
  | connect (source target : NodeId) (bounds : Rect) (origin : Point) :
    Changes g (g.edit (.connect source target bounds origin))
  /-- A text is written on a node. -/
  | writeText (id : NodeId) (text : String) : Changes g (g.edit (.writeText id text))

variable {g g' g'' : Graph}

@[refl] lemma Grows.refl (g : Graph) : g.Grows g :=
  ⟨List.prefix_rfl, fun _ n hn => ⟨n, hn, .refl n⟩⟩

@[trans] lemma Grows.trans (h : g.Grows g') (h' : g'.Grows g'') : g.Grows g'' where
  flows := h.flows.trans h'.flows
  nodes id n hn := by
    obtain ⟨n', hn', hgrows⟩ := h.nodes id n hn
    obtain ⟨n'', hn'', hgrows'⟩ := h'.nodes id n' hn'
    exact ⟨n'', hn'', hgrows.trans hgrows'⟩

/-- What becomes of a node when another one is drawn. -/
lemma node?_addNode_of_some {parent id : NodeId} {kind : NodeKind} {n : Node}
    (hn : g.node? id = some n) : (g.addNode parent kind).2.node? id = some
      (if g.ownerFor parent = id then { n with kind := n.kind.adopt g.nextNode kind } else n) := by
  rw [node?_addNode, if_neg (ne_nextNode (contains_of_node? hn)), hn, Option.map_some]

/-- What becomes of a graph when a flow is to be drawn. -/
lemma edit_connect_cases (g : Graph) (source target : NodeId) (bounds : Rect) (origin : Point) :
    let g' := g.edit (.connect source target bounds origin)
    g' = g ∨ ∃ f role drawnOn,
      g'.flows = g.flows.push ⟨f, source, target, bounds, origin, role⟩ ∧
      ∀ id, g'.node? id = (g.node? id).map fun n =>
        { n with kind := n.kind.join f target drawnOn source id } := by
  rw [edit]
  cases h : g.connect source target bounds origin with
  | none => exact .inl rfl
  | some res =>
    obtain ⟨f, role, g'⟩ := res
    obtain ⟨s, -, -, -, -, hflows, hnodes⟩ := node?_connect h
    exact .inr ⟨f, role, _, hflows, hnodes⟩

/-- What becomes of a graph when a text is to be written. -/
lemma edit_writeText_cases (g : Graph) (target : NodeId) (text : String) :
    let g' := g.edit (.writeText target text)
    g' = g ∨ g'.flows = g.flows ∧ ∀ id, g'.node? id = (g.node? id).map fun n =>
      if target = id then { n with kind := (n.kind.write text).2 } else n := by
  rw [edit]
  cases h : g.writeText target text with
  | none => exact .inl rfl
  | some res =>
    obtain ⟨effect, g'⟩ := res
    obtain ⟨t, -, -, hflows, hnodes⟩ := node?_writeText h
    exact .inr ⟨hflows, hnodes⟩

/-! ### What a single operation does -/

lemma grows_addNode (g : Graph) (parent : NodeId) (kind : NodeKind) :
    g.Grows (g.addNode parent kind).2 where
  flows := List.prefix_rfl
  nodes id n hn := by
    refine ⟨_, node?_addNode_of_some hn, ?_⟩
    split
    · exact ⟨rfl, rfl, n.kind.grows_adopt kind g.nextNode⟩
    · rfl

lemma grows_connect (g : Graph) (source target : NodeId) (bounds : Rect) (origin : Point) :
    g.Grows (g.edit (.connect source target bounds origin)) := by
  rcases g.edit_connect_cases source target bounds origin with
    heq | ⟨f, role, drawnOn, hflows, hnodes⟩
  · rw [heq]
  · refine ⟨by simp [hflows], fun id n hn => ?_⟩
    have hn' := hnodes id
    rw [hn, Option.map_some] at hn'
    exact ⟨_, hn', rfl, rfl, n.kind.grows_join f id target drawnOn source⟩

lemma grows_writeText (g : Graph) (target : NodeId) (text : String) :
    g.Grows (g.edit (.writeText target text)) := by
  rcases g.edit_writeText_cases target text with heq | ⟨hflows, hnodes⟩
  · rw [heq]
  · refine ⟨by simp [hflows], fun id n hn => ?_⟩
    have hn' := hnodes id
    rw [hn, Option.map_some] at hn'
    refine ⟨_, hn', ?_⟩
    split
    · exact ⟨rfl, rfl, n.kind.grows_write text⟩
    · rfl

lemma Changes.grows (h : g.Changes g') : g.Grows g' := by
  cases h with
  | addNode parent kind => exact g.grows_addNode parent kind
  | connect source target bounds origin => exact g.grows_connect source target bounds origin
  | writeText id text => exact g.grows_writeText id text

/-- However many operations follow, the graph grows. -/
lemma grows_of_reflTransGen (h : ReflTransGen Changes g g') : g.Grows g' := by
  induction h with
  | refl => exact .refl g
  | tail _ hstep ih => exact ih.trans hstep.grows

/-! ### What a single operation leaves alone -/

/-- Of the nodes that were there, only an owner that lists the new node differs. -/
lemma eq_owner_of_addNode {parent id : NodeId} {kind : NodeKind} {n : Node}
    (hn : g.node? id = some n) (hdiffers : (g.addNode parent kind).2.node? id ≠ some n) :
    id = g.ownerFor parent ∧ n.kind.tag.lists kind.tag = true := by
  rw [node?_addNode_of_some hn] at hdiffers
  by_cases howner : g.ownerFor parent = id
  · refine ⟨howner.symm, Bool.of_not_eq_false fun hlists => ?_⟩
    rw [if_pos howner, NodeKind.adopt_of_not_lists _ _ _ hlists] at hdiffers
    exact hdiffers rfl
  · rw [if_neg howner] at hdiffers
    exact absurd rfl hdiffers

lemma connect_eq_none {source target : NodeId} (bounds : Rect) (origin : Point)
    (h : g.contains source = false ∨ g.contains target = false) :
    g.connect source target bounds origin = none := by
  rw [← Option.not_isSome_iff_eq_none, connect_isSome]
  rcases h with h | h <;> simp [h]

/-- Only the two ends of a flow differ. -/
lemma eq_end_of_connect {source target id : NodeId} {bounds : Rect} {origin : Point}
    (hdiffers : (g.edit (.connect source target bounds origin)).node? id ≠ g.node? id) :
    id = source ∨ id = target := by
  by_contra hneither
  rw [not_or] at hneither
  rcases g.edit_connect_cases source target bounds origin with heq | ⟨f, role, drawnOn, -, hnodes⟩
  · rw [heq] at hdiffers
    exact hdiffers rfl
  · rw [hnodes] at hdiffers
    simp [NodeKind.join_of_ne _ _ _ _ _ hneither.1 hneither.2] at hdiffers

lemma writeText_eq_none {id : NodeId} (text : String) (h : g.contains id = false) :
    g.writeText id text = none := by
  rw [← Option.not_isSome_iff_eq_none, writeText_isSome, h]
  exact Bool.false_ne_true

/-- Only the node that is written on differs. -/
lemma eq_target_of_writeText {target id : NodeId} {text : String}
    (hdiffers : (g.edit (.writeText target text)).node? id ≠ g.node? id) : id = target := by
  by_contra hne
  rcases g.edit_writeText_cases target text with heq | ⟨-, hnodes⟩
  · rw [heq] at hdiffers
    exact hdiffers rfl
  · rw [hnodes] at hdiffers
    simp [Ne.symm hne] at hdiffers

/-! ### All together -/

/-- **A graph only grows, and an operation changes nothing but what it is about.**  After however
many operations, the flows are those of before and later ones, and every node has grown.  Of a
single operation more can be said.  Of the nodes that were there, a new node changes at most an
owner that lists it, a flow changes at most its two ends, and a text changes at most the node that
it is written on; a flow with a missing end and a text for a missing node change nothing. -/
theorem grows_and_keeps (g : Graph) :
    (∀ g', ReflTransGen Changes g g' → g.Grows g') ∧
    (∀ parent kind, (g.addNode parent kind).2.flows = g.flows ∧
      ∀ id n, g.node? id = some n → (g.addNode parent kind).2.node? id ≠ some n →
        id = g.ownerFor parent ∧ n.kind.tag.lists kind.tag = true) ∧
    (∀ source target bounds origin,
      (∀ id, (g.edit (.connect source target bounds origin)).node? id ≠ g.node? id →
        id = source ∨ id = target) ∧
      (g.contains source = false ∨ g.contains target = false →
        g.connect source target bounds origin = none ∧
        g.edit (.connect source target bounds origin) = g)) ∧
    ∀ target text, (g.edit (.writeText target text)).flows = g.flows ∧
      (∀ id, (g.edit (.writeText target text)).node? id ≠ g.node? id → id = target) ∧
      (g.contains target = false →
        g.writeText target text = none ∧ g.edit (.writeText target text) = g) := by
  refine ⟨fun g' => grows_of_reflTransGen, fun parent kind => ⟨rfl, fun id n =>
    eq_owner_of_addNode⟩, fun source target bounds origin => ⟨fun id => eq_end_of_connect,
    fun hmissing => ?_⟩, fun target text => ⟨?_, fun id => eq_target_of_writeText,
    fun hmissing => ?_⟩⟩
  · have hnone := g.connect_eq_none bounds origin hmissing
    exact ⟨hnone, by rw [edit, hnone]; rfl⟩
  · rcases g.edit_writeText_cases target text with heq | ⟨hflows, -⟩
    · rw [heq]
    · exact hflows
  · have hnone := g.writeText_eq_none text hmissing
    exact ⟨hnone, by rw [edit, hnone]; rfl⟩

/-- Of a symbol on an empty sketch: a flow from the symbol to itself and then a text on it; a
variable beside it; a flow from the root; and a flow and a text for a node that does not exist. -/
theorem grows_and_keeps_symbol :
    let g := (empty.addNode NodeId.root (.symbol {})).2
    let root : Node := ⟨NodeId.root, none, .scope { symbols := [⟨1⟩] }⟩
    g.Grows ((g.edit (.connect ⟨1⟩ ⟨1⟩ ⟨0, 0, 1, 1⟩ ⟨0, 0⟩)).edit (.writeText ⟨1⟩ "IN")) ∧
    (NodeId.root = g.ownerFor NodeId.root ∧ root.kind.tag.lists .var = true) ∧
    (⟨1⟩ = NodeId.root ∨ (⟨1⟩ : NodeId) = ⟨1⟩) ∧
    g.edit (.connect ⟨1⟩ ⟨2⟩ ⟨0, 0, 1, 1⟩ ⟨0, 0⟩) = g ∧
    (⟨1⟩ : NodeId) = ⟨1⟩ ∧ g.edit (.writeText ⟨2⟩ "IN") = g := by
  intro g root
  obtain ⟨hgrows, hadd, hconnect, hwrite⟩ := g.grows_and_keeps
  refine ⟨hgrows _ (.tail (.single (.connect ⟨1⟩ ⟨1⟩ ⟨0, 0, 1, 1⟩ ⟨0, 0⟩)) (.writeText ⟨1⟩ "IN")),
    (hadd NodeId.root (.var {})).2 NodeId.root root (by decide) (by decide),
    (hconnect NodeId.root ⟨1⟩ ⟨0, 0, 1, 1⟩ ⟨0, 0⟩).1 ⟨1⟩ (by decide),
    ((hconnect ⟨1⟩ ⟨2⟩ ⟨0, 0, 1, 1⟩ ⟨0, 0⟩).2 (.inr rfl)).2,
    (hwrite ⟨1⟩ "IN").2.1 ⟨1⟩ (by decide +kernel), ((hwrite ⟨2⟩ "IN").2.2 rfl).2⟩

end Graph

end FlowSketch
