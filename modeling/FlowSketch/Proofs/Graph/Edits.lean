/-
# Graphs that come about by drawing

A graph begins with the root alone and changes by edits: a node is drawn inside another one,
a flow is drawn between two nodes, a text is written on a node.  Any edit may name nodes
that do not exist.  A node is drawn blank: nothing is inside and no flow touches it.

This file says what a single edit does to the nodes and to the flows of a graph.  Main
statements: `node?_addNode`, `node?_connect`, `node?_writeText`, one for each edit, and
`drawn_induction`, by which a property that every edit keeps holds of all drawn graphs.
-/
import Mathlib.Tactic.Common
import FlowSketch.Graph.Growth

namespace FlowSketch

/-! ## Tags -/

/-- The kind of a node, without what is known of the node. -/
inductive NodeTag where
  | scope
  | var
  | symbol
deriving DecidableEq, Repr

namespace NodeTag

/-- Whether a node of the first tag lists the nodes of the second tag that are drawn inside.
Scopes list all of them, variables only variables. -/
def lists : NodeTag → NodeTag → Bool
  | scope, _ => true
  | var, var => true
  | _, _ => false

end NodeTag

namespace NodeKind

/-- The tag of a node. -/
def tag : NodeKind → NodeTag
  | scope _ => .scope
  | var _ => .var
  | symbol _ => .symbol

/-- The nodes of a tag that a node lists as drawn inside. -/
def owned : NodeKind → NodeTag → List NodeId
  | scope s, .scope => s.scopes
  | scope s, .var => s.vars
  | scope s, .symbol => s.symbols
  | var v, .var => v.members
  | _, _ => []

/-- The first node of the body, which only scopes have. -/
def start? : NodeKind → Option NodeId
  | scope s => s.start
  | _ => none

/-- Whether a node is a child, which only scopes have. -/
def hasChild : NodeKind → NodeId → Bool
  | scope s, id => s.hasChild id
  | _, _ => false

end NodeKind

/-- A kind as nodes have it when they are drawn.  A variable may have a value at once, and a
symbol a purpose. -/
structure BlankKind where
  /-- The kind. -/
  kind : NodeKind
  /-- Nothing is drawn inside. -/
  owned_eq (t : NodeTag) : kind.owned t = []
  /-- No flow arrives or leaves. -/
  links_eq : kind.links = {}
  /-- There is no body. -/
  start?_eq : kind.start? = none
  /-- A variable without members is atomic. -/
  atomic_eq (v : Variable) : kind = .var v → v.atomic = true
deriving DecidableEq

/-- The kind of a new node of a tag of which nothing is known. -/
def NodeTag.blank (t : NodeTag) : BlankKind where
  kind := match t with
    | scope => .scope {}
    | var => .var {}
    | symbol => .symbol {}
  owned_eq u := by cases t <;> cases u <;> rfl
  links_eq := by cases t <;> rfl
  start?_eq := by cases t <;> rfl
  atomic_eq v h := by
    cases t with
    | var =>
      cases h
      rfl
    | _ => cases h

/-! ## What happens to a single node -/

/-- A flow leaves in a given role. -/
def Links.depart (l : Links) (f : FlowId) (target : NodeId) : FlowRole → Links
  | .start => l.leave f
  | .continuation => l.continueTo f target
  | .branch => l.branchOff f

namespace NodeKind

variable (k child : NodeKind) (f : FlowId) (id target : NodeId) (drawnOn : Bool) (t : NodeTag)

@[simp] lemma tag_adopt : (k.adopt id child).tag = k.tag := by
  cases k <;> cases child <;> rfl

@[simp] lemma links_adopt : (k.adopt id child).links = k.links := by
  cases k <;> cases child <;> rfl

@[simp] lemma start?_adopt : (k.adopt id child).start? = k.start? := by
  cases k <;> cases child <;> rfl

/-- A node that is drawn inside comes last in the list of its tag, if there is such a list. -/
lemma owned_adopt : (k.adopt id child).owned t =
    k.owned t ++ if k.tag.lists t = true ∧ child.tag = t then [id] else [] := by
  cases k <;> cases child <;> cases t <;>
    simp [adopt, owned, tag, NodeTag.lists, Variable.takeIn]

@[simp] lemma tag_receive : (k.receive f).tag = k.tag := by
  cases k <;> rfl

@[simp] lemma links_receive : (k.receive f).links = k.links.arrive f := by
  cases k <;> rfl

@[simp] lemma owned_receive : (k.receive f).owned t = k.owned t := by
  cases k <;> cases t <;> rfl

@[simp] lemma start?_receive : (k.receive f).start? = k.start? := by
  cases k <;> rfl

/-- The role of a flow that leaves: into the body if it leads to a child, a continuation if
it is drawn on from an arrival, a branch otherwise. -/
lemma fst_send : (k.send f target drawnOn).1 =
    if k.hasChild target then .start else if drawnOn then .continuation else .branch := by
  cases k with
  | scope s =>
    simp only [send, Scope.send, hasChild]
    split
    · rename_i h
      simp [h]
    · rename_i h
      cases drawnOn <;> simp [h, Links.route]
  | var v => cases drawnOn <;> rfl
  | symbol y => cases drawnOn <;> rfl

@[simp] lemma tag_send : (k.send f target drawnOn).2.tag = k.tag := by
  cases k <;> rfl

@[simp] lemma owned_send : (k.send f target drawnOn).2.owned t = k.owned t := by
  cases k with
  | scope s =>
    simp only [send, Scope.send]
    split <;> cases t <;> rfl
  | var v => cases t <;> rfl
  | symbol y => cases t <;> rfl

/-- The flow is noted in its role. -/
lemma links_send : (k.send f target drawnOn).2.links =
    k.links.depart f target (k.send f target drawnOn).1 := by
  cases k with
  | scope s =>
    simp only [send, Scope.send]
    split
    · rfl
    · cases drawnOn <;> rfl
  | var v => cases drawnOn <;> rfl
  | symbol y => cases drawnOn <;> rfl

/-- The first flow into the body sets the start, and no other flow does. -/
lemma start?_send : (k.send f target drawnOn).2.start? =
    if (k.send f target drawnOn).1 = .start then k.start?.or (some target) else k.start? := by
  cases k with
  | scope s =>
    simp only [send, Scope.send]
    split
    · rfl
    · cases drawnOn <;> simp [start?, Links.route]
  | var v => cases drawnOn <;> simp [send, start?, Links.route]
  | symbol y => cases drawnOn <;> simp [send, start?, Links.route]

/-- The kind of the node `id` after a flow between two nodes, each of which it may be. -/
def join (source id : NodeId) : NodeKind :=
  let sent := if source = id then (k.send f target drawnOn).2 else k
  if target = id then sent.receive f else sent

@[simp] lemma tag_join (source : NodeId) : (k.join f target drawnOn source id).tag = k.tag := by
  unfold join
  dsimp only
  split <;> split <;> simp

@[simp] lemma owned_join (source : NodeId) :
    (k.join f target drawnOn source id).owned t = k.owned t := by
  unfold join
  dsimp only
  split <;> split <;> simp

/-- A flow departs from its source and then arrives at its target. -/
lemma links_join (source : NodeId) : (k.join f target drawnOn source id).links =
    let l := if source = id then k.links.depart f target (k.send f target drawnOn).1 else k.links
    if target = id then l.arrive f else l := by
  unfold join
  dsimp only
  split <;> split <;> simp [links_send]

lemma start?_join (source : NodeId) : (k.join f target drawnOn source id).start? =
    if source = id ∧ (k.send f target drawnOn).1 = .start then k.start?.or (some target)
    else k.start? := by
  unfold join
  by_cases hs : source = id <;> by_cases ht : target = id <;> simp [hs, ht, start?_send]

variable (text : String)

/-- A text on a symbol changes at most its purpose. -/
lemma snd_write_symbol (y : Symbol) : ∃ purpose, ((symbol y).write text).2 =
    symbol { y with purpose } := by
  simp only [write]
  split
  · split
    · exact ⟨_, rfl⟩
    · exact ⟨_, rfl⟩
  · exact ⟨_, rfl⟩

@[simp] lemma tag_write : (k.write text).2.tag = k.tag := by
  cases k with
  | symbol y =>
    obtain ⟨_, h⟩ := snd_write_symbol text y
    rw [h]
    rfl
  | _ => rfl

@[simp] lemma links_write : (k.write text).2.links = k.links := by
  cases k with
  | symbol y =>
    obtain ⟨_, h⟩ := snd_write_symbol text y
    rw [h]
    rfl
  | _ => rfl

@[simp] lemma start?_write : (k.write text).2.start? = k.start? := by
  cases k with
  | symbol y =>
    obtain ⟨_, h⟩ := snd_write_symbol text y
    rw [h]
    rfl
  | _ => rfl

@[simp] lemma owned_write : (k.write text).2.owned t = k.owned t := by
  cases k with
  | symbol y =>
    obtain ⟨_, h⟩ := snd_write_symbol text y
    rw [h]
    rfl
  | _ => cases t <;> rfl

end NodeKind

/-! ## Edits -/

/-- A change of a graph. -/
inductive Edit where
  /-- A node is drawn inside another one. -/
  | addNode (parent : NodeId) (new : BlankKind)
  /-- A flow is drawn. -/
  | connect (source target : NodeId) (bounds : Rect) (origin : Point)
  /-- A text is written on a node. -/
  | writeText (id : NodeId) (text : String)
deriving DecidableEq

namespace Graph

/-- The graph after an edit.  A flow or a text that needs a missing node changes nothing. -/
def edit (g : Graph) : Edit → Graph
  | .addNode parent new => (g.addNode parent new.kind).2
  | .connect source target bounds origin =>
    ((g.connect source target bounds origin).map (·.2.2)).getD g
  | .writeText id text => ((g.writeText id text).map (·.2)).getD g

/-- The graph that edits make out of the graph with the root only. -/
def drawn (edits : List Edit) : Graph := edits.foldl edit empty

/-- A property of the empty graph that every edit keeps holds of all drawn graphs. -/
theorem drawn_induction {P : Graph → Prop} (empty : P empty) (edit : ∀ g e, P g → P (g.edit e))
    (edits : List Edit) : P (drawn edits) :=
  List.foldlRecOn edits Graph.edit empty fun g hg e _ => edit g e hg

/-! ## What edits do to the nodes -/

/-- The node in which a new node is drawn: the root if there is no node of the given
number. -/
def ownerFor (g : Graph) (parent : NodeId) : NodeId :=
  if g.contains parent then parent else NodeId.root

lemma node?_eq_none_iff {g : Graph} {id : NodeId} : g.node? id = none ↔ g.contains id = false := by
  rw [← isSome_node?]
  cases g.node? id <;> simp

/-- The next number is that of no node yet. -/
lemma ne_nextNode {g : Graph} {id : NodeId} (h : g.contains id = true) : id ≠ g.nextNode := by
  rintro rfl
  exact absurd (contains_iff.mp h) (Nat.lt_irrefl _)

/-- A new node takes the next number, and its owner takes it in. -/
theorem node?_addNode (g : Graph) (parent : NodeId) (kind : NodeKind) (id : NodeId) :
    (g.addNode parent kind).2.node? id =
      if id = g.nextNode then some ⟨id, some (g.ownerFor parent), kind⟩
      else (g.node? id).map fun n =>
        if g.ownerFor parent = id then { n with kind := n.kind.adopt g.nextNode kind } else n := by
  split
  · rename_i h
    subst h
    exact node?_addNode_self g parent kind
  · rename_i h
    have hi : id.index ≠ g.nodes.size := fun hi => h (by cases id; exact congrArg _ hi)
    have hpush : (g.addNode parent kind).2.node? id =
        (g.modifyKind (g.ownerFor parent) (·.adopt g.nextNode kind)).node? id := by
      simp only [addNode, node?, ownerFor, Array.getElem?_push]
      rw [if_neg]
      simpa using hi
    rw [hpush, node?_modifyKind]
    split
    · rfl
    · simp

/-- Whether a flow from a point would be drawn on from an arrival at the source. -/
def drawnOn (g : Graph) (source : Node) (origin : Point) : Bool :=
  (g.flowsOf source.links.incoming).any (·.bounds.encloses origin)

/-- A flow changes its two ends, and of them only the kind. -/
theorem node?_connect {g g' : Graph} {source target : NodeId} {bounds : Rect} {origin : Point}
    {f : FlowId} {role : FlowRole} (h : g.connect source target bounds origin = some (f, role, g')) :
    ∃ s, g.node? source = some s ∧ g.contains target = true ∧ f = g.nextFlow ∧
      role = (s.kind.send f target (g.drawnOn s origin)).1 ∧
      g'.flows = g.flows.push ⟨f, source, target, bounds, origin, role⟩ ∧
      ∀ id, g'.node? id = (g.node? id).map fun n =>
        { n with kind := n.kind.join f target (g.drawnOn s origin) source id } := by
  unfold connect at h
  split at h
  case h_2 => cases h
  case h_1 s t hs ht =>
    simp only [Option.some.injEq, Prod.mk.injEq] at h
    obtain ⟨rfl, rfl, rfl⟩ := h
    refine ⟨s, hs, contains_of_node? ht, rfl, rfl, rfl, fun id => ?_⟩
    change ((g.modifyKind source _).modifyKind target _).node? id = _
    rw [node?_modifyKind, node?_modifyKind]
    simp only [NodeKind.join]
    by_cases hid : source = id
    · subst hid
      split <;> simp [hs, drawnOn]
    · split <;> cases g.node? id <;> simp

lemma size_connect {g g' : Graph} {source target : NodeId} {bounds : Rect} {origin : Point}
    {f : FlowId} {role : FlowRole} (h : g.connect source target bounds origin = some (f, role, g')) :
    g'.nodes.size = g.nodes.size := by
  unfold connect at h
  split at h
  · simp only [Option.some.injEq, Prod.mk.injEq] at h
    obtain ⟨-, -, rfl⟩ := h
    simp
  · cases h

/-- A text changes its node, and of it only the kind. -/
theorem node?_writeText {g g' : Graph} {target : NodeId} {text : String} {effect : WriteEffect}
    (h : g.writeText target text = some (effect, g')) :
    ∃ t, g.node? target = some t ∧ effect = (t.kind.write text).1 ∧ g'.flows = g.flows ∧
      ∀ id, g'.node? id = (g.node? id).map fun n =>
        if target = id then { n with kind := (n.kind.write text).2 } else n := by
  unfold writeText at h
  rw [Option.map_eq_some_iff] at h
  obtain ⟨t, ht, h⟩ := h
  simp only [Prod.mk.injEq] at h
  obtain ⟨rfl, rfl⟩ := h
  refine ⟨t, ht, rfl, rfl, fun id => ?_⟩
  rw [node?_modifyKind]
  split
  · rename_i hid
    subst hid
    simp [ht]
  · simp

end Graph

end FlowSketch
