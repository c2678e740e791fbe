/-
# What a graph says twice

A node notes which nodes were drawn inside, which flows arrive at it and leave it, where it
goes on and where its body begins.  All of that can be told from the rest: from the parents
and the tags of the nodes, and from the ends, the places and the order of the flows.  A graph
in which the notes and the rest agree is *consistent*.

The proof keeps an invariant, `Recorded`, in which every list that a node keeps is computed
from the two arenas.  Each edit adds to an arena and to the lists alike.  The role of a flow is
chosen when it is drawn; it stays the right one because nothing that it was chosen by changes
afterwards, neither the list of children, as far as the two ends go, nor the flows before it.

Main statement: `consistent_drawn`, that all drawn graphs are consistent.
-/
import FlowSketch.Proofs.Graph.Edits

namespace FlowSketch

/-! ## What is settled when a node is drawn -/

/-- What is settled about a node when it is drawn. -/
structure Birth where
  /-- Its number. -/
  id : NodeId
  /-- The node in which it is drawn. -/
  parent : Option NodeId
  /-- Its tag. -/
  tag : NodeTag
deriving DecidableEq, Repr

/-- What is settled about a node. -/
def Node.birth (n : Node) : Birth := ⟨n.id, n.parent, n.kind.tag⟩

namespace Graph

variable {g g' : Graph} {id : NodeId} {n : Node}

/-- What is settled about the nodes, in order. -/
def births (g : Graph) : List Birth := g.nodes.toList.map Node.birth

lemma getElem?_births (g : Graph) (i : ℕ) : g.births[i]? = (g.node? ⟨i⟩).map Node.birth := by
  simp [births, node?]

lemma length_births (g : Graph) : g.births.length = g.nodes.size := by
  simp [births]

/-- Edits that keep the number, the parent and the tag of every node keep the births. -/
lemma births_congr (h : ∀ id, (g'.node? id).map Node.birth = (g.node? id).map Node.birth) :
    g'.births = g.births := by
  apply List.ext_getElem?
  intro i
  rw [getElem?_births, getElem?_births, h]

/-- A graph with the same births has a node wherever the other one has. -/
lemma contains_of_births_eq (h : g'.births = g.births) (id : NodeId) :
    g'.contains id = g.contains id := by
  rw [← isSome_node?, ← isSome_node?, ← Option.isSome_map (f := Node.birth),
    ← Option.isSome_map (f := Node.birth), ← getElem?_births, ← getElem?_births, h]

/-- A node of a graph with the same births was there before, with the same number, parent and
tag. -/
lemma exists_node?_of_births_eq (h : g'.births = g.births) {n' : Node}
    (hn : g'.node? id = some n') : ∃ n, g.node? id = some n ∧ n'.id = n.id ∧
      n'.parent = n.parent ∧ n'.kind.tag = n.kind.tag := by
  have hbirth := getElem?_births g' id.index
  rw [h, getElem?_births, hn] at hbirth
  obtain ⟨n, hn, heq⟩ := Option.map_eq_some_iff.mp hbirth
  obtain ⟨hid, hparent, htag⟩ := Birth.mk.inj heq
  exact ⟨n, hn, hid.symm, hparent.symm, htag.symm⟩

lemma births_addNode (g : Graph) (parent : NodeId) (kind : NodeKind) :
    (g.addNode parent kind).2.births =
      g.births ++ [⟨g.nextNode, some (g.ownerFor parent), kind.tag⟩] := by
  have hadopt : (g.modifyKind (g.ownerFor parent) (·.adopt g.nextNode kind)).births = g.births := by
    apply births_congr
    intro id
    rw [node?_modifyKind]
    split
    · cases g.node? id <;> simp [Node.birth]
    · rfl
  rw [← hadopt]
  simp [births, addNode, Node.birth, ownerFor]

/-- A flow settles nothing about nodes. -/
lemma births_connect {source target : NodeId} {bounds : Rect} {origin : Point} {f : FlowId}
    {role : FlowRole} (h : g.connect source target bounds origin = some (f, role, g')) :
    g'.births = g.births := by
  obtain ⟨s, -, -, -, -, -, hnode⟩ := node?_connect h
  apply births_congr
  intro id
  rw [hnode]
  cases g.node? id <;> simp [Node.birth]

/-- A text settles nothing that was not settled before. -/
lemma births_writeText {target : NodeId} {text : String} {effect : WriteEffect}
    (h : g.writeText target text = some (effect, g')) : g'.births = g.births := by
  obtain ⟨t, -, -, -, hnode⟩ := node?_writeText h
  apply births_congr
  intro id
  rw [hnode]
  cases g.node? id with
  | none => rfl
  | some n =>
    simp only [Option.map_some]
    split <;> simp [Node.birth]

/-- The nodes of a tag that were drawn inside a node, in order. -/
def childIds (g : Graph) (id : NodeId) (t : NodeTag) : List NodeId :=
  (g.births.filter fun b => b.parent = some id ∧ b.tag = t).map (·.id)

/-- Whether a flow from one node to another leads into a body: from a scope to one of the
scopes and variables in it. -/
def leadsIn (g : Graph) (source target : NodeId) : Prop :=
  (g.births[source.index]?).map (·.tag) = some .scope ∧
    (target ∈ g.childIds source .scope ∨ target ∈ g.childIds source .var)

instance (g : Graph) (source target : NodeId) : Decidable (g.leadsIn source target) :=
  inferInstanceAs (Decidable (_ ∧ _))

lemma childIds_congr (h : g'.births = g.births) : g'.childIds = g.childIds := by
  funext id t
  rw [childIds, childIds, h]

lemma leadsIn_congr (h : g'.births = g.births) : g'.leadsIn = g.leadsIn := by
  funext source target
  rw [leadsIn, leadsIn, h, childIds_congr h]

lemma childIds_addNode (g : Graph) (parent : NodeId) (kind : NodeKind) (t : NodeTag) :
    (g.addNode parent kind).2.childIds id t =
      g.childIds id t ++
        if g.ownerFor parent = id ∧ kind.tag = t then [g.nextNode] else [] := by
  simp only [childIds, births_addNode, List.filter_append, List.map_append]
  congr 1
  by_cases h : g.ownerFor parent = id ∧ kind.tag = t <;> simp [h]

/-- A node that is drawn later does not change what leads into a body. -/
lemma leadsIn_addNode (g : Graph) (parent : NodeId) (kind : NodeKind) {source target : NodeId}
    (hs : g.contains source = true) (ht : g.contains target = true) :
    (g.addNode parent kind).2.leadsIn source target ↔ g.leadsIn source target := by
  have hne : target ≠ g.nextNode := ne_nextNode ht
  rw [contains_iff] at hs ht
  have hmem : ∀ t, target ∈ (g.addNode parent kind).2.childIds source t ↔
      target ∈ g.childIds source t := by
    intro t
    rw [childIds_addNode, List.mem_append]
    constructor
    · rintro (h | h)
      · exact h
      · split at h
        · exact absurd (List.mem_singleton.mp h) hne
        · cases h
    · exact Or.inl
  rw [leadsIn, leadsIn, hmem, hmem, births_addNode,
    List.getElem?_append_left (by rw [length_births]; exact hs)]

end Graph

/-! ## What the flows say about a node -/

namespace Flow

/-- The links of a node, told from the flows. -/
def linksOf (fs : List Flow) (id : NodeId) : Links where
  incoming := (fs.filter fun f => f.target = id).map (·.id)
  outgoing := (fs.filter fun f => f.source = id).map (·.id)
  branches := (fs.filter fun f => f.source = id ∧ f.role = .branch).map (·.id)
  next := (fs.filter fun f => f.source = id ∧ f.role = .continuation).getLast?.map (·.target)

/-- The start of a scope, told from the flows. -/
def startOf (fs : List Flow) (id : NodeId) : Option NodeId :=
  (fs.find? fun f => f.source = id ∧ f.role = .start).map (·.target)

/-- One more flow leaves its source and arrives at its target. -/
lemma linksOf_concat (fs : List Flow) (f : Flow) (id : NodeId) :
    linksOf (fs ++ [f]) id =
      let l := if f.source = id then (linksOf fs id).depart f.id f.target f.role
        else linksOf fs id
      if f.target = id then l.arrive f.id else l := by
  by_cases hs : f.source = id <;> by_cases ht : f.target = id <;> cases hr : f.role <;>
    simp [linksOf, Links.depart, Links.arrive, Links.leave, Links.continueTo, Links.branchOff,
      hs, ht, hr]

/-- One more flow sets a start only if there was none. -/
lemma startOf_concat (fs : List Flow) (f : Flow) (id : NodeId) :
    startOf (fs ++ [f]) id =
      if f.source = id ∧ f.role = .start then (startOf fs id).or (some f.target)
      else startOf fs id := by
  simp only [startOf, List.find?_append]
  generalize fs.find? (fun f => decide (f.source = id ∧ f.role = .start)) = first
  by_cases h : f.source = id ∧ f.role = .start <;> cases first <;> simp [h]

lemma startOf_eq_none_of_source {fs : List Flow} {id : NodeId} (h : ∀ f ∈ fs, f.source ≠ id) :
    startOf fs id = none := by
  rw [startOf, Option.map_eq_none_iff, List.find?_eq_none]
  intro f hf
  simp [h f hf]

lemma linksOf_eq_empty {fs : List Flow} {id : NodeId} (hs : ∀ f ∈ fs, f.source ≠ id)
    (ht : ∀ f ∈ fs, f.target ≠ id) : linksOf fs id = {} := by
  have hnil : ∀ p : Flow → Bool, (∀ f, p f = true → f.source = id ∨ f.target = id) →
      fs.filter p = [] := by
    intro p hp
    rw [List.filter_eq_nil_iff]
    intro f hf hpf
    rcases hp f hpf with h | h
    · exact hs f hf h
    · exact ht f hf h
  simp only [linksOf]
  rw [hnil _ fun f hf => .inr (by simpa using hf), hnil _ fun f hf => .inl (by simpa using hf),
    hnil _ fun f hf => .inl (by simp_all), hnil _ fun f hf => .inl (by simp_all)]
  rfl

end Flow

namespace Graph

variable {g : Graph}

lemma mem_flows_of_flow? {j : FlowId} {f : Flow} (h : g.flow? j = some f) :
    f ∈ g.flows.toList := by
  rw [flow?] at h
  exact Array.mem_toList_iff.mpr (Array.mem_of_getElem? h)

/-- The role that a flow has when the given flows were drawn before it. -/
def roleAfter (g : Graph) (earlier : List Flow) (f : Flow) : FlowRole :=
  if g.leadsIn f.source f.target then .start
  else if earlier.any fun e => e.target = f.source ∧ e.bounds.encloses f.origin then
    .continuation
  else .branch

/-- Every list that a node keeps, and the role of every flow, is the one that the arenas
tell. -/
structure Recorded (g : Graph) : Prop where
  node_id : ∀ id n, g.node? id = some n → n.id = id
  root : ∃ n, g.node? NodeId.root = some n ∧ n.parent = none ∧ n.kind.tag = .scope
  parent : ∀ id n, g.node? id = some n → id ≠ NodeId.root →
    ∃ p, n.parent = some p ∧ p.index < id.index
  owned : ∀ id n t, g.node? id = some n →
    n.kind.owned t = if n.kind.tag.lists t then g.childIds id t else []
  links : ∀ id n, g.node? id = some n → n.kind.links = Flow.linksOf g.flows.toList id
  start : ∀ id n, g.node? id = some n → n.kind.start? = Flow.startOf g.flows.toList id
  flow_id : ∀ j f, g.flow? j = some f → f.id = j
  ends : ∀ f ∈ g.flows.toList, g.contains f.source = true ∧ g.contains f.target = true
  role : ∀ j f, g.flow? j = some f → f.role = g.roleAfter (g.flows.toList.take j.index) f

lemma recorded_empty : Recorded empty := by
  have hnode : ∀ id n, empty.node? id = some n → id = NodeId.root ∧
      n = ⟨NodeId.root, none, .scope {}⟩ := by
    rintro ⟨i⟩ n h
    cases i with
    | zero => exact ⟨rfl, (Option.some.inj h).symm⟩
    | succ i => cases h
  have hflow : ∀ j, empty.flow? j = none := fun _ => rfl
  constructor
  case node_id =>
    intro id n h
    obtain ⟨rfl, rfl⟩ := hnode id n h
    rfl
  case root => exact ⟨_, rfl, rfl, rfl⟩
  case parent =>
    intro id n h hid
    exact absurd (hnode id n h).1 hid
  case owned =>
    intro id n t h
    obtain ⟨rfl, rfl⟩ := hnode id n h
    cases t <;> rfl
  case links =>
    intro id n h
    obtain ⟨rfl, rfl⟩ := hnode id n h
    rfl
  case start =>
    intro id n h
    obtain ⟨rfl, rfl⟩ := hnode id n h
    rfl
  case flow_id =>
    intro j f h
    rw [hflow] at h
    cases h
  case ends =>
    intro f hf
    cases hf
  case role =>
    intro j f h
    rw [hflow] at h
    cases h

namespace Recorded

/-- The root is a scope. -/
lemma exists_root (hg : g.Recorded) : ∃ n s, g.node? NodeId.root = some n ∧ n.kind = .scope s := by
  obtain ⟨n, hn, -, htag⟩ := hg.root
  cases hk : n.kind with
  | scope s => exact ⟨n, s, hn, hk⟩
  | var v =>
    rw [hk] at htag
    cases htag
  | symbol k =>
    rw [hk] at htag
    cases htag

/-- The flows of a list of numbers that some flows have are these flows. -/
lemma flowsOf_map_id (hg : g.Recorded) {fs : List Flow} (h : ∀ f ∈ fs, f ∈ g.flows.toList) :
    g.flowsOf (fs.map (·.id)) = fs := by
  have hfind : ∀ f ∈ fs, g.flow? f.id = some f := by
    intro f hf
    obtain ⟨j, hj, rfl⟩ := List.mem_iff_getElem.mp (h f hf)
    have hflow : g.flow? ⟨j⟩ = some g.flows.toList[j] := by
      simp only [Array.length_toList] at hj
      simp [flow?, hj]
    rw [hg.flow_id _ _ hflow, hflow]
  rw [flowsOf, List.filterMap_map]
  clear h
  induction fs with
  | nil => rfl
  | cons f fs ih =>
    rw [List.filterMap_cons_some (by exact hfind f (by simp)), ih fun e he => hfind e (by simp [he])]

/-- The flows that arrive at a node are those of which it is the target. -/
lemma flowsOf_incoming (hg : g.Recorded) {id : NodeId} {n : Node} (h : g.node? id = some n) :
    g.flowsOf n.links.incoming = g.flows.toList.filter fun f => f.target = id := by
  rw [Node.links, hg.links id n h]
  exact hg.flowsOf_map_id fun f hf => (List.mem_filter.mp hf).1

/-- The children that a node notes are those to which a flow leads into the body. -/
lemma hasChild_iff (hg : g.Recorded) {id target : NodeId} {n : Node} (h : g.node? id = some n) :
    n.kind.hasChild target = true ↔ g.leadsIn id target := by
  have hscope := hg.owned id n .scope h
  have hvar := hg.owned id n .var h
  have htag : (g.births[id.index]?).map (·.tag) = some n.kind.tag := by
    rw [getElem?_births, h]
    rfl
  rw [leadsIn, htag]
  cases hk : n.kind with
  | scope s =>
    rw [hk] at hscope hvar
    simp only [NodeKind.owned, NodeKind.tag, NodeTag.lists, if_true] at hscope hvar
    simp [NodeKind.hasChild, Scope.hasChild, NodeKind.tag, hscope, hvar]
  | var v => simp [NodeKind.hasChild, NodeKind.tag]
  | symbol y => simp [NodeKind.hasChild, NodeKind.tag]

/-- A node is drawn inside an older one. -/
lemma parent_lt (hg : g.Recorded) {id p : NodeId} {n : Node} (h : g.node? id = some n)
    (hp : n.parent = some p) : p.index < id.index := by
  by_cases hr : id = NodeId.root
  · obtain ⟨r, hroot, hnone, -⟩ := hg.root
    rw [hr, hroot] at h
    rw [← Option.some.inj h, hnone] at hp
    cases hp
  · obtain ⟨q, hq, hlt⟩ := hg.parent id n h hr
    rw [hq] at hp
    rwa [← Option.some.inj hp]

lemma mem_childIds (hg : g.Recorded) {id c : NodeId} {t : NodeTag} :
    c ∈ g.childIds id t ↔ ∃ n, g.node? c = some n ∧ n.parent = some id ∧ n.kind.tag = t := by
  simp only [childIds, List.mem_map, List.mem_filter, decide_eq_true_eq]
  constructor
  · rintro ⟨b, ⟨hb, hp, ht⟩, rfl⟩
    obtain ⟨i, hi⟩ := List.mem_iff_getElem?.mp hb
    rw [getElem?_births] at hi
    obtain ⟨n, hn, rfl⟩ := Option.map_eq_some_iff.mp hi
    have hid : n.birth.id = ⟨i⟩ := hg.node_id _ n hn
    exact ⟨n, hid ▸ hn, hp, ht⟩
  · rintro ⟨n, hn, hp, ht⟩
    have hb : g.births[c.index]? = some n.birth := by
      rw [getElem?_births, hn]
      rfl
    exact ⟨n.birth, ⟨List.mem_of_getElem? hb, hp, ht⟩, hg.node_id c n hn⟩

/-- What is told by the births alone does not change if they do not. -/
lemma nodes_of_births_eq (hg : g.Recorded) {g' : Graph} (h : g'.births = g.births) :
    (∀ id n, g'.node? id = some n → n.id = id) ∧
    (∃ n, g'.node? NodeId.root = some n ∧ n.parent = none ∧ n.kind.tag = .scope) ∧
    ∀ id n, g'.node? id = some n → id ≠ NodeId.root →
      ∃ p, n.parent = some p ∧ p.index < id.index := by
  refine ⟨fun id n' hn' => ?_, ?_, fun id n' hn' hid => ?_⟩
  · obtain ⟨n, hn, hsame, -⟩ := exists_node?_of_births_eq h hn'
    rw [hsame, hg.node_id id n hn]
  · obtain ⟨n, hn, hp, ht⟩ := hg.root
    obtain ⟨n', hn', -, hparent, htag⟩ := exists_node?_of_births_eq h.symm hn
    exact ⟨n', hn', hparent.symm.trans hp, htag.symm.trans ht⟩
  · obtain ⟨n, hn, -, hparent, -⟩ := exists_node?_of_births_eq h hn'
    rw [hparent]
    exact hg.parent id n hn hid

/-- A node is drawn inside a node of the graph. -/
lemma contains_ownerFor (hg : g.Recorded) (parent : NodeId) :
    g.contains (g.ownerFor parent) = true := by
  rw [ownerFor]
  split
  · assumption
  · obtain ⟨n, hn, -⟩ := hg.root
    exact contains_of_node? hn

/-- No node was drawn inside a node that did not exist. -/
lemma childIds_nextNode (hg : g.Recorded) (t : NodeTag) : g.childIds g.nextNode t = [] := by
  rw [List.eq_nil_iff_forall_not_mem]
  intro c hc
  obtain ⟨m, hm, hp, -⟩ := hg.mem_childIds.mp hc
  have hlt := contains_iff.mp (contains_of_node? hm)
  have hgt := hg.parent_lt hm hp
  exact absurd hgt (Nat.lt_asymm hlt)

/-- A new node has no flows yet, and its owner lists it as every other node of its tag. -/
lemma addNode (hg : g.Recorded) (parent : NodeId) (new : BlankKind) :
    (g.addNode parent new.kind).2.Recorded := by
  have hown := hg.contains_ownerFor parent
  have hold : ∀ id n, (g.addNode parent new.kind).2.node? id = some n →
      (id = g.nextNode ∧ n = ⟨id, some (g.ownerFor parent), new.kind⟩) ∨
      ∃ m, g.node? id = some m ∧ id ≠ g.nextNode ∧ n = if g.ownerFor parent = id then
        { m with kind := m.kind.adopt g.nextNode new.kind } else m := by
    intro id n h
    rw [node?_addNode] at h
    split at h
    · rename_i hid
      exact .inl ⟨hid, (Option.some.inj h).symm⟩
    · rename_i hid
      obtain ⟨m, hm, rfl⟩ := Option.map_eq_some_iff.mp h
      exact .inr ⟨m, hm, hid, rfl⟩
  constructor
  case node_id =>
    intro id n h
    obtain ⟨-, rfl⟩ | ⟨m, hm, -, rfl⟩ := hold id n h
    · rfl
    · split <;> exact hg.node_id id m hm
  case root =>
    obtain ⟨n, hn, hp, ht⟩ := hg.root
    rw [node?_addNode, if_neg (ne_nextNode (contains_of_node? hn)), hn]
    refine ⟨_, rfl, ?_⟩
    dsimp only
    split <;> simp [hp, ht]
  case parent =>
    intro id n h hid
    obtain ⟨rfl, rfl⟩ | ⟨m, hm, -, rfl⟩ := hold id n h
    · exact ⟨_, rfl, contains_iff.mp hown⟩
    · split <;> exact hg.parent id m hm hid
  case owned =>
    intro id n u h
    rw [childIds_addNode]
    obtain ⟨rfl, rfl⟩ | ⟨m, hm, hne, rfl⟩ := hold id n h
    · rw [new.owned_eq, hg.childIds_nextNode, if_neg (c := _ ∧ _) fun h => ne_nextNode hown h.1]
      simp
    · have hm' := hg.owned id m u hm
      split
      · rename_i ho
        rw [NodeKind.owned_adopt, NodeKind.tag_adopt, hm']
        split <;> simp_all
      · rename_i ho
        simp [ho, hm']
  case links =>
    intro id n h
    rw [flows_addNode]
    obtain ⟨rfl, rfl⟩ | ⟨m, hm, -, rfl⟩ := hold id n h
    · rw [new.links_eq, Flow.linksOf_eq_empty]
      · exact fun f hf => ne_nextNode (hg.ends f hf).1
      · exact fun f hf => ne_nextNode (hg.ends f hf).2
    · split
      · exact (NodeKind.links_adopt _ _ _).trans (hg.links id m hm)
      · exact hg.links id m hm
  case start =>
    intro id n h
    rw [flows_addNode]
    obtain ⟨rfl, rfl⟩ | ⟨m, hm, -, rfl⟩ := hold id n h
    · rw [new.start?_eq, Flow.startOf_eq_none_of_source]
      exact fun f hf => ne_nextNode (hg.ends f hf).1
    · split
      · exact (NodeKind.start?_adopt _ _ _).trans (hg.start id m hm)
      · exact hg.start id m hm
  case flow_id => exact hg.flow_id
  case ends =>
    intro f hf
    have hlt := hg.ends f hf
    simp only [contains_iff, size_addNode] at hlt ⊢
    omega
  case role =>
    intro j f h
    have hends := hg.ends f (mem_flows_of_flow? (g := g) h)
    rw [hg.role j f h]
    exact if_congr (leadsIn_addNode g parent new.kind hends.1 hends.2).symm rfl rfl

/-- A flow is added to the arena and to the links of its ends, with the role that the flows
before it and the children of its source give it. -/
lemma connect (hg : g.Recorded) {g' : Graph} {source target : NodeId} {bounds : Rect}
    {origin : Point} {i : FlowId} {role : FlowRole}
    (h : g.connect source target bounds origin = some (i, role, g')) : g'.Recorded := by
  obtain ⟨s, hs, ht, rfl, hrole, hflows, hnode⟩ := node?_connect h
  have hlist : g'.flows.toList =
      g.flows.toList ++ [⟨g.nextFlow, source, target, bounds, origin, role⟩] := by
    rw [hflows, Array.toList_push]
  have hold : ∀ id n', g'.node? id = some n' → ∃ n, g.node? id = some n ∧ n' = { n with
      kind := n.kind.join g.nextFlow target (g.drawnOn s origin) source id } := by
    intro id n' h'
    rw [hnode] at h'
    obtain ⟨n, hn, rfl⟩ := Option.map_eq_some_iff.mp h'
    exact ⟨n, hn, rfl⟩
  have hrole' : ∀ id n, g.node? id = some n → source = id →
      (n.kind.send g.nextFlow target (g.drawnOn s origin)).1 = role := by
    rintro id n hn rfl
    rw [hrole, Option.some.inj (hs.symm.trans hn)]
  have hbirths : g'.births = g.births := births_connect h
  obtain ⟨hnode_id, hroot, hparent⟩ := hg.nodes_of_births_eq hbirths
  constructor
  case node_id => exact hnode_id
  case root => exact hroot
  case parent => exact hparent
  case owned =>
    intro id n' t h'
    obtain ⟨n, hn, rfl⟩ := hold id n' h'
    rw [childIds_congr hbirths, NodeKind.owned_join, NodeKind.tag_join]
    exact hg.owned id n t hn
  case links =>
    intro id n' h'
    obtain ⟨n, hn, rfl⟩ := hold id n' h'
    rw [hlist, Flow.linksOf_concat, ← hg.links id n hn, NodeKind.links_join]
    by_cases hid : source = id
    · simp only [hid, hrole' id n hn hid, if_true]
    · simp only [hid, if_false]
  case start =>
    intro id n' h'
    obtain ⟨n, hn, rfl⟩ := hold id n' h'
    rw [hlist, Flow.startOf_concat, ← hg.start id n hn, NodeKind.start?_join]
    by_cases hid : source = id
    · simp only [hid, hrole' id n hn hid, true_and]
    · simp only [hid, false_and, if_false]
  case flow_id =>
    intro j f hj
    rw [flow?, hflows, Array.getElem?_push] at hj
    split at hj
    · rename_i hj'
      cases hj
      exact congrArg FlowId.mk hj'.symm
    · exact hg.flow_id j f hj
  case ends =>
    intro f hf
    rw [contains_of_births_eq hbirths, contains_of_births_eq hbirths]
    rw [hlist, List.mem_append, List.mem_singleton] at hf
    rcases hf with hf | rfl
    · exact hg.ends f hf
    · exact ⟨contains_of_node? hs, ht⟩
  case role =>
    intro j f hj
    have hafter : g'.roleAfter = g.roleAfter := by
      funext earlier f
      exact if_congr (by rw [leadsIn_congr hbirths]) rfl rfl
    rw [hafter, hlist]
    rw [flow?, hflows, Array.getElem?_push] at hj
    split at hj
    · -- the new flow: its role is chosen by the lists that its source has at this moment
      rename_i hj'
      cases hj
      rw [hj', ← Array.length_toList, List.take_left, roleAfter, hrole, NodeKind.fst_send]
      refine if_congr (hg.hasChild_iff hs) rfl (if_congr ?_ rfl rfl)
      rw [drawnOn, hg.flowsOf_incoming hs]
      simp
    · have hlt : j.index ≤ g.flows.toList.length := by
        have := (Array.getElem?_eq_some_iff.mp hj).1
        simpa using Nat.le_of_lt this
      rw [List.take_append_of_le_length hlt]
      exact hg.role j f hj

/-- A text leaves everything that the arenas tell as it is. -/
lemma writeText (hg : g.Recorded) {g' : Graph} {target : NodeId} {text : String}
    {effect : WriteEffect} (h : g.writeText target text = some (effect, g')) : g'.Recorded := by
  obtain ⟨t, -, -, hflows, hnode⟩ := node?_writeText h
  have hold : ∀ id n', g'.node? id = some n' → ∃ n, g.node? id = some n ∧
      n'.kind.tag = n.kind.tag ∧ n'.kind.links = n.kind.links ∧
      n'.kind.start? = n.kind.start? ∧ ∀ u, n'.kind.owned u = n.kind.owned u := by
    intro id n' h'
    rw [hnode] at h'
    obtain ⟨n, hn, rfl⟩ := Option.map_eq_some_iff.mp h'
    refine ⟨n, hn, ?_⟩
    split <;> simp
  have hbirths : g'.births = g.births := births_writeText h
  obtain ⟨hnode_id, hroot, hparent⟩ := hg.nodes_of_births_eq hbirths
  constructor
  case node_id => exact hnode_id
  case root => exact hroot
  case parent => exact hparent
  case owned =>
    intro id n' u h'
    obtain ⟨n, hn, ht, -, -, ho⟩ := hold id n' h'
    rw [ho, ht, childIds_congr hbirths]
    exact hg.owned id n u hn
  case links =>
    intro id n' h'
    obtain ⟨n, hn, -, hl, -⟩ := hold id n' h'
    rw [hl, hflows, hg.links id n hn]
  case start =>
    intro id n' h'
    obtain ⟨n, hn, -, -, hs, -⟩ := hold id n' h'
    rw [hs, hflows, hg.start id n hn]
  case flow_id =>
    intro j f hj
    rw [flow?, hflows] at hj
    exact hg.flow_id j f hj
  case ends =>
    intro f hf
    rw [contains_of_births_eq hbirths, contains_of_births_eq hbirths]
    rw [hflows] at hf
    exact hg.ends f hf
  case role =>
    intro j f hj
    rw [flow?, hflows] at hj
    rw [hflows, hg.role j f hj]
    exact if_congr (by rw [leadsIn_congr hbirths]) rfl rfl

/-- Every edit keeps the record. -/
lemma edit (hg : g.Recorded) (e : Edit) : (g.edit e).Recorded := by
  cases e with
  | addNode parent new => exact hg.addNode parent new
  | connect source target bounds origin =>
    rw [Graph.edit]
    cases h : g.connect source target bounds origin with
    | none => exact hg
    | some r => exact hg.connect h
  | writeText id text =>
    rw [Graph.edit]
    cases h : g.writeText id text with
    | none => exact hg
    | some r => exact hg.writeText h

end Recorded

/-- The arenas tell everything about a drawn graph. -/
theorem recorded_drawn (edits : List Edit) : (drawn edits).Recorded :=
  drawn_induction recorded_empty (fun _ e hg => hg.edit e) edits

/-! ## Consistent graphs -/

/-- A list holds the numbers of the nodes with a property, each once and in ascending
order. -/
def ListsNodes (g : Graph) (ids : List NodeId) (p : Node → Prop) : Prop :=
  ids.Pairwise (·.index < ·.index) ∧ ∀ id, id ∈ ids ↔ ∃ n, g.node? id = some n ∧ p n

/-- A list holds the numbers of the flows with a property, each once and in ascending
order. -/
def ListsFlows (g : Graph) (ids : List FlowId) (p : Flow → Prop) : Prop :=
  ids.Pairwise (·.index < ·.index) ∧ ∀ j, j ∈ ids ↔ ∃ f, g.flow? j = some f ∧ p f

/-- A flow leads from a scope to a scope or a variable that was drawn in it. -/
def EntersBody (g : Graph) (f : Flow) : Prop :=
  ∃ s t, g.node? f.source = some s ∧ s.kind.tag = .scope ∧ g.node? f.target = some t ∧
    t.parent = some f.source ∧ (t.kind.tag = .scope ∨ t.kind.tag = .var)

/-- A flow begins strictly inside the marker of an earlier flow that arrives at its source. -/
def DrawnOn (g : Graph) (f : Flow) : Prop :=
  ∃ e ∈ g.flows.toList, e.id.index < f.id.index ∧ e.target = f.source ∧
    e.bounds.encloses f.origin = true

/-- A graph whose notes agree with its nodes and flows. -/
structure Consistent (g : Graph) : Prop where
  /-- Every node has the number of its place. -/
  node_id : ∀ id n, g.node? id = some n → n.id = id
  /-- The first node is a scope. -/
  root : ∃ n, g.node? NodeId.root = some n ∧ n.kind.tag = .scope
  /-- Only the first node has no parent. -/
  orphan : ∀ id n, g.node? id = some n → (n.parent = none ↔ id = NodeId.root)
  /-- A parent is an older node. -/
  parent : ∀ id n p, g.node? id = some n → n.parent = some p → p.index < id.index
  /-- A scope lists the nodes drawn in it by their kinds. -/
  scope : ∀ id n s, g.node? id = some n → n.kind = .scope s →
    (g.ListsNodes s.scopes fun c => c.parent = some id ∧ c.kind.tag = .scope) ∧
    (g.ListsNodes s.vars fun c => c.parent = some id ∧ c.kind.tag = .var) ∧
    g.ListsNodes s.symbols fun c => c.parent = some id ∧ c.kind.tag = .symbol
  /-- A variable lists the variables drawn in it. -/
  var : ∀ id n v, g.node? id = some n → n.kind = .var v →
    g.ListsNodes v.members fun c => c.parent = some id ∧ c.kind.tag = .var
  /-- Every flow has the number of its place. -/
  flow_id : ∀ j f, g.flow? j = some f → f.id = j
  /-- Both ends of a flow exist. -/
  ends : ∀ j f, g.flow? j = some f → g.contains f.source = true ∧ g.contains f.target = true
  /-- A node lists the flows that arrive at it, those that leave it, and the branches of
  these. -/
  links : ∀ id n, g.node? id = some n →
    (g.ListsFlows n.links.incoming fun f => f.target = id) ∧
    (g.ListsFlows n.links.outgoing fun f => f.source = id) ∧
    g.ListsFlows n.links.branches fun f => f.source = id ∧ f.role = .branch
  /-- A node goes on to the target of its latest continuation. -/
  next : ∀ id n, g.node? id = some n → n.links.next =
    (g.flows.toList.filter fun f => f.source = id ∧ f.role = .continuation).getLast?.map (·.target)
  /-- The body of a scope begins at the target of its earliest flow into the body. -/
  start : ∀ id n s, g.node? id = some n → n.kind = .scope s → s.start =
    (g.flows.toList.find? fun f => f.source = id ∧ f.role = .start).map (·.target)
  /-- The role of every flow can be told afterwards. -/
  role : ∀ j f, g.flow? j = some f →
    (f.role = .start ↔ g.EntersBody f) ∧
    (f.role = .continuation ↔ ¬ g.EntersBody f ∧ g.DrawnOn f) ∧
    (f.role = .branch ↔ ¬ g.EntersBody f ∧ ¬ g.DrawnOn f)

namespace Recorded

lemma births_ids (hg : g.Recorded) : g.births.map (·.id) = (List.range g.nodes.size).map NodeId.mk := by
  apply List.ext_getElem?
  intro i
  rw [List.getElem?_map, getElem?_births, List.getElem?_map]
  by_cases hi : i < g.nodes.size
  · have hn : g.node? ⟨i⟩ = some g.nodes[i] := Array.getElem?_eq_getElem hi
    rw [List.getElem?_range hi, hn]
    exact congrArg some (hg.node_id _ _ hn)
  · rw [List.getElem?_eq_none (by simpa using hi), node?_eq_none_iff.mpr]
    · rfl
    · rw [← Bool.not_eq_true, contains_iff]
      exact hi

lemma flows_ids (hg : g.Recorded) :
    g.flows.toList.map (·.id) = (List.range g.flows.size).map FlowId.mk := by
  apply List.ext_getElem?
  intro j
  rw [List.getElem?_map, List.getElem?_map, Array.getElem?_toList]
  by_cases hj : j < g.flows.size
  · have hf : g.flow? ⟨j⟩ = some g.flows[j] := Array.getElem?_eq_getElem hj
    rw [List.getElem?_range hj, Array.getElem?_eq_getElem hj]
    exact congrArg some (hg.flow_id _ _ hf)
  · rw [List.getElem?_eq_none (by simpa using hj), Array.getElem?_eq_none (by simpa using hj)]
    rfl

/-- The children of a node are listed in ascending order. -/
lemma listsNodes_childIds (hg : g.Recorded) (id : NodeId) (t : NodeTag) :
    g.ListsNodes (g.childIds id t) fun c => c.parent = some id ∧ c.kind.tag = t := by
  refine ⟨?_, fun c => hg.mem_childIds⟩
  have hall : (g.births.map (·.id)).Pairwise (·.index < ·.index) := by
    rw [hg.births_ids, List.pairwise_map]
    exact List.pairwise_lt_range
  exact hall.sublist (List.filter_sublist.map _)

/-- Flows that are chosen by a property are listed in ascending order. -/
lemma listsFlows_filter (hg : g.Recorded) (p : Flow → Prop) [DecidablePred p] :
    g.ListsFlows ((g.flows.toList.filter fun f => p f).map (·.id)) p := by
  have hall : (g.flows.toList.map (·.id)).Pairwise (·.index < ·.index) := by
    rw [hg.flows_ids, List.pairwise_map]
    exact List.pairwise_lt_range
  refine ⟨hall.sublist (List.filter_sublist.map _), fun j => ?_⟩
  simp only [List.mem_map, List.mem_filter, decide_eq_true_eq]
  constructor
  · rintro ⟨f, ⟨hf, hp⟩, rfl⟩
    obtain ⟨i, hi⟩ := Array.mem_iff_getElem?.mp (Array.mem_toList_iff.mp hf)
    have hfi : g.flow? ⟨i⟩ = some f := hi
    exact ⟨f, by rw [hg.flow_id _ f hfi, hfi], hp⟩
  · rintro ⟨f, hf, hp⟩
    exact ⟨f, ⟨mem_flows_of_flow? hf, hp⟩, hg.flow_id j f hf⟩

lemma leadsIn_iff_entersBody (hg : g.Recorded) (f : Flow) :
    g.leadsIn f.source f.target ↔ g.EntersBody f := by
  rw [leadsIn, getElem?_births, hg.mem_childIds, hg.mem_childIds]
  constructor
  · rintro ⟨hs, ht⟩
    obtain ⟨b, hb, hscope⟩ := Option.map_eq_some_iff.mp hs
    obtain ⟨s, hs, rfl⟩ := Option.map_eq_some_iff.mp hb
    rcases ht with ⟨t, ht, hp, htag⟩ | ⟨t, ht, hp, htag⟩
    · exact ⟨s, t, hs, hscope, ht, hp, .inl htag⟩
    · exact ⟨s, t, hs, hscope, ht, hp, .inr htag⟩
  · rintro ⟨s, t, hs, hscope, ht, hp, htag⟩
    refine ⟨?_, htag.imp (fun h => ⟨t, ht, hp, h⟩) fun h => ⟨t, ht, hp, h⟩⟩
    have hs' : g.node? ⟨f.source.index⟩ = some s := hs
    rw [hs']
    exact congrArg some hscope

/-- The flows that were drawn before a flow are those with smaller numbers. -/
lemma any_take_iff_drawnOn (hg : g.Recorded) {j : FlowId} {f : Flow} (h : g.flow? j = some f) :
    ((g.flows.toList.take j.index).any fun e => e.target = f.source ∧ e.bounds.encloses f.origin)
      = true ↔ g.DrawnOn f := by
  have hid : ∀ (i : ℕ) (e : Flow), g.flows.toList[i]? = some e → e.id = ⟨i⟩ := by
    intro i e he
    apply hg.flow_id ⟨i⟩ e
    rw [flow?, ← Array.getElem?_toList]
    exact he
  rw [List.any_eq_true]
  constructor
  · rintro ⟨e, he, hp⟩
    obtain ⟨i, hi⟩ := List.mem_iff_getElem?.mp he
    rw [List.getElem?_take] at hi
    split at hi
    · rename_i hlt
      refine ⟨e, List.mem_of_getElem? hi, ?_, by simpa using hp⟩
      rw [hid i e hi, hg.flow_id j f h]
      exact hlt
    · cases hi
  · rintro ⟨e, he, hlt, hp⟩
    obtain ⟨i, hi⟩ := List.mem_iff_getElem?.mp he
    rw [hid i e hi, hg.flow_id j f h] at hlt
    refine ⟨e, List.mem_of_getElem? (i := i) ?_, by simpa using hp⟩
    rw [List.getElem?_take, if_pos hlt]
    exact hi

lemma consistent (hg : g.Recorded) : g.Consistent := by
  constructor
  case node_id => exact hg.node_id
  case root =>
    obtain ⟨n, hn, -, ht⟩ := hg.root
    exact ⟨n, hn, ht⟩
  case orphan =>
    intro id n h
    constructor
    · intro hnone
      by_contra hid
      obtain ⟨p, hp, -⟩ := hg.parent id n h hid
      rw [hnone] at hp
      cases hp
    · rintro rfl
      obtain ⟨r, hr, hnone, -⟩ := hg.root
      rwa [Option.some.inj (h.symm.trans hr)]
  case parent => exact fun id n p h hp => hg.parent_lt h hp
  case scope =>
    intro id n s h hk
    have howned : ∀ t, n.kind.owned t = g.childIds id t := by
      intro t
      rw [hg.owned id n t h, hk]
      rfl
    rw [hk] at howned
    have hscopes : s.scopes = g.childIds id .scope := howned .scope
    have hvars : s.vars = g.childIds id .var := howned .var
    have hsymbols : s.symbols = g.childIds id .symbol := howned .symbol
    rw [hscopes, hvars, hsymbols]
    exact ⟨hg.listsNodes_childIds id .scope, hg.listsNodes_childIds id .var,
      hg.listsNodes_childIds id .symbol⟩
  case var =>
    intro id n v h hk
    have howned := hg.owned id n .var h
    rw [hk] at howned
    have hmembers : v.members = g.childIds id .var := howned
    rw [hmembers]
    exact hg.listsNodes_childIds id .var
  case flow_id => exact hg.flow_id
  case ends => exact fun j f h => hg.ends f (mem_flows_of_flow? h)
  case links =>
    intro id n h
    rw [Node.links, hg.links id n h]
    exact ⟨hg.listsFlows_filter _, hg.listsFlows_filter _, hg.listsFlows_filter _⟩
  case next =>
    intro id n h
    rw [Node.links, hg.links id n h]
    rfl
  case start =>
    intro id n s h hk
    have hstart := hg.start id n h
    rwa [hk] at hstart
  case role =>
    intro j f h
    have hon := hg.any_take_iff_drawnOn h
    rw [hg.role j f h, roleAfter, ← hg.leadsIn_iff_entersBody f, ← hon]
    clear hon
    generalize List.any _ _ = on
    by_cases hin : g.leadsIn f.source f.target <;> cases on <;> simp [hin]

end Recorded

/-- **Every graph that comes about by edits is consistent.** -/
theorem consistent_drawn (edits : List Edit) : (drawn edits).Consistent :=
  (recorded_drawn edits).consistent

end Graph

end FlowSketch
