/-
# Unconnected nodes

A node that no flow touches is not part of the program.  When it is drawn, only its owner changes,
and of the owner only a list of what is inside.  The compiler looks at two such lists: the members
of a composed variable, and the symbols of the root if the root does not say where to begin.  The
first gets longer only when a variable is drawn inside a variable; the second may get longer, but
the new symbol is no input.

Everything else that the compiler comes to lies at an end of a flow, so it is a node that was there
before: the old nodes are closed under all that the compiler asks.

Main statement: `compile_addNode`.
-/
import Mathlib.Data.List.Find
import FlowSketch.Proofs.Compile.Agreement

namespace FlowSketch

open List (Forall₂)

/-- Functions that agree on related items give the same results for related lists. -/
lemma mapM_eq_of_forall₂ {ε α β γ : Type} {f : α → Except ε γ} {f' : β → Except ε γ} {as : List α}
    {bs : List β} (h : Forall₂ (fun a b => f a = f' b) as bs) : as.mapM f = bs.mapM f' := by
  induction h with
  | nil => rfl
  | cons hab _ ih => rw [List.mapM_cons, List.mapM_cons, hab, ih]

namespace Graph

variable {g h : Graph} {id a : NodeId} {n n' : Node}

lemma contains_of_isVariable (hid : g.isVariable id = true) : g.contains id = true := by
  rw [isVariable] at hid
  rw [← isSome_node?]
  cases hn : g.node? id with
  | none =>
    rw [hn] at hid
    cases hid
  | some m => rfl

/-! ## The nodes that the compiler comes to -/

namespace Recorded

variable (hg : g.Recorded)
include hg

/-- Both ends of a flow are nodes of the graph. -/
lemma ends_of_mem_flowsOf {ids : List FlowId} {f : Flow} (hf : f ∈ g.flowsOf ids) :
    g.contains f.source = true ∧ g.contains f.target = true := by
  obtain ⟨i, -, hi⟩ := List.mem_filterMap.mp hf
  exact hg.ends f (mem_flows_of_flow? hi)

lemma contains_of_firstBranch? {l : Links} (ha : g.firstBranch? l = some a) :
    g.contains a = true := by
  obtain ⟨f, hf, rfl⟩ := Option.map_eq_some_iff.mp ha
  exact (hg.ends_of_mem_flowsOf (List.mem_of_head? hf)).2

lemma contains_of_links_next (hn : g.node? id = some n) (ha : n.links.next = some a) :
    g.contains a = true := by
  rw [Node.links, hg.links id n hn] at ha
  obtain ⟨f, hf, rfl⟩ := Option.map_eq_some_iff.mp ha
  exact (hg.ends f (List.mem_filter.mp (List.mem_of_getLast? hf)).1).2

/-- What comes after a node is a node of the graph. -/
lemma contains_of_next? (hn : g.node? id = some n) (ha : g.next? n = some a) :
    g.contains a = true := by
  unfold next? at ha
  split at ha
  · rename_i b hnext
    cases ha
    exact hg.contains_of_links_next hn hnext
  · split at ha
    · split at ha
      · exact hg.contains_of_firstBranch? ha
      · cases ha
    · cases ha

lemma contains_of_start {s : Scope} (hn : g.node? id = some n) (hk : n.kind = .scope s)
    (ha : s.start = some a) : g.contains a = true := by
  have hstart := hg.start id n hn
  rw [hk, NodeKind.start?, ha] at hstart
  obtain ⟨f, hf, rfl⟩ := Option.map_eq_some_iff.mp hstart.symm
  exact (hg.ends f (List.mem_of_find?_eq_some hf)).2

lemma contains_of_mem_symbols {s : Scope} (hn : g.node? id = some n) (hk : n.kind = .scope s)
    (ha : a ∈ s.symbols) : g.contains a = true := by
  have howned := hg.owned id n .symbol hn
  rw [hk] at howned
  rw [show s.symbols = g.childIds id .symbol from howned] at ha
  obtain ⟨m, hm, -⟩ := hg.mem_childIds.mp ha
  exact contains_of_node? hm

/-- A body begins at a node of the graph. -/
lemma contains_of_entry? {s : Scope} (hn : g.node? id = some n) (hk : n.kind = .scope s)
    (ha : g.entry? id s = some a) : g.contains a = true := by
  unfold entry? at ha
  rw [Option.or_eq_some_iff] at ha
  rcases ha with ha | ⟨-, ha⟩
  · exact hg.contains_of_start hn hk ha
  · split at ha
    · exact hg.contains_of_mem_symbols hn hk (List.mem_of_find?_eq_some ha)
    · cases ha

end Recorded

end Graph

/-! ## More nodes -/

/-- A node in which symbols may have been drawn besides, none of them in the graph. -/
structure Node.Fills (g : Graph) (n n' : Node) : Prop where
  id_eq : n'.id = n.id
  alike : n.kind.Alike n'.kind
  symbols : ∃ more, n'.kind.owned .symbol = n.kind.owned .symbol ++ more ∧
    ∀ a ∈ more, g.contains a = false

namespace Graph

/-- A graph with nodes more, none of which is touched by a flow, a function or an input. -/
structure Extends (g h : Graph) : Prop where
  flows : h.flows = g.flows
  size : g.nodes.size ≤ h.nodes.size
  old : ∀ id n, g.node? id = some n → ∃ n', h.node? id = some n' ∧ n.Fills g n'
  new : ∀ id n, h.node? id = some n → g.contains id = false →
    (∀ s, n.kind = .scope s → s.isRoutine n.id = false) ∧
    ∀ k, n.kind = .symbol k → k.effective ≠ .input

variable {g h : Graph}

namespace Extends

variable (he : Extends g h) (hg : g.Recorded)
include he

lemma flowsOf (ids : List FlowId) : h.flowsOf ids = g.flowsOf ids := by
  have hflow : h.flow? = g.flow? := funext fun i => by rw [flow?, flow?, he.flows]
  rw [Graph.flowsOf, Graph.flowsOf, hflow]

lemma exists_node? {id : NodeId} (hid : g.contains id = true) :
    ∃ n n', g.node? id = some n ∧ h.node? id = some n' ∧ n.kind.Alike n'.kind := by
  obtain ⟨n, hn⟩ := Option.isSome_iff_exists.mp (isSome_node?.trans hid)
  obtain ⟨n', hn', hfills⟩ := he.old id n hn
  exact ⟨n, n', hn, hn', hfills.alike⟩

include hg

lemma variableFlows (l : Links) : h.variableFlows l = g.variableFlows l := by
  rw [Graph.variableFlows, Graph.variableFlows, he.flowsOf]
  refine List.filter_congr fun f hf => ?_
  obtain ⟨n, n', hn, hn', hk⟩ := he.exists_node? (hg.ends_of_mem_flowsOf hf).1
  rw [Graph.isVariable_of_node? hn, Graph.isVariable_of_node? hn', Node.isVariable,
    Node.isVariable, Node.var?_of_alike hk]

/-- The graphs agree about the nodes of the smaller one. -/
lemma agrees : Agrees g h (g.contains · = true) := by
  constructor
  case node? =>
    intro id hid
    obtain ⟨n, n', hn, hn', hk⟩ := he.exists_node? hid
    rw [hn, hn']
    exact .some hk
  case targets => exact fun ids => by rw [he.flowsOf]
  case arrivals => exact fun ids => by rw [he.flowsOf]
  case sources => exact fun l => by rw [he.variableFlows hg]
  case operands => exact fun l => by rw [he.variableFlows hg]
  case ends => exact fun _ _ hf => hg.ends_of_mem_flowsOf hf
  case vars => exact fun _ hid => contains_of_isVariable hid
  case onwards => exact fun _ _ _ _ hn ha => hg.contains_of_next? hn ha
  case inwards =>
    intro id n _ hn a ha
    exact contains_of_isVariable (Compile.isVariable_of_mem_dependencies hg hn ha)

/-- Among the symbols that were drawn besides there is no input. -/
lemma inputEntry? {id : NodeId} {n n' : Node} {s s' : Scope} (hn : g.node? id = some n)
    (hk : n.kind = .scope s) (hk' : n'.kind = .scope s') (hfills : n.Fills g n') :
    h.inputEntry? s' = g.inputEntry? s := by
  obtain ⟨more, hsymbols, hmore⟩ := hfills.symbols
  rw [hk, hk'] at hsymbols
  have hnone : more.find? (fun a => ((h.node? a).bind Node.symbol?).any (·.effective = .input)) =
      none := by
    rw [List.find?_eq_none]
    intro a ha hinput
    cases hm : h.node? a with
    | none => simp [hm] at hinput
    | some m =>
      cases hkind : m.kind with
      | scope t => simp [hm, Node.symbol?, hkind] at hinput
      | var v => simp [hm, Node.symbol?, hkind] at hinput
      | symbol k =>
        have hother := (he.new a m hm (hmore a ha)).2 k hkind
        simp [hm, Node.symbol?, hkind, hother] at hinput
  rw [Graph.inputEntry?, Graph.inputEntry?, show s'.symbols = s.symbols ++ more from hsymbols,
    List.find?_append, hnone, Option.or_none]
  refine List.find?_congr fun a ha => ?_
  obtain ⟨m, m', hm, hm', hkind⟩ := he.exists_node? (hg.contains_of_mem_symbols hn hk ha)
  rw [hm, hm', Option.bind_some, Option.bind_some, Node.symbol?_of_alike hkind]

/-- An old scope becomes the same function, if any. -/
lemma routine {id : NodeId} {n n' : Node} (hn : g.node? id = some n) (hfills : n.Fills g n') :
    Option.Rel (fun p p' => g.routine p.1 p.2 = h.routine p'.1 p'.2)
      (n.scope?.bind fun s => if s.isRoutine n.id then some (n.id, s) else none)
      (n'.scope?.bind fun s => if s.isRoutine n'.id then some (n'.id, s) else none) := by
  unfold Node.scope?
  cases hk : n.kind with
  | scope s =>
    obtain ⟨s', hk', hstart, hlinks⟩ := hfills.alike.exists_scope hk
    have hentry : h.entry? id s' = g.entry? id s := by
      simp only [Graph.entry?, hstart, he.inputEntry? hg hn hk hk' hfills]
    have hroutine : h.routine id s' = g.routine id s :=
      (he.agrees hg).routine id hlinks hentry fun a ha => hg.contains_of_entry? hn hk ha
    rw [hk', Option.bind_some, Option.bind_some, hfills.id_eq, hg.node_id id n hn,
      Scope.isRoutine, Scope.isRoutine, hstart]
    split
    · exact .some hroutine.symm
    · exact .none
  | var v =>
    rw [hfills.alike.eq_var hk]
    exact .none
  | symbol k =>
    rw [hfills.alike.eq_symbol hk]
    exact .none

/-- The nodes that become functions are old ones, and their functions are the same. -/
lemma routineScopes : Forall₂ (fun p p' => g.routine p.1 p.2 = h.routine p'.1 p'.2)
    g.routineScopes h.routineScopes := by
  let olds := h.nodes.toList.take g.nodes.size
  let news := h.nodes.toList.drop g.nodes.size
  have hsplit : h.nodes.toList = olds ++ news := (List.take_append_drop _ _).symm
  have hold : Forall₂ (fun n n' => ∃ id, g.node? id = some n ∧ n.Fills g n') g.nodes.toList
      olds := by
    refine List.forall₂_iff_get.mpr ⟨by simp [olds, he.size], fun i hi hi' => ?_⟩
    have hn : g.node? ⟨i⟩ = some (g.nodes.toList.get ⟨i, hi⟩) := by
      simp [node?, Array.getElem?_eq_getElem (Array.length_toList ▸ hi)]
    obtain ⟨n', hn', hkept⟩ := he.old _ _ hn
    have hlookup : olds[i]? = some n' := by
      rw [List.getElem?_take_of_lt (Array.length_toList ▸ hi), Array.getElem?_toList]
      exact hn'
    obtain ⟨_, rfl⟩ := List.getElem?_eq_some_iff.mp hlookup
    exact ⟨⟨i⟩, hn, hkept⟩
  have hnew : news.filterMap (fun n => n.scope?.bind fun s =>
      if s.isRoutine n.id then some (n.id, s) else none) = [] := by
    rw [List.filterMap_eq_nil_iff]
    intro n hn
    obtain ⟨j, hj⟩ := List.mem_iff_getElem?.mp hn
    rw [List.getElem?_drop, Array.getElem?_toList] at hj
    have hn' : h.node? ⟨g.nodes.size + j⟩ = some n := hj
    have hscope := (he.new _ n hn' (by simp [contains])).1
    unfold Node.scope?
    cases hk : n.kind with
    | scope s => simp [hscope s hk]
    | var v => rfl
    | symbol k => rfl
  rw [Graph.routineScopes, Graph.routineScopes, hsplit, List.filterMap_append, hnew,
    List.append_nil]
  refine List.rel_filterMap ?_ hold
  rintro n n' ⟨id, hn, hfills⟩
  exact he.routine hg hn hfills

lemma listing : h.listing = g.listing := by
  rw [Graph.listing, Graph.listing]
  exact congrArg (· >>= _) (mapM_eq_of_forall₂ (he.routineScopes hg)).symm

end Extends

/-! ## Drawing a node -/

/-- A blank symbol without flows reads no input unless that is written on it. -/
lemma effective_ne_input {k : Symbol} (hlinks : k.links = {}) (hk : k.purpose ≠ .input) :
    k.effective ≠ .input := by
  rw [Symbol.effective, hlinks]
  split
  · decide
  · exact hk

/-- A node that is drawn inside another one is listed at most, unless both are variables. -/
lemma alike_adopt {k child : NodeKind} (id : NodeId) (hvar : child.tag = .var → k.tag ≠ .var) :
    k.Alike (k.adopt id child) := by
  cases k with
  | scope s => cases child <;> exact .scope rfl rfl
  | var v =>
    cases child with
    | var w => exact absurd rfl (hvar rfl)
    | scope t => exact .var v
    | symbol y => exact .var v
  | symbol y => cases child <;> exact .symbol y

/-- What takes a new node in is a variable only if it was to be its parent. -/
lemma isVariable_parent_of_owner (hg : g.Recorded) {parent : NodeId} {n : Node}
    (hn : g.node? (g.ownerFor parent) = some n) (ht : n.kind.tag = .var) :
    g.isVariable parent = true := by
  unfold ownerFor at hn
  split at hn
  · exact Compile.isVariable_of_tag hn ht
  · obtain ⟨r, hr, -, hroot⟩ := hg.root
    rw [hr] at hn
    cases hn
    rw [hroot] at ht
    cases ht

/-- The graph with one node more. -/
lemma extends_addNode (hg : g.Recorded) (parent : NodeId) (new : BlankKind)
    (hinput : ∀ k, new.kind = .symbol k → k.purpose ≠ .input)
    (hvar : new.kind.tag = .var → g.isVariable parent = false) :
    Extends g (g.addNode parent new.kind).2 := by
  have hnext : g.contains g.nextNode = false := by simp [contains, nextNode]
  refine ⟨flows_addNode g parent new.kind, by simp, fun id n hn => ?_, fun id n hn hid => ?_⟩
  · have hne : id ≠ g.nextNode := ne_nextNode (contains_of_node? hn)
    rw [node?_addNode, if_neg hne, hn]
    refine ⟨_, rfl, ?_⟩
    dsimp only
    split
    · rename_i howner
      refine ⟨rfl, alike_adopt _ fun hchild hn' => ?_, _, NodeKind.owned_adopt _ _ _ _, ?_⟩
      · rw [← howner] at hn
        exact Bool.false_ne_true ((hvar hchild).symm.trans (isVariable_parent_of_owner hg hn hn'))
      · intro a ha
        split at ha
        · rwa [List.mem_singleton.mp ha]
        · cases ha
    · exact ⟨rfl, .refl n.kind, [], (List.append_nil _).symm, by simp⟩
  · rw [node?_addNode, node?_eq_none_iff.mpr hid] at hn
    obtain ⟨hnew, hn⟩ := (Option.ite_none_right_eq_some (p := id = g.nextNode)).mp hn
    cases hn
    refine ⟨fun s hs => ?_, fun k hk => effective_ne_input ?_ (hinput k hk)⟩
    · have hstart := new.start?_eq
      have hroot : id ≠ NodeId.root := by
        rintro rfl
        obtain ⟨r, hr, -⟩ := hg.root
        exact Bool.false_ne_true (hid.symm.trans (contains_of_node? hr))
      dsimp only at hs ⊢
      rw [hs] at hstart
      simp [Scope.isRoutine, NodeId.isRoot, hroot, show s.start = none from hstart]
    · have hlinks := new.links_eq
      dsimp only at hk
      rwa [hk] at hlinks

/-- **A node that is drawn and not connected does not change the program**, nor what is wrong with
it, wherever it is drawn: unless it is a variable in a variable, of which it becomes a member, or a
symbol on which it is written at once that it reads input. -/
theorem compile_addNode (edits : List Edit) (parent : NodeId) :
    (∀ t : NodeTag, (t = .var → (drawn edits).isVariable parent = false) →
      ((drawn edits).addNode parent t.blank.kind).2.compile = (drawn edits).compile) ∧
    ∀ new : BlankKind, (∀ k, new.kind = .symbol k → k.purpose ≠ .input) →
      (new.kind.tag = .var → (drawn edits).isVariable parent = false) →
        ((drawn edits).addNode parent new.kind).2.compile = (drawn edits).compile := by
  have hg := recorded_drawn edits
  have hblank : ∀ new : BlankKind, (∀ k, new.kind = .symbol k → k.purpose ≠ .input) →
      (new.kind.tag = .var → (drawn edits).isVariable parent = false) →
        ((drawn edits).addNode parent new.kind).2.compile = (drawn edits).compile := by
    intro new hinput hvar
    rw [compile, compile, (extends_addNode hg parent new hinput hvar).listing hg]
  refine ⟨fun t ht => hblank t.blank (fun k hk => ?_) fun htag => ht ?_, hblank⟩
  · cases t <;> cases hk
    decide
  · cases t <;> cases htag
    rfl

/-- Of a variable that is drawn besides. -/
theorem compile_addNode_reciprocal :
    ((drawn reciprocal).addNode NodeId.root (NodeTag.blank .var).kind).2.compile =
      .ok reciprocalText := by
  have hroot : (drawn reciprocal).isVariable NodeId.root = false := by decide +kernel
  rw [(compile_addNode reciprocal NodeId.root).1 .var fun _ => hroot]
  exact compile_reciprocal

end Graph

end FlowSketch
