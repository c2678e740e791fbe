/-
# Graphs that the compiler does not tell apart

The compiler asks a graph for the node under a number, for the ends of flows in the order of their
numbers or of their arrival, and for nothing else.  It asks about nodes that it has come to: from
where it starts it comes to the ends of flows, to what follows a node, and to the members of
variables.  Two graphs that give the same answers about a set of nodes that is closed in this way
have the same walks from there, and the same problems.

Main statement: `Agrees.walk`.
-/
import FlowSketch.Proofs.Compile.Scoping

namespace FlowSketch

open FlowSketch.Compile (Written DemandsTo VisitsTo WalksTo demandsTo_demandEach inTurn_assoc
  demand_of_absent demand_of_cycle demand_of_node demandEach_nil demandEach_cons_eq
  demandEach_cons_of_mem not_mem_of_find?_eq_none comparison walk_none walk_of_seen walk_of_absent
  walk_of_node visit_of_compare)

/-! ## Nodes -/

/-- Kinds that are the same up to what is drawn inside of a scope. -/
inductive NodeKind.Alike : NodeKind → NodeKind → Prop
  | scope {s s' : Scope} : s'.start = s.start → s'.links = s.links →
    Alike (.scope s) (.scope s')
  | var (v : Variable) : Alike (.var v) (.var v)
  | symbol (k : Symbol) : Alike (.symbol k) (.symbol k)

namespace NodeKind

lemma Alike.refl (k : NodeKind) : k.Alike k := by
  cases k with
  | scope s => exact .scope rfl rfl
  | var v => exact .var v
  | symbol y => exact .symbol y

variable {k k' : NodeKind} (h : k.Alike k')
include h

lemma Alike.links_eq : k'.links = k.links := by
  cases h with
  | scope _ hlinks => exact hlinks
  | var v => rfl
  | symbol y => rfl

lemma Alike.exists_scope {s : Scope} (hk : k = .scope s) :
    ∃ s', k' = .scope s' ∧ s'.start = s.start ∧ s'.links = s.links := by
  cases h with
  | scope hstart hlinks =>
    cases hk
    exact ⟨_, rfl, hstart, hlinks⟩
  | var v => cases hk
  | symbol y => cases hk

lemma Alike.eq_var {v : Variable} (hk : k = .var v) : k' = .var v := by
  cases h with
  | scope _ _ => cases hk
  | var w => exact hk
  | symbol y => cases hk

lemma Alike.eq_symbol {y : Symbol} (hk : k = .symbol y) : k' = .symbol y := by
  cases h with
  | scope _ _ => cases hk
  | var v => cases hk
  | symbol z => exact hk

end NodeKind

namespace Node

variable {n n' : Node} (h : n.kind.Alike n'.kind)
include h

lemma var?_of_alike : n'.var? = n.var? := by
  rw [var?, var?]
  generalize n.kind = k at h ⊢
  generalize n'.kind = k' at h ⊢
  cases h <;> rfl

lemma symbol?_of_alike : n'.symbol? = n.symbol? := by
  rw [symbol?, symbol?]
  generalize n.kind = k at h ⊢
  generalize n'.kind = k' at h ⊢
  cases h <;> rfl

end Node

/-! ## Answers -/

namespace Graph

/-- Two graphs give the same answers about the nodes of a set, which the compiler does not leave in
the first of them. -/
structure Agrees (g h : Graph) (p : NodeId → Prop) : Prop where
  node? : ∀ id, p id → Option.Rel (fun n n' => n.kind.Alike n'.kind) (g.node? id) (h.node? id)
  targets : ∀ ids, (h.flowsOf ids).map (·.target) = (g.flowsOf ids).map (·.target)
  arrivals : ∀ ids, (byArrival (h.flowsOf ids)).map (fun f => (f.source, f.target)) =
    (byArrival (g.flowsOf ids)).map fun f => (f.source, f.target)
  sources : ∀ l, (h.variableFlows l).map (·.source) = (g.variableFlows l).map (·.source)
  operands : ∀ l, (byArrival (h.variableFlows l)).map (·.source) =
    (byArrival (g.variableFlows l)).map (·.source)
  ends : ∀ ids, ∀ f ∈ g.flowsOf ids, p f.source ∧ p f.target
  vars : ∀ id, g.isVariable id = true → p id
  onwards : ∀ id n a, p id → g.node? id = some n → g.next? n = some a → p a
  inwards : ∀ id n, p id → g.node? id = some n → ∀ a ∈ g.dependencies n, p a

namespace Agrees

variable {g h : Graph} {p : NodeId → Prop} (ha : Agrees g h p)
include ha

variable {id : NodeId} {n n' : Node}

lemma exists_node? (hid : p id) (hn : g.node? id = some n) :
    ∃ n', h.node? id = some n' ∧ n.kind.Alike n'.kind := by
  have hrel := ha.node? id hid
  rw [hn] at hrel
  generalize h.node? id = o at hrel
  cases hrel with
  | some hk => exact ⟨_, rfl, hk⟩

lemma node?_eq_none (hid : p id) (hn : g.node? id = none) : h.node? id = none := by
  have hrel := ha.node? id hid
  rw [hn] at hrel
  generalize h.node? id = o at hrel
  cases hrel
  rfl

lemma isVariable (hid : p id) : h.isVariable id = g.isVariable id := by
  rw [Graph.isVariable, Graph.isVariable]
  cases hn : g.node? id with
  | none => rw [ha.node?_eq_none hid hn]
  | some n =>
    obtain ⟨n', hn', hk⟩ := ha.exists_node? hid hn
    rw [hn', Option.any_some, Option.any_some, Node.isVariable, Node.isVariable,
      Node.var?_of_alike hk]

lemma firstBranch? (l : Links) : h.firstBranch? l = g.firstBranch? l := by
  rw [Graph.firstBranch?, Graph.firstBranch?, ← List.head?_map, ← List.head?_map, ha.targets]

lemma next? (hk : n.kind.Alike n'.kind) : h.next? n' = g.next? n := by
  simp only [Graph.next?, Node.links, hk.links_eq, Node.symbol?_of_alike hk, ha.firstBranch?]

lemma dependencies (hk : n.kind.Alike n'.kind) : h.dependencies n' = g.dependencies n := by
  rw [Graph.dependencies, Graph.dependencies, Node.var?_of_alike hk, ha.sources, Node.links,
    hk.links_eq, Node.links]

lemma parameters {s s' : Scope} (hs : s'.links = s.links) : h.parameters s' = g.parameters s := by
  -- only the sources are looked at
  have hfold : ∀ fs : List Flow, fs.foldl
      (fun params f => if f.source ∈ params then params else params ++ [f.source]) [] =
      (fs.map (·.source)).foldl (fun params a => if a ∈ params then params else params ++ [a]) [] :=
    fun _ => by rw [List.foldl_map]
  rw [Graph.parameters, Graph.parameters, hfold, hfold, ha.sources, hs]

lemma printed? {previous : Option NodeId} (l : Links) (hprevious : ∀ a ∈ previous, p a) :
    Compile.printed? h previous l = Compile.printed? g previous l := by
  rw [Compile.printed?, Compile.printed?, ← List.head?_map, ← List.head?_map, ha.sources]
  cases previous with
  | none => rfl
  | some a => rw [Option.filter_some, Option.filter_some, ha.isVariable (hprevious a rfl)]

lemma binding (id : NodeId) (hk : n.kind.Alike n'.kind) :
    Compile.binding h id n' = Compile.binding g id n := by
  have hchain : ∀ s, Compile.chainValue h id n' s = Compile.chainValue g id n s := fun s => by
    simp only [Compile.chainValue, ha.operands, Node.links, hk.links_eq]
  simp only [Compile.binding, Compile.textValue, hchain]
  generalize n.kind = k at hk ⊢
  generalize n'.kind = k' at hk ⊢
  cases hk <;> rfl

/-- Two flows in order have the same ends as those in the other graph. -/
lemma byArrival_eq_pair {ids : List FlowId} {a b : Flow}
    (hab : byArrival (g.flowsOf ids) = [a, b]) :
    ∃ a' b', byArrival (h.flowsOf ids) = [a', b'] ∧ (a'.source = a.source ∧ a'.target = a.target) ∧
      b'.source = b.source ∧ b'.target = b.target := by
  have harrivals := ha.arrivals ids
  rw [hab, List.map_cons, List.map_cons, List.map_nil] at harrivals
  obtain ⟨a', rest, hrest, haa, harrivals⟩ := List.map_eq_cons_iff.mp harrivals
  obtain ⟨b', last, hlast, hbb, harrivals⟩ := List.map_eq_cons_iff.mp harrivals
  rw [hrest, hlast, List.map_eq_nil_iff.mp harrivals]
  exact ⟨a', b', rfl, Prod.mk.inj haa, Prod.mk.inj hbb⟩

lemma length_byArrival (ids : List FlowId) :
    (byArrival (h.flowsOf ids)).length = (byArrival (g.flowsOf ids)).length := by
  have harrivals := congrArg List.length (ha.arrivals ids)
  rwa [List.length_map, List.length_map] at harrivals

lemma ends_of_byArrival {ids : List FlowId} {f : Flow} (hf : f ∈ byArrival (g.flowsOf ids)) :
    p f.source ∧ p f.target :=
  ha.ends ids f ((byArrival_perm _).mem_iff.mp hf)

/-! ## What the compiler writes -/

/-- Nodes are bound in the same order, to the same values. -/
lemma demandEach_of_demandsTo {opened ids known : List NodeId} {x : Except Problem Written}
    (hx : DemandsTo g opened ids known x) (hids : ∀ d ∈ ids, d ∉ opened) (hp : ∀ d ∈ ids, p d) :
    Compile.demandEach h opened ids hids known = x := by
  induction hx with
  | nil => exact demandEach_nil hids
  | known hmem _ ih =>
    rw [demandEach_cons_of_mem hids hmem]
    exact ih _ (List.forall_mem_cons.mp hp).2
  | absent hnew hn =>
    rw [demandEach_cons_eq,
      demand_of_absent _ hnew (ha.node?_eq_none (List.forall_mem_cons.mp hp).1 hn)]
    rfl
  | cycle hnew hn hd =>
    obtain ⟨node', hn', hk⟩ := ha.exists_node? (List.forall_mem_cons.mp hp).1 hn
    rw [← ha.dependencies hk] at hd
    rw [demandEach_cons_eq, demand_of_cycle _ hnew hn' hd]
    rfl
  | @bind opened ids known id node before rest hid hnew hn hd _ _ ihBefore ihRest =>
    -- the node depends on the same nodes in both graphs
    obtain ⟨hpid, hpids⟩ := List.forall_mem_cons.mp hp
    obtain ⟨node', hn', hk⟩ := ha.exists_node? hpid hn
    have hopened : ∀ d ∈ h.dependencies node', d ∉ id :: opened := by
      rw [ha.dependencies hk]
      exact not_mem_of_find?_eq_none hd
    have hrest : Compile.demandEach h opened ids (fun d hd => hids d (List.mem_cons_of_mem id hd)) =
        rest := funext fun between => ihRest between _ hpids
    rw [demandEach_cons_eq, demand_of_node hid hnew hn' hopened, inTurn_assoc, hrest]
    simp only [ha.dependencies hk, ha.binding id hk,
      ihBefore (not_mem_of_find?_eq_none hd) (ha.inwards id node hpid hn)]

lemma demandAll {ids known : List NodeId} (hp : ∀ d ∈ ids, p d) :
    Compile.demandAll h ids known = Compile.demandAll g ids known :=
  ha.demandEach_of_demandsTo (demandsTo_demandEach _) _ hp

lemma demandSingle {known : List NodeId} (hid : p id) :
    Compile.demandAll h [id] known = Compile.demandAll g [id] known :=
  ha.demandAll fun d hd => by rwa [List.mem_singleton.mp hd]

lemma demandOperand {known : List NodeId} (hid : p id) :
    Compile.demandOperand h id known = Compile.demandOperand g id known := by
  rw [Compile.demandOperand, Compile.demandOperand]
  cases hn : g.node? id with
  | none => rw [ha.node?_eq_none hid hn]
  | some n =>
    obtain ⟨n', hn', hk⟩ := ha.exists_node? hid hn
    rw [hn']
    dsimp only
    rw [Node.isVariable, Node.isVariable, Node.var?_of_alike hk, ha.demandSingle hid]

/-- The same is written for a node. -/
lemma visit_of_visitsTo {comparing known : List NodeId} {previous : Option NodeId}
    {x : Except Problem Written} (hx : VisitsTo g comparing previous known id n x)
    (hid : p id) (hprevious : ∀ a ∈ previous, p a) (halike : n.kind.Alike n'.kind)
    (hid' : h.contains id = true) : Compile.visit h comparing previous known id n' hid' = x := by
  rw [Compile.visit]
  cases hx with
  | var hkind => simp only [halike.eq_var hkind, ha.demandSingle hid]
  | skip hkind hskip =>
    obtain ⟨s', hkind', hstart, hlinks⟩ := halike.exists_scope hkind
    simp only [hkind', Compile.callOf, hstart, if_pos hskip]
  | @call s hkind hcall =>
    obtain ⟨s', hkind', hstart, hlinks⟩ := halike.exists_scope hkind
    have hargs : ∀ a ∈ g.parameters s, p a := fun a hparam =>
      ha.vars a (Compile.isVariable_of_mem_parameters hparam)
    simp only [hkind', Compile.callOf, hstart, hcall, ha.parameters hlinks, ha.demandAll hargs]
    rfl
  | unset hkind hk => simp only [halike.eq_symbol hkind, hk]
  | noTarget hkind hk htarget =>
    simp only [halike.eq_symbol hkind, hk, ha.firstBranch?, htarget]
  | input hkind hk htarget =>
    simp only [halike.eq_symbol hkind, hk, ha.firstBranch?, htarget]
  | nothing hkind hk hvalue =>
    simp only [halike.eq_symbol hkind, hk, ha.printed? _ hprevious, hvalue]
  | output hkind hk hvalue =>
    have hprinted := ha.vars _ (Compile.isVariable_of_printed? hvalue)
    simp only [halike.eq_symbol hkind, hk, ha.printed? _ hprevious, hvalue,
      ha.demandSingle hprinted]
    rfl
  | @misshapen k hkind hk hshape =>
    -- flows that are no pairs are none in the other graph
    have hshape' : ∀ left right onFalse onTrue,
        byArrival (h.flowsOf k.links.incoming) = [left, right] →
        byArrival (h.flowsOf k.links.branches) = [onFalse, onTrue] → False := by
      intro left right onFalse onTrue hin hout
      have hin' := ha.length_byArrival k.links.incoming
      have hout' := ha.length_byArrival k.links.branches
      rw [hin] at hin'
      rw [hout] at hout'
      obtain ⟨a, b, hab⟩ := List.length_eq_two.mp hin'.symm
      obtain ⟨c, d, hcd⟩ := List.length_eq_two.mp hout'.symm
      exact hshape a b c d hab hcd
    simp only [halike.eq_symbol hkind, hk, ha.length_byArrival]
  | inside hkind hk hin hout hc =>
    obtain ⟨left', right', hin', -, -⟩ := ha.byArrival_eq_pair hin
    obtain ⟨onFalse', onTrue', hout', -, -⟩ := ha.byArrival_eq_pair hout
    simp only [halike.eq_symbol hkind, hk, hin', hout', dif_pos hc]

lemma walk_of_walksTo {comparing seen known : List NodeId} {previous start : Option NodeId}
    {x : Except Problem Written} (hx : WalksTo g comparing seen previous known start x)
    (hprevious : ∀ a ∈ previous, p a) (hstart : ∀ a ∈ start, p a) :
    Compile.walk h comparing seen previous known start = x := by
  induction hx with
  | stop => exact walk_none ..
  | again hs => exact walk_of_seen hs
  | absent hs hn => exact walk_of_absent hs (ha.node?_eq_none (hstart _ rfl) hn)
  | @visit comparing seen known previous id node here after hs hn hvisit _ ihAfter =>
    have hid := hstart id rfl
    obtain ⟨node', hn', hk⟩ := ha.exists_node? hid hn
    rw [walk_of_node hs hn', ha.visit_of_visitsTo hvisit hid hprevious hk, ha.next? hk]
    simp only [ihAfter _ (by simpa using hid) fun a => ha.onwards id node a hid hn]
  | @compare comparing seen known previous id node k left right onFalse onTrue yes no after hs hn
      hkind hk hin hout hc _ _ _ ihYes ihNo ihAfter =>
    -- the operands and the ways out lie at the same ends of flows
    have hid := hstart id rfl
    obtain ⟨node', hn', halike⟩ := ha.exists_node? hid hn
    obtain ⟨left', right', hin', ⟨hleft, -⟩, hright, -⟩ := ha.byArrival_eq_pair hin
    obtain ⟨onFalse', onTrue', hout', ⟨-, hFalse⟩, -, hTrue⟩ := ha.byArrival_eq_pair hout
    have hfirst := (ha.ends_of_byArrival (f := left) (by rw [hin]; simp)).1
    have hsecond := (ha.ends_of_byArrival (f := right) (by rw [hin]; simp)).1
    have hno := (ha.ends_of_byArrival (f := onFalse) (by rw [hout]; simp)).2
    have hyes := (ha.ends_of_byArrival (f := onTrue) (by rw [hout]; simp)).2
    rw [walk_of_node hs hn', visit_of_compare _ (halike.eq_symbol hkind) hk hin' hout' hc,
      ha.next? halike, comparison, comparison, hleft, hright, hFalse, hTrue,
      ha.demandOperand hfirst]
    simp only [ha.demandOperand hsecond, ihYes _ (by simp) (by simpa using hyes),
      ihNo _ (by simp) (by simpa using hno),
      ihAfter _ (by simpa using hid) fun a => ha.onwards id node a hid hn]

/-- Walks from one node give the same statements, and fail alike. -/
lemma walk {comparing seen known : List NodeId} {previous start : Option NodeId}
    (hprevious : ∀ a ∈ previous, p a) (hstart : ∀ a ∈ start, p a) :
    Compile.walk h comparing seen previous known start =
      Compile.walk g comparing seen previous known start :=
  ha.walk_of_walksTo (Compile.walksTo_walk _ _ _ _ _ _) hprevious hstart

/-- A function does the same if its body begins at the same node. -/
lemma routine (id : NodeId) {s s' : Scope} (hlinks : s'.links = s.links)
    (hentry : h.entry? id s' = g.entry? id s) (hp : ∀ a ∈ g.entry? id s, p a) :
    h.routine id s' = g.routine id s := by
  have hbody : ∀ params, Compile.walk h [] [] none params (g.entry? id s) =
      Compile.walk g [] [] none params (g.entry? id s) := fun params => ha.walk (by simp) hp
  simp only [Graph.routine, Graph.routineParams, ha.parameters hlinks, hentry, hbody]

end Agrees

end Graph

end FlowSketch
