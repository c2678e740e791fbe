/-
# What a compilation looks up

A node keeps the numbers of its flows, and a flow keeps the numbers of its ends.  The compiler takes
a number that stands for no flow as if it were not listed, and it has a problem of its own for a
number that stands for no node.  In a drawn graph neither happens: the compiler starts at nodes of
the graph and goes on to ends of flows, which are nodes of the graph, and every list of flows is
looked up in full.  So a comparison is reported with the flows that it really has.

The operands of an expression and the sides of a comparison are taken out of sorted lists by their
places.  The checks before this leave lists in which these places exist.

Main statement: `lookups_of_compile`.
-/
import FlowSketch.Proofs.Compile.Scoping
import FlowSketch.Proofs.Compile.Unconnected

namespace FlowSketch

namespace Compile

variable {g : Graph}

/-! ## Operands and sides by their places -/

/-- The value of an expression whose operands are taken out of the sorted flows by their places.
There is no result at all if a place is beyond the end of the list. -/
def chainByPlace (g : Graph) (id : NodeId) (node : Node) (s : List Char) :
    Option (Except Problem Listing.Value) :=
  let tokens := Text.words s
  match tokens.find? fun t => (Operator.ofToken? t).isNone with
  | some t => some (.error (.notOperator id (String.ofList t)))
  | none =>
    let operators := tokens.filterMap Operator.ofToken?
    let operands := byArrival (g.variableFlows node.links)
    if operands.length ≠ operators.length + 1 then
      some (.error (.operandCount id operands.length operators.length))
    else do
      let first ← operands[0]?
      let rest := (operands.drop 1).map (·.source)
      return .ok (.chain ⟨first.source, operators.zip rest⟩)

/-- The flows of the two operands of a comparison and those of its two ways out, each taken out of
the sorted flows by its place.  There is no result at all if a place is beyond the end of a list. -/
def sidesByPlace (g : Graph) (id : NodeId) (k : Symbol) :
    Option (Except Problem (Flow × Flow × Flow × Flow)) :=
  let incoming := byArrival (g.flowsOf k.links.incoming)
  let exits := byArrival (g.flowsOf k.links.branches)
  if incoming.length ≠ 2 ∨ exits.length ≠ 2 then
    some (.error (.comparisonShape id incoming.length exits.length))
  else do
    let left ← incoming[0]?
    let right ← incoming[1]?
    let onFalse ← exits[0]?
    let onTrue ← exits[1]?
    return .ok (left, right, onFalse, onTrue)

/-- What is written for a comparison with given sides. -/
def compareSides (g : Graph) (comparing known : List NodeId) (id : NodeId)
    (left right onFalse onTrue : Flow) : Except Problem Written :=
  if id ∈ comparing then .error (.cycle id)
  else do
    let (first, known) ← demandOperand g left.source known
    let (second, known) ← demandOperand g right.source known
    let (yes, _) ← walk g (id :: comparing) [] none known (some onTrue.target)
    let (no, _) ← walk g (id :: comparing) [] none known (some onFalse.target)
    return (first ++ second ++ [.branch left.source right.source yes no], known)

/-- Every operand of an expression has a place. -/
lemma chainByPlace_eq (id : NodeId) (node : Node) (s : List Char) :
    chainByPlace g id node s = some (chainValue g id node s) := by
  unfold chainByPlace chainValue
  dsimp only
  cases (Text.words s).find? fun t => (Operator.ofToken? t).isNone with
  | some t => rfl
  | none =>
    cases byArrival (g.variableFlows node.links) with
    | nil => rfl
    | cons f fs =>
      by_cases h : fs.length = ((Text.words s).filterMap Operator.ofToken?).length <;> simp [h]

/-- Every side of a comparison has a place, and a comparison is visited with these sides. -/
lemma exists_sidesByPlace {id : NodeId} {node : Node} {k : Symbol} (hkind : node.kind = .symbol k)
    (hk : k.effective = .compare) :
    ∃ sides, sidesByPlace g id k = some sides ∧ ∀ comparing previous known hid,
      visit g comparing previous known id node hid =
        sides >>= fun p => compareSides g comparing known id p.1 p.2.1 p.2.2.1 p.2.2.2 := by
  unfold sidesByPlace
  dsimp only
  by_cases hshape : (byArrival (g.flowsOf k.links.incoming)).length = 2 ∧
      (byArrival (g.flowsOf k.links.branches)).length = 2
  · obtain ⟨left, right, hin⟩ := List.length_eq_two.mp hshape.1
    obtain ⟨onFalse, onTrue, hout⟩ := List.length_eq_two.mp hshape.2
    refine ⟨.ok (left, right, onFalse, onTrue), by rw [hin, hout]; rfl, ?_⟩
    intro comparing previous known hid
    rw [visit]
    simp only [hkind, hk, hin, hout]
    rfl
  · refine ⟨.error _, if_pos (not_and_or.mp hshape), ?_⟩
    intro comparing previous known hid
    rw [visit]
    simp only [hkind, hk]
    split
    · rename_i hin hout
      exact absurd ⟨congrArg List.length hin, congrArg List.length hout⟩ hshape
    · rfl

end Compile

/-! ## Problems of drawn graphs -/

namespace Graph

open FlowSketch.Compile

/-- A comparison without two flows in and two branches out, with the numbers of those that it
has. -/
structure Misshapen (g : Graph) (id : NodeId) (incoming outgoing : ℕ) : Prop where
  symbol : ∃ n k, g.node? id = some n ∧ n.kind = .symbol k ∧ k.effective = .compare ∧
    incoming = k.links.incoming.length ∧ outgoing = k.links.branches.length
  incoming_eq : incoming = g.flows.toList.countP fun f => f.target = id
  outgoing_eq : outgoing = g.flows.toList.countP fun f => f.source = id ∧ f.role = .branch
  shape : ¬ (incoming = 2 ∧ outgoing = 2)

/-- The problems that do not come from a failed lookup: every node is found, and the flows of a
comparison are counted in full. -/
def Admits (g : Graph) : Problem → Prop
  | .noSuchNode _ => False
  | .comparisonShape id incoming outgoing => g.Misshapen id incoming outgoing
  | _ => True

variable {g : Graph}

namespace Recorded

variable (hg : g.Recorded)
include hg

/-- Every number in a list of flows of a node stands for a flow. -/
lemma isSome_flow? {id : NodeId} {n : Node} (hn : g.node? id = some n) :
    ∀ ids ∈ [n.links.incoming, n.links.outgoing, n.links.branches], ∀ j ∈ ids,
      (g.flow? j).isSome = true := by
  have hfound : ∀ (ids : List FlowId) (p : Flow → Prop), g.ListsFlows ids p → ∀ j ∈ ids,
      (g.flow? j).isSome = true := by
    intro ids p hlist j hj
    obtain ⟨f, hf, -⟩ := (hlist.2 j).mp hj
    rw [hf]
    rfl
  obtain ⟨hin, hout, hbranches⟩ := hg.consistent.links id n hn
  simp only [List.forall_mem_cons, List.not_mem_nil, false_imp_iff, implies_true, and_true]
  exact ⟨hfound _ _ hin, hfound _ _ hout, hfound _ _ hbranches⟩

/-- The flows that arrive at a node and the branches that leave it, looked up. -/
lemma flowsOf_links {id : NodeId} {n : Node} (hn : g.node? id = some n) :
    g.flowsOf n.links.incoming = g.flows.toList.filter (fun f => f.target = id) ∧
      g.flowsOf n.links.branches =
        g.flows.toList.filter fun f => f.source = id ∧ f.role = .branch := by
  rw [Node.links, hg.links id n hn]
  exact ⟨hg.flowsOf_map_id fun f hf => (List.mem_filter.mp hf).1,
    hg.flowsOf_map_id fun f hf => (List.mem_filter.mp hf).1⟩

end Recorded

/-- A lookup that finds every flow gives as many flows as there are numbers. -/
lemma length_flowsOf {ids : List FlowId} (h : ∀ j ∈ ids, (g.flow? j).isSome = true) :
    (g.flowsOf ids).length = ids.length :=
  List.filterMap_length_eq_length.mpr h

/-- A comparison is reported with the flows that it has. -/
lemma admits_comparisonShape (hg : g.Recorded) {id : NodeId} {n : Node} {k : Symbol}
    (hn : g.node? id = some n) (hkind : n.kind = .symbol k) (hk : k.effective = .compare)
    (hshape : ¬ ((byArrival (g.flowsOf k.links.incoming)).length = 2 ∧
      (byArrival (g.flowsOf k.links.branches)).length = 2)) :
    g.Admits (.comparisonShape id (byArrival (g.flowsOf k.links.incoming)).length
      (byArrival (g.flowsOf k.links.branches)).length) := by
  have hlinks : k.links = n.links := by rw [Node.links, hkind]; rfl
  have hfound := hg.isSome_flow? hn
  obtain ⟨hin, hout⟩ := hg.flowsOf_links hn
  rw [length_byArrival, length_byArrival] at hshape ⊢
  refine ⟨⟨n, k, hn, hkind, hk, ?_, ?_⟩, ?_, ?_, hshape⟩
  · rw [hlinks]
    exact length_flowsOf (hfound _ (by simp))
  · rw [hlinks]
    exact length_flowsOf (hfound _ (by simp))
  · rw [hlinks, hin, List.countP_eq_length_filter]
  · rw [hlinks, hout, List.countP_eq_length_filter]

end Graph

namespace Compile

/-- What a node of the graph depends on are nodes of the graph, so a demand finds them all. -/
lemma DemandsTo.raises_admits {opened ids known : List NodeId} {x : Except Problem Written}
    (h : DemandsTo g opened ids known x) (hg : g.Recorded)
    (hids : ∀ id ∈ ids, g.contains id = true) : Raises g.Admits x := by
  induction h with
  | nil => exact raises_ok _
  | known _ _ ih => exact ih (List.forall_mem_cons.mp hids).2
  | absent _ hn =>
    have hcontains := (List.forall_mem_cons.mp hids).1
    rw [Graph.node?_eq_none_iff.mp hn] at hcontains
    cases hcontains
  | cycle => exact raises_error trivial
  | @bind opened ids known id node before rest _ _ hn _ _ _ ihBefore ihRest =>
    have hown : Raises g.Admits (binding g id node) :=
      (raises_binding g id node).mono fun e he => by cases e <;> trivial
    exact (ihBefore fun d hm => Graph.contains_of_isVariable
      (isVariable_of_mem_dependencies hg hn hm)).inTurn fun _ =>
        (hown.map _).inTurn fun _ => ihRest _ (List.forall_mem_cons.mp hids).2

lemma raises_admits_demandAll (hg : g.Recorded) {ids known : List NodeId}
    (h : ∀ id ∈ ids, g.contains id = true) : Raises g.Admits (demandAll g ids known) :=
  (demandsTo_demandEach _).raises_admits hg h

lemma raises_admits_demandOperand (hg : g.Recorded) {id : NodeId} {known : List NodeId}
    (h : g.contains id = true) : Raises g.Admits (demandOperand g id known) := by
  unfold demandOperand
  split
  · rename_i hn
    rw [Graph.node?_eq_none_iff.mp hn] at h
    cases h
  · split
    · exact raises_admits_demandAll hg (List.forall_mem_singleton.mpr h)
    · exact raises_ok _

/-- What is bound for a node is in the graph, and a comparison is reported with its flows. -/
lemma VisitsTo.raises_admits {comparing known : List NodeId} {previous : Option NodeId}
    {id : NodeId} {node : Node} {x : Except Problem Written}
    (h : VisitsTo g comparing previous known id node x) (hg : g.Recorded)
    (hn : g.node? id = some node) : Raises g.Admits x := by
  cases h with
  | var =>
    exact raises_admits_demandAll hg (List.forall_mem_singleton.mpr (Graph.contains_of_node? hn))
  | skip => exact raises_ok _
  | call =>
    exact (raises_admits_demandAll hg fun a ha =>
      Graph.contains_of_isVariable (isVariable_of_mem_parameters ha)).inTurn fun _ => raises_ok _
  | input => exact raises_ok _
  | output _ _ hvalue =>
    have hcontains := Graph.contains_of_isVariable (isVariable_of_printed? hvalue)
    exact (raises_admits_demandAll hg (List.forall_mem_singleton.mpr hcontains)).inTurn
      fun _ => raises_ok _
  | misshapen hkind hk hshape =>
    refine raises_error (Graph.admits_comparisonShape hg hn hkind hk fun hlength => ?_)
    obtain ⟨left, right, hin⟩ := List.length_eq_two.mp hlength.1
    obtain ⟨onFalse, onTrue, hout⟩ := List.length_eq_two.mp hlength.2
    exact hshape left right onFalse onTrue hin hout
  | _ => exact raises_error trivial

/-- A walk that starts at a node of the graph finds all nodes to which it comes. -/
lemma WalksTo.raises_admits {comparing seen known : List NodeId} {previous start : Option NodeId}
    {x : Except Problem Written} (h : WalksTo g comparing seen previous known start x)
    (hg : g.Recorded) (hstart : ∀ id, start = some id → g.contains id = true) :
    Raises g.Admits x := by
  induction h with
  | stop => exact raises_ok _
  | again => exact raises_error trivial
  | absent _ hn =>
    have hcontains := hstart _ rfl
    rw [Graph.node?_eq_none_iff.mp hn] at hcontains
    cases hcontains
  | visit _ hn hvisit _ ihAfter =>
    exact (hvisit.raises_admits hg hn).inTurn fun _ =>
      ihAfter _ fun b hb => hg.contains_of_next? hn hb
  | @compare comparing seen known previous id node k left right onFalse onTrue yes no after _ hn
      _ _ hin hout _ _ _ _ ihYes ihNo ihAfter =>
    -- operands and ways out are ends of flows
    have hends : ∀ {ids : List FlowId} {fs : List Flow}, byArrival (g.flowsOf ids) = fs →
        ∀ f ∈ fs, g.contains f.source = true ∧ g.contains f.target = true := by
      rintro ids _ rfl f hf
      exact hg.ends_of_mem_flowsOf ((byArrival_perm _).mem_iff.mp hf)
    have hway : ∀ f ∈ [onFalse, onTrue], ∀ b, some f.target = some b → g.contains b = true := by
      rintro f hf _ ⟨rfl⟩
      exact (hends hout f hf).2
    refine Raises.inTurn ?_ fun _ => ihAfter _ fun b hb => hg.contains_of_next? hn hb
    exact (raises_admits_demandOperand hg (hends hin left (by simp)).1).bind fun _ =>
      (raises_admits_demandOperand hg (hends hin right (by simp)).1).bind fun _ =>
        (ihYes _ (hway onTrue (by simp))).bind fun _ =>
          (ihNo _ (hway onFalse (by simp))).bind fun _ => raises_ok _

end Compile

namespace Graph

open FlowSketch.Compile

variable {g : Graph}

/-- A compilation finds everything that it looks up. -/
lemma raises_compile (hg : g.Recorded) : Raises g.Admits g.compile := by
  refine Raises.map _ ((Raises.mapM fun p hp => ?_).bind fun _ => raises_ok _)
  obtain ⟨n, hn, hkind, -⟩ := (mem_routineScopes hg).mp hp
  exact ((walksTo_walk _ _ _ _ _ _).raises_admits hg fun first hfirst =>
    hg.contains_of_entry? hn hkind hfirst).bind fun _ => raises_ok _

/-- **Compiling a drawn graph never fails because something is not found.**  No node is missing;
every number in a list of flows stands for a flow, so that no flow is left out of a list that is
sorted or counted; a comparison is reported with the flows that it has; and the operands of an
expression and the sides of a comparison have places in their lists. -/
theorem lookups_of_compile (edits : List Edit) :
    (∀ id, (drawn edits).compile ≠ .error (.noSuchNode id)) ∧
    (∀ id n, (drawn edits).node? id = some n →
      ∀ ids ∈ [n.links.incoming, n.links.outgoing, n.links.branches],
        (∀ j ∈ ids, ((drawn edits).flow? j).isSome = true) ∧
          ((drawn edits).flowsOf ids).length = ids.length) ∧
    (∀ id incoming outgoing,
      (drawn edits).compile = .error (.comparisonShape id incoming outgoing) →
        (drawn edits).Misshapen id incoming outgoing) ∧
    (∀ id n s, chainByPlace (drawn edits) id n s = some (chainValue (drawn edits) id n s)) ∧
    (∀ id n k, n.kind = .symbol k → k.effective = .compare →
      ∃ sides, sidesByPlace (drawn edits) id k = some sides ∧ ∀ comparing previous known hid,
        visit (drawn edits) comparing previous known id n hid = sides >>= fun p =>
          compareSides (drawn edits) comparing known id p.1 p.2.1 p.2.2.1 p.2.2.2) := by
  have hg := recorded_drawn edits
  refine ⟨fun id h => raises_compile hg _ h, ?_, fun id i o h => raises_compile hg _ h,
    fun id n s => chainByPlace_eq id n s, fun id n k => exists_sidesByPlace⟩
  intro id n hn ids hids
  have hfound := hg.isSome_flow? hn ids hids
  exact ⟨hfound, length_flowsOf hfound⟩

end Graph

end FlowSketch
