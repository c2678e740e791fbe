/-
# What a compilation has done

When a graph compiles, the statements of each function were put together by certain steps: a
variable was bound after those it depends on, a symbol or a scope was turned into a statement,
a comparison was entered on both ways.  The relations of this file say which, without the lists
that only make the compiler stop.  What holds of the statements is proved by induction on them.

Main statement: `walks_of_walk`.
-/
import FlowSketch.Proofs.Compile.Outcomes

namespace FlowSketch.Compile

variable {g : Graph}

/-! ## Variables -/

lemma BindsTo.eq_ok {id : NodeId} {node : Node} {x : Except Problem (List Listing.Step)}
    {own : List Listing.Step} (h : BindsTo g id node x) (hx : x = .ok own) :
    (own = [] ∧ ∀ v, node.kind = .var v → v.atomic = false) ∨
    ∃ v text value, node.kind = .var v ∧ v.atomic = true ∧ v.value = some text ∧
      textValue g id node text = .ok value ∧ own = [.bind id value] := by
  cases h with
  | blank hblank =>
    cases hx
    exact .inl ⟨rfl, hblank⟩
  | noValue => cases hx
  | value hk ha ht =>
    obtain ⟨value, hvalue, rfl⟩ := map_eq_ok.mp hx
    exact .inr ⟨_, _, value, hk, ha, ht, hvalue, rfl⟩

/-- A node is bound to the value of the text on it, unless it has no value of its own. -/
lemma binding_eq_ok {id : NodeId} {node : Node} {own : List Listing.Step}
    (h : binding g id node = .ok own) :
    (own = [] ∧ ∀ v, node.kind = .var v → v.atomic = false) ∨
    ∃ v text value, node.kind = .var v ∧ v.atomic = true ∧ v.value = some text ∧
      textValue g id node text = .ok value ∧ own = [.bind id value] :=
  (bindsTo_binding g id node).eq_ok h

/-- Nodes are bound in turn, each after those on which it depends and none twice.  The lists
of nodes are those that are bound before and after. -/
inductive Demands (g : Graph) : List NodeId → List NodeId → List Listing.Step → List NodeId → Prop
  /-- There is nothing to bind. -/
  | nil (known : List NodeId) : Demands g [] known [] known
  /-- The first node is bound already. -/
  | known {id : NodeId} {ids known known' : List NodeId} {rest : List Listing.Step} :
    id ∈ known → Demands g ids known rest known' → Demands g (id :: ids) known rest known'
  /-- The first node is bound here. -/
  | bind {id : NodeId} {ids known between known' : List NodeId} {node : Node}
    {before own rest : List Listing.Step} :
    id ∉ known → g.node? id = some node →
    Demands g (g.dependencies node) known before between → binding g id node = .ok own →
    Demands g ids (id :: between) rest known' →
    Demands g (id :: ids) known (before ++ own ++ rest) known'

/-- What a demand writes is written in this way. -/
lemma DemandsTo.demands {opened ids known known' : List NodeId} {x : Except Problem Written}
    {ss : List Listing.Step} (h : DemandsTo g opened ids known x) (hx : x = .ok (ss, known')) :
    Demands g ids known ss known' := by
  induction h generalizing ss known' with
  | nil opened known =>
    cases hx
    exact .nil _
  | known hmem _ ih => exact .known hmem (ih hx)
  | absent => cases hx
  | cycle => cases hx
  | bind _ hnew hn _ _ _ ihBefore ihRest =>
    obtain ⟨before, between, _, hbefore, hbehind, rfl⟩ := inTurn_eq_ok.mp hx
    obtain ⟨own, _, rest, hbound, hrest, rfl⟩ := inTurn_eq_ok.mp hbehind
    obtain ⟨hown, rfl⟩ := map_own_eq_ok.mp hbound
    rw [← List.append_assoc]
    exact .bind hnew hn (ihBefore hbefore) hown (ihRest _ hrest)

lemma demands_of_demandEach {opened ids known known' : List NodeId} {ss : List Listing.Step}
    (hids : ∀ d ∈ ids, d ∉ opened) (h : demandEach g opened ids hids known = .ok (ss, known')) :
    Demands g ids known ss known' :=
  (demandsTo_demandEach hids).demands h

/-- An operand of a comparison is bound if it is a variable. -/
lemma demands_of_demandOperand {id : NodeId} {known known' : List NodeId}
    {ss : List Listing.Step} (h : demandOperand g id known = .ok (ss, known')) :
    Demands g (if g.isVariable id then [id] else []) known ss known' := by
  unfold demandOperand at h
  split at h
  · cases h
  · rename_i node hn
    rw [Graph.isVariable_of_node? hn]
    split at h
    · rename_i hv
      rw [if_pos hv]
      exact demands_of_demandEach _ h
    · rename_i hv
      rw [if_neg hv]
      cases h
      exact .nil _

/-! ## Walks -/

/-- A node that is no comparison is visited: the statements that it gives, and the nodes that
are bound before and after. -/
inductive Visits (g : Graph) (previous : Option NodeId) (known : List NodeId) (id : NodeId)
    (node : Node) : List Listing.Step → List NodeId → Prop
  /-- A variable is bound. -/
  | var {v : Variable} {ss : List Listing.Step} {known' : List NodeId} :
    node.kind = .var v → Demands g [id] known ss known' → Visits g previous known id node ss known'
  /-- The root and scopes without a body do nothing. -/
  | skip {s : Scope} :
    node.kind = .scope s → (id.isRoot || s.start.isNone) = true →
    Visits g previous known id node [] known
  /-- Another scope is called. -/
  | call {s : Scope} {before : List Listing.Step} {known' : List NodeId} :
    node.kind = .scope s → (id.isRoot || s.start.isNone) = false →
    Demands g (g.parameters s) known before known' →
    Visits g previous known id node (before ++ [.call id (g.parameters s)]) known'
  /-- An input fills a variable. -/
  | input {k : Symbol} {target : NodeId} :
    node.kind = .symbol k → k.effective = .input →
    (g.firstBranch? k.links).or k.links.next = some target →
    Visits g previous known id node [.bind target .input] (target :: known)
  /-- An output prints a variable. -/
  | output {k : Symbol} {value : NodeId} {before : List Listing.Step} {known' : List NodeId} :
    node.kind = .symbol k → k.effective = .output → printed? g previous k.links = some value →
    Demands g [value] known before known' →
    Visits g previous known id node (before ++ [.print value]) known'

/-- A walk: from the node before it, the nodes that are bound and the node at which it begins,
the statements and the nodes that are bound after it. -/
inductive Walks (g : Graph) :
    Option NodeId → List NodeId → Option NodeId → List Listing.Step → List NodeId → Prop
  /-- The walk is at its end. -/
  | stop (previous : Option NodeId) (known : List NodeId) : Walks g previous known none [] known
  /-- A node is visited. -/
  | visit {previous : Option NodeId} {known between known' : List NodeId} {id : NodeId}
    {node : Node} {here after : List Listing.Step} :
    g.node? id = some node → Visits g previous known id node here between →
    Walks g (some id) between (g.next? node) after known' →
    Walks g previous known (some id) (here ++ after) known'
  /-- A comparison is entered on both ways.  What is bound on them is not bound behind it. -/
  | compare {previous : Option NodeId} {known known₁ known₂ knownYes knownNo known' : List NodeId}
    {id : NodeId} {node : Node} {k : Symbol} {left right onFalse onTrue : Flow}
    {first second yes no after : List Listing.Step} :
    g.node? id = some node → node.kind = .symbol k → k.effective = .compare →
    byArrival (g.flowsOf k.links.incoming) = [left, right] →
    byArrival (g.flowsOf k.links.branches) = [onFalse, onTrue] →
    Demands g (if g.isVariable left.source then [left.source] else []) known first known₁ →
    Demands g (if g.isVariable right.source then [right.source] else []) known₁ second known₂ →
    Walks g none known₂ (some onTrue.target) yes knownYes →
    Walks g none known₂ (some onFalse.target) no knownNo →
    Walks g (some id) known₂ (g.next? node) after known' →
    Walks g previous known (some id)
      (first ++ second ++ [.branch left.source right.source yes no] ++ after) known'

/-- What is written for a node that is visited is written in this way. -/
lemma VisitsTo.visits {comparing known between : List NodeId} {previous : Option NodeId}
    {id : NodeId} {node : Node} {x : Except Problem Written} {here : List Listing.Step}
    (h : VisitsTo g comparing previous known id node x) (hx : x = .ok (here, between)) :
    Visits g previous known id node here between := by
  cases h with
  | var hkind => exact .var hkind (demands_of_demandEach _ hx)
  | skip hkind hskip =>
    cases hx
    exact .skip hkind hskip
  | call hkind hcall =>
    obtain ⟨before, mid, called, hbefore, hcalled, rfl⟩ := inTurn_eq_ok.mp hx
    cases hcalled
    exact .call hkind hcall (demands_of_demandEach _ hbefore)
  | unset => cases hx
  | noTarget => cases hx
  | input hkind hk htarget =>
    cases hx
    exact .input hkind hk htarget
  | nothing => cases hx
  | output hkind hk hvalue =>
    obtain ⟨before, mid, printed, hbefore, hprinted, rfl⟩ := inTurn_eq_ok.mp hx
    cases hprinted
    exact .output hkind hk hvalue (demands_of_demandEach _ hbefore)
  | misshapen => cases hx
  | inside => cases hx

/-- The operands of a comparison are bound, and then its ways are written. -/
lemma comparison_eq_ok {known known' : List NodeId} {left right : NodeId}
    {yes no : List NodeId → Except Problem Written} {ss : List Listing.Step}
    (h : comparison g known left right yes no = .ok (ss, known')) :
    ∃ first known₁ second stepsYes knownYes stepsNo knownNo,
      Demands g (if g.isVariable left then [left] else []) known first known₁ ∧
      Demands g (if g.isVariable right then [right] else []) known₁ second known' ∧
      yes known' = .ok (stepsYes, knownYes) ∧ no known' = .ok (stepsNo, knownNo) ∧
      ss = first ++ second ++ [.branch left right stepsYes stepsNo] := by
  obtain ⟨⟨first, known₁⟩, hfirst, h⟩ := bind_eq_ok.mp h
  obtain ⟨⟨second, known₂⟩, hsecond, h⟩ := bind_eq_ok.mp h
  obtain ⟨⟨stepsYes, knownYes⟩, hyes, h⟩ := bind_eq_ok.mp h
  obtain ⟨⟨stepsNo, knownNo⟩, hno, h⟩ := bind_eq_ok.mp h
  cases h
  exact ⟨first, known₁, second, stepsYes, knownYes, stepsNo, knownNo,
    demands_of_demandOperand hfirst, demands_of_demandOperand hsecond, hyes, hno, rfl⟩

/-- What a walk of the compiler writes is written in this way. -/
lemma WalksTo.walks {comparing seen known known' : List NodeId} {previous start : Option NodeId}
    {x : Except Problem Written} {ss : List Listing.Step}
    (h : WalksTo g comparing seen previous known start x) (hx : x = .ok (ss, known')) :
    Walks g previous known start ss known' := by
  induction h generalizing ss known' with
  | stop =>
    cases hx
    exact .stop _ _
  | again => cases hx
  | absent => cases hx
  | visit _ hn hvisit _ ihAfter =>
    obtain ⟨here, between, after, hhere, hafter, rfl⟩ := inTurn_eq_ok.mp hx
    exact .visit hn (hvisit.visits hhere) (ihAfter _ hafter)
  | compare _ hn hkind hk hin hout _ _ _ _ ihYes ihNo ihAfter =>
    obtain ⟨here, between, after, hhere, hafter, rfl⟩ := inTurn_eq_ok.mp hx
    obtain ⟨_, _, _, _, _, _, _, hfirst, hsecond, hyes, hno, rfl⟩ := comparison_eq_ok hhere
    exact .compare hn hkind hk hin hout hfirst hsecond (ihYes _ hyes) (ihNo _ hno)
      (ihAfter _ hafter)

lemma walks_of_walk {comparing seen known known' : List NodeId} {previous start : Option NodeId}
    {ss : List Listing.Step} (h : walk g comparing seen previous known start = .ok (ss, known')) :
    Walks g previous known start ss known' :=
  (walksTo_walk g comparing seen previous known start).walks h

end FlowSketch.Compile
