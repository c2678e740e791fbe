/-
# Cycles

A node *steps* to what comes after it and, if it is a comparison, to both ways out of it.  A node
*depends* on the variables that flow into it and, if it is a composed variable, on its members.

If a graph compiles, then no cycle of steps can be reached from the first node of a function: what
was written for a node is finite, and it contains what was written for the nodes behind it.  The
converse fails, since a graph has other problems as well; but a cycle is only reported at a node
that lies on one, of steps or of dependencies.

Main statement: `compile_cycles`.
-/
import FlowSketch.Proofs.Compile.Halting
import FlowSketch.Proofs.Compile.Listing

namespace FlowSketch

open Relation (ReflTransGen TransGen)
open FlowSketch.Compile (Walks Visits Raises raises_ok walksTo_walk)

namespace Graph

variable {g : Graph} {a b : NodeId}

/-! ## Steps and dependencies -/

/-- What can come after a node in a function. -/
def Steps (g : Graph) (a b : NodeId) : Prop :=
  ∃ node, g.node? a = some node ∧ (g.next? node = some b ∨
    ∃ k, node.kind = .symbol k ∧ k.effective = .compare ∧
      ∃ f ∈ g.flowsOf k.links.branches, f.target = b)

/-- What is bound before a node. -/
def DependsOn (g : Graph) (a b : NodeId) : Prop :=
  ∃ node, g.node? a = some node ∧ ((∃ f ∈ g.variableFlows node.links, f.source = b) ∨
    ∃ v, node.kind = .var v ∧ v.atomic = false ∧ b ∈ v.members)

/-- A node that lies on a cycle of steps or on a cycle of dependencies. -/
def OnCycle (g : Graph) (id : NodeId) : Prop :=
  TransGen g.Steps id id ∨ TransGen g.DependsOn id id

lemma steps_next {node : Node} (hn : g.node? a = some node) (h : g.next? node = some b) :
    g.Steps a b :=
  ⟨node, hn, .inl h⟩

lemma steps_branch {node : Node} {k : Symbol} {f : Flow} (hn : g.node? a = some node)
    (hkind : node.kind = .symbol k) (hk : k.effective = .compare)
    (hf : f ∈ g.flowsOf k.links.branches) : g.Steps a f.target :=
  ⟨node, hn, .inr ⟨k, hkind, hk, f, hf, rfl⟩⟩

lemma dependsOn_of_mem {node : Node} (hn : g.node? a = some node)
    (h : b ∈ g.dependencies node) : g.DependsOn a b := by
  refine ⟨node, hn, ?_⟩
  rw [dependencies, List.mem_append, List.mem_map] at h
  rcases h with hflow | hmember
  · exact .inl hflow
  · unfold Node.var? at hmember
    cases hk : node.kind with
    | var v =>
      rw [hk] at hmember
      dsimp only at hmember
      split at hmember
      · cases hmember
      · rename_i hatomic
        exact .inr ⟨v, rfl, Bool.eq_false_iff.mpr hatomic, hmember⟩
    | scope s =>
      rw [hk] at hmember
      cases hmember
    | symbol k =>
      rw [hk] at hmember
      cases hmember

/-! ## Walks that end -/

/-- A node from which all steps come to an end lies on no cycle of steps. -/
lemma not_transGen_of_acc {r : NodeId → NodeId → Prop} (h : Acc (fun b a => r a b) a) :
    ¬ TransGen r a a := by
  induction h with
  | intro a _ ih =>
    -- the first step of a cycle leads to a node that lies on the same cycle
    intro hcycle
    obtain ⟨b, hstep, hback⟩ := TransGen.head'_iff.mp hcycle
    exact ih b hstep (TransGen.tail' hback hstep)

lemma acc_of_reflTransGen (h : ReflTransGen g.Steps a b)
    (ha : Acc (fun b a => g.Steps a b) a) : Acc (fun b a => g.Steps a b) b := by
  induction h with
  | refl => exact ha
  | tail _ hstep ih => exact ih.inv hstep

end Graph

namespace Compile

variable {g : Graph}

/-- A node with a plain statement is no comparison. -/
lemma Visits.not_compare {previous : Option NodeId} {known known' : List NodeId} {id : NodeId}
    {node : Node} {ss : List Listing.Step} (h : Visits g previous known id node ss known')
    {k : Symbol} (hk : node.kind = .symbol k) : k.effective ≠ .compare := by
  intro heffective
  cases h with
  | var hkind => cases hkind.symm.trans hk
  | skip hkind => cases hkind.symm.trans hk
  | call hkind => cases hkind.symm.trans hk
  | input hkind hinput =>
    cases hkind.symm.trans hk
    cases hinput.symm.trans heffective
  | output hkind houtput =>
    cases hkind.symm.trans hk
    cases houtput.symm.trans heffective

/-- All steps from the first node of a walk come to an end. -/
lemma Walks.acc {previous : Option NodeId} {known known' : List NodeId} {start : Option NodeId}
    {ss : List Listing.Step} (h : Walks g previous known start ss known') :
    ∀ id, start = some id → Acc (fun b a => g.Steps a b) id := by
  induction h with
  | stop =>
    intro id hid
    cases hid
  | visit hn hvisit _ ih =>
    rintro id ⟨rfl⟩
    refine ⟨_, fun b hstep => ?_⟩
    obtain ⟨node, hnode, hnext | ⟨k, hkind, hk, -⟩⟩ := hstep
    · cases hn.symm.trans hnode
      exact ih b hnext
    · cases hn.symm.trans hnode
      exact absurd hk (hvisit.not_compare hkind)
  | compare hn hkind _ _ hout _ _ _ _ _ ihYes ihNo ihAfter =>
    -- the two ways out are all its branches, in another order
    rintro id ⟨rfl⟩
    refine ⟨_, fun b hstep => ?_⟩
    obtain ⟨node, hnode, hnext | ⟨k, hkind', -, f, hf, rfl⟩⟩ := hstep
    · cases hn.symm.trans hnode
      exact ihAfter b hnext
    · cases hn.symm.trans hnode
      cases hkind.symm.trans hkind'
      rw [← (byArrival_perm _).mem_iff, hout, List.mem_pair] at hf
      rcases hf with rfl | rfl
      · exact ihNo _ rfl
      · exact ihYes _ rfl

/-! ## Cycles that are reported -/

section Reports

variable {p : NodeId → Prop} {α : Type}

/-- A cycle is only reported at a node with a property. -/
def Reports (p : NodeId → Prop) (x : Except Problem α) : Prop :=
  ∀ d, x = .error (.cycle d) → p d

/-- A problem that, if it is a cycle, is one at a node with a property. -/
def CycleAt (p : NodeId → Prop) : Problem → Prop
  | .cycle d => p d
  | _ => True

lemma Raises.reports {x : Except Problem α} (h : Raises (CycleAt p) x) : Reports p x :=
  fun _ hd => h _ hd

/-- The nodes that wait depend on the node that they wait for.  So a node on which a node depends
that waits for it depends on itself.  None of the nodes that wait was bound at first. -/
lemma DemandsTo.raises_cycleAt {r : NodeId → NodeId → Prop} {bound opened ids known : List NodeId}
    {x : Except Problem Written} (h : DemandsTo g opened ids known x)
    (hr : ∀ a b, p a → a ∉ bound → g.DependsOn a b → p b ∧ r a b)
    (hbound : bound ⊆ known) (hp : ∀ id ∈ ids, p id)
    (hopened : ∀ id ∈ ids, ∀ o ∈ opened, TransGen r o id) :
    Raises (CycleAt fun d => TransGen r d d) x := by
  induction h with
  | nil => exact raises_ok _
  | known _ _ ih =>
    exact ih hbound (List.forall_mem_cons.mp hp).2 (List.forall_mem_cons.mp hopened).2
  | absent => exact raises_error trivial
  | cycle hnew hn hd =>
    -- the node depends on one that waits for it, or on itself
    obtain ⟨-, hstep⟩ := hr _ _ (List.forall_mem_cons.mp hp).1 (fun hmem => hnew (hbound hmem))
      (Graph.dependsOn_of_mem hn (List.mem_reverse.mp (List.mem_of_find?_eq_some hd)))
    have hmem := List.find?_some hd
    rw [decide_eq_true_eq] at hmem
    rcases List.mem_cons.mp hmem with rfl | ho
    · exact raises_error (.single hstep)
    · exact raises_error (((List.forall_mem_cons.mp hopened).1 _ ho).tail hstep)
  | @bind opened ids known id node before rest _ hnew hn _ hbefore _ ihBefore ihRest =>
    obtain ⟨hpid, hpids⟩ := List.forall_mem_cons.mp hp
    obtain ⟨hfirst, hrest⟩ := List.forall_mem_cons.mp hopened
    have hstep : ∀ d ∈ g.dependencies node, p d ∧ r id d := fun d hm =>
      hr id d hpid (fun hmem => hnew (hbound hmem)) (Graph.dependsOn_of_mem hn hm)
    -- the node waits for those on which it depends
    have hwaiting : ∀ d ∈ g.dependencies node, ∀ o ∈ id :: opened, TransGen r o d := by
      intro d hm o ho
      rcases List.mem_cons.mp ho with rfl | ho
      · exact .single (hstep d hm).2
      · exact (hfirst o ho).tail (hstep d hm).2
    refine (ihBefore hbound (fun d hm => (hstep d hm).1) hwaiting).inTurn_of_ok
      fun ss between hok => ?_
    have hown : Raises (CycleAt fun d => TransGen r d d) (binding g id node) :=
      (raises_binding g id node).mono fun e he => by cases e <;> trivial
    refine (hown.map _).inTurn_of_ok fun own known' hknown' => ?_
    obtain ⟨-, rfl⟩ := map_own_eq_ok.mp hknown'
    -- what was bound at first is still bound
    have hsub := (hbefore.subset_and_not_mem hok).1
    exact ihRest _ (List.subset_cons_of_subset _ (List.Subset.trans hbound hsub)) hpids hrest

lemma raises_demandAll (ids known : List NodeId) :
    Raises (CycleAt g.OnCycle) (demandAll g ids known) := by
  refine ((demandsTo_demandEach _).raises_cycleAt (p := fun _ => True)
    (fun _ _ _ _ h => ⟨trivial, h⟩) (List.nil_subset known) (fun _ _ => trivial)
    fun _ _ _ ho => absurd ho List.not_mem_nil).mono fun e he => ?_
  cases e with
  | cycle d => exact .inr he
  | _ => trivial

lemma raises_demandOperand (id : NodeId) (known : List NodeId) :
    Raises (CycleAt g.OnCycle) (demandOperand g id known) := by
  unfold demandOperand
  split
  · exact raises_error trivial
  · split
    · exact raises_demandAll _ _
    · exact raises_ok _

/-- A comparison is visited inside of itself only if steps lead from it back to it. -/
lemma VisitsTo.raises_cycleAt {comparing known : List NodeId} {previous : Option NodeId}
    {id : NodeId} {node : Node} {x : Except Problem Written}
    (h : VisitsTo g comparing previous known id node x)
    (hsteps : ∀ o ∈ comparing, TransGen g.Steps o id) : Raises (CycleAt g.OnCycle) x := by
  cases h with
  | var => exact raises_demandAll _ _
  | skip => exact raises_ok _
  | call => exact (raises_demandAll _ _).inTurn fun _ => raises_ok _
  | output => exact (raises_demandAll _ _).inTurn fun _ => raises_ok _
  | inside _ _ _ _ hc => exact raises_error (.inl (hsteps id hc))
  | input => exact raises_ok _
  | _ => exact raises_error trivial

/-- Steps lead to a node from those that the walk has entered, and from the comparisons that it is
inside of.  So a node to which it comes back can be reached from itself. -/
lemma WalksTo.raises_cycleAt {comparing seen known : List NodeId} {previous start : Option NodeId}
    {x : Except Problem Written} (h : WalksTo g comparing seen previous known start x)
    (hsteps : ∀ id, start = some id → ∀ o, o ∈ comparing ∨ o ∈ seen → TransGen g.Steps o id) :
    Raises (CycleAt g.OnCycle) x := by
  -- a node is entered, and a step leads from it to the next one
  have hbehind : ∀ {comparing seen : List NodeId} {id : NodeId} {node : Node},
      g.node? id = some node →
      (∀ id', some id = some id' → ∀ o, o ∈ comparing ∨ o ∈ seen → TransGen g.Steps o id') →
      ∀ b, g.next? node = some b → ∀ o, o ∈ comparing ∨ o ∈ id :: seen → TransGen g.Steps o b := by
    intro comparing seen id node hn hsteps b hnext o ho
    have hstep := Graph.steps_next hn hnext
    rcases ho with ho | ho
    · exact (hsteps id rfl o (.inl ho)).tail hstep
    · rcases List.mem_cons.mp ho with rfl | ho
      · exact .single hstep
      · exact (hsteps id rfl o (.inr ho)).tail hstep
  induction h with
  | stop => exact raises_ok _
  | again hs => exact raises_error (.inl (hsteps _ rfl _ (.inr hs)))
  | absent => exact raises_error trivial
  | visit _ hn hvisit _ ihAfter =>
    exact (hvisit.raises_cycleAt fun o ho => hsteps _ rfl o (.inl ho)).inTurn fun _ =>
      ihAfter _ (hbehind hn hsteps)
  | @compare comparing seen known previous id node k left right onFalse onTrue yes no after _ hn
      hkind hk _ hout _ _ _ _ ihYes ihNo ihAfter =>
    -- a way out starts afresh, but it is inside of this comparison
    have hinside : ∀ f ∈ [onFalse, onTrue], ∀ b, some f.target = some b →
        ∀ o, o ∈ id :: comparing ∨ o ∈ [] → TransGen g.Steps o b := by
      rintro f hf b ⟨rfl⟩ o ho
      rw [← hout, (byArrival_perm _).mem_iff] at hf
      have hstep := Graph.steps_branch hn hkind hk hf
      rcases List.mem_cons.mp (ho.resolve_right List.not_mem_nil) with rfl | ho
      · exact .single hstep
      · exact (hsteps id rfl o (.inl ho)).tail hstep
    refine Raises.inTurn ?_ fun _ => ihAfter _ (hbehind hn hsteps)
    exact (raises_demandOperand _ _).bind fun _ => (raises_demandOperand _ _).bind fun _ =>
      (ihYes _ (hinside onTrue (by simp))).bind fun _ =>
        (ihNo _ (hinside onFalse (by simp))).bind fun _ => raises_ok _

end Reports

end Compile

namespace Graph

/-- A cycle is reported at a node that lies on one. -/
lemma reports_compile (g : Graph) : Compile.Reports g.OnCycle g.compile := by
  refine (Raises.map _ ((Raises.mapM fun p _ => ?_).bind fun _ => raises_ok _)).reports
  refine ((walksTo_walk _ _ _ _ _ _).raises_cycleAt ?_).bind fun _ => raises_ok _
  rintro id _ o (ho | ho)
  · cases ho
  · cases ho

/-- If a graph compiles, all steps from the first node of a function come to an end. -/
lemma acc_of_compile {g : Graph} (hg : g.Recorded) {text : String} (h : g.compile = .ok text)
    {id first : NodeId} {n : Node} {s : Scope} (hn : g.node? id = some n) (hk : n.kind = .scope s)
    (hs : id = NodeId.root ∨ s.start.isSome = true) (hfirst : g.entry? id s = some first) :
    Acc (fun b a => g.Steps a b) first := by
  obtain ⟨l, hl, rfl⟩ := compile_eq_ok.mp h
  obtain ⟨r, -, -, known, hwalk⟩ := exists_find?_routine hg hl hn hk hs
  rw [hfirst] at hwalk
  exact hwalk.acc first rfl

/-- **Compiling always comes to an end.  If a graph compiles, no cycle of steps can be reached from
the first node of a function; and if a cycle is reported, it is one of steps or of
dependencies.** -/
theorem compile_cycles (edits : List Edit) :
    (Compile.Attempt.compile (drawn edits)).run = some (drawn edits).compile ∧
    (∀ text, (drawn edits).compile = .ok text →
      ∀ id n s first, (drawn edits).node? id = some n → n.kind = .scope s →
        (id = NodeId.root ∨ s.start.isSome = true) → entry? (drawn edits) id s = some first →
          ∀ a, ReflTransGen (drawn edits).Steps first a → ¬ TransGen (drawn edits).Steps a a) ∧
    (∀ d, (drawn edits).compile = .error (.cycle d) →
      TransGen (drawn edits).Steps d d ∨ TransGen (drawn edits).DependsOn d d) := by
  refine ⟨congrArg ExceptT.run (Compile.Attempt.compile_eq _), ?_, reports_compile _⟩
  intro text htext id n s first hn hk hs hfirst a ha
  have hacc := acc_of_compile (recorded_drawn edits) htext hn hk hs hfirst
  exact not_transGen_of_acc (acc_of_reflTransGen ha hacc)

end Graph

end FlowSketch
