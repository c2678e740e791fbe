/-
# The order of bindings

When a variable is demanded, what it depends on is bound first.  This file says what that comes
to.  The nodes that are *wanted* for it are those that can be reached from it by dependencies
without passing through a node that is bound already.  They are bound one at a time, none of them
twice, and each after all that it depends on.  If they depend on each other in a cycle there is no
such order, and nothing is bound; and where a cycle is reported, there is one among them.

The search for them goes deep first and forgets how it came to a node, so its order is not the one
in which they are found.  What is kept is a list in which every node stands before those that it
depends on: from the search comes the list (`Demands.binds`), and from the list the rest.

Main statement: `bound_in_order`.
-/
import FlowSketch.Proofs.Compile.Cycles
import FlowSketch.Proofs.Compile.Scoping

namespace FlowSketch

open Relation (ReflTransGen TransGen)

/-! ## What is wanted -/

namespace Graph

/-- Whether a node is a variable with a value of its own. -/
def isAtomic (g : Graph) (id : NodeId) : Bool :=
  ((g.node? id).bind Node.var?).any (·.atomic)

/-- A node that is not bound yet needs what it depends on. -/
def Needs (g : Graph) (known : List NodeId) (a b : NodeId) : Prop := a ∉ known ∧ g.DependsOn a b

/-- A node is wanted for another one if it is not bound yet and can be reached from there without
passing through a node that is bound. -/
def Wanted (g : Graph) (known : List NodeId) (id a : NodeId) : Prop :=
  ReflTransGen (g.Needs known) id a ∧ a ∉ known

/-- One node that is wanted depends on another. -/
def WantedFor (g : Graph) (known : List NodeId) (id a b : NodeId) : Prop :=
  g.Wanted known id a ∧ g.Wanted known id b ∧ g.DependsOn a b

variable {g : Graph} {known : List NodeId} {id a b : NodeId}

lemma Needs.mono {known' : List NodeId} (h : g.Needs known' a b) (hsub : known ⊆ known') :
    g.Needs known a b :=
  ⟨fun hmem => h.1 (hsub hmem), h.2⟩

lemma mem_dependencies_of_dependsOn {node : Node} (hn : g.node? a = some node)
    (h : g.DependsOn a b) : b ∈ g.dependencies node := by
  obtain ⟨node', hn', hb⟩ := h
  cases hn.symm.trans hn'
  rw [dependencies, List.mem_append]
  rcases hb with ⟨f, hf, rfl⟩ | ⟨v, hv, hcomposed, hmember⟩
  · exact .inl (List.mem_map.mpr ⟨f, hf, rfl⟩)
  · refine .inr ?_
    rw [Node.var?, hv]
    simpa [hcomposed] using hmember

end Graph

namespace Compile

variable {g : Graph} {known : List NodeId}

/-! ## Nodes bound one at a time -/

/-- Nodes are bound one at a time, each when all is bound that it depends on.  The list of the
nodes begins with the latest. -/
inductive Binds (g : Graph) (known : List NodeId) : List NodeId → List Listing.Step → Prop
  | nil : Binds g known [] []
  | cons {id : NodeId} {node : Node} {ids : List NodeId} {ss own : List Listing.Step} :
    Binds g known ids ss → id ∉ ids ++ known → g.node? id = some node →
    (∀ b ∈ g.dependencies node, b ∈ ids ++ known) → binding g id node = .ok own →
    Binds g known (id :: ids) (ss ++ own)

namespace Binds

variable {ids ids' : List NodeId} {ss ss' : List Listing.Step}

/-- Further nodes are bound when others have been. -/
lemma append (h : Binds g known ids ss) (h' : Binds g (ids ++ known) ids' ss') :
    Binds g known (ids' ++ ids) (ss ++ ss') := by
  induction h' with
  | nil => simpa using h
  | cons _ hnew hn hdeps hown ih =>
    rw [← List.append_assoc] at hnew hdeps
    rw [List.cons_append, ← List.append_assoc]
    exact .cons ih hnew hn hdeps hown

lemma nodup (h : Binds g known ids ss) : ids.Nodup := by
  induction h with
  | nil => exact List.nodup_nil
  | cons _ hnew _ _ _ ih =>
    exact List.nodup_cons.mpr ⟨fun hmem => hnew (List.mem_append_left _ hmem), ih⟩

lemma not_mem_known (h : Binds g known ids ss) {a : NodeId} (ha : a ∈ ids) : a ∉ known := by
  induction h with
  | nil => cases ha
  | cons _ hnew _ _ _ ih =>
    rcases List.mem_cons.mp ha with rfl | ha
    · exact fun hmem => hnew (List.mem_append_right _ hmem)
    · exact ih ha

/-- What a bound node depends on is bound as well. -/
lemma closed (h : Binds g known ids ss) {a b : NodeId} (ha : a ∈ ids) (hab : g.DependsOn a b) :
    b ∈ ids ++ known := by
  induction h with
  | nil => cases ha
  | cons _ _ hn hdeps _ ih =>
    refine List.mem_cons_of_mem _ ?_
    rcases List.mem_cons.mp ha with rfl | ha
    · exact hdeps b (Graph.mem_dependencies_of_dependsOn hn hab)
    · exact ih ha

lemma closed_transGen (h : Binds g known ids ss) {a b : NodeId} (ha : a ∈ ids)
    (hab : TransGen (g.Needs known) a b) : b ∈ ids ++ known := by
  induction hab with
  | single hab => exact h.closed ha hab.2
  | tail _ hbc ih =>
    -- only nodes that were not bound before need anything
    rcases List.mem_append.mp ih with hb | hb
    · exact h.closed hb hbc.2
    · exact absurd hb hbc.1

/-- What a bound node needs comes to an end: at nodes that were bound before, or at nodes that
depend on nothing. -/
lemma acc (h : Binds g known ids ss) {a : NodeId} (ha : a ∈ ids ++ known) :
    Acc (fun b a => g.Needs known a b) a := by
  induction h generalizing a with
  | nil => exact ⟨a, fun b hab => absurd ha hab.1⟩
  | cons _ _ hn hdeps _ ih =>
    rcases List.mem_cons.mp ha with rfl | ha
    · exact ⟨_, fun b hab => ih (hdeps b (Graph.mem_dependencies_of_dependsOn hn hab.2))⟩
    · exact ih ha

/-- A node stands in the list before all that it needs. -/
lemma pair_sublist (h : Binds g known ids ss) {a b : NodeId} (ha : a ∈ ids) (hb : b ∈ ids)
    (hab : TransGen (g.Needs known) a b) : [a, b].Sublist ids := by
  induction h with
  | nil => cases ha
  | @cons id node ids ss own hids hnew hn hdeps hown ih =>
    have hall : Binds g known (id :: ids) (ss ++ own) := .cons hids hnew hn hdeps hown
    rcases List.mem_cons.mp ha with rfl | ha'
    · have hne : b ≠ a := by
        rintro rfl
        exact Graph.not_transGen_of_acc (hall.acc List.mem_cons_self) hab
      exact .cons_cons _ (List.singleton_sublist.mpr ((List.mem_cons.mp hb).resolve_left hne))
    · have hne : b ≠ id := by
        rintro rfl
        exact hnew (hids.closed_transGen ha' hab)
      exact .cons _ (ih ha' ((List.mem_cons.mp hb).resolve_left hne))

/-- The statements bind the atomic variables of the list, the latest last. -/
lemma exists_bindings (h : Binds g known ids ss) :
    ∃ bound : List (NodeId × Listing.Value), ss = bound.map (fun p => .bind p.1 p.2) ∧
      bound.map Prod.fst = ids.reverse.filter g.isAtomic ∧
      ∀ p ∈ bound, ∃ node, g.node? p.1 = some node ∧ binding g p.1 node = .ok [.bind p.1 p.2] := by
  induction h with
  | nil => exact ⟨[], rfl, rfl, fun p hp => absurd hp List.not_mem_nil⟩
  | @cons id node ids ss own _ _ hn _ hown ih =>
    obtain ⟨bound, rfl, hbound, hvalues⟩ := ih
    rw [List.reverse_cons, List.filter_append, ← hbound]
    rcases binding_eq_ok hown with ⟨rfl, hplain⟩ | ⟨v, text, value, hk, ha, -, -, rfl⟩
    · have hatomic : g.isAtomic id = false := by
        cases hk : node.kind with
        | var v => simp [Graph.isAtomic, hn, Node.var?, hk, hplain v hk]
        | scope s => simp [Graph.isAtomic, hn, Node.var?, hk]
        | symbol k => simp [Graph.isAtomic, hn, Node.var?, hk]
      exact ⟨bound, by simp, by simp [hatomic], hvalues⟩
    · have hatomic : g.isAtomic id = true := by
        simp [Graph.isAtomic, hn, Node.var?, hk, ha]
      refine ⟨bound ++ [(id, value)], by simp, by simp [hatomic], fun p hp => ?_⟩
      rcases List.mem_append.mp hp with hp | hp
      · exact hvalues p hp
      · rw [List.mem_singleton.mp hp]
        exact ⟨node, hn, hown⟩

end Binds

/-- Nodes that are bound in turn are bound one at a time.  All of them are bound then, and no
others but those that they need. -/
lemma Demands.binds {ids known' : List NodeId} {ss : List Listing.Step}
    (h : Demands g ids known ss known') :
    ∃ added, known' = added ++ known ∧ Binds g known added ss ∧ ids ⊆ known' ∧
      ∀ a ∈ added, ∃ id ∈ ids, ReflTransGen (g.Needs known) id a := by
  induction h with
  | nil known => exact ⟨[], rfl, .nil, List.nil_subset _, fun a ha => absurd ha List.not_mem_nil⟩
  | known hmem _ ih =>
    obtain ⟨added, rfl, hbinds, hids, hreach⟩ := ih
    refine ⟨added, rfl, hbinds, List.cons_subset.mpr ⟨List.mem_append_right _ hmem, hids⟩, ?_⟩
    intro a ha
    obtain ⟨id, hid, hpath⟩ := hreach a ha
    exact ⟨id, List.mem_cons_of_mem _ hid, hpath⟩
  | @bind id ids known between known' node before own rest hnew hn _ hown _ ihBefore ihRest =>
    obtain ⟨below, rfl, hbelow, hdeps, hreachBelow⟩ := ihBefore
    obtain ⟨above, rfl, habove, hids, hreachAbove⟩ := ihRest
    have hneeds : ∀ d ∈ g.dependencies node, g.Needs known id d := fun d hd =>
      ⟨hnew, Graph.dependsOn_of_mem hn hd⟩
    have hid : id ∉ below ++ known := by
      intro hmem
      -- the node would need itself
      obtain ⟨d, hd, hpath⟩ := hreachBelow id ((List.mem_append.mp hmem).resolve_right hnew)
      exact Graph.not_transGen_of_acc (hbelow.acc hmem) (TransGen.head' (hneeds d hd) hpath)
    have hbinds : Binds g known (id :: below) (before ++ own) := .cons hbelow hid hn hdeps hown
    refine ⟨above ++ id :: below, by simp, hbinds.append habove, ?_, fun a ha => ?_⟩
    · exact List.cons_subset.mpr ⟨by simp, hids⟩
    · rcases List.mem_append.mp ha with ha | ha
      · -- what is needed later is needed at first
        obtain ⟨i, hi, hpath⟩ := hreachAbove a ha
        have hsub : known ⊆ id :: (below ++ known) :=
          List.subset_cons_of_subset _ (List.subset_append_right _ _)
        exact ⟨i, List.mem_cons_of_mem _ hi,
          ReflTransGen.mono (fun b c hbc => hbc.mono hsub) _ _ hpath⟩
      · refine ⟨id, List.mem_cons_self, ?_⟩
        rcases List.mem_cons.mp ha with rfl | ha
        · rfl
        · obtain ⟨d, hd, hpath⟩ := hreachBelow a ha
          exact .head (hneeds d hd) hpath

namespace Binds

variable {id : NodeId} {added : List NodeId} {ss : List Listing.Step}

/-- What was bound for a node is what was wanted. -/
lemma mem_iff_wanted (h : Binds g known added ss) (hid : id ∈ added ++ known)
    (hreach : ∀ a ∈ added, ReflTransGen (g.Needs known) id a) (a : NodeId) :
    a ∈ added ↔ g.Wanted known id a := by
  constructor
  · exact fun ha => ⟨hreach a ha, h.not_mem_known ha⟩
  · rintro ⟨hpath, ha⟩
    refine (List.mem_append.mp ?_).resolve_right ha
    rcases ReflTransGen.cases_head hpath with rfl | ⟨b, hstep, hrest⟩
    · exact hid
    · exact h.closed_transGen ((List.mem_append.mp hid).resolve_right hstep.1)
        (TransGen.head' hstep hrest)

end Binds

end Compile

namespace Graph

variable {g : Graph} {known : List NodeId} {id a b : NodeId}

lemma transGen_needs_of_wantedFor (h : TransGen (g.WantedFor known id) a b) :
    TransGen (g.Needs known) a b :=
  TransGen.mono (fun _ _ hab => ⟨hab.1.2, hab.2.2⟩) _ _ h

/-- A node that can be reached by needs needs another one. -/
def NeedsFrom (g : Graph) (known : List NodeId) (id a b : NodeId) : Prop :=
  ReflTransGen (g.Needs known) id a ∧ g.Needs known a b

/-- What is needed by nodes that can be reached is wanted, unless it is bound. -/
lemma transGen_wantedFor (h : TransGen (g.NeedsFrom known id) a b) (hb : b ∉ known) :
    TransGen (g.WantedFor known id) a b := by
  have hwanted : ∀ {a b}, g.NeedsFrom known id a b → b ∉ known → g.WantedFor known id a b :=
    fun hab hb => ⟨⟨hab.1, hab.2.1⟩, ⟨hab.1.tail hab.2, hb⟩, hab.2.2⟩
  induction h with
  | single hab => exact .single (hwanted hab hb)
  | tail _ hbc ih => exact (ih hbc.2.1).tail (hwanted hbc hb)

/-- A cycle is only reported at a node that is wanted for itself. -/
lemma reports_wantedFor (g : Graph) (known : List NodeId) (id : NodeId) :
    Compile.Reports (fun d => TransGen (g.WantedFor known id) d d)
      (Compile.demandAll g [id] known) := by
  have hstep : ∀ a b, ReflTransGen (g.Needs known) id a → a ∉ known → g.DependsOn a b →
      ReflTransGen (g.Needs known) id b ∧ g.NeedsFrom known id a b :=
    fun a b hreach ha hab => ⟨hreach.tail ⟨ha, hab⟩, hreach, ha, hab⟩
  intro d hd
  have hcycle : TransGen (g.NeedsFrom known id) d d :=
    (Compile.demandsTo_demandEach _).raises_cycleAt hstep (List.Subset.refl known)
      (List.forall_mem_singleton.mpr .refl) (fun _ _ _ ho => absurd ho List.not_mem_nil) _ hd
  obtain ⟨b, hfirst, -⟩ := TransGen.head'_iff.mp hcycle
  exact transGen_wantedFor hcycle hfirst.2.1

/-- What a variable needs are variables. -/
lemma isVariable_of_wanted (hg : g.Recorded) (hid : g.isVariable id = true)
    (h : g.Wanted known id a) : g.isVariable a = true := by
  obtain ⟨hpath, -⟩ := h
  induction hpath with
  | refl => exact hid
  | tail _ hstep _ =>
    obtain ⟨node, hn, -⟩ := hstep.2
    exact Compile.isVariable_of_mem_dependencies hg hn (mem_dependencies_of_dependsOn hn hstep.2)

/-- Values for the atomic variables that are wanted for a node, each of them once, and each behind
those of all that it depends on, however far away. -/
structure BindsInOrder (g : Graph) (known : List NodeId) (id : NodeId)
    (bound : List (NodeId × Listing.Value)) : Prop where
  nodup : (bound.map Prod.fst).Nodup
  mem_iff (a : NodeId) : a ∈ bound.map Prod.fst ↔ g.Wanted known id a ∧ g.isAtomic a = true
  value (a : NodeId) (w : Listing.Value) : (a, w) ∈ bound →
    ∃ node, g.node? a = some node ∧ Compile.binding g a node = .ok [.bind a w]
  order (a b : NodeId) : TransGen (g.WantedFor known id) a b → g.isAtomic a = true →
    g.isAtomic b = true → [b, a].Sublist (bound.map Prod.fst)

/-- What is bound when a node was demanded. -/
lemma exists_binds_of_demandAll {ss : List Listing.Step} {known' : List NodeId}
    (h : Compile.demandAll g [id] known = .ok (ss, known')) :
    ∃ added, known' = added ++ known ∧ Compile.Binds g known added ss ∧
      ∀ a, a ∈ added ↔ g.Wanted known id a := by
  obtain ⟨added, rfl, hbinds, hids, hreach⟩ := (Compile.demands_of_demandEach _ h).binds
  refine ⟨added, rfl, hbinds, hbinds.mem_iff_wanted (hids List.mem_cons_self) fun a ha => ?_⟩
  obtain ⟨i, hi, hpath⟩ := hreach a ha
  rwa [← List.mem_singleton.mp hi]

/-- The bindings are in the order in which the nodes were bound. -/
lemma exists_bindsInOrder {added : List NodeId} {ss : List Listing.Step}
    (h : Compile.Binds g known added ss) (hadded : ∀ a, a ∈ added ↔ g.Wanted known id a) :
    ∃ bound : List (NodeId × Listing.Value), ss = bound.map (fun p => .bind p.1 p.2) ∧
      g.BindsInOrder known id bound := by
  obtain ⟨bound, hss, hbound, hvalues⟩ := h.exists_bindings
  refine ⟨bound, hss, ?_, fun a => ?_, fun a w => hvalues (a, w), fun a b hab ha hb => ?_⟩
  · rw [hbound]
    exact (List.nodup_reverse.mpr h.nodup).filter _
  · rw [hbound, List.mem_filter, List.mem_reverse, hadded]
  · -- in the list of the nodes the one that depends on the other stands first
    obtain ⟨c, hfirst, -⟩ := TransGen.head'_iff.mp hab
    obtain ⟨d, -, hlast⟩ := TransGen.tail'_iff.mp hab
    have hpair := h.pair_sublist ((hadded a).mpr hfirst.1) ((hadded b).mpr hlast.2.1)
      (transGen_needs_of_wantedFor hab)
    have hfiltered := hpair.reverse.filter g.isAtomic
    rw [hbound]
    simpa [ha, hb] using hfiltered

/-- What is wanted does not depend on itself if it is bound. -/
lemma not_transGen_wantedFor {added : List NodeId} {ss : List Listing.Step}
    (h : Compile.Binds g known added ss) (hadded : ∀ a, a ∈ added ↔ g.Wanted known id a)
    (a : NodeId) : ¬ TransGen (g.WantedFor known id) a a := by
  intro hcycle
  obtain ⟨b, hfirst, -⟩ := TransGen.head'_iff.mp hcycle
  have ha : a ∈ added := (hadded a).mpr hfirst.1
  exact not_transGen_of_acc (h.acc (List.mem_append_left _ ha)) (transGen_needs_of_wantedFor hcycle)

/-- **A variable is bound after all that it needs, in an order that respects every dependency.**
The loop that binds it comes to an end.  If it succeeds, it has written bindings in order, the nodes
that are wanted are bound besides those that were, and none of them depends on itself.  If one
does, there is an error; and a cycle is reported only at such a node.  All that is wanted for a
variable are variables. -/
theorem bound_in_order (edits : List Edit) (known : List NodeId) (id : NodeId) :
    let g := drawn edits
    (Compile.Attempt.demandAll g [id] known).run = some (Compile.demandAll g [id] known) ∧
    (∀ ss known', Compile.demandAll g [id] known = .ok (ss, known') →
      (∃ bound : List (NodeId × Listing.Value), ss = bound.map (fun p => .bind p.1 p.2) ∧
        g.BindsInOrder known id bound) ∧
      (∀ a, a ∈ known' ↔ a ∈ known ∨ g.Wanted known id a) ∧
      ∀ a, ¬ TransGen (g.WantedFor known id) a a) ∧
    ((∃ a, TransGen (g.WantedFor known id) a a) →
      ∃ e, Compile.demandAll g [id] known = .error e) ∧
    (∀ d, Compile.demandAll g [id] known = .error (.cycle d) →
      TransGen (g.WantedFor known id) d d) ∧
    (g.isVariable id = true → ∀ a, g.Wanted known id a → g.isVariable a = true) := by
  intro g
  refine ⟨congrArg ExceptT.run (Compile.Attempt.demandAll_eq _ _), fun ss known' h => ?_, ?_,
    reports_wantedFor g known id, fun hid a => isVariable_of_wanted (recorded_drawn edits) hid⟩
  · obtain ⟨added, rfl, hbinds, hadded⟩ := exists_binds_of_demandAll h
    refine ⟨exists_bindsInOrder hbinds hadded, fun a => ?_, not_transGen_wantedFor hbinds hadded⟩
    rw [List.mem_append, hadded, or_comm]
  · rintro ⟨a, hcycle⟩
    cases h : Compile.demandAll g [id] known with
    | error e => exact ⟨e, rfl⟩
    | ok w =>
      obtain ⟨added, -, hbinds, hadded⟩ := exists_binds_of_demandAll h
      exact absurd hcycle (not_transGen_wantedFor hbinds hadded a)

/-- The variables of `reciprocal` are bound in order. -/
theorem bound_in_order_reciprocal : ∃ bound : List (NodeId × Listing.Value),
    reciprocalSteps = bound.map (fun p => .bind p.1 p.2) ∧
    (drawn reciprocal).BindsInOrder [] ⟨3⟩ bound := by
  obtain ⟨-, hok, -⟩ := bound_in_order reciprocal [] ⟨3⟩
  exact (hok _ _ demandAll_reciprocal).1

end Graph

end FlowSketch
