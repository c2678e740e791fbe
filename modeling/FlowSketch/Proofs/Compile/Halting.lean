/-
# Compiling comes to an end

The functions that write a program are recursive, and the reasons why they end are part of their
definitions.  The attempts of this file do the same without these reasons: nodes are bound by a loop
with a stack, and a walk goes on as long as there is a next node.  Nothing stops an attempt but
what a compilation reports as well.  A walk stops if it comes back to a node, a loop stops at a
node that depends on one that waits for it, and a comparison is not entered inside of itself.

An attempt that goes on forever has no result.  There is none: whatever cycles a graph has, the
attempt to compile it has a result, and it is that of the compilation.

Main statement: `Attempt.compile_eq`.
-/
import FlowSketch.Proofs.Compile.Derivations

namespace FlowSketch

namespace Compile

/-! ## Attempts -/

/-- A computation that may go on forever, and then has no result. -/
abbrev Attempt (α : Type) := ExceptT Problem Option α

namespace Attempt

variable {α β : Type}

/-- An attempt that is at its end. -/
def ended (x : Except Problem α) : Attempt α := ExceptT.mk (some x)

lemma ended_ok (a : α) : ended (.ok a) = pure a := rfl

/-- Two attempts in turn come to an end if both do. -/
lemma ended_bind (x : Except Problem α) (f : α → Except Problem β) :
    ended (x >>= f) = ended x >>= fun a => ended (f a) := by
  cases x <;> rfl

lemma ended_inTurn (x : Except Problem Written) (k : List NodeId → Except Problem Written) :
    ended (inTurn x k) = ended x >>= fun first => ended (k first.2) >>= fun rest =>
      pure (first.1 ++ rest.1, rest.2) := by
  rw [inTurn, ended_bind]
  simp only [ended_bind]
  rfl

lemma ended_mapM (f : α → Except Problem β) (as : List α) :
    ended (as.mapM f) = as.mapM fun a => ended (f a) := by
  induction as with
  | nil => rfl
  | cons a as ih =>
    rw [List.mapM_cons, List.mapM_cons, ended_bind]
    simp only [ended_bind, ih]
    rfl

end Attempt

end Compile

section

open Compile

/-! ## Binding with a stack -/

-- The fixpoints of this file call themselves with a pipe.  A plain call would also put its place in
-- the file into their bodies, and that is no part of what they mean.
/-- Binds the nodes on a stack, behind what was written before.  A node that is not bound yet
stays on the stack below those on which it depends, with a mark that it waits for them. -/
def Graph.bindStack (g : Graph) (stack : List (NodeId × Bool)) (opened : List NodeId)
    (written : Written) : Attempt Written :=
  match stack with
  | [] => pure written
  | (id, true) :: stack =>
    if id ∈ written.2 then g |>.bindStack stack (opened.erase id) written
    else
      match g.node? id with
      | none => throw (.noSuchNode id)
      | some node => do
        let own ← Attempt.ended (binding g id node)
        g |>.bindStack stack (opened.erase id) (written.1 ++ own, id :: written.2)
  | (id, false) :: stack =>
    if id ∈ written.2 then g |>.bindStack stack opened written
    else
      match g.node? id with
      | none => throw (.noSuchNode id)
      | some node =>
        match (g.dependencies node).reverse.find? (· ∈ id :: opened) with
        | some d => throw (.cycle d)
        | none =>
          let missing := (g.dependencies node).filter (· ∉ written.2)
          g |>.bindStack (missing.map (·, false) ++ (id, true) :: stack) (id :: opened) written
partial_fixpoint

/-- Binds nodes in turn. -/
def Compile.Attempt.demandAll (g : Graph) (ids known : List NodeId) : Attempt Written :=
  g.bindStack (ids.map (·, false)) [] ([], known)

/-- Binds a node if it is a variable. -/
def Compile.Attempt.demandOperand (g : Graph) (id : NodeId) (known : List NodeId) :
    Attempt Written :=
  match g.node? id with
  | none => throw (.noSuchNode id)
  | some node => if node.isVariable then demandAll g [id] known else pure ([], known)

/-- A call of a scope with the values of its parameters. -/
def Compile.Attempt.callOf (g : Graph) (id : NodeId) (s : Scope) (known : List NodeId) :
    Attempt Written :=
  if id.isRoot || s.start.isNone then pure ([], known)
  else do
    let (before, known) ← demandAll g (g.parameters s) known
    return (before ++ [.call id (g.parameters s)], known)

/-! ## Walking on -/

mutual

/-- Walks from a node to what comes next, as long as there is something. -/
def Graph.walkOn (g : Graph) (comparing seen : List NodeId) (previous : Option NodeId)
    (known : List NodeId) (start : Option NodeId) : Attempt Written :=
  match start with
  | none => pure ([], known)
  | some id =>
    if id ∈ seen then throw (.cycle id)
    else
      match g.node? id with
      | none => throw (.noSuchNode id)
      | some node => do
        let (here, known) ← g |>.visitNode comparing previous known id node
        let (after, known) ← g |>.walkOn comparing (id :: seen) (some id) known (g.next? node)
        return (here ++ after, known)
partial_fixpoint

/-- Writes the statements of one node. -/
def Graph.visitNode (g : Graph) (comparing : List NodeId) (previous : Option NodeId)
    (known : List NodeId) (id : NodeId) (node : Node) : Attempt Written :=
  match node.kind with
  | .var _ => Attempt.demandAll g [id] known
  | .scope s => Attempt.callOf g id s known
  | .symbol k =>
    match k.effective with
    | .unset => throw (.unknownPurpose id)
    | .input =>
      match (g.firstBranch? k.links).or k.links.next with
      | none => throw (.noInputTarget id)
      | some target => pure ([.bind target .input], target :: known)
    | .output =>
      match printed? g previous k.links with
      | none => throw (.nothingToPrint id)
      | some value => do
        let (before, known) ← Attempt.demandAll g [value] known
        return (before ++ [.print value], known)
    | .compare =>
      match byArrival (g.flowsOf k.links.incoming), byArrival (g.flowsOf k.links.branches) with
      | [left, right], [onFalse, onTrue] =>
        if id ∈ comparing then throw (.cycle id)
        else do
          let (first, known) ← Attempt.demandOperand g left.source known
          let (second, known) ← Attempt.demandOperand g right.source known
          let (yes, _) ← g |>.walkOn (id :: comparing) [] none known (some onTrue.target)
          let (no, _) ← g |>.walkOn (id :: comparing) [] none known (some onFalse.target)
          return (first ++ second ++ [.branch left.source right.source yes no], known)
      | incoming, exits => throw (.comparisonShape id incoming.length exits.length)
partial_fixpoint

end

/-- The text of a graph. -/
def Compile.Attempt.compile (g : Graph) : Attempt String := do
  let routines ← g.routineScopes.mapM fun p => do
    let params := g.routineParams p.1 p.2
    let (body, _) ← g.walkOn [] [] none params (g.entry? p.1 p.2)
    return { id := p.1, params, body }
  return Listing.text ⟨routines⟩

end

namespace Compile

namespace Attempt

/-! ## Attempts end -/

variable {g : Graph} {opened known : List NodeId} {id : NodeId} {node : Node}
  {stack : List (NodeId × Bool)} {out : List Listing.Step}

lemma bindStack_nil : g.bindStack [] opened (out, known) = pure (out, known) := by
  rw [Graph.bindStack]

lemma bindStack_of_known (h : id ∈ known) :
    g.bindStack ((id, false) :: stack) opened (out, known) =
      g.bindStack stack opened (out, known) := by
  rw [Graph.bindStack, if_pos h]

lemma bindStack_of_absent (h : id ∉ known) (hn : g.node? id = none) :
    g.bindStack ((id, false) :: stack) opened (out, known) = throw (.noSuchNode id) := by
  rw [Graph.bindStack, if_neg h, hn]

lemma bindStack_of_cycle {d : NodeId} (h : id ∉ known) (hn : g.node? id = some node)
    (hd : (g.dependencies node).reverse.find? (· ∈ id :: opened) = some d) :
    g.bindStack ((id, false) :: stack) opened (out, known) = throw (.cycle d) := by
  rw [Graph.bindStack, if_neg h, hn]
  simp only [hd]

/-- A node is put back below those on which it depends. -/
lemma bindStack_of_node (h : id ∉ known) (hn : g.node? id = some node)
    (hd : (g.dependencies node).reverse.find? (· ∈ id :: opened) = none) :
    g.bindStack ((id, false) :: stack) opened (out, known) =
      g.bindStack (((g.dependencies node).filter (· ∉ known)).map (·, false) ++
        (id, true) :: stack) (id :: opened) (out, known) := by
  rw [Graph.bindStack, if_neg h, hn]
  simp only [hd]

/-- A node that waits no more is bound. -/
lemma bindStack_of_waiting (h : id ∉ known) (hn : g.node? id = some node) :
    g.bindStack ((id, true) :: stack) (id :: opened) (out, known) =
      ended (binding g id node) >>= fun own =>
        g.bindStack stack opened (out ++ own, id :: known) := by
  rw [Graph.bindStack, if_neg h, hn, List.erase_cons_head]

end Attempt

/-! ## Demands -/

variable {g : Graph}

/-- Nothing is forgotten, and a node that waits is not bound by those on which it depends. -/
lemma DemandsTo.subset_and_not_mem {opened ids known known' : List NodeId}
    {x : Except Problem Written} {ss : List Listing.Step} (h : DemandsTo g opened ids known x)
    (hx : x = .ok (ss, known')) : known ⊆ known' ∧ ∀ o ∈ opened, o ∉ known → o ∉ known' := by
  induction h generalizing ss known' with
  | nil =>
    cases hx
    exact ⟨List.Subset.refl _, fun o _ ho => ho⟩
  | known _ _ ih => exact ih hx
  | absent => cases hx
  | cycle => cases hx
  | bind hid _ _ _ _ _ ihBefore ihRest =>
    -- the node itself waits for what it depends on
    obtain ⟨before, between, _, hbefore, hbehind, rfl⟩ := inTurn_eq_ok.mp hx
    obtain ⟨own, _, rest, hbound, hrest, rfl⟩ := inTurn_eq_ok.mp hbehind
    obtain ⟨-, rfl⟩ := map_own_eq_ok.mp hbound
    obtain ⟨hsub, hwait⟩ := ihBefore hbefore
    obtain ⟨hsub', hwait'⟩ := ihRest _ hrest
    refine ⟨List.Subset.trans (List.subset_cons_of_subset _ hsub) hsub', fun o ho hnot =>
      hwait' o ho (List.not_mem_cons_of_ne_of_not_mem (ne_of_mem_of_not_mem ho hid) ?_)⟩
    exact hwait o (List.mem_cons_of_mem _ ho) hnot

namespace Attempt

/-- A node that was not bound when others were put on the stack is the first one there. -/
lemma pending_cons {known : List NodeId} {id : NodeId} (h : id ∉ known) (ids : List NodeId)
    (stack : List (NodeId × Bool)) :
    ((id :: ids).filter (· ∉ known)).map (·, false) ++ stack =
      (id, false) :: ((ids.filter (· ∉ known)).map (·, false) ++ stack) := by
  rw [List.filter_cons_of_pos (by simpa using h)]
  rfl

/-- The loop does with the nodes on top of its stack what a demand does with them, and goes on with
the stack below. -/
lemma bindStack_of_demandsTo {opened ids known known₀ : List NodeId} {x : Except Problem Written}
    (h : DemandsTo g opened ids known x) (hknown : known₀ ⊆ known)
    (hopened : ∀ o ∈ opened, o ∉ known) (stack : List (NodeId × Bool)) (out : List Listing.Step) :
    g.bindStack ((ids.filter (· ∉ known₀)).map (·, false) ++ stack) opened (out, known) =
      ended x >>= fun w => g.bindStack stack opened (out ++ w.1, w.2) := by
  induction h generalizing known₀ stack out with
  | nil =>
    rw [ended_ok, pure_bind, List.append_nil]
    rfl
  | @known opened ids known id x hmem _ ih =>
    by_cases hwas : id ∈ known₀
    · rw [List.filter_cons_of_neg (by simpa using hwas)]
      exact ih hknown hopened stack out
    · rw [pending_cons hwas, bindStack_of_known hmem]
      exact ih hknown hopened stack out
  | absent hnew hn =>
    rw [pending_cons fun hwas => hnew (hknown hwas), bindStack_of_absent hnew hn]
    rfl
  | cycle hnew hn hd =>
    rw [pending_cons fun hwas => hnew (hknown hwas), bindStack_of_cycle hnew hn hd]
    rfl
  | @bind opened ids known id node before rest hid hnew hn hd hbefore _ ihBefore ihRest =>
    -- the loop comes back to the node below those on which it depends, and binds it there since
    -- none of them can have bound it
    have hwaiting : ∀ o ∈ id :: opened, o ∉ known := List.forall_mem_cons.mpr ⟨hnew, hopened⟩
    rw [pending_cons fun hwas => hnew (hknown hwas), bindStack_of_node hnew hn hd,
      ihBefore (List.Subset.refl _) hwaiting]
    cases before with
    | error e => rfl
    | ok w =>
      obtain ⟨hsub, hwait⟩ := hbefore.subset_and_not_mem rfl
      obtain ⟨hidw, hopenedw⟩ := List.forall_mem_cons.mp fun o ho => hwait o ho (hwaiting o ho)
      rw [ended_ok, pure_bind, bindStack_of_waiting hidw hn]
      cases binding g id node with
      | error e => rfl
      | ok own =>
        have hopened' : ∀ o ∈ opened, o ∉ id :: w.2 := fun o ho =>
          List.not_mem_cons_of_ne_of_not_mem (ne_of_mem_of_not_mem ho hid) (hopenedw o ho)
        rw [ended_ok, pure_bind, ihRest (id :: w.2)
          (List.subset_cons_of_subset _ (List.Subset.trans hknown hsub)) hopened']
        simp only [ended_inTurn, Except.map, ended_ok, pure_bind, bind_assoc, List.append_assoc]

/-- The loop comes to an end. -/
lemma demandAll_eq (ids known : List NodeId) :
    demandAll g ids known = ended (Compile.demandAll g ids known) := by
  have hall : ids.filter (· ∉ ([] : List NodeId)) = ids := List.filter_eq_self.mpr (by simp)
  have h := bindStack_of_demandsTo (g := g) (demandsTo_demandEach fun d (_ : d ∈ ids) =>
    List.not_mem_nil) (List.nil_subset known) (fun o ho => absurd ho List.not_mem_nil) [] []
  rw [hall, List.append_nil] at h
  rw [demandAll, h, Compile.demandAll]
  simp only [bindStack_nil, List.nil_append]
  exact bind_pure _

lemma demandOperand_eq (id : NodeId) (known : List NodeId) :
    demandOperand g id known = ended (Compile.demandOperand g id known) := by
  unfold demandOperand Compile.demandOperand
  cases g.node? id with
  | none => rfl
  | some node =>
    dsimp only
    split
    · exact demandAll_eq _ _
    · rfl

/-- What is done for a node comes to an end. -/
lemma visitNode_of_visitsTo {comparing known : List NodeId} {previous : Option NodeId}
    {id : NodeId} {node : Node} {x : Except Problem Written}
    (h : VisitsTo g comparing previous known id node x) :
    g.visitNode comparing previous known id node = ended x := by
  rw [Graph.visitNode]
  cases h with
  | var hkind =>
    rw [hkind]
    exact demandAll_eq _ _
  | skip hkind hskip =>
    simp only [hkind, callOf, hskip]
    rfl
  | call hkind hcall =>
    simp only [hkind, callOf, hcall, ended_inTurn, demandAll_eq]
    rfl
  | unset hkind hk =>
    simp only [hkind, hk]
    rfl
  | noTarget hkind hk htarget =>
    simp only [hkind, hk, htarget]
    rfl
  | input hkind hk htarget =>
    simp only [hkind, hk, htarget]
    rfl
  | nothing hkind hk hvalue =>
    simp only [hkind, hk, hvalue]
    rfl
  | output hkind hk hvalue =>
    simp only [hkind, hk, hvalue, ended_inTurn, demandAll_eq]
    rfl
  | misshapen hkind hk _ =>
    simp only [hkind, hk]
    rfl
  | inside hkind hk hin hout hc =>
    simp only [hkind, hk, hin, hout, if_pos hc]
    rfl

/-- A walk comes to an end. -/
lemma walkOn_of_walksTo {comparing seen known : List NodeId} {previous start : Option NodeId}
    {x : Except Problem Written} (h : WalksTo g comparing seen previous known start x) :
    g.walkOn comparing seen previous known start = ended x := by
  induction h with
  | stop =>
    rw [Graph.walkOn]
    rfl
  | again hs =>
    rw [Graph.walkOn]
    exact if_pos hs
  | absent hs hn =>
    rw [Graph.walkOn]
    simp only [if_neg hs, hn]
    rfl
  | visit hs hn hvisit _ ihAfter =>
    rw [Graph.walkOn]
    simp only [if_neg hs, hn, visitNode_of_visitsTo hvisit, ihAfter, ended_inTurn]
  | compare hs hn hkind hk hin hout hc _ _ _ ihYes ihNo ihAfter =>
    rw [Graph.walkOn]
    simp only [if_neg hs, hn, Graph.visitNode, hkind, hk, hin, hout, if_neg hc, demandOperand_eq,
      ihYes, ihNo, ihAfter, ended_inTurn, comparison, ended_bind]
    rfl

lemma walk_eq (comparing seen known : List NodeId) (previous start : Option NodeId) :
    g.walkOn comparing seen previous known start =
      ended (walk g comparing seen previous known start) :=
  walkOn_of_walksTo (walksTo_walk g comparing seen previous known start)

/-- **The attempt to compile a graph comes to an end, and to the end of the compilation**, whatever
cycles there are in the graph. -/
theorem compile_eq (g : Graph) : compile g = ended g.compile := by
  have hroutine : ∀ p : NodeId × Scope, (do
      let params := g.routineParams p.1 p.2
      let (body, _) ← g.walkOn [] [] none params (g.entry? p.1 p.2)
      return ({ id := p.1, params, body } : Listing.Routine)) = ended (g.routine p.1 p.2) := by
    intro p
    simp only [Graph.routine, ended_bind, walk_eq]
    rfl
  simp only [compile, hroutine, ← ended_mapM]
  unfold Graph.compile Graph.listing
  cases g.routineScopes.mapM fun p => g.routine p.1 p.2 with
  | error e => rfl
  | ok routines => rfl

end Attempt

end Compile

end FlowSketch
