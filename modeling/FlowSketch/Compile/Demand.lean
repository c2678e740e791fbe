/-
# Binding a variable after those it depends on

A variable depends on the variables that flow into it and, if it is composed, on its
members.  When it is demanded, everything that it depends on is bound first, each node once
and none that is bound already.  A variable that depends on itself has no such order.
-/
import FlowSketch.Compile.Binding
import FlowSketch.Graph.Unvisited

namespace FlowSketch

/-- The nodes on which a node depends: the variables that flow into it, in order of
registration, then the members of a composed variable. -/
def Graph.dependencies (g : Graph) (node : Node) : List NodeId :=
  (g.variableFlows node.links).map (·.source) ++
    match node.var? with
    | some v => if v.atomic then [] else v.members
    | none => []

namespace Compile

/-- Statements, and the nodes that are bound after them. -/
abbrev Written := List Listing.Step × List NodeId

mutual

/-- Binds a node after everything on which it depends.  The nodes `opened` wait for this
one; the nodes `known` are bound already. -/
def demand (g : Graph) (opened : List NodeId) (id : NodeId) (_hid : id ∉ opened)
    (known : List NodeId) : Except Problem Written :=
  if id ∈ known then .ok ([], known)
  else
    match hn : g.node? id with
    | none => .error (.noSuchNode id)
    | some node =>
      match hd : (g.dependencies node).reverse.find? (· ∈ id :: opened) with
      | some d => .error (.cycle d)
      | none => do
        let (before, known) ← demandEach g (id :: opened) (g.dependencies node)
          (fun d hm => by
            have := List.find?_eq_none.mp hd d (List.mem_reverse.mpr hm)
            simpa using this)
          known
        let own ← binding g id node
        return (before ++ own, id :: known)
termination_by (g.unvisited opened, 0)
decreasing_by
  exact Prod.Lex.left _ _ (Graph.unvisited_cons_lt (Graph.contains_of_node? hn) _hid)

/-- Binds nodes in turn. -/
def demandEach (g : Graph) (opened : List NodeId) (ids : List NodeId)
    (hids : ∀ d ∈ ids, d ∉ opened) (known : List NodeId) : Except Problem Written :=
  match ids with
  | [] => .ok ([], known)
  | id :: ids => do
    let (first, known) ← demand g opened id (hids id (by simp)) known
    let (rest, known) ← demandEach g opened ids (fun d hm => hids d (by simp [hm])) known
    return (first ++ rest, known)
termination_by (g.unvisited opened, ids.length + 1)
decreasing_by
  · exact Prod.Lex.right _ (by simp)
  · exact Prod.Lex.right _ (by simp)

end

/-- Binds nodes in turn, with nothing waiting for them. -/
def demandAll (g : Graph) (ids : List NodeId) (known : List NodeId) : Except Problem Written :=
  demandEach g [] ids (by simp) known

/-- Binds a node if it is a variable. -/
def demandOperand (g : Graph) (id : NodeId) (known : List NodeId) : Except Problem Written :=
  match g.node? id with
  | none => .error (.noSuchNode id)
  | some node => if node.isVariable then demandAll g [id] known else .ok ([], known)

/-! ## What a demand does -/

/-- A bound node is not bound again. -/
theorem demand_of_mem {g : Graph} {opened known : List NodeId} {id : NodeId} (hid : id ∉ opened)
    (h : id ∈ known) : demand g opened id hid known = .ok ([], known) := by
  rw [demand]
  simp [h]

@[simp] theorem demandAll_nil (g : Graph) (known : List NodeId) :
    demandAll g [] known = .ok ([], known) := by
  rw [demandAll, demandEach]

end Compile

end FlowSketch
