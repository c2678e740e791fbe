/-
# The body of a function

The statements of a function are found by walking from its first node to what comes next,
node by node.  A variable is bound, a symbol becomes an input, an output or a branching
statement with the statements of both ways inside, and a scope becomes a call.

A walk may not come back to a node, and a way out of a comparison may not lead into that
comparison again; a walk that does is cyclic.  Every walk ends: it visits each node at most
once, and the walks inside a comparison have one comparison less to enter.
-/
import FlowSketch.Compile.Demand

namespace FlowSketch

namespace Graph

/-- The target of the first branch that leaves a node. -/
def firstBranch? (g : Graph) (links : Links) : Option NodeId :=
  (g.flowsOf links.branches).head?.map (·.target)

/-- What comes after a node: the target of its continuation, or else, for an input, the
variable that it fills. -/
def next? (g : Graph) (node : Node) : Option NodeId :=
  match node.links.next with
  | some id => some id
  | none =>
    match node.symbol? with
    | some k => if k.effective = .input then g.firstBranch? node.links else none
    | none => none

/-- The parameters of a scope: the variables that flow into it, each once, in order of
registration. -/
def parameters (g : Graph) (s : Scope) : List NodeId :=
  (g.variableFlows s.links).foldl
    (fun params f => if f.source ∈ params then params else params ++ [f.source]) []

end Graph

namespace Compile

/-- The variable that an output prints: the node before it in the walk, if that is a
variable, and otherwise the first variable that flows into it. -/
def printed? (g : Graph) (previous : Option NodeId) (links : Links) : Option NodeId :=
  (previous.filter g.isVariable).or ((g.variableFlows links).head?.map (·.source))

/-- A call of a scope with the values of its parameters, which are bound first.  The root
and scopes without a body are not called. -/
def callOf (g : Graph) (id : NodeId) (s : Scope) (known : List NodeId) :
    Except Problem Written :=
  if id.isRoot || s.start.isNone then .ok ([], known)
  else do
    let args := g.parameters s
    let (before, known) ← demandAll g args known
    return (before ++ [.call id args], known)

mutual

/-- The statements of a walk from a node.  The walk has entered the nodes `seen`, the latest
of them `previous`, and takes place inside of the comparisons `comparing`; the nodes `known`
are bound. -/
def walk (g : Graph) (comparing seen : List NodeId) (previous : Option NodeId)
    (known : List NodeId) : Option NodeId → Except Problem Written
  | none => .ok ([], known)
  | some id =>
    if _hs : id ∈ seen then .error (.cycle id)
    else
      match hn : g.node? id with
      | none => .error (.noSuchNode id)
      | some node => do
        let (here, known) ← visit g comparing previous known id node
          (Graph.contains_of_node? hn)
        let (after, known) ← walk g comparing (id :: seen) (some id) known (g.next? node)
        return (here ++ after, known)
termination_by (g.unvisited comparing, g.unvisited seen, 1)
decreasing_by
  · apply Prod.Lex.right
    by_cases h : g.unvisited seen = 0
    · rw [h]
      exact Prod.Lex.right _ (by decide)
    · exact Prod.Lex.left _ _ (by omega)
  · exact Prod.Lex.right _
      (Prod.Lex.left _ _ (Graph.unvisited_cons_lt (Graph.contains_of_node? hn) _hs))

/-- The statements of one node. -/
def visit (g : Graph) (comparing : List NodeId) (previous : Option NodeId)
    (known : List NodeId) (id : NodeId) (node : Node) (_hid : g.contains id = true) :
    Except Problem Written :=
  match node.kind with
  | .var _ => demandAll g [id] known
  | .scope s => callOf g id s known
  | .symbol k =>
    match k.effective with
    | .unset => .error (.unknownPurpose id)
    | .input =>
      match (g.firstBranch? k.links).or k.links.next with
      | none => .error (.noInputTarget id)
      | some target => .ok ([.bind target .input], target :: known)
    | .output =>
      match printed? g previous k.links with
      | none => .error (.nothingToPrint id)
      | some value => do
        let (before, known) ← demandAll g [value] known
        return (before ++ [.print value], known)
    | .compare =>
      match byArrival (g.flowsOf k.links.incoming), byArrival (g.flowsOf k.links.branches) with
      | [left, right], [onFalse, onTrue] =>
        if _hc : id ∈ comparing then .error (.cycle id)
        else do
          let (first, known) ← demandOperand g left.source known
          let (second, known) ← demandOperand g right.source known
          let (yes, _) ← walk g (id :: comparing) [] none known (some onTrue.target)
          let (no, _) ← walk g (id :: comparing) [] none known (some onFalse.target)
          return (first ++ second ++ [.branch left.source right.source yes no], known)
      | incoming, exits => .error (.comparisonShape id incoming.length exits.length)
termination_by (g.unvisited comparing, 0, 0)
decreasing_by
  · exact Prod.Lex.left _ _ (Graph.unvisited_cons_lt _hid _hc)
  · exact Prod.Lex.left _ _ (Graph.unvisited_cons_lt _hid _hc)

end

/-! ## Parameters -/

theorem foldl_distinct_nodup (fs : List Flow) (ps : List NodeId) (h : ps.Nodup) :
    (fs.foldl (fun params f => if f.source ∈ params then params else params ++ [f.source])
      ps).Nodup := by
  induction fs generalizing ps with
  | nil => exact h
  | cons f fs ih =>
    simp only [List.foldl_cons]
    split
    · exact ih _ h
    · rename_i hf
      refine ih _ ?_
      rw [List.nodup_append]
      refine ⟨h, by simp, ?_⟩
      intro a ha b hb
      simp only [List.mem_singleton] at hb
      subst hb
      exact fun hab => hf (hab ▸ ha)

/-- No parameter is listed twice. -/
theorem parameters_nodup (g : Graph) (s : Scope) : (g.parameters s).Nodup :=
  foldl_distinct_nodup _ _ (by simp)

/-- The end of a walk writes nothing. -/
@[simp] theorem walk_none (g : Graph) (comparing seen known : List NodeId)
    (previous : Option NodeId) :
    walk g comparing seen previous known none = .ok ([], known) := by
  rw [walk]

/-- A walk that comes back is cyclic. -/
theorem walk_of_seen {g : Graph} {comparing seen known : List NodeId} {previous : Option NodeId}
    {id : NodeId} (h : id ∈ seen) :
    walk g comparing seen previous known (some id) = .error (.cycle id) := by
  rw [walk]
  simp [h]

end Compile

end FlowSketch
