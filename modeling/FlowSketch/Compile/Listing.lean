/-
# The listing of a graph

The root and every scope with a start become functions, in the order of their creation.
The function of a scope takes the variables that flow into it as parameters; the root takes
none, since the entry statement calls it without arguments.  Its body is the walk from its
start.  Without a start the root begins at the first input drawn in it.
-/
import FlowSketch.Compile.Body

namespace FlowSketch

/-- Whether a scope becomes a function. -/
def Scope.isRoutine (s : Scope) (id : NodeId) : Bool := id.isRoot || s.start.isSome

namespace Graph

/-- The first symbol of a scope that reads input. -/
def inputEntry? (g : Graph) (s : Scope) : Option NodeId :=
  s.symbols.find? fun id =>
    ((g.node? id).bind Node.symbol?).any fun k => k.effective = .input

/-- The first node of the body of a scope. -/
def entry? (g : Graph) (id : NodeId) (s : Scope) : Option NodeId :=
  s.start.or (if id.isRoot then g.inputEntry? s else none)

/-- The parameters of the function of a scope. -/
def routineParams (g : Graph) (id : NodeId) (s : Scope) : List NodeId :=
  if id.isRoot then [] else g.parameters s

/-- The function of a scope. -/
def routine (g : Graph) (id : NodeId) (s : Scope) : Except Problem Listing.Routine := do
  let params := g.routineParams id s
  let (body, _) ← Compile.walk g [] [] none params (g.entry? id s)
  return { id, params, body }

/-- The scopes that become functions, in order of creation. -/
def routineScopes (g : Graph) : List (NodeId × Scope) :=
  g.nodes.toList.filterMap fun n =>
    n.scope?.bind fun s => if s.isRoutine n.id then some (n.id, s) else none

/-- The listing of a graph. -/
def listing (g : Graph) : Except Problem Listing := do
  let routines ← g.routineScopes.mapM fun (id, s) => g.routine id s
  return ⟨routines⟩

/-- The program text of a graph. -/
def compile (g : Graph) : Except Problem String := g.listing.map Listing.text

end Graph

end FlowSketch
