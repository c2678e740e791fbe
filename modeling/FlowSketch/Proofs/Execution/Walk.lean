/-
# Running a graph

A graph can be run without a program text.  A call of a scope follows the nodes from the first
one of its body: a variable is given its value after those on which it depends, a symbol reads,
prints or compares, and a scope is called.  Nothing is written down, and nothing stops a run
that comes back to a node again and again.

This file defines such runs.  A graph that compiles does what its program does when it is run so;
this is shown in `FlowSketch.Proofs.Execution.Simulation`.
-/
import FlowSketch.Compile.Listing
import FlowSketch.Proofs.Execution.Listing

namespace FlowSketch

/-! ## Outcomes -/

/-- What a run of a graph does.  A run that does not end, or that comes to a node that does not
say what to do, has no outcome. -/
abbrev Tour (α : Type) := ExceptT Fault (StateT Console Option) α

namespace Tour

variable {α β : Type}

/-- The run has no outcome. -/
def lost : Tour α := ExceptT.mk fun _ => none

/-- An action on the console has an outcome. -/
def ofRun (r : Run α) : Tour α := ExceptT.mk fun c =>
  match r c with
  | .ok a c => some (.ok a, c)
  | .error e c => some (.error e, c)

/-- How a run ended, and what it read and printed. -/
def report? (t : Tour Unit) (inputs : List String) : Option (RunReport Fault) :=
  match t.run.run (Console.ofInputs inputs) with
  | none => none
  | some (.ok _, c) => some ⟨none, c.output, c.reads⟩
  | some (.error e, c) => some ⟨some e, c.output, c.reads⟩

lemma ofRun_pure (a : α) : ofRun (pure a) = pure a := rfl

lemma ofRun_bind (r : Run α) (f : α → Run β) :
    ofRun (r >>= f) = ofRun r >>= fun a => ofRun (f a) := by
  funext c
  change ofRun (EStateM.bind r f) c = _
  unfold ofRun ExceptT.mk EStateM.bind
  simp only [bind, ExceptT.bind, ExceptT.mk, StateT.bind]
  cases r c with
  | ok a c => rfl
  | error e c => rfl

lemma report?_ofRun (r : Run Unit) (inputs : List String) :
    (ofRun r).report? inputs = some (r.report inputs) := by
  unfold report? Run.report ofRun ExceptT.mk ExceptT.run StateT.run
  dsimp only
  cases r (Console.ofInputs inputs) with
  | ok a c => rfl
  | error e c => rfl

end Tour

/-! ## Following the nodes -/

/-- What a call knows: the values of nodes, and which nodes need not be given a value again. -/
structure Stage where
  /-- The values of nodes. -/
  bindings : Bindings
  /-- The nodes that are bound. -/
  known : List NodeId

namespace Graph

section Running

variable (number : Float → Float) (g : Graph)

/-- Gives a variable the value that is written on it.  A composed variable has none. -/
def assign (id : NodeId) (node : Node) (bs : Bindings) : Tour Bindings :=
  match node.var? with
  | none => pure bs
  | some v =>
    if v.atomic then
      match v.value with
      | none => .lost
      | some text =>
        match Compile.textValue g id node text with
        | .error _ => .lost
        | .ok w => do
          let x ← Tour.ofRun (w.run number bs)
          return (id, x) :: bs
    else pure bs

-- The fixpoints of this file call themselves with a pipe.  A plain call would also put its place in
-- the file into their bodies, and that is no part of what they mean.
/-- Binds nodes in turn, none of them twice: first those on which a node depends, then the
node. -/
def bindAll (g : Graph) (ids : List NodeId) (stage : Stage) : Tour Stage :=
  match ids with
  | [] => pure stage
  | id :: ids =>
    if id ∈ stage.known then g |>.bindAll ids stage
    else
      match g.node? id with
      | none => .lost
      | some node => do
        let stage ← g |>.bindAll (g.dependencies node) stage
        let bs ← g.assign number id node stage.bindings
        g |>.bindAll ids ⟨bs, id :: stage.known⟩
partial_fixpoint

variable (call : NodeId → List Value → Tour Unit)

/-- Calls a scope with the values of its parameters.  The root and scopes without a body are not
called. -/
def invoke (id : NodeId) (s : Scope) (stage : Stage) : Tour Stage :=
  if id.isRoot || s.start.isNone then pure stage
  else do
    let stage ← g.bindAll number (g.parameters s) stage
    let args ← Tour.ofRun ((g.parameters s).mapM stage.bindings.value)
    call id args
    return stage

/-- Reads a line into the target of an input. -/
def readLine (links : Links) (stage : Stage) : Tour Stage :=
  match (g.firstBranch? links).or links.next with
  | none => .lost
  | some target => do
    let line ← Tour.ofRun Run.read
    return ⟨(target, .text line) :: stage.bindings, target :: stage.known⟩

/-- Prints the value before an output, or else the first one that flows into it. -/
def printValue (previous : Option NodeId) (links : Links) (stage : Stage) : Tour Stage :=
  match Compile.printed? g previous links with
  | none => .lost
  | some id => do
    let stage ← g.bindAll number [id] stage
    let x ← Tour.ofRun (stage.bindings.value id)
    Tour.ofRun (Run.print x.display)
    return stage

/-- A node if it is a variable. -/
def ifVariable (id : NodeId) : List NodeId := if g.isVariable id then [id] else []

mutual

/-- Follows the nodes from one on, the node before it being the previous one. -/
def follow (number : Float → Float) (g : Graph) (call : NodeId → List Value → Tour Unit)
    (previous start : Option NodeId) (stage : Stage) : Tour Stage :=
  match start with
  | none => pure stage
  | some id =>
    match g.node? id with
    | none => .lost
    | some node => do
      let stage ← g |>.act number call previous id node stage
      g |>.follow number call (some id) (g.next? node) stage
partial_fixpoint

/-- Does what a node says.  A comparison is left on the right way if the left value is greater,
and on the left way if not; what is bound on that way keeps its value, but does not count as
bound behind the comparison. -/
def act (number : Float → Float) (g : Graph) (call : NodeId → List Value → Tour Unit)
    (previous : Option NodeId) (id : NodeId) (node : Node) (stage : Stage) : Tour Stage :=
  match node.kind with
  | .var _ => g.bindAll number [id] stage
  | .scope s => g.invoke number call id s stage
  | .symbol k =>
    match k.effective with
    | .unset => .lost
    | .input => g.readLine k.links stage
    | .output => g.printValue number previous k.links stage
    | .compare =>
      match byArrival (g.flowsOf k.links.incoming), byArrival (g.flowsOf k.links.branches) with
      | [left, right], [onFalse, onTrue] => do
        let stage ← g.bindAll number (g.ifVariable left.source) stage
        let stage ← g.bindAll number (g.ifVariable right.source) stage
        let x ← Tour.ofRun (stage.bindings.value left.source)
        let y ← Tour.ofRun (stage.bindings.value right.source)
        let inside ← g |>.follow number call none
          (some (if x.greater y then onTrue.target else onFalse.target)) stage
        return ⟨inside.bindings, stage.known⟩
      | _, _ => .lost
partial_fixpoint

end

/-- Calls a scope, with so many levels of depth left out of `limit`. -/
def enter (limit : ℕ) : (left : ℕ) → NodeId → List Value → Tour Unit
  | 0, _, _ => throw (.callDepthExceeded limit)
  | left + 1, id, args =>
    match (g.node? id).bind Node.scope? with
    | none => .lost
    | some s => do
      let params := g.routineParams id s
      let _ ← g.follow number (enter limit left) none (g.entry? id s)
        ⟨(params.zip args).reverse, params⟩

/-- The outcome of a run of a graph, if there is one. -/
def outcome? (limit : ℕ) (inputs : List String) : Option (RunReport Fault) :=
  (g.enter number limit limit NodeId.root []).report? inputs

end Running

end Graph

end FlowSketch
