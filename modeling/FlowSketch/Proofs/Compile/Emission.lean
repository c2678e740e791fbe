/-
# Writing a function, statement by statement

The compiler writes a function with a memo of the nodes that are bound and a list of the comparisons
whose ways are being written.  Its results do not show what these two hold on the way.  The machine
of this file makes the same function with the memo and the list in its state, and every statement is
a step of its own.  A state also has what is written in the block that is open and in those around
it, so that it is known at every time which text is there already.

The ways of a comparison are written in blocks of their own.  The memo is copied when the first one
is opened, and the copy is put back when either of them is closed.

Main statement: `Emission.routine_eq`, that the machine ends with the function of the compiler or
stops with its problem.
-/
import Mathlib.Logic.Relation
import FlowSketch.Proofs.Compile.Derivations

namespace FlowSketch

namespace Compile

/-! ## The machine -/

/-- A part of what remains to be done. -/
inductive Task where
  /-- Goes on with a walk that has entered the nodes `seen`, the latest of them `previous`. -/
  | walk (seen : List NodeId) (previous start : Option NodeId)
  /-- Binds a node after everything on which it depends.  The nodes `opened` wait for it. -/
  | demand (opened : List NodeId) (id : NodeId)
  /-- Binds a node when everything on which it depends is bound. -/
  | own (id : NodeId)
  /-- Binds an operand of a comparison if it is a variable. -/
  | operand (id : NodeId)
  /-- Writes a statement that binds nothing. -/
  | write (step : Listing.Step)
  /-- Binds a node to a line of input. -/
  | input (target : NodeId)
  /-- Writes both ways of a comparison. -/
  | inline (comparison left right onTrue onFalse : NodeId)

/-- A comparison one of whose ways is being written. -/
structure Comparison where
  /-- What is written in front of it in its own block. -/
  written : List Listing.Step
  /-- The left operand. -/
  left : NodeId
  /-- The right operand. -/
  right : NodeId
  /-- The first way, when it is closed. -/
  yes : Option (List Listing.Step)
  /-- The first node of the second way. -/
  onFalse : NodeId
  /-- The copy of the memo. -/
  before : List NodeId
  /-- What remains to be done behind the comparison. -/
  rest : List Task

/-- A state of the machine. -/
structure Emission where
  /-- The memo: the nodes that are bound. -/
  computed : List NodeId
  /-- The comparisons whose ways are being written, the innermost one first. -/
  comparing : List NodeId
  /-- What is written in the current block. -/
  block : List Listing.Step
  /-- The comparisons around the current block, the innermost one first. -/
  around : List Comparison
  /-- What remains to be done in the current block. -/
  tasks : List Task

/-- What is to be done for a node of a walk. -/
def visitTasks (g : Graph) (comparing : List NodeId) (previous : Option NodeId) (id : NodeId)
    (node : Node) : Except Problem (List Task) :=
  match node.kind with
  | .var _ => .ok [.demand [] id]
  | .scope s =>
    if id.isRoot || s.start.isNone then .ok []
    else .ok ((g.parameters s).map (.demand []) ++ [.write (.call id (g.parameters s))])
  | .symbol k =>
    match k.effective with
    | .unset => .error (.unknownPurpose id)
    | .input =>
      match (g.firstBranch? k.links).or k.links.next with
      | none => .error (.noInputTarget id)
      | some target => .ok [.input target]
    | .output =>
      match printed? g previous k.links with
      | none => .error (.nothingToPrint id)
      | some value => .ok [.demand [] value, .write (.print value)]
    | .compare =>
      match byArrival (g.flowsOf k.links.incoming), byArrival (g.flowsOf k.links.branches) with
      | [left, right], [onFalse, onTrue] =>
        if id ∈ comparing then .error (.cycle id)
        else .ok [.operand left.source, .operand right.source,
          .inline id left.source right.source onTrue.target onFalse.target]
      | incoming, exits => .error (.comparisonShape id incoming.length exits.length)

namespace Emission

/-- The beginning of the function of a scope. -/
def start (g : Graph) (id : NodeId) (s : Scope) : Emission where
  computed := g.routineParams id s
  comparing := []
  block := []
  around := []
  tasks := [.walk [] none (g.entry? id s)]

/-- Closes the current block, a way of a comparison.  The second way is written next, or what is
behind the comparison. -/
def leave (m : Emission) (f : Comparison) (around : List Comparison) : Emission :=
  match f.yes with
  | none =>
    { m with
      computed := f.before
      block := []
      around := { f with yes := some m.block } :: around
      tasks := [.walk [] none (some f.onFalse)] }
  | some yes =>
    { computed := f.before
      comparing := m.comparing.tail
      block := f.written ++ [.branch f.left f.right yes m.block]
      around
      tasks := f.rest }

/-- Does the first task. -/
def perform (g : Graph) (m : Emission) (task : Task) (tasks : List Task) :
    Except Problem Emission :=
  match task with
  | .walk _ _ none => .ok { m with tasks }
  | .walk seen previous (some id) =>
    if id ∈ seen then .error (.cycle id)
    else
      match g.node? id with
      | none => .error (.noSuchNode id)
      | some node => (visitTasks g m.comparing previous id node).map fun here =>
        { m with tasks := here ++ .walk (id :: seen) (some id) (g.next? node) :: tasks }
  | .demand opened id =>
    if id ∈ m.computed then .ok { m with tasks }
    else
      match g.node? id with
      | none => .error (.noSuchNode id)
      | some node =>
        match (g.dependencies node).reverse.find? (· ∈ id :: opened) with
        | some d => .error (.cycle d)
        | none => .ok { m with
            tasks := (g.dependencies node).map (.demand (id :: opened)) ++ .own id :: tasks }
  | .own id =>
    match g.node? id with
    | none => .error (.noSuchNode id)
    | some node => (binding g id node).map fun own =>
      { m with computed := id :: m.computed, block := m.block ++ own, tasks }
  | .operand id =>
    match g.node? id with
    | none => .error (.noSuchNode id)
    | some node => .ok { m with tasks := if node.isVariable then .demand [] id :: tasks else tasks }
  | .write step => .ok { m with block := m.block ++ [step], tasks }
  | .input target => .ok { m with
      computed := target :: m.computed, block := m.block ++ [.bind target .input], tasks }
  | .inline comparison left right onTrue onFalse => .ok {
      computed := m.computed
      comparing := comparison :: m.comparing
      block := []
      around := ⟨m.block, left, right, none, onFalse, m.computed, tasks⟩ :: m.around
      tasks := [.walk [] none (some onTrue)] }

/-- A step of the machine: the next state or a problem, or nothing at the end of the function. -/
def step (g : Graph) (m : Emission) : Option (Except Problem Emission) :=
  match m.tasks with
  | task :: tasks => some (m.perform g task tasks)
  | [] =>
    match m.around with
    | f :: around => some (.ok (m.leave f around))
    | [] => none

/-- One state leads to another one in some steps. -/
def Reaches (g : Graph) : Emission → Emission → Prop :=
  Relation.ReflTransGen fun m m' => m.step g = some (.ok m')

/-! ## What the machine comes to -/

variable {g : Graph} {m m' : Emission} {ts : List Task}

/-- A state leads to another one, or to a problem. -/
def Leads (g : Graph) (m : Emission) : Except Problem Emission → Prop
  | .ok m' => Reaches g m m'
  | .error e => ∃ m', Reaches g m m' ∧ m'.step g = some (.error e)

lemma Leads.refl (g : Graph) (m : Emission) : Leads g m (.ok m) := Relation.ReflTransGen.refl

lemma Leads.trans {x : Except Problem Emission} (h : Reaches g m m') (hx : Leads g m' x) :
    Leads g m x := by
  cases x with
  | ok m'' => exact Relation.ReflTransGen.trans h hx
  | error e =>
    obtain ⟨m'', hm, he⟩ := hx
    exact ⟨m'', h.trans hm, he⟩

lemma Leads.next {x : Except Problem Emission} (h : m.step g = some (.ok m')) (hx : Leads g m' x) :
    Leads g m x :=
  hx.trans (Relation.ReflTransGen.single h)

lemma Leads.stop {e : Problem} (h : m.step g = some (.error e)) : Leads g m (.error e) :=
  ⟨m, Relation.ReflTransGen.refl, h⟩

/-- Two parts of a computation in turn. -/
lemma Leads.bind {α : Type} {x : Except Problem α} {f : α → Emission}
    {k : α → Except Problem Emission} (hx : Leads g m (x.map f))
    (hk : ∀ a, Leads g (f a) (k a)) : Leads g m (x >>= k) := by
  cases x with
  | error e => exact hx
  | ok a => exact (hk a).trans hx

/-- The state behind what was written. -/
def after (m : Emission) (ts : List Task) (w : Written) : Emission :=
  { m with computed := w.2, block := m.block ++ w.1, tasks := ts }

lemma map_bind {α β : Type} (x : Except Problem α) (k : α → Except Problem β)
    (f : β → Emission) : (x >>= k).map f = x >>= fun a => (k a).map f := by
  cases x <;> rfl

/-- What is written before something else stands in front of it. -/
lemma after_after (m : Emission) (ts ts' : List Task) (w w' : Written) :
    (m.after ts w).after ts' w' = m.after ts' (w.1 ++ w'.1, w'.2) := by
  simp only [after, List.append_assoc]

lemma after_nil (m : Emission) (ts : List Task) :
    m.after ts ([], m.computed) = { m with tasks := ts } := by
  simp only [after, List.append_nil]

/-- Two things are written in turn. -/
lemma Leads.inTurn {start : Emission} {x : Except Problem Written}
    {k : List NodeId → Except Problem Written} {ts ts' : List Task}
    (hx : Leads g start (x.map (m.after ts)))
    (hk : ∀ w, Leads g (m.after ts w) ((k w.2).map ((m.after ts w).after ts'))) :
    Leads g start ((Compile.inTurn x k).map (m.after ts')) := by
  cases x with
  | error e => exact hx
  | ok w =>
    have hmap : (Compile.inTurn (.ok w) k).map (m.after ts') =
        (k w.2).map ((m.after ts w).after ts') := by
      rw [funext (after_after m ts ts' w)]
      exact map_bind (k w.2) (fun rest => .ok (w.1 ++ rest.1, rest.2)) (m.after ts')
    rw [hmap]
    exact (hk w).trans hx

/-! ## Binding -/

lemma step_demand_of_mem {opened : List NodeId} {id : NodeId} (h : id ∈ m.computed) :
    step g { m with tasks := .demand opened id :: ts } = some (.ok { m with tasks := ts }) := by
  simp only [step, perform, if_pos h]

lemma step_demand_of_absent {opened : List NodeId} {id : NodeId} (h : id ∉ m.computed)
    (hn : g.node? id = none) :
    step g { m with tasks := .demand opened id :: ts } = some (.error (.noSuchNode id)) := by
  simp only [step, perform, if_neg h, hn]

lemma step_demand_of_cycle {opened : List NodeId} {id d : NodeId} {node : Node}
    (h : id ∉ m.computed) (hn : g.node? id = some node)
    (hd : (g.dependencies node).reverse.find? (· ∈ id :: opened) = some d) :
    step g { m with tasks := .demand opened id :: ts } = some (.error (.cycle d)) := by
  simp only [step, perform, if_neg h, hn, hd]

lemma step_demand_of_node {opened : List NodeId} {id : NodeId} {node : Node}
    (h : id ∉ m.computed) (hn : g.node? id = some node)
    (hd : (g.dependencies node).reverse.find? (· ∈ id :: opened) = none) :
    step g { m with tasks := .demand opened id :: ts } = some (.ok { m with
      tasks := (g.dependencies node).map (.demand (id :: opened)) ++ .own id :: ts }) := by
  simp only [step, perform, if_neg h, hn, hd]

/-- A node that waits no more is bound. -/
lemma leads_own {id : NodeId} {node : Node} (hn : g.node? id = some node) :
    Leads g { m with tasks := .own id :: ts }
      (((binding g id node).map fun own => (own, id :: m.computed)).map (m.after ts)) := by
  have hstep : step g { m with tasks := .own id :: ts } =
      some ((binding g id node).map fun own => m.after ts (own, id :: m.computed)) := by
    simp only [step, perform, hn, after]
  cases hown : binding g id node with
  | error e => exact .stop (by rw [hstep, hown]; rfl)
  | ok own => exact .next (by rw [hstep, hown]; rfl) (.refl g _)

/-- Nodes are bound in turn. -/
lemma leads_of_demandsTo {opened ids known : List NodeId} {x : Except Problem Written}
    (h : DemandsTo g opened ids known x) (m : Emission) (ts : List Task)
    (hknown : m.computed = known) :
    Leads g { m with tasks := ids.map (.demand opened) ++ ts } (x.map (m.after ts)) := by
  induction h generalizing m ts with
  | nil =>
    subst hknown
    exact after_nil m ts ▸ .refl g _
  | known hmem _ ih =>
    subst hknown
    exact .next (step_demand_of_mem hmem) (ih m ts rfl)
  | absent hnew hn =>
    subst hknown
    exact .stop (step_demand_of_absent hnew hn)
  | cycle hnew hn hd =>
    subst hknown
    exact .stop (step_demand_of_cycle hnew hn hd)
  | bind _ hnew hn hd _ _ ihBefore ihRest =>
    -- the node itself stays below those on which it depends
    subst hknown
    exact .next (step_demand_of_node hnew hn hd) ((ihBefore m _ rfl).inTurn fun before =>
      (leads_own hn).inTurn fun own => ihRest own.2 _ ts rfl)

lemma leads_demandAll (ids : List NodeId) (m : Emission) (ts : List Task) :
    Leads g { m with tasks := ids.map (.demand []) ++ ts }
      ((demandAll g ids m.computed).map (m.after ts)) :=
  leads_of_demandsTo (demandsTo_demandEach _) m ts rfl

lemma leads_operand (id : NodeId) (m : Emission) (ts : List Task) :
    Leads g { m with tasks := .operand id :: ts }
      ((demandOperand g id m.computed).map (m.after ts)) := by
  unfold demandOperand
  cases hn : g.node? id with
  | none => exact .stop (by simp only [step, perform, hn])
  | some node =>
    have hstep : step g { m with tasks := .operand id :: ts } = some (.ok { m with
        tasks := if node.isVariable then .demand [] id :: ts else ts }) := by
      simp only [step, perform, hn]
    refine .next hstep ?_
    dsimp only
    split
    · exact leads_demandAll [id] m ts
    · exact after_nil m ts ▸ .refl g _

/-! ## Walking -/

lemma step_walk_of_node (m : Emission) (ts : List Task) (previous : Option NodeId)
    {seen : List NodeId} {id : NodeId} {node : Node} (hs : id ∉ seen) (hn : g.node? id = some node) :
    step g { m with tasks := .walk seen previous (some id) :: ts } =
      some ((visitTasks g m.comparing previous id node).map fun here => { m with
        tasks := here ++ .walk (id :: seen) (some id) (g.next? node) :: ts }) := by
  simp only [step, perform, if_neg hs, hn]

/-- Both ways of a comparison are written with the same memo, which is there again behind it. -/
lemma leads_inline (m : Emission) (ts : List Task) (left right : NodeId)
    {id onTrue onFalse : NodeId} {yes no : Except Problem Written}
    (hyes : ∀ (m' : Emission) ts', m'.comparing = id :: m.comparing →
      m'.computed = m.computed →
      Leads g { m' with tasks := .walk [] none (some onTrue) :: ts' } (yes.map (m'.after ts')))
    (hno : ∀ (m' : Emission) ts', m'.comparing = id :: m.comparing →
      m'.computed = m.computed →
      Leads g { m' with tasks := .walk [] none (some onFalse) :: ts' } (no.map (m'.after ts'))) :
    Leads g { m with tasks := .inline id left right onTrue onFalse :: ts }
      (yes >>= fun y => no >>= fun n =>
        .ok (m.after ts ([.branch left right y.1 n.1], m.computed))) := by
  -- the states at the beginnings of the two ways
  obtain ⟨first, hfirst⟩ : ∃ e : Emission, e = {
    computed := m.computed, comparing := id :: m.comparing, block := [],
    around := ⟨m.block, left, right, none, onFalse, m.computed, ts⟩ :: m.around, tasks := [] } :=
    exists_eq
  have hopen : step g { m with tasks := .inline id left right onTrue onFalse :: ts } =
      some (.ok { first with tasks := [.walk [] none (some onTrue)] }) := by
    rw [hfirst]
    rfl
  refine .next hopen ?_
  refine (hyes first [] (by rw [hfirst]) (by rw [hfirst])).bind fun y => ?_
  obtain ⟨second, hsecond⟩ : ∃ e : Emission, e = {
    computed := m.computed, comparing := id :: m.comparing, block := [],
    around := ⟨m.block, left, right, some y.1, onFalse, m.computed, ts⟩ :: m.around,
    tasks := [] } := exists_eq
  have hother : step g (first.after [] y) =
      some (.ok { second with tasks := [.walk [] none (some onFalse)] }) := by
    rw [hfirst, hsecond]
    rfl
  refine .next hother ?_
  refine (hno second [] (by rw [hsecond]) (by rw [hsecond])).bind fun n => ?_
  exact .next (by rw [hsecond]; rfl) (.refl g _)

/-- What is done for a node of a walk: its statements, or its problem at once. -/
def Visits (g : Graph) (m : Emission) (ts : List Task) (x : Except Problem Written) :
    Except Problem (List Task) → Prop
  | .error e => x = .error e
  | .ok here => Leads g { m with tasks := here ++ ts } (x.map (m.after ts))

lemma visits_nothing (m : Emission) (ts : List Task) :
    Visits g m ts (.ok ([], m.computed)) (.ok []) := by
  have h : Leads g { m with tasks := ts } (.ok (m.after ts ([], m.computed))) :=
    after_nil m ts ▸ .refl g _
  exact h

/-- Nodes are bound, and then a statement is written. -/
lemma visits_demand_write (ids : List NodeId) (statement : Listing.Step) (m : Emission)
    (ts : List Task) :
    Visits g m ts (inTurn (demandAll g ids m.computed) fun known => .ok ([statement], known))
      (.ok (ids.map (.demand []) ++ [.write statement])) := by
  have h : Leads g { m with tasks := ids.map (.demand []) ++ (.write statement :: ts) }
      ((inTurn (demandAll g ids m.computed) fun known => .ok ([statement], known)).map
        (m.after ts)) :=
    (leads_demandAll ids m _).inTurn fun w => .next rfl (.refl g _)
  change Leads g { m with tasks := (ids.map (.demand []) ++ [.write statement]) ++ ts } _
  rw [List.append_assoc]
  exact h

/-- The operands of a comparison are bound, and then its ways are written. -/
lemma visits_comparison {id left right onTrue onFalse : NodeId}
    {yes no : List NodeId → Except Problem Written}
    (hyes : ∀ known (m' : Emission) ts', m'.comparing = id :: m.comparing →
      m'.computed = known → Leads g { m' with tasks := .walk [] none (some onTrue) :: ts' }
        ((yes known).map (m'.after ts')))
    (hno : ∀ known (m' : Emission) ts', m'.comparing = id :: m.comparing →
      m'.computed = known → Leads g { m' with tasks := .walk [] none (some onFalse) :: ts' }
        ((no known).map (m'.after ts'))) :
    Visits g m ts (comparison g m.computed left right yes no)
      (.ok [.operand left, .operand right, .inline id left right onTrue onFalse]) := by
  rw [comparison_eq]
  change Leads g { m with tasks := [.operand left, .operand right,
    .inline id left right onTrue onFalse] ++ ts } (Except.map (m.after ts) _)
  rw [map_bind]
  refine (leads_operand left m _).bind fun first => ?_
  rw [map_bind]
  refine (leads_operand right (m.after [] first) _).bind fun second => ?_
  obtain ⟨between, hbetween⟩ : ∃ e, e = (m.after [] first).after [] second := exists_eq
  have hways := leads_inline between ts left right (by rw [hbetween]; exact hyes second.2)
    (by rw [hbetween]; exact hno second.2)
  rw [hbetween] at hways
  simp only [after_after] at hways ⊢
  simp only [map_bind]
  exact hways

lemma visits_of_visitsTo {previous : Option NodeId} {id : NodeId} {node : Node}
    {x : Except Problem Written}
    (h : VisitsTo g m.comparing previous m.computed id node x) (ts : List Task) :
    Visits g m ts x (visitTasks g m.comparing previous id node) := by
  rw [visitTasks]
  cases h with
  | var hkind =>
    simp only [hkind]
    exact leads_demandAll [id] m ts
  | skip hkind hskip =>
    simp only [hkind, if_pos hskip]
    exact visits_nothing m ts
  | @call s hkind hcall =>
    simp only [hkind, hcall]
    exact visits_demand_write (g.parameters s) (.call id (g.parameters s)) m ts
  | unset hkind hk =>
    simp only [hkind, hk]
    rfl
  | noTarget hkind hk htarget =>
    simp only [hkind, hk, htarget]
    rfl
  | input hkind hk htarget =>
    simp only [hkind, hk, htarget]
    exact .next rfl (.refl g _)
  | nothing hkind hk hvalue =>
    simp only [hkind, hk, hvalue]
    rfl
  | @output k value hkind hk hvalue =>
    simp only [hkind, hk, hvalue]
    exact visits_demand_write [value] (.print value) m ts
  | misshapen hkind hk _ =>
    simp only [hkind, hk]
    rfl
  | inside hkind hk hin hout hc =>
    simp only [hkind, hk, hin, hout, if_pos hc]
    rfl

/-- A walk visits a node and goes on behind it. -/
lemma leads_visit {seen : List NodeId} {previous : Option NodeId} {id : NodeId} {node : Node}
    {here : Except Problem Written} {behind : List NodeId → Except Problem Written}
    (hs : id ∉ seen) (hn : g.node? id = some node)
    (hvisit : ∀ ts, Visits g m ts here (visitTasks g m.comparing previous id node))
    (hbehind : ∀ known (m' : Emission) ts, m'.comparing = m.comparing → m'.computed = known →
      Leads g { m' with tasks := .walk (id :: seen) (some id) (g.next? node) :: ts }
        ((behind known).map (m'.after ts))) (ts : List Task) :
    Leads g { m with tasks := .walk seen previous (some id) :: ts }
      ((inTurn here behind).map (m.after ts)) := by
  have hstep := step_walk_of_node m ts previous hs hn
  have hhere := hvisit (.walk (id :: seen) (some id) (g.next? node) :: ts)
  cases htasks : visitTasks g m.comparing previous id node with
  | error e =>
    rw [htasks] at hstep hhere
    rw [show here = .error e from hhere]
    exact .stop hstep
  | ok tasks =>
    rw [htasks] at hstep hhere
    exact .next hstep (Leads.inTurn hhere fun w => hbehind w.2 _ ts rfl rfl)

lemma leads_of_walksTo {comparing seen known : List NodeId} {previous start : Option NodeId}
    {x : Except Problem Written} (h : WalksTo g comparing seen previous known start x)
    (m : Emission) (ts : List Task) (hcomparing : m.comparing = comparing)
    (hknown : m.computed = known) :
    Leads g { m with tasks := .walk seen previous start :: ts } (x.map (m.after ts)) := by
  induction h generalizing m ts with
  | stop =>
    subst hknown
    exact .next rfl (after_nil m ts ▸ .refl g _)
  | again hs => exact .stop (by simp only [step, perform, if_pos hs])
  | absent hs hn => exact .stop (by simp only [step, perform, if_neg hs, hn])
  | visit hs hn hvisit _ ihAfter =>
    subst hcomparing hknown
    exact leads_visit hs hn (visits_of_visitsTo hvisit) ihAfter ts
  | @compare comparing seen known previous id node k left right onFalse onTrue yes no behind hs hn
      hkind hk hin hout hc _ _ _ ihYes ihNo ihAfter =>
    subst hcomparing hknown
    have htasks : visitTasks g m.comparing previous id node = .ok [.operand left.source,
        .operand right.source, .inline id left.source right.source onTrue.target onFalse.target] := by
      simp only [visitTasks, hkind, hk, hin, hout, if_neg hc]
    refine leads_visit hs hn (fun ts => ?_) ihAfter ts
    rw [htasks]
    exact visits_comparison ihYes ihNo

lemma leads_walk (m : Emission) (ts : List Task) (seen : List NodeId)
    (previous start : Option NodeId) :
    Leads g { m with tasks := .walk seen previous start :: ts }
      ((walk g m.comparing seen previous m.computed start).map (m.after ts)) :=
  leads_of_walksTo (walksTo_walk _ _ _ _ _ _) m ts rfl rfl

/-! ## The whole function -/

/-- There is one state only at which no further step is done. -/
lemma eq_of_last {a b : Emission} (ha : ∀ m, a.step g ≠ some (.ok m))
    (hb : ∀ m, b.step g ≠ some (.ok m)) (hma : Reaches g m a) (hmb : Reaches g m b) : a = b := by
  have hunique : Relator.RightUnique fun m m' : Emission => m.step g = some (.ok m') := by
    intro a b c hb hc
    exact Except.ok.inj (Option.some.inj (hb.symm.trans hc))
  obtain h | h := Relation.ReflTransGen.total_of_right_unique hunique hma hmb
  · obtain rfl | ⟨c, hc, -⟩ := Relation.ReflTransGen.cases_head h
    · rfl
    · exact absurd hc (ha c)
  · obtain rfl | ⟨c, hc, -⟩ := Relation.ReflTransGen.cases_head h
    · rfl
    · exact absurd hc (hb c)

/-- Where a run ends or stops there is what it leads to. -/
lemma Leads.ends_iff {x : Except Problem Emission} (h : Leads g m x)
    (hlast : ∀ last, x = .ok last → last.step g = none) :
    (∀ last, x = .ok last ↔ Reaches g m last ∧ last.step g = none) ∧
    ∀ e, x = .error e ↔ ∃ last, Reaches g m last ∧ last.step g = some (.error e) := by
  cases x with
  | error e =>
    obtain ⟨stop, hstop, he⟩ := h
    have hunique : ∀ {last}, Reaches g m last → (∀ m', last.step g ≠ some (.ok m')) →
        stop = last := fun hreaches hlast => eq_of_last (by simp [he]) hlast hstop hreaches
    refine ⟨fun last => ⟨fun h => (nomatch h), ?_⟩, fun e' => ⟨?_, ?_⟩⟩
    · rintro ⟨hreaches, hend⟩
      cases hunique hreaches (by simp [hend])
      simp [hend] at he
    · rintro ⟨⟩
      exact ⟨stop, hstop, he⟩
    · rintro ⟨last, hreaches, he'⟩
      cases hunique hreaches (by simp [he'])
      simpa [he'] using he.symm
  | ok m' =>
    have hend := hlast m' rfl
    have hunique : ∀ {last}, Reaches g m last → (∀ m', last.step g ≠ some (.ok m')) →
        m' = last := fun hreaches hlast => eq_of_last (by simp [hend]) hlast h hreaches
    refine ⟨fun last => ⟨?_, ?_⟩, fun e => ⟨fun h => (nomatch h), ?_⟩⟩
    · rintro ⟨⟩
      exact ⟨h, hend⟩
    · rintro ⟨hreaches, hend'⟩
      rw [hunique hreaches (by simp [hend'])]
    · rintro ⟨last, hreaches, he⟩
      cases hunique hreaches (by simp [he])
      simp [he] at hend

/-- **The machine ends with the function of the compiler, or stops with its problem.** -/
theorem routine_eq (g : Graph) (id : NodeId) (s : Scope) :
    (∀ r, g.routine id s = .ok r ↔ ∃ m, Reaches g (start g id s) m ∧ m.step g = none ∧
      r = ⟨id, g.routineParams id s, m.block⟩) ∧
    ∀ e, g.routine id s = .error e ↔ ∃ m, Reaches g (start g id s) m ∧
      m.step g = some (.error e) := by
  obtain ⟨x, hx⟩ : ∃ x, x = (walk g [] [] none (g.routineParams id s) (g.entry? id s)).map
    ((start g id s).after []) := exists_eq
  have hroutine : g.routine id s = x.map fun m => ⟨id, g.routineParams id s, m.block⟩ := by
    rw [hx]
    unfold Graph.routine
    dsimp only
    cases walk g [] [] none (g.routineParams id s) (g.entry? id s) <;> rfl
  have hleads : Leads g (start g id s) x := hx ▸ leads_walk (start g id s) [] [] none (g.entry? id s)
  have hend : ∀ last, x = .ok last → last.step g = none := by
    rintro last rfl
    cases hwalk : walk g [] [] none (g.routineParams id s) (g.entry? id s) with
    | error e =>
      rw [hwalk] at hx
      cases hx
    | ok w =>
      rw [hwalk] at hx
      cases hx
      rfl
  obtain ⟨hok, herror⟩ := hleads.ends_iff hend
  rw [hroutine]
  constructor
  · intro r
    simp only [← and_assoc, ← hok]
    cases x with
    | error e => simp [Except.map]
    | ok m => simp [Except.map, eq_comm]
  · intro e
    rw [← herror]
    cases x with
    | error e' => simp [Except.map]
    | ok m => simp [Except.map]

end Emission

end Compile

end FlowSketch
