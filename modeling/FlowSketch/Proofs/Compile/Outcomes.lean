/-
# What values, demands and walks come to

The compiler reads what is written on a variable, binds variables and writes statements, and each of
these can stop with a problem.  The relations of this file list the ways in which it proceeds, each
with what it comes to, a result or a problem.  Demands and walks recurse through the functions that
they call; whatever holds of all of them is proved by induction on these relations, and not by
opening the functions again.

Main statements: `bindsTo_binding`, `demandsTo_demandEach`, `walksTo_walk`.
-/
import Mathlib.Tactic.Common
import FlowSketch.Compile.Listing

namespace FlowSketch.Compile

/-- A result of two computations in turn. -/
lemma bind_eq_ok {ε α β : Type} {x : Except ε α} {f : α → Except ε β} {b : β} :
    (x >>= f) = .ok b ↔ ∃ a, x = .ok a ∧ f a = .ok b := by
  cases x with
  | error e => simp [bind, Except.bind]
  | ok a => simp [bind, Except.bind]

lemma map_eq_ok {ε α β : Type} {x : Except ε α} {f : α → β} {b : β} :
    x.map f = .ok b ↔ ∃ a, x = .ok a ∧ f a = b := by
  cases x with
  | error e => simp [Except.map]
  | ok a => simp [Except.map]

/-- What is written for two things in turn.  What the second one comes to depends on the nodes that
are bound by the first one. -/
def inTurn (x : Except Problem Written) (k : List NodeId → Except Problem Written) :
    Except Problem Written :=
  x >>= fun first => k first.2 >>= fun rest => pure (first.1 ++ rest.1, rest.2)

lemma inTurn_nil (known : List NodeId) (k : List NodeId → Except Problem Written) :
    inTurn (.ok ([], known)) k = k known := by
  change (k known >>= fun rest => pure ([] ++ rest.1, rest.2)) = k known
  exact bind_pure _

lemma inTurn_eq_ok {x : Except Problem Written} {k : List NodeId → Except Problem Written}
    {ss : List Listing.Step} {known : List NodeId} :
    inTurn x k = .ok (ss, known) ↔ ∃ first between rest, x = .ok (first, between) ∧
      k between = .ok (rest, known) ∧ first ++ rest = ss := by
  simp [inTurn, bind_eq_ok, pure, Except.pure]

lemma inTurn_assoc (x : Except Problem Written) (k l : List NodeId → Except Problem Written) :
    inTurn (inTurn x k) l = inTurn x fun known => inTurn (k known) l := by
  simp [inTurn]

/-! ## Problems -/

section Raises

variable {P Q : Problem → Prop} {α β : Type}

/-- Every problem that a computation can end with has a property. -/
def Raises (P : Problem → Prop) (x : Except Problem α) : Prop := ∀ e, x = .error e → P e

lemma raises_ok (a : α) : Raises P (.ok a) := by
  rintro e ⟨⟩

lemma raises_error {e : Problem} (h : P e) : Raises P (.error e : Except Problem α) := by
  rintro _ ⟨rfl⟩
  exact h

lemma Raises.mono {x : Except Problem α} (hx : Raises P x) (h : ∀ e, P e → Q e) : Raises Q x :=
  fun e he => h e (hx e he)

lemma Raises.bind_of_ok {x : Except Problem α} {f : α → Except Problem β} (hx : Raises P x)
    (hf : ∀ a, x = .ok a → Raises P (f a)) : Raises P (x >>= f) := by
  cases x with
  | error e => exact raises_error (hx e rfl)
  | ok a => exact hf a rfl

lemma Raises.bind {x : Except Problem α} {f : α → Except Problem β} (hx : Raises P x)
    (hf : ∀ a, Raises P (f a)) : Raises P (x >>= f) :=
  hx.bind_of_ok fun a _ => hf a

lemma Raises.map {x : Except Problem α} (f : α → β) (hx : Raises P x) : Raises P (x.map f) := by
  cases x with
  | error e => exact raises_error (hx e rfl)
  | ok a => exact raises_ok _

lemma Raises.mapM {f : α → Except Problem β} {as : List α} (hf : ∀ a ∈ as, Raises P (f a)) :
    Raises P (as.mapM f) := by
  induction as with
  | nil => exact raises_ok _
  | cons a as ih =>
    rw [List.mapM_cons]
    obtain ⟨ha, has⟩ := List.forall_mem_cons.mp hf
    exact ha.bind fun _ => (ih has).bind fun _ => raises_ok _

lemma Raises.inTurn_of_ok {x : Except Problem Written} {k : List NodeId → Except Problem Written}
    (hx : Raises P x) (hk : ∀ ss known, x = .ok (ss, known) → Raises P (k known)) :
    Raises P (inTurn x k) :=
  hx.bind_of_ok fun w hw => (hk w.1 w.2 hw).bind fun _ => raises_ok _

lemma Raises.inTurn {x : Except Problem Written} {k : List NodeId → Except Problem Written}
    (hx : Raises P x) (hk : ∀ known, Raises P (k known)) : Raises P (inTurn x k) :=
  hx.inTurn_of_ok fun _ known _ => hk known

/-- A problem with what is written on a variable. -/
def OfText : Problem → Prop
  | .notOperator _ _ | .operandCount _ _ _ | .noValue _ => True
  | _ => False

end Raises

/-! ## Values -/

section Values

variable {g : Graph} {id : NodeId} {node : Node} {text : String}

/-- A text that is written on a node, and the value or the problem that it comes to. -/
inductive ValuesTo (g : Graph) (id : NodeId) (node : Node) (text : String) :
    Except Problem Listing.Value → Prop
  /-- A finite number. -/
  | number {x : Float} : finiteNumber? (Text.trim text.toList) = some x →
    ValuesTo g id node text (.ok (.number x))
  /-- A text between quotes. -/
  | quoted {s : List Char} : finiteNumber? (Text.trim text.toList) = none →
    betweenQuotes? (Text.trim text.toList) = some s →
    ValuesTo g id node text (.ok (.text (String.ofList s)))
  /-- A text without operators. -/
  | plain : finiteNumber? (Text.trim text.toList) = none →
    betweenQuotes? (Text.trim text.toList) = none → mentionsOperator text.toList = false →
    ValuesTo g id node text (.ok (.text text))
  /-- An expression with a token that is no operator. -/
  | notOperator {t : List Char} : mentionsOperator text.toList = true →
    (Text.words text.toList).find? (fun t => (Operator.ofToken? t).isNone) = some t →
    ValuesTo g id node text (.error (.notOperator id (String.ofList t)))
  /-- An expression with too few or too many operands. -/
  | operandCount {operators : List Operator} {operands : List NodeId} :
    mentionsOperator text.toList = true →
    (Text.words text.toList).filterMap Operator.ofToken? = operators →
    (byArrival (g.variableFlows node.links)).map (·.source) = operands →
    operands.length ≠ operators.length + 1 →
    ValuesTo g id node text (.error (.operandCount id operands.length operators.length))
  /-- An expression. -/
  | chain {operators : List Operator} {first : NodeId} {rest : List NodeId} :
    mentionsOperator text.toList = true →
    (Text.words text.toList).filterMap Operator.ofToken? = operators →
    (byArrival (g.variableFlows node.links)).map (·.source) = first :: rest →
    rest.length = operators.length →
    ValuesTo g id node text (.ok (.chain ⟨first, operators.zip rest⟩))

lemma valuesTo_chainValue (h : mentionsOperator text.toList = true) :
    ValuesTo g id node text (chainValue g id node text.toList) := by
  unfold chainValue
  dsimp only
  split
  · rename_i t hfind
    exact .notOperator h hfind
  · split
    · rename_i first rest hoperands
      split
      · rename_i hlength
        exact .chain h rfl hoperands hlength
      · rename_i hlength
        exact .operandCount h rfl rfl (by rw [hoperands]; simpa using hlength)
    · rename_i hoperands
      exact .operandCount h rfl hoperands (by simp)

/-- What a text comes to. -/
lemma valuesTo_textValue (g : Graph) (id : NodeId) (node : Node) (text : String) :
    ValuesTo g id node text (textValue g id node text) := by
  unfold textValue
  dsimp only
  split
  · rename_i x hnumber
    exact .number hnumber
  · rename_i hnumber
    split
    · rename_i s hquotes
      exact .quoted hnumber hquotes
    · rename_i hquotes
      split
      · rename_i hmentions
        exact valuesTo_chainValue hmentions
      · rename_i hmentions
        exact .plain hnumber hquotes (Bool.eq_false_iff.mpr hmentions)

/-- A node, and what its own binding comes to. -/
inductive BindsTo (g : Graph) (id : NodeId) (node : Node) :
    Except Problem (List Listing.Step) → Prop
  /-- The node has no value of its own. -/
  | blank : (∀ v, node.kind = .var v → v.atomic = false) → BindsTo g id node (.ok [])
  /-- Nothing is written on a variable that must have a value of its own. -/
  | noValue {v : Variable} : node.kind = .var v → v.atomic = true → v.value = none →
    BindsTo g id node (.error (.noValue id))
  /-- A variable is bound to what is written on it. -/
  | value {v : Variable} {text : String} : node.kind = .var v → v.atomic = true →
    v.value = some text →
    BindsTo g id node ((textValue g id node text).map fun value => [.bind id value])

/-- What a binding comes to. -/
lemma bindsTo_binding (g : Graph) (id : NodeId) (node : Node) :
    BindsTo g id node (binding g id node) := by
  unfold binding
  split
  · rename_i v hkind
    split
    · rename_i hatomic
      split
      · rename_i text htext
        exact .value hkind hatomic htext
      · rename_i htext
        exact .noValue hkind hatomic htext
    · rename_i hatomic
      refine .blank fun w hw => ?_
      obtain rfl : v = w := NodeKind.var.inj (hkind.symm.trans hw)
      exact Bool.eq_false_iff.mpr hatomic
  · rename_i hkind
    exact .blank fun v hv => absurd hv (hkind v)

lemma ValuesTo.raises {x : Except Problem Listing.Value} (h : ValuesTo g id node text x) :
    Raises OfText x := by
  cases h with
  | notOperator => exact raises_error trivial
  | operandCount => exact raises_error trivial
  | _ => exact raises_ok _

lemma BindsTo.raises {x : Except Problem (List Listing.Step)} (h : BindsTo g id node x) :
    Raises OfText x := by
  cases h with
  | blank => exact raises_ok _
  | noValue => exact raises_error trivial
  | value => exact (valuesTo_textValue _ _ _ _).raises.map _

/-- A variable has no value because of what is written on it. -/
lemma raises_binding (g : Graph) (id : NodeId) (node : Node) :
    Raises OfText (binding g id node) :=
  (bindsTo_binding g id node).raises

end Values

variable {g : Graph}

/-! ## Demands -/

lemma demandEach_nil {opened known : List NodeId} (hids : ∀ d ∈ [], d ∉ opened) :
    demandEach g opened [] hids known = .ok ([], known) := by
  rw [demandEach]

/-- Nodes are bound in turn. -/
lemma demandEach_cons_eq {opened known ids : List NodeId} {id : NodeId}
    (hids : ∀ d ∈ id :: ids, d ∉ opened) :
    demandEach g opened (id :: ids) hids known =
      inTurn (demand g opened id (hids id List.mem_cons_self) known)
        (demandEach g opened ids fun d hd => hids d (List.mem_cons_of_mem id hd)) := by
  rw [demandEach]
  rfl

lemma demandEach_cons {opened known between known' ids : List NodeId} {id : NodeId}
    {ss rs : List Listing.Step} (hids : ∀ d ∈ id :: ids, d ∉ opened)
    (hfirst : demand g opened id (hids id List.mem_cons_self) known = .ok (ss, between))
    (hrest : demandEach g opened ids (fun d hd => hids d (List.mem_cons_of_mem id hd)) between =
      .ok (rs, known')) :
    demandEach g opened (id :: ids) hids known = .ok (ss ++ rs, known') := by
  rw [demandEach_cons_eq]
  exact inTurn_eq_ok.mpr ⟨ss, between, rs, hfirst, hrest, rfl⟩

/-- A node that is bound already is passed over. -/
lemma demandEach_cons_of_mem {opened known ids : List NodeId} {id : NodeId}
    (hids : ∀ d ∈ id :: ids, d ∉ opened) (hmem : id ∈ known) :
    demandEach g opened (id :: ids) hids known =
      demandEach g opened ids (fun d hd => hids d (List.mem_cons_of_mem id hd)) known := by
  rw [demandEach_cons_eq, demand_of_mem _ hmem, inTurn_nil]

/-- A node that is not bound yet, and that does not depend on itself, is bound after those on
which it depends. -/
lemma demand_of_node {opened known : List NodeId} {id : NodeId} {node : Node}
    (hid : id ∉ opened) (hnew : id ∉ known) (hn : g.node? id = some node)
    (hd : ∀ d ∈ g.dependencies node, d ∉ id :: opened) :
    demand g opened id hid known =
      inTurn (demandEach g (id :: opened) (g.dependencies node) hd known) fun between =>
        (binding g id node).map fun own => (own, id :: between) := by
  rw [demand, if_neg hnew]
  split
  · rename_i hnone
    rw [hn] at hnone
    cases hnone
  · rename_i node' hnode
    rw [hn] at hnode
    cases hnode
    split
    · rename_i d hfind
      exact absurd (List.mem_reverse.mp (List.mem_of_find?_eq_some hfind))
        fun hmem => hd d hmem (by simpa using List.find?_some hfind)
    · cases binding g id node <;> rfl

/-- A node that is not in the graph cannot be bound. -/
lemma demand_of_absent {opened known : List NodeId} {id : NodeId} (hid : id ∉ opened)
    (hnew : id ∉ known) (hn : g.node? id = none) :
    demand g opened id hid known = .error (.noSuchNode id) := by
  rw [demand, if_neg hnew]
  split
  · rfl
  · rename_i node hnode
    rw [hn] at hnode
    cases hnode

/-- A node that depends on a node that waits for it cannot be bound. -/
lemma demand_of_cycle {opened known : List NodeId} {id d : NodeId} {node : Node}
    (hid : id ∉ opened) (hnew : id ∉ known) (hn : g.node? id = some node)
    (hd : (g.dependencies node).reverse.find? (· ∈ id :: opened) = some d) :
    demand g opened id hid known = .error (.cycle d) := by
  rw [demand, if_neg hnew]
  split
  · rename_i hnone
    rw [hn] at hnone
    cases hnone
  · rename_i node' hnode
    rw [hn] at hnode
    cases hnode
    split
    · rename_i d' hd'
      rw [hd] at hd'
      cases hd'
      rfl
    · rename_i hnone
      rw [hd] at hnone
      cases hnone

/-- A node that depends on no other one is bound at once. -/
lemma demand_of_leaf {opened known : List NodeId} {id : NodeId} {node : Node}
    {own : List Listing.Step} (hid : id ∉ opened) (hnew : id ∉ known)
    (hn : g.node? id = some node) (hd : g.dependencies node = [])
    (hown : binding g id node = .ok own) :
    demand g opened id hid known = .ok (own, id :: known) := by
  rw [demand_of_node hid hnew hn (by simp [hd])]
  simp only [hd, demandEach_nil, hown]
  rfl

/-- None of the nodes on which a node depends waits for it. -/
lemma not_mem_of_find?_eq_none {opened ds : List NodeId} {id : NodeId}
    (hd : ds.reverse.find? (· ∈ id :: opened) = none) : ∀ d ∈ ds, d ∉ id :: opened :=
  fun d hm => by simpa using List.find?_eq_none.mp hd d (List.mem_reverse.mpr hm)

/-- What is written for a node itself, with which it is bound. -/
lemma map_own_eq_ok {x : Except Problem (List Listing.Step)} {ids known : List NodeId}
    {ss : List Listing.Step} :
    (x.map fun own => (own, ids)) = .ok (ss, known) ↔ x = .ok ss ∧ ids = known := by
  simp [map_eq_ok]

/-- A demand: the nodes that wait, the nodes that are to be bound in turn, the nodes that are bound
already, and what it comes to. -/
inductive DemandsTo (g : Graph) :
    List NodeId → List NodeId → List NodeId → Except Problem Written → Prop
  /-- There is nothing to bind. -/
  | nil (opened known : List NodeId) : DemandsTo g opened [] known (.ok ([], known))
  /-- The first node is bound already. -/
  | known {opened ids known : List NodeId} {id : NodeId} {x : Except Problem Written} :
    id ∈ known → DemandsTo g opened ids known x → DemandsTo g opened (id :: ids) known x
  /-- The first node is not in the graph. -/
  | absent {opened ids known : List NodeId} {id : NodeId} :
    id ∉ known → g.node? id = none →
    DemandsTo g opened (id :: ids) known (.error (.noSuchNode id))
  /-- The first node depends on itself or on a node that waits for it. -/
  | cycle {opened ids known : List NodeId} {id d : NodeId} {node : Node} :
    id ∉ known → g.node? id = some node →
    (g.dependencies node).reverse.find? (· ∈ id :: opened) = some d →
    DemandsTo g opened (id :: ids) known (.error (.cycle d))
  /-- The first node is bound after those on which it depends. -/
  | bind {opened ids known : List NodeId} {id : NodeId} {node : Node}
    {before : Except Problem Written} {rest : List NodeId → Except Problem Written} :
    id ∉ opened → id ∉ known → g.node? id = some node →
    (g.dependencies node).reverse.find? (· ∈ id :: opened) = none →
    DemandsTo g (id :: opened) (g.dependencies node) known before →
    (∀ between, DemandsTo g opened ids between (rest between)) →
    DemandsTo g opened (id :: ids) known
      (inTurn before fun between =>
        inTurn ((binding g id node).map fun own => (own, id :: between)) rest)

/-- What a demand comes to. -/
lemma demandsTo_demandEach {opened ids known : List NodeId} (hids : ∀ d ∈ ids, d ∉ opened) :
    DemandsTo g opened ids known (demandEach g opened ids hids known) := by
  -- a single node, in front of others that come to something
  have key := (demand.mutual_induct g
    (fun opened id hid known => ∀ ids (rest : List NodeId → Except Problem Written),
      (∀ between, DemandsTo g opened ids between (rest between)) →
        DemandsTo g opened (id :: ids) known (inTurn (demand g opened id hid known) rest))
    (fun opened ids hids known => DemandsTo g opened ids known (demandEach g opened ids hids known))
    ?known ?absent ?cycle ?bind ?nil ?cons).2
  · exact key opened ids hids known
  case known =>
    intro opened id hid known hmem ids rest hrest
    rw [demand_of_mem hid hmem, inTurn_nil]
    exact .known hmem (hrest known)
  case absent =>
    intro opened id hid known hnew hn ids rest _
    rw [demand_of_absent hid hnew hn]
    exact .absent hnew hn
  case cycle =>
    intro opened id hid known hnew node hn d hd ids rest _
    rw [demand_of_cycle hid hnew hn hd]
    exact .cycle hnew hn hd
  case bind =>
    intro opened id hid known hnew node hn hd ih ids rest hrest
    rw [demand_of_node hid hnew hn (not_mem_of_find?_eq_none hd), inTurn_assoc]
    exact .bind hid hnew hn hd ih hrest
  case nil =>
    intro opened known hids _
    rw [demandEach_nil]
    exact .nil _ _
  case cons =>
    intro opened known id ids hids _ ih ih'
    rw [demandEach_cons_eq]
    exact ih ids _ ih'

/-! ## Walks -/

/-- The statements of a comparison: its operands are bound, and then its ways are entered. -/
def comparison (g : Graph) (known : List NodeId) (left right : NodeId)
    (yes no : List NodeId → Except Problem Written) : Except Problem Written := do
  let (first, known) ← demandOperand g left known
  let (second, known) ← demandOperand g right known
  let (yes, _) ← yes known
  let (no, _) ← no known
  return (first ++ second ++ [.branch left right yes no], known)

lemma comparison_eq (known : List NodeId) (left right : NodeId)
    (yes no : List NodeId → Except Problem Written) :
    comparison g known left right yes no =
      demandOperand g left known >>= fun first => demandOperand g right first.2 >>= fun second =>
        yes second.2 >>= fun yes => no second.2 >>= fun no =>
          .ok (first.1 ++ second.1 ++ [.branch left right yes.1 no.1], second.2) := rfl

/-- A node at which no other walk begins, and what it comes to. -/
inductive VisitsTo (g : Graph) (comparing : List NodeId) (previous : Option NodeId)
    (known : List NodeId) (id : NodeId) (node : Node) : Except Problem Written → Prop
  /-- A variable is bound. -/
  | var {v : Variable} : node.kind = .var v →
    VisitsTo g comparing previous known id node (demandAll g [id] known)
  /-- The root and scopes without a body do nothing. -/
  | skip {s : Scope} : node.kind = .scope s → (id.isRoot || s.start.isNone) = true →
    VisitsTo g comparing previous known id node (.ok ([], known))
  /-- Another scope is called. -/
  | call {s : Scope} : node.kind = .scope s → (id.isRoot || s.start.isNone) = false →
    VisitsTo g comparing previous known id node
      (inTurn (demandAll g (g.parameters s) known) fun known =>
        .ok ([.call id (g.parameters s)], known))
  /-- Nothing says what a symbol does. -/
  | unset {k : Symbol} : node.kind = .symbol k → k.effective = .unset →
    VisitsTo g comparing previous known id node (.error (.unknownPurpose id))
  /-- An input leads to no variable. -/
  | noTarget {k : Symbol} : node.kind = .symbol k → k.effective = .input →
    (g.firstBranch? k.links).or k.links.next = none →
    VisitsTo g comparing previous known id node (.error (.noInputTarget id))
  /-- An input fills a variable. -/
  | input {k : Symbol} {target : NodeId} : node.kind = .symbol k → k.effective = .input →
    (g.firstBranch? k.links).or k.links.next = some target →
    VisitsTo g comparing previous known id node (.ok ([.bind target .input], target :: known))
  /-- No variable leads to an output. -/
  | nothing {k : Symbol} : node.kind = .symbol k → k.effective = .output →
    printed? g previous k.links = none →
    VisitsTo g comparing previous known id node (.error (.nothingToPrint id))
  /-- An output prints a variable. -/
  | output {k : Symbol} {value : NodeId} : node.kind = .symbol k → k.effective = .output →
    printed? g previous k.links = some value →
    VisitsTo g comparing previous known id node
      (inTurn (demandAll g [value] known) fun known => .ok ([.print value], known))
  /-- A comparison does not have two flows in and two ways out. -/
  | misshapen {k : Symbol} : node.kind = .symbol k → k.effective = .compare →
    (∀ left right onFalse onTrue, byArrival (g.flowsOf k.links.incoming) = [left, right] →
      byArrival (g.flowsOf k.links.branches) = [onFalse, onTrue] → False) →
    VisitsTo g comparing previous known id node
      (.error (.comparisonShape id (byArrival (g.flowsOf k.links.incoming)).length
        (byArrival (g.flowsOf k.links.branches)).length))
  /-- A comparison lies on one of its own ways. -/
  | inside {k : Symbol} {left right onFalse onTrue : Flow} :
    node.kind = .symbol k → k.effective = .compare →
    byArrival (g.flowsOf k.links.incoming) = [left, right] →
    byArrival (g.flowsOf k.links.branches) = [onFalse, onTrue] → id ∈ comparing →
    VisitsTo g comparing previous known id node (.error (.cycle id))

/-- A walk: the comparisons that it takes place inside of, the nodes that it has entered, the latest
of them, the nodes that are bound, the node at which it goes on, and what it comes to. -/
inductive WalksTo (g : Graph) : List NodeId → List NodeId → Option NodeId → List NodeId →
    Option NodeId → Except Problem Written → Prop
  /-- The walk is at its end. -/
  | stop (comparing seen : List NodeId) (previous : Option NodeId) (known : List NodeId) :
    WalksTo g comparing seen previous known none (.ok ([], known))
  /-- The walk comes back to a node. -/
  | again {comparing seen known : List NodeId} {previous : Option NodeId} {id : NodeId} :
    id ∈ seen → WalksTo g comparing seen previous known (some id) (.error (.cycle id))
  /-- The node is not in the graph. -/
  | absent {comparing seen known : List NodeId} {previous : Option NodeId} {id : NodeId} :
    id ∉ seen → g.node? id = none →
    WalksTo g comparing seen previous known (some id) (.error (.noSuchNode id))
  /-- A node is visited, and the walk goes on behind it. -/
  | visit {comparing seen known : List NodeId} {previous : Option NodeId} {id : NodeId}
    {node : Node} {here : Except Problem Written} {after : List NodeId → Except Problem Written} :
    id ∉ seen → g.node? id = some node → VisitsTo g comparing previous known id node here →
    (∀ between, WalksTo g comparing (id :: seen) (some id) between (g.next? node)
      (after between)) →
    WalksTo g comparing seen previous known (some id) (inTurn here after)
  /-- A comparison is entered on both ways, and the walk goes on behind it. -/
  | compare {comparing seen known : List NodeId} {previous : Option NodeId} {id : NodeId}
    {node : Node} {k : Symbol} {left right onFalse onTrue : Flow}
    {yes no after : List NodeId → Except Problem Written} :
    id ∉ seen → g.node? id = some node → node.kind = .symbol k → k.effective = .compare →
    byArrival (g.flowsOf k.links.incoming) = [left, right] →
    byArrival (g.flowsOf k.links.branches) = [onFalse, onTrue] → id ∉ comparing →
    (∀ known, WalksTo g (id :: comparing) [] none known (some onTrue.target) (yes known)) →
    (∀ known, WalksTo g (id :: comparing) [] none known (some onFalse.target) (no known)) →
    (∀ between, WalksTo g comparing (id :: seen) (some id) between (g.next? node)
      (after between)) →
    WalksTo g comparing seen previous known (some id)
      (inTurn (comparison g known left.source right.source yes no) after)

/-- A walk that has not entered a node yet visits it and goes on behind it. -/
lemma walk_of_node {comparing seen known : List NodeId} {previous : Option NodeId} {id : NodeId}
    {node : Node} (hs : id ∉ seen) (hn : g.node? id = some node) :
    walk g comparing seen previous known (some id) =
      inTurn (visit g comparing previous known id node (Graph.contains_of_node? hn)) fun between =>
        walk g comparing (id :: seen) (some id) between (g.next? node) := by
  rw [walk, dif_neg hs]
  split
  · rename_i hnone
    rw [hn] at hnone
    cases hnone
  · rename_i node' hnode
    rw [hn] at hnode
    cases hnode
    rfl

lemma walk_cons {comparing seen known between known' : List NodeId} {previous next : Option NodeId}
    {id : NodeId} {node : Node} {here after : List Listing.Step} (hs : id ∉ seen)
    (hn : g.node? id = some node)
    (hvisit : ∀ hid, visit g comparing previous known id node hid = .ok (here, between))
    (hnext : g.next? node = next)
    (hafter : walk g comparing (id :: seen) (some id) between next = .ok (after, known')) :
    walk g comparing seen previous known (some id) = .ok (here ++ after, known') := by
  rw [walk_of_node hs hn, hvisit, hnext]
  exact inTurn_eq_ok.mpr ⟨here, between, after, rfl, hafter, rfl⟩

/-- A walk does not lead to a node that is not in the graph. -/
lemma walk_of_absent {comparing seen known : List NodeId} {previous : Option NodeId} {id : NodeId}
    (hs : id ∉ seen) (hn : g.node? id = none) :
    walk g comparing seen previous known (some id) = .error (.noSuchNode id) := by
  rw [walk, dif_neg hs]
  split
  · rfl
  · rename_i node hnode
    rw [hn] at hnode
    cases hnode

/-- A comparison that is not entered yet is entered on both ways. -/
lemma visit_of_compare {comparing known : List NodeId} {previous : Option NodeId} {id : NodeId}
    {node : Node} {k : Symbol} {left right onFalse onTrue : Flow} (hid : g.contains id = true)
    (hkind : node.kind = .symbol k) (hk : k.effective = .compare)
    (hin : byArrival (g.flowsOf k.links.incoming) = [left, right])
    (hout : byArrival (g.flowsOf k.links.branches) = [onFalse, onTrue]) (hc : id ∉ comparing) :
    visit g comparing previous known id node hid =
      comparison g known left.source right.source
        (fun known => walk g (id :: comparing) [] none known (some onTrue.target))
        (fun known => walk g (id :: comparing) [] none known (some onFalse.target)) := by
  rw [visit]
  simp only [hkind, hk, hin, hout, dif_neg hc]
  rfl

/-- What a walk comes to. -/
lemma walksTo_walk (g : Graph) (comparing seen : List NodeId) (previous : Option NodeId)
    (known : List NodeId) (start : Option NodeId) :
    WalksTo g comparing seen previous known start (walk g comparing seen previous known start) := by
  -- a single node, in front of a walk that comes to something
  have key := (walk.mutual_induct g
    (fun comparing seen previous known start =>
      WalksTo g comparing seen previous known start (walk g comparing seen previous known start))
    (fun comparing previous known id node hid => ∀ seen, id ∉ seen → g.node? id = some node →
      ∀ after : List NodeId → Except Problem Written,
        (∀ between, WalksTo g comparing (id :: seen) (some id) between (g.next? node)
          (after between)) → WalksTo g comparing seen previous known (some id)
            (inTurn (visit g comparing previous known id node hid) after))
    ?stop ?again ?absent ?node ?var ?scope ?unset ?noTarget ?input ?nothing ?output ?inside
    ?compare ?misshapen).1
  · exact key comparing seen previous known start
  case stop =>
    intro comparing seen previous known
    rw [walk_none]
    exact .stop _ _ _ _
  case again =>
    intro comparing seen previous known id hs
    rw [walk_of_seen hs]
    exact .again hs
  case absent =>
    intro comparing seen previous known id hs hn
    rw [walk_of_absent hs hn]
    exact .absent hs hn
  case node =>
    intro comparing seen previous known id hs node hn ihVisit ihWalk
    rw [walk_of_node hs hn]
    exact ihVisit seen hs hn _ ihWalk
  case var =>
    intro comparing previous known id node hid v hkind seen hs hn after hafter
    rw [visit, hkind]
    exact .visit hs hn (.var hkind) hafter
  case scope =>
    intro comparing previous known id node hid s hkind seen hs hn after hafter
    rw [visit, hkind]
    dsimp only
    rw [callOf]
    split
    · rename_i hskip
      exact .visit hs hn (.skip hkind hskip) hafter
    · rename_i hcall
      exact .visit hs hn (.call hkind (Bool.eq_false_iff.mpr hcall)) hafter
  case unset =>
    intro comparing previous known id node hid k hkind hk seen hs hn after hafter
    simp only [visit, hkind, hk]
    exact .visit hs hn (.unset hkind hk) hafter
  case noTarget =>
    intro comparing previous known id node hid k hkind hk htarget seen hs hn after hafter
    simp only [visit, hkind, hk, htarget]
    exact .visit hs hn (.noTarget hkind hk htarget) hafter
  case input =>
    intro comparing previous known id node hid k hkind hk target htarget seen hs hn after hafter
    simp only [visit, hkind, hk, htarget]
    exact .visit hs hn (.input hkind hk htarget) hafter
  case nothing =>
    intro comparing previous known id node hid k hkind hk hvalue seen hs hn after hafter
    simp only [visit, hkind, hk, hvalue]
    exact .visit hs hn (.nothing hkind hk hvalue) hafter
  case output =>
    intro comparing previous known id node hid k hkind hk value hvalue seen hs hn after hafter
    simp only [visit, hkind, hk, hvalue]
    exact .visit hs hn (.output hkind hk hvalue) hafter
  case inside =>
    intro comparing previous known id node hid k hkind hk left right onFalse onTrue hout hin hc
      seen hs hn after hafter
    simp only [visit, hkind, hk, hin, hout, dif_pos hc]
    exact .visit hs hn (.inside hkind hk hin hout hc) hafter
  case compare =>
    intro comparing previous known id node hid k hkind hk left right onFalse onTrue hout hin hc
      ihYes ihNo seen hs hn after hafter
    rw [visit_of_compare hid hkind hk hin hout hc]
    exact .compare hs hn hkind hk hin hout hc ihYes ihNo hafter
  case misshapen =>
    intro comparing previous known id node hid k hkind hk hshape seen hs hn after hafter
    simp only [visit, hkind, hk]
    exact .visit hs hn (.misshapen hkind hk hshape) hafter

end FlowSketch.Compile
