/-
# The operands of an expression

Of an expression only the operators are written down.  Its operands are drawn: they are the
variables from which flows lead to it, in the order in which these flows arrive from left to right.
Flows that arrive at the same column count in the order in which they were drawn, because sorting
does not exchange them.

An operand stands for a flow and not for a variable, so a variable with two flows to the expression
is named twice in it.  Only if no variable has two, the operands are the variables that precede the
expression, each of them once.

Main statement: `binding_of_expression`.
-/
import Mathlib.Data.Finset.Card
import Mathlib.Data.List.Find
import FlowSketch.Proofs.Compile.Listing

namespace FlowSketch

/-! ## Flows in order -/

/-- The order of the operands: from left to right, and at one column the older flow first. -/
def Flow.Before (e f : Flow) : Prop :=
  e.bounds.x < f.bounds.x ∨ e.bounds.x = f.bounds.x ∧ e.id.index < f.id.index

/-- Two members of a list without duplicates do not stand in both orders. -/
lemma not_sublist_swap {α : Type} {l : List α} (hl : l.Nodup) {a b : α} (hab : [a, b].Sublist l) :
    ¬ [b, a].Sublist l := by
  intro hba
  obtain ⟨r, s, hrs, ha, hb⟩ := List.cons_sublist_iff.mp hab
  obtain ⟨t, u, htu, hb', ha'⟩ := List.cons_sublist_iff.mp hba
  rw [List.singleton_sublist] at hb ha'
  subst hrs
  -- one of the first parts begins with the other
  rcases List.append_eq_append_iff.mp htu with ⟨v, rfl, rfl⟩ | ⟨v, rfl, rfl⟩
  · exact (List.disjoint_of_nodup_append hl) ha (List.mem_append_right _ ha')
  · exact (List.disjoint_of_nodup_append hl) (List.mem_append_left _ hb') hb

/-- Two members of a list stand in one of the two orders. -/
lemma sublist_or_swap {α : Type} {l : List α} {a b : α} (ha : a ∈ l) (hb : b ∈ l) (hab : a ≠ b) :
    [a, b].Sublist l ∨ [b, a].Sublist l := by
  obtain ⟨s, t, rfl⟩ := List.append_of_mem ha
  rcases List.mem_append.mp hb with hb | hb
  · right
    exact (List.singleton_sublist.mpr hb).append (List.singleton_sublist.mpr List.mem_cons_self)
  · left
    have hbt : b ∈ t := (List.mem_cons.mp hb).resolve_left hab.symm
    exact ((List.singleton_sublist.mpr hbt).cons_cons a).trans (List.sublist_append_right s _)

/-- Sorting keeps the order of flows that arrive at the same column. -/
lemma before_byArrival {fs : List Flow} (h : fs.Pairwise fun e f => e.id.index < f.id.index) :
    (byArrival fs).Pairwise Flow.Before := by
  have htrans : ∀ a b c : Flow, decide (a.bounds.x ≤ b.bounds.x) = true →
      decide (b.bounds.x ≤ c.bounds.x) = true → decide (a.bounds.x ≤ c.bounds.x) = true := by
    simpa using fun _ _ _ => Int.le_trans
  have htotal : ∀ a b : Flow,
      (decide (a.bounds.x ≤ b.bounds.x) || decide (b.bounds.x ≤ a.bounds.x)) = true := by
    simpa using fun _ _ => Int.le_total _ _
  have hnodup : (byArrival fs).Nodup :=
    (byArrival_perm fs).nodup_iff.mpr (h.imp fun hlt heq => by simp [heq] at hlt)
  rw [List.pairwise_iff_forall_sublist]
  intro e f hef
  have hle : e.bounds.x ≤ f.bounds.x := of_decide_eq_true
    (List.pairwise_iff_forall_sublist.mp (List.pairwise_mergeSort htrans htotal fs) hef)
  rcases Int.lt_or_eq_of_le hle with hlt | heq
  · exact .inl hlt
  · have hmem : ∀ a ∈ [e, f], a ∈ fs := fun a ha => (byArrival_perm fs).mem_iff.mp (hef.subset ha)
    have hne : e ≠ f := List.pairwise_iff_forall_sublist.mp hnodup hef
    rcases sublist_or_swap (hmem e (by simp)) (hmem f (by simp)) hne with hkept | hswapped
    · exact .inr ⟨heq, List.pairwise_iff_forall_sublist.mp h hkept⟩
    · -- the other order would have been kept
      have hfe := List.pair_sublist_mergeSort htrans htotal
        (decide_eq_true (Int.le_of_eq heq.symm)) hswapped
      exact absurd hfe (not_sublist_swap hnodup hef)

namespace Graph

/-- The variables from which flows lead to a node. -/
def predecessors (g : Graph) (id : NodeId) : Finset NodeId :=
  ((g.flows.toList.filter fun f => f.target = id ∧ g.isVariable f.source).map (·.source)).toFinset

/-- The flows from variables to a node, in the order of the operands. -/
structure Operands (g : Graph) (id : NodeId) (fs : List Flow) : Prop where
  mem_iff (f : Flow) : f ∈ fs ↔ f ∈ g.flows.toList ∧ f.target = id ∧ g.isVariable f.source = true
  order : fs.Pairwise Flow.Before

variable {g : Graph} {id : NodeId} {node : Node} {fs : List Flow}

lemma operands_byArrival (hg : g.Recorded) (hn : g.node? id = some node) :
    g.Operands id (byArrival (g.variableFlows node.links)) := by
  have hflows : g.variableFlows node.links =
      (g.flows.toList.filter fun f => f.target = id).filter fun f => g.isVariable f.source := by
    rw [variableFlows, hg.flowsOf_incoming hn]
  constructor
  case mem_iff =>
    intro f
    rw [(byArrival_perm _).mem_iff, hflows, List.mem_filter, List.mem_filter, decide_eq_true_eq,
      and_assoc]
  case order =>
    have hids : (g.flows.toList.map (·.id)).Pairwise (·.index < ·.index) := by
      rw [hg.flows_ids, List.pairwise_map]
      exact List.pairwise_lt_range
    rw [List.pairwise_map] at hids
    rw [hflows]
    exact before_byArrival ((hids.filter _).filter _)

namespace Operands

variable (h : g.Operands id fs)
include h

lemma nodup : fs.Nodup :=
  h.order.imp fun hbefore heq => by
    rw [heq] at hbefore
    rcases hbefore with hlt | ⟨-, hlt⟩
    · exact Int.lt_irrefl _ hlt
    · exact Nat.lt_irrefl _ hlt

/-- The operands are the variables that precede the node, however often. -/
lemma toFinset_sources : (fs.map (·.source)).toFinset = g.predecessors id := by
  ext a
  simp only [predecessors, List.mem_toFinset, List.mem_map, List.mem_filter, decide_eq_true_eq,
    h.mem_iff]

/-- A variable is named twice exactly if it has two flows to the node. -/
lemma nodup_sources : (fs.map (·.source)).Nodup ↔
    ∀ e ∈ fs, ∀ f ∈ fs, e.source = f.source → e = f :=
  List.nodup_map_iff_inj_on h.nodup

/-- There are as many operands as variables exactly if none of these is named twice. -/
lemma length_eq_card : fs.length = (g.predecessors id).card ↔ (fs.map (·.source)).Nodup := by
  rw [← h.toFinset_sources, List.card_toFinset, ← List.dedup_eq_self, ← List.length_map (·.source)]
  exact ⟨fun hlength => (List.dedup_sublist _).eq_of_length hlength.symm, fun heq => by rw [heq]⟩

end Operands

end Graph

/-! ## Texts of expressions -/

/-- The connectives as they are written. -/
def Operator.tokens : List (List Char) := Operator.connectives.map fun op => op.symbol.toList

lemma Operator.mem_tokens {t : List Char} : t ∈ tokens ↔ (ofToken? t).isSome = true := by
  rw [tokens, List.mem_map, Option.isSome_iff_exists]
  constructor
  · rintro ⟨op, hop, rfl⟩
    exact ⟨op, ofToken?_symbol hop⟩
  · rintro ⟨op, hop⟩
    obtain ⟨hsymbol, hmem⟩ := symbol_of_ofToken? hop
    exact ⟨op, hmem, hsymbol⟩

/-- Tokens are the symbols of the operators that are read from them. -/
lemma Operator.symbols_filterMap {ts : List (List Char)} (h : ∀ t ∈ ts, t ∈ tokens) :
    (ts.filterMap ofToken?).map (fun op => op.symbol.toList) = ts := by
  induction ts with
  | nil => rfl
  | cons t ts ih =>
    obtain ⟨op, hop⟩ := Option.isSome_iff_exists.mp (mem_tokens.mp (h t List.mem_cons_self))
    rw [List.filterMap_cons_some hop, List.map_cons, (symbol_of_ofToken? hop).1,
      ih fun u hu => h u (List.mem_cons_of_mem t hu)]

/-- The items of two lists in turns, and then what is left of the first. -/
def alternate {α : Type} : List α → List α → List α
  | [], _ => []
  | a :: as, [] => a :: as
  | a :: as, b :: bs => a :: b :: alternate as bs

lemma alternate_cons_ne_nil {α : Type} (a : α) (as bs : List α) : alternate (a :: as) bs ≠ [] := by
  cases bs <;> exact List.cons_ne_nil _ _

/-- A chain is written with its operators between its operands. -/
lemma Listing.Value.chars_chain (c : Chain NodeId) : (Value.chain c).chars =
    [' '].intercalate (alternate (c.operands.map NodeId.nameChars)
      (c.operators.map fun op => op.symbol.toList)) := by
  obtain ⟨first, rest⟩ := c
  have hchars : (Value.chain ⟨first, rest⟩).chars = first.nameChars ++ rest.flatMap fun p =>
      ' ' :: p.1.symbol.toList ++ ' ' :: p.2.nameChars := rfl
  simp only [hchars, Chain.operands, Chain.operators, List.map_cons, List.map_map]
  clear hchars
  induction rest generalizing first with
  | nil => simp only [List.flatMap_nil, List.map_nil, alternate, List.append_nil,
      List.intercalate_singleton]
  | cons r rest ih =>
    rw [List.map_cons, List.map_cons, alternate, List.intercalate_cons_cons,
      List.intercalate_cons_of_ne_nil (alternate_cons_ne_nil _ _ _)]
    have hrest := ih r.2
    simp only [← hrest, Function.comp_apply, List.flatMap_cons, List.append_assoc, List.cons_append,
      List.nil_append]

namespace Compile

/-- A text that is an expression: it is no number, it is not quoted, and an operator occurs
in it. -/
structure IsExpression (text : String) : Prop where
  not_number : finiteNumber? (Text.trim text.toList) = none
  not_quoted : betweenQuotes? (Text.trim text.toList) = none
  mentions : mentionsOperator text.toList = true

/-- What becomes of an expression with some tokens and with the flows of its operands. -/
structure Reads (id : NodeId) (tokens : List (List Char)) (fs : List Flow)
    (bound : Except Problem (List Listing.Step)) : Prop where
  /-- It is bound if the tokens are operators and there is one operand more. -/
  ok_iff : (∃ own, bound = .ok own) ↔
    (∀ t ∈ tokens, t ∈ Operator.tokens) ∧ fs.length = tokens.length + 1
  /-- Its value names the sources of the flows, with the tokens between them. -/
  value (own : List Listing.Step) : bound = .ok own →
    ∃ c : Chain NodeId, own = [.bind id (.chain c)] ∧ c.operands = fs.map (·.source) ∧
      (Listing.Value.chain c).chars =
        [' '].intercalate (alternate (fs.map fun f => f.source.nameChars) tokens)
  /-- The first token that is no operator is reported. -/
  notOperator_iff (t : String) : bound = .error (.notOperator id t) ↔
    tokens.find? (· ∉ Operator.tokens) = some t.toList
  /-- If there is none, the wrong number of operands is. -/
  operandCount_iff (m n : ℕ) : bound = .error (.operandCount id m n) ↔
    ((∀ t ∈ tokens, t ∈ Operator.tokens) ∧ fs.length ≠ tokens.length + 1) ∧
      m = fs.length ∧ n = tokens.length

section

variable {id : NodeId} {tokens : List (List Char)} {fs : List Flow}

lemma find?_eq_none_of_tokens (h : ∀ t ∈ tokens, t ∈ Operator.tokens) :
    tokens.find? (· ∉ Operator.tokens) = none :=
  List.find?_eq_none.mpr fun t ht => by simpa using h t ht

lemma reads_notOperator {t : List Char} (h : tokens.find? (· ∉ Operator.tokens) = some t) :
    Reads id tokens fs (.error (.notOperator id (String.ofList t))) := by
  have hbad : ¬ ∀ u ∈ tokens, u ∈ Operator.tokens := fun hall => by
    rw [find?_eq_none_of_tokens hall] at h
    cases h
  constructor
  case ok_iff => simp [hbad]
  case value =>
    intro own hown
    cases hown
  case notOperator_iff =>
    intro u
    simp only [Except.error.injEq, Problem.notOperator.injEq, true_and, h, Option.some.injEq]
    exact ⟨fun hu => by rw [← hu, String.toList_ofList], fun hu => by rw [hu, String.ofList_toList]⟩
  case operandCount_iff => simp [hbad]

lemma reads_operandCount (hall : ∀ t ∈ tokens, t ∈ Operator.tokens)
    (hcount : fs.length ≠ tokens.length + 1) :
    Reads id tokens fs (.error (.operandCount id fs.length tokens.length)) := by
  constructor
  case ok_iff => simp [hcount]
  case value =>
    intro own hown
    cases hown
  case notOperator_iff =>
    intro u
    rw [find?_eq_none_of_tokens hall]
    simp
  case operandCount_iff =>
    intro m n
    simp only [Except.error.injEq, Problem.operandCount.injEq, true_and]
    exact ⟨fun ⟨hm, hn⟩ => ⟨⟨hall, hcount⟩, hm.symm, hn.symm⟩,
      fun ⟨_, hm, hn⟩ => ⟨hm.symm, hn.symm⟩⟩

lemma reads_chain {c : Chain NodeId} (hall : ∀ t ∈ tokens, t ∈ Operator.tokens)
    (hcount : fs.length = tokens.length + 1) (hoperands : c.operands = fs.map (·.source))
    (hoperators : c.operators.map (fun op => op.symbol.toList) = tokens) :
    Reads id tokens fs (.ok [.bind id (.chain c)]) := by
  constructor
  case ok_iff => exact ⟨fun _ => ⟨hall, hcount⟩, fun _ => ⟨_, rfl⟩⟩
  case value =>
    intro own hown
    cases hown
    refine ⟨c, rfl, hoperands, ?_⟩
    rw [Listing.Value.chars_chain, hoperands, hoperators, List.map_map]
    rfl
  case notOperator_iff =>
    intro u
    rw [find?_eq_none_of_tokens hall]
    simp
  case operandCount_iff => simp [hcount]

end

variable {g : Graph} {id : NodeId} {node : Node}

lemma find?_isNone (ts : List (List Char)) :
    ts.find? (fun t => (Operator.ofToken? t).isNone) = ts.find? (· ∉ Operator.tokens) :=
  List.find?_congr fun t _ => by
    cases h : Operator.ofToken? t <;> simp [Operator.mem_tokens, h]

lemma length_operators {ts : List (List Char)} (h : ∀ t ∈ ts, t ∈ Operator.tokens) :
    (ts.filterMap Operator.ofToken?).length = ts.length := by
  conv_rhs => rw [← Operator.symbols_filterMap h, List.length_map]

lemma chainValue_of_token {s t : List Char}
    (h : (Text.words s).find? (· ∉ Operator.tokens) = some t) :
    chainValue g id node s = .error (.notOperator id (String.ofList t)) := by
  unfold chainValue
  dsimp only
  rw [find?_isNone, h]

lemma chainValue_of_count {s : List Char} (hs : ∀ t ∈ Text.words s, t ∈ Operator.tokens)
    (hcount : (byArrival (g.variableFlows node.links)).length ≠ (Text.words s).length + 1) :
    chainValue g id node s = .error (.operandCount id
      (byArrival (g.variableFlows node.links)).length (Text.words s).length) := by
  unfold chainValue
  dsimp only
  rw [find?_isNone, find?_eq_none_of_tokens hs, length_operators hs]
  cases hflows : byArrival (g.variableFlows node.links) with
  | nil => rfl
  | cons f fs =>
    rw [hflows, List.length_cons] at hcount
    simp only [List.map_cons, List.length_cons, List.length_map]
    rw [if_neg fun h => hcount (congrArg (· + 1) h)]

lemma exists_chainValue {s : List Char} (hs : ∀ t ∈ Text.words s, t ∈ Operator.tokens)
    (hcount : (byArrival (g.variableFlows node.links)).length = (Text.words s).length + 1) :
    ∃ c, chainValue g id node s = .ok (.chain c) ∧
      c.operands = (byArrival (g.variableFlows node.links)).map (·.source) ∧
      c.operators.map (fun op => op.symbol.toList) = Text.words s := by
  unfold chainValue
  dsimp only
  rw [find?_isNone, find?_eq_none_of_tokens hs]
  cases hflows : byArrival (g.variableFlows node.links) with
  | nil => simp [hflows] at hcount
  | cons f fs =>
    have hlength : (fs.map (·.source)).length =
        ((Text.words s).filterMap Operator.ofToken?).length := by
      rw [length_operators hs, List.length_map]
      simpa [hflows] using hcount
    obtain ⟨hoperators, hoperands⟩ := operators_zip hlength f.source
    refine ⟨_, if_pos hlength, hoperands, ?_⟩
    rw [hoperators, Operator.symbols_filterMap hs]

lemma binding_of_isExpression {v : Variable} {text : String} (hk : node.kind = .var v)
    (ha : v.atomic = true) (hv : v.value = some text) (htext : IsExpression text) :
    binding g id node =
      (chainValue g id node text.toList).map fun value => [.bind id value] := by
  unfold binding
  rw [hk]
  dsimp only
  rw [if_pos ha, hv]
  dsimp only
  rw [textValue_operators htext.not_number htext.not_quoted htext.mentions]

/-- An expression is bound to its operands, or it is told what is wrong with it. -/
lemma reads_chainValue (s : List Char) :
    Reads id (Text.words s) (byArrival (g.variableFlows node.links))
      ((chainValue g id node s).map fun value => [.bind id value]) := by
  cases hfind : (Text.words s).find? (· ∉ Operator.tokens) with
  | some t =>
    rw [chainValue_of_token hfind]
    exact reads_notOperator hfind
  | none =>
    have hall : ∀ u ∈ Text.words s, u ∈ Operator.tokens := fun u hu => by
      simpa using List.find?_eq_none.mp hfind u hu
    by_cases hcount : (byArrival (g.variableFlows node.links)).length = (Text.words s).length + 1
    · obtain ⟨c, hc, hoperands, hoperators⟩ := exists_chainValue hall hcount
      rw [hc]
      exact reads_chain hall hcount hoperands hoperators
    · rw [chainValue_of_count hall hcount]
      exact reads_operandCount hall hcount

end Compile

namespace Graph

/-- **An expression names the sources of its flows from left to right.**  It is bound if its tokens
are operators and it has one flow from a variable more than tokens.  Otherwise the first token that
is no operator is reported, or else the number of flows.  All variables that precede it are named,
and no other nodes; each of them is named once, and their number is the number of flows, exactly
if none of them has two flows to the expression. -/
theorem binding_of_expression (edits : List Edit) {id : NodeId} {node : Node} {v : Variable}
    {text : String} (hn : (drawn edits).node? id = some node) (hk : node.kind = .var v)
    (ha : v.atomic = true) (hv : v.value = some text) (htext : Compile.IsExpression text) :
    ∃ fs, (drawn edits).Operands id fs ∧
      Compile.Reads id (Text.words text.toList) fs (Compile.binding (drawn edits) id node) ∧
      (fs.map (·.source)).toFinset = (drawn edits).predecessors id ∧
      ((fs.map (·.source)).Nodup ↔ ∀ e ∈ fs, ∀ f ∈ fs, e.source = f.source → e = f) ∧
      (fs.length = ((drawn edits).predecessors id).card ↔ (fs.map (·.source)).Nodup) := by
  have hfs := operands_byArrival (recorded_drawn edits) hn
  refine ⟨_, hfs, ?_, hfs.toFinset_sources, hfs.nodup_sources, hfs.length_eq_card⟩
  rw [Compile.binding_of_isExpression hk ha hv htext]
  exact Compile.reads_chainValue text.toList

/-- Of the quotient of `reciprocal`. -/
theorem binding_of_expression_reciprocal : ∃ node fs, (drawn reciprocal).node? ⟨3⟩ = some node ∧
    (drawn reciprocal).Operands ⟨3⟩ fs ∧
    Compile.Reads ⟨3⟩ (Text.words "/".toList) fs (Compile.binding (drawn reciprocal) ⟨3⟩ node) := by
  have htext : Compile.IsExpression "/" :=
    ⟨by decide +kernel, by decide +kernel, by decide +kernel⟩
  have hn : (drawn reciprocal).node? ⟨3⟩ = some ⟨⟨3⟩, some NodeId.root,
      .var ⟨[], some "/", true, ⟨[⟨0⟩, ⟨1⟩, ⟨2⟩], [⟨3⟩], [], some ⟨4⟩⟩⟩⟩ := by decide +kernel
  obtain ⟨fs, hfs, hreads, -⟩ := binding_of_expression reciprocal hn rfl rfl rfl htext
  exact ⟨_, fs, hn, hfs, hreads⟩

/-- A variable with two flows to a sum. -/
def doubled : List Edit :=
  [.addNode NodeId.root (NodeTag.blank .var), .writeText ⟨1⟩ "3",
    .addNode NodeId.root (NodeTag.blank .var), .writeText ⟨2⟩ "+",
    .connect NodeId.root ⟨2⟩ ⟨0, 0, 5, 5⟩ ⟨30, 30⟩, .connect ⟨1⟩ ⟨2⟩ ⟨10, 0, 5, 5⟩ ⟨30, 30⟩,
    .connect ⟨1⟩ ⟨2⟩ ⟨20, 0, 5, 5⟩ ⟨30, 30⟩]

/-- One variable precedes the sum, but it is bound, and names that variable twice. -/
theorem operand_named_twice : ∃ node v, (drawn doubled).node? ⟨2⟩ = some node ∧
    node.kind = .var v ∧ v.atomic = true ∧ v.value = some "+" ∧ Compile.IsExpression "+" ∧
    (Text.words "+".toList).length = 1 ∧ (drawn doubled).predecessors ⟨2⟩ = {⟨1⟩} ∧
    Compile.binding (drawn doubled) ⟨2⟩ node =
      .ok [.bind ⟨2⟩ (.chain ⟨⟨1⟩, [(.add, ⟨1⟩)]⟩)] := by
  have htext : Compile.IsExpression "+" :=
    ⟨by decide +kernel, by decide +kernel, by decide +kernel⟩
  have hwords : Text.words "+".toList = [['+']] := by decide +kernel
  have hadd : Operator.ofToken? ['+'] = some .add := by decide +kernel
  obtain ⟨node, hnode⟩ : ∃ n : Node, n = ⟨⟨2⟩, some NodeId.root,
    .var ⟨[], some "+", true, ⟨[⟨0⟩, ⟨1⟩, ⟨2⟩], [], [], none⟩⟩⟩ := exists_eq
  have hn : (drawn doubled).node? ⟨2⟩ = some node := by
    rw [hnode]
    decide +kernel
  have hflows : (drawn doubled).variableFlows node.links =
      [⟨⟨1⟩, ⟨1⟩, ⟨2⟩, ⟨10, 0, 5, 5⟩, ⟨30, 30⟩, .branch⟩,
        ⟨⟨2⟩, ⟨1⟩, ⟨2⟩, ⟨20, 0, 5, 5⟩, ⟨30, 30⟩, .branch⟩] := by
    rw [hnode]
    decide +kernel
  have hoperands : (byArrival ((drawn doubled).variableFlows node.links)).map (·.source) =
      [⟨1⟩, ⟨1⟩] := by
    rw [hflows, byArrival, List.mergeSort_of_pairwise (by decide)]
    rfl
  refine ⟨node, ⟨[], some "+", true, ⟨[⟨0⟩, ⟨1⟩, ⟨2⟩], [], [], none⟩⟩, hn, by rw [hnode], rfl, rfl,
    htext, by rw [hwords]; rfl, by decide +kernel, ?_⟩
  rw [Compile.binding_of_isExpression (by rw [hnode]) rfl rfl htext, Compile.chainValue, hwords,
    hoperands]
  simp [hadd, Except.map]

end Graph

end FlowSketch
