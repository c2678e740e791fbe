/-
# The value of a variable

What is written on a variable is a number, a text between quotes, a text without operators,
or else the operators of an expression.  The operands of an expression are not written
there: they are the variables that flow into this one, from left to right by the place
where their flows arrive.
-/
import FlowSketch.Compile.Problem
import FlowSketch.Graph.Basic
import FlowSketch.Program.Listing

namespace FlowSketch

/-- Flows from left to right by their arrival.  Flows that arrive at the same column stay
in order of registration. -/
def byArrival (flows : List Flow) : List Flow :=
  flows.mergeSort fun a b => a.bounds.x ≤ b.bounds.x

theorem byArrival_perm (flows : List Flow) : (byArrival flows).Perm flows :=
  List.mergeSort_perm _ _

theorem length_byArrival (flows : List Flow) : (byArrival flows).length = flows.length :=
  (byArrival_perm flows).length_eq

namespace Graph

/-- The flows from variables that arrive at a node, in order of registration. -/
def variableFlows (g : Graph) (links : Links) : List Flow :=
  (g.flowsOf links.incoming).filter fun f => g.isVariable f.source

end Graph

namespace Compile

open FlowSketch.Text (trim words)

/-- Whether a piece occurs in a text. -/
def occursIn (piece : List Char) : List Char → Bool
  | [] => piece.isEmpty
  | c :: s => piece.isPrefixOf (c :: s) || occursIn piece s

/-- Whether an operator occurs in a text. -/
def mentionsOperator (s : List Char) : Bool :=
  Operator.connectives.any fun op => occursIn op.symbol.toList s

/-- The text between double quotes, if they stand at both ends. -/
def betweenQuotes? : List Char → Option (List Char)
  | '"' :: s => if s.getLast? = some '"' then some s.dropLast else none
  | _ => none

/-- The finite number that a text is. -/
def finiteNumber? (s : List Char) : Option Float := (Decimal.read? s).filter (·.isFinite)

/-- The chain of the operators that are written on a node and the variables that flow into
it. -/
def chainValue (g : Graph) (id : NodeId) (node : Node) (s : List Char) :
    Except Problem Listing.Value :=
  let tokens := words s
  match tokens.find? fun t => (Operator.ofToken? t).isNone with
  | some t => .error (.notOperator id (String.ofList t))
  | none =>
    let operators := tokens.filterMap Operator.ofToken?
    let operands := (byArrival (g.variableFlows node.links)).map (·.source)
    match operands with
    | first :: rest =>
      if rest.length = operators.length then .ok (.chain ⟨first, operators.zip rest⟩)
      else .error (.operandCount id operands.length operators.length)
    | [] => .error (.operandCount id 0 operators.length)

/-- The value of a node on which a text is written. -/
def textValue (g : Graph) (id : NodeId) (node : Node) (text : String) :
    Except Problem Listing.Value :=
  let s := text.toList
  match finiteNumber? (trim s) with
  | some x => .ok (.number x)
  | none =>
    match betweenQuotes? (trim s) with
    | some inner => .ok (.text (String.ofList inner))
    | none => if mentionsOperator s then chainValue g id node s else .ok (.text text)

/-- The binding of a node: none unless it is a variable with a value of its own. -/
def binding (g : Graph) (id : NodeId) (node : Node) : Except Problem (List Listing.Step) :=
  match node.kind with
  | .var v =>
    if v.atomic then
      match v.value with
      | some text => (textValue g id node text).map fun value => [.bind id value]
      | none => .error (.noValue id)
    else .ok []
  | _ => .ok []

theorem betweenQuotes?_quoted (s : List Char) : betweenQuotes? ('"' :: s ++ ['"']) = some s := by
  simp [betweenQuotes?]

theorem operators_zip {ops : List Operator} {ids : List NodeId} (h : ids.length = ops.length)
    (first : NodeId) : (Chain.mk first (ops.zip ids)).operators = ops ∧
      (Chain.mk first (ops.zip ids)).operands = first :: ids := by
  constructor
  · simp only [Chain.operators]
    exact List.map_fst_zip (by omega)
  · simp only [Chain.operands]
    rw [List.map_snd_zip (by omega)]

end Compile

end FlowSketch
