/-
# Why a graph has no program

Every problem names the node at which it was found.
-/
import FlowSketch.Graph.Id

namespace FlowSketch

/-- Why no program can be made from a graph. -/
inductive Problem where
  /-- Neither the text on a symbol nor its flows say what it does. -/
  | unknownPurpose (node : NodeId)
  /-- An expression has a number of operands that does not fit that of its operators. -/
  | operandCount (node : NodeId) (operands operators : Nat)
  /-- A part of an expression is not an operator. -/
  | notOperator (node : NodeId) (token : String)
  /-- A comparison does not have two flows in and two branches out. -/
  | comparisonShape (node : NodeId) (incoming outgoing : Nat)
  /-- The walk comes back to a node on which it still depends. -/
  | cycle (node : NodeId)
  /-- Nothing was written on a variable. -/
  | noValue (node : NodeId)
  /-- An input leads to no variable. -/
  | noInputTarget (node : NodeId)
  /-- No variable leads to an output. -/
  | nothingToPrint (node : NodeId)
  /-- A node is not in the graph. -/
  | noSuchNode (node : NodeId)
deriving DecidableEq, Repr

/-- The words for a problem. -/
def Problem.message : Problem → String
  | unknownPurpose node =>
    "unresolved control symbol " ++ node.name ++ ": edge shape matches no key symbol type"
  | operandCount node operands operators =>
    "malformed expression in " ++ node.name ++ ": " ++ toString operands ++ " operands for " ++
      toString operators ++ " operators"
  | notOperator node token =>
    "malformed expression in " ++ node.name ++ ": '" ++ token ++ "' is not an operator"
  | comparisonShape node incoming outgoing =>
    "malformed comparison " ++ node.name ++ ": needs 2 incoming and 2 outgoing flows, found " ++
      toString incoming ++ " and " ++ toString outgoing
  | cycle node => "cyclic program graph at " ++ node.name
  | noValue node => "variable " ++ node.name ++ " has no value"
  | noInputTarget node => "input symbol " ++ node.name ++ " has no variable to fill"
  | nothingToPrint node => "output symbol " ++ node.name ++ " has no variable to print"
  | noSuchNode node => "unknown node " ++ node.numbered

end FlowSketch
