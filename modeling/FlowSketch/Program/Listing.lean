/-
# Listings

A listing is a program as it is written out from a graph: functions, bindings and calls are
named by nodes, and the right side of a binding is a number, a text, a line of input or a
chain of operators between nodes.

A listing has a text and a meaning.  `Listing.text` writes it out; `Listing.program` is the
program that it stands for.  Reading the text gives that program.
-/
import FlowSketch.Program.Chain
import FlowSketch.Program.Literal
import FlowSketch.Graph.Id

namespace FlowSketch

namespace Listing

/-- The right side of a binding. -/
inductive Value where
  /-- A number. -/
  | number (x : Float)
  /-- A text. -/
  | text (s : String)
  /-- Nodes joined by operators. -/
  | chain (c : Chain NodeId)
  /-- The next line of input. -/
  | input
deriving DecidableEq, Repr

/-- A statement. -/
inductive Step where
  /-- Binds a node to a value. -/
  | bind (id : NodeId) (value : Value)
  /-- Prints the value of a node. -/
  | print (id : NodeId)
  /-- Calls the function of a node with the values of others. -/
  | call (id : NodeId) (args : List NodeId)
  /-- Goes the first way if the value of the left node is greater than that of the right
  one, and the second way if not. -/
  | branch (left right : NodeId) (onTrue onFalse : List Step)
deriving Repr

/-- A function. -/
structure Routine where
  /-- The scope that it stands for. -/
  id : NodeId
  /-- Its parameters. -/
  params : List NodeId
  /-- Its statements. -/
  body : List Step
deriving Repr

end Listing

/-- A listing: the functions of a program whose only entry statement calls the root. -/
structure Listing where
  /-- The functions. -/
  routines : List Listing.Routine
deriving Repr

namespace Listing

/-! ## The text of a listing -/

/-- The spaces in front of a statement. -/
def indent (depth : Nat) : List Char := List.replicate (2 * depth) ' '

/-- Names with commas between them. -/
def names (ids : List NodeId) : List Char :=
  (ids.map NodeId.nameChars).intersperse [',', ' '] |>.flatten

/-- The text of a value. -/
def Value.chars : Value → List Char
  | .number x => (Decimal.writeUnsignedZero x).toList
  | .text s => Literal.quote s.toList
  | .chain c =>
    c.first.nameChars ++ c.rest.flatMap fun (op, id) =>
      ' ' :: op.symbol.toList ++ ' ' :: id.nameChars
  | .input => "input()".toList

mutual

/-- The lines of a statement. -/
def Step.chars (depth : Nat) : Step → List Char
  | .bind id v =>
    indent depth ++ ("var ".toList ++ (id.nameChars ++ (" = ".toList ++ (v.chars ++ ";\n".toList))))
  | .print id => indent depth ++ ("output(".toList ++ (id.nameChars ++ ");\n".toList))
  | .call id args =>
    indent depth ++ (id.nameChars ++ ("(".toList ++ (names args ++ ");\n".toList)))
  | .branch left right onTrue onFalse =>
    indent depth ++ ("if (".toList ++ (left.nameChars ++ (" > ".toList ++ (right.nameChars ++
      (") \x7b\n".toList ++ (stepsChars (depth + 1) onTrue ++
      (indent depth ++ ("\x7d else \x7b\n".toList ++ (stepsChars (depth + 1) onFalse ++
      (indent depth ++ "\x7d\n".toList))))))))))

/-- The lines of statements in turn. -/
def stepsChars (depth : Nat) : List Step → List Char
  | [] => []
  | s :: ss => Step.chars depth s ++ stepsChars depth ss

end

/-- The lines of a function. -/
def Routine.chars (r : Routine) : List Char :=
  "function ".toList ++ r.id.nameChars ++ "(".toList ++ names r.params ++ ") \x7b\n".toList ++
    stepsChars 1 r.body ++ "\x7d\n".toList

/-- The characters of a listing: the call of the root, then the functions. -/
def chars (l : Listing) : List Char :=
  NodeId.root.nameChars ++ "();\n".toList ++ l.routines.flatMap Routine.chars

/-- The text of a listing. -/
def text (l : Listing) : String := String.ofList l.chars

/-! ## The program of a listing -/

/-- The expression that a value stands for. -/
def Value.expr : Value → Expr
  | .number x => .number (if x == 0 then 0 else x)
  | .text s => .text s
  | .chain c => (c.map fun id => Expr.name id.name).expr
  | .input => .input

mutual

/-- The statement that a step stands for. -/
def Step.stmt : Step → Stmt
  | .bind id v => .bind id.name v.expr
  | .print id => .print (.name id.name)
  | .call id args => .call id.name (args.map fun a => .name a.name)
  | .branch left right onTrue onFalse =>
    .branch (.binary .greater (.name left.name) (.name right.name)) (stmts onTrue)
      (stmts onFalse)

/-- The statements that steps stand for. -/
def stmts : List Step → List Stmt
  | [] => []
  | s :: ss => Step.stmt s :: stmts ss

end

/-- The function that a routine stands for. -/
def Routine.function (r : Routine) : Function :=
  { name := r.id.name, params := r.params.map NodeId.name, body := stmts r.body }

/-- The program that a listing stands for. -/
def program (l : Listing) : Program :=
  { entry := [.call NodeId.root.name []], functions := l.routines.map Routine.function }

theorem stmts_eq_map (ss : List Step) : stmts ss = ss.map Step.stmt := by
  induction ss with
  | nil => rfl
  | cons s ss ih => simp [stmts, ih]

@[simp] theorem toList_text (l : Listing) : l.text.toList = l.chars := by
  simp [text]

end Listing

end FlowSketch
