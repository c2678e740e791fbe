/-
# Programs

A program is a list of entry statements and a list of functions.  Statements bind names,
print, call functions and branch; expressions are made of numbers, texts, names, lines of
input and binary operators.
-/
import FlowSketch.Decimal.Text

namespace FlowSketch

/-- The binary operators. -/
inductive Operator where
  | or
  | and
  | add
  | sub
  | mul
  | div
  | greater
deriving DecidableEq, Repr, Inhabited

namespace Operator

/-- An operator as it is written. -/
def symbol : Operator → String
  | or => "||"
  | and => "&&"
  | add => "+"
  | sub => "-"
  | mul => "*"
  | div => "/"
  | greater => ">"

/-- The operators that may join operands in a chain without parentheses. -/
def connectives : List Operator := [add, sub, mul, div, and, or]

/-- The connective that is written as the given token. -/
def ofToken? (token : List Char) : Option Operator :=
  connectives.find? fun op => op.symbol.toList == token

/-- How tightly an operator binds its operands. -/
def tightness : Operator → Nat
  | greater => 0
  | or => 1
  | and => 2
  | add => 3
  | sub => 3
  | mul => 4
  | div => 4

theorem ofToken?_symbol {op : Operator} (h : op ∈ connectives) :
    ofToken? op.symbol.toList = some op := by
  revert h
  cases op <;> decide

theorem symbol_of_ofToken? {token : List Char} {op : Operator} (h : ofToken? token = some op) :
    op.symbol.toList = token ∧ op ∈ connectives := by
  have hp := List.find?_some h
  exact ⟨by simpa using hp, List.mem_of_find?_eq_some h⟩

end Operator

/-- Expressions. -/
inductive Expr where
  /-- A number. -/
  | number (x : Float)
  /-- A text. -/
  | text (s : String)
  /-- The value bound to a name. -/
  | name (n : String)
  /-- The next line of input. -/
  | input
  /-- An operator between two expressions. -/
  | binary (op : Operator) (lhs rhs : Expr)
deriving DecidableEq, Repr, Inhabited

/-- Statements. -/
inductive Stmt where
  /-- Binds a name to the value of an expression. -/
  | bind (name : String) (value : Expr)
  /-- Prints the value of an expression. -/
  | print (value : Expr)
  /-- Calls a function. -/
  | call (name : String) (args : List Expr)
  /-- Goes one way if a condition holds and the other way if not. -/
  | branch (cond : Expr) (onTrue onFalse : List Stmt)
deriving Repr, Inhabited

/-- A function. -/
structure Function where
  /-- Its name. -/
  name : String
  /-- The names of its parameters. -/
  params : List String
  /-- Its statements. -/
  body : List Stmt
deriving Repr, Inhabited

/-- A program. -/
structure Program where
  /-- The statements that are run first. -/
  entry : List Stmt := []
  /-- The functions, in the order in which they are declared. -/
  functions : List Function := []
deriving Repr, Inhabited

/-- The function of a name: the first one declared under it. -/
def Program.function? (p : Program) (name : String) : Option Function :=
  p.functions.find? (·.name == name)

end FlowSketch
