/-
# The grammar of programs

    program    = (function | statement)*
    function   = "function" name "(" names ")" block
    block      = "{" statement* "}"
    statement  = "var" name "=" expr ";"  |  "output(" expr ")" ";"  |  name "(" exprs ")" ";"
               | "if" "(" expr ")" block ["else" block]
    expr       = "input(" ")"  |  chain [">" chain]

A chain joins texts, names and numbers by `||`, `&&`, `+` and `-`, `*` and `/`, from the
loosest to the tightest.  Blanks may stand between the parts.  What comes next is decided by
the first characters of the text, so that a statement which begins like a binding is one or
is an error.
-/
import FlowSketch.Program.Literal
import FlowSketch.Program.Basic
import FlowSketch.Text.Letter
import FlowSketch.Text.Quoted

namespace FlowSketch

namespace Grammar

open FlowSketch.Text (Rule Source isNameStart isNameRest quoted)
open FlowSketch.Text.Rule

/-! ## Operands -/

/-- A name: a letter or low line, then letters, numerals and low lines. -/
def name : Rule String := do
  let c ← one isNameStart
  let cs ← many isNameRest
  return String.ofList (c :: cs)

/-- A number: digits, perhaps with a minus in front and a fraction behind. -/
def number : Rule Float := do
  let minus ← attempt (char '-')
  let whole ← digits
  let fraction ← attempt (do char '.'; digits)
  let fraction := fraction.getD []
  return Decimal.ofScientific minus.isSome (Decimal.longValueOf (whole ++ fraction))
    (-(fraction.length : Int))

/-- A text between quotes. -/
def text : Rule String := String.ofList <$> Literal.readText

/-- What may stand on either side of an operator. -/
def operand : Rule Expr :=
  orElse (.text <$> text) (orElse (.name <$> name) (.number <$> number))

/-! ## Expressions -/

/-- The first of the given operators with which a text begins. -/
def operatorAhead? (ops : List Operator) (s : List Char) : Option Operator :=
  ops.find? fun op => op.symbol.toList.isPrefixOf s

/-- One of the given operators and the operand on its right, if such an operator comes
next. -/
def joint (ops : List Operator) (operand : Rule Expr) : Rule (Option (Operator × Expr)) :=
  fun s =>
    match operatorAhead? ops s.skipBlanks.chars with
    | none => .ok none s
    | some op =>
      (do blanks; lit op.symbol; blanks; let rhs ← operand; return some (op, rhs)) s

/-- Operands joined by the given operators, from left to right. -/
def joined (ops : List Operator) (operand : Rule Expr) : Rule Expr := do
  let first ← operand
  let rest ← collect (joint ops operand)
  return rest.foldl (fun lhs (op, rhs) => .binary op lhs rhs) first

/-- Operands joined by the tightest operators. -/
def product : Rule Expr := joined [.mul, .div] operand

/-- Products joined by the next tighter operators. -/
def sum : Rule Expr := joined [.add, .sub] product

/-- Sums joined by "and". -/
def conjunction : Rule Expr := joined [.and] sum

/-- Conjunctions joined by "or". -/
def chain : Rule Expr := joined [.or] conjunction

/-- An expression: a line of input, a chain, or a comparison of two chains. -/
def expr : Rule Expr := do
  if ← ahead "input(" then
    lit "input("
    blanks
    char ')'
    return .input
  else
    let lhs ← chain
    match ← attempt (do blanks; char '>') with
    | none => return lhs
    | some () =>
      blanks
      let rhs ← chain
      return .binary .greater lhs rhs

/-! ## Statements -/

/-- A comma between two items. -/
def comma : Rule Unit := do blanks; char ','; blanks

/-- Items between parentheses, separated by commas. -/
def parenthesized {α : Type} (item : Rule α) : Rule (List α) := do
  blanks
  char '('
  blanks
  let items ← separated item comma
  blanks
  char ')'
  return items

/-- The end of a statement. -/
def semicolon : Rule Unit := do blanks; char ';'

/-- A binding. -/
def binding : Rule Stmt := do
  lit "var"
  let _ ← several fun c => c == ' ' || c == '\t'
  let n ← name
  blanks
  char '='
  blanks
  let value ← expr
  semicolon
  return .bind n value

/-- A printing statement. -/
def printing : Rule Stmt := do
  lit "output("
  blanks
  let value ← expr
  blanks
  char ')'
  semicolon
  return .print value

/-- A call. -/
def call : Rule Stmt := do
  let f ← name
  let args ← parenthesized expr
  semicolon
  return .call f args

/-- A branching statement, given the rule for blocks. -/
def branching (block : Rule (List Stmt)) : Rule Stmt := do
  lit "if"
  blanks
  char '('
  blanks
  let cond ← expr
  blanks
  char ')'
  let onTrue ← block
  blanks
  if ← ahead "else" then
    lit "else"
    let onFalse ← block
    return .branch cond onTrue onFalse
  else return .branch cond onTrue []

/-- A statement, given the rule for blocks. -/
def statementWith (block : Rule (List Stmt)) : Rule Stmt := do
  if ← ahead "var " then binding
  else if (← ahead "if ") || (← ahead "if(") then branching block
  else if ← ahead "output(" then printing
  else call

/-- The next statement of a block, or nothing at the closing brace. -/
def blockItem (statement : Rule Stmt) : Rule (Option Stmt) := do
  blanks
  if ← ahead "\x7d" then
    char '\x7d'
    return none
  else if (← get).isEmpty then fail
  else some <$> statement

/-- Statements between braces. -/
def block : Rule (List Stmt) := nested fun block => do
  blanks
  char '\x7b'
  collect (blockItem (statementWith block))

/-- A statement. -/
def statement : Rule Stmt := statementWith block

/-- A function declaration. -/
def function : Rule Function := do
  lit "function"
  let _ ← several fun c => c == ' ' || c == '\t'
  let n ← name
  let params ← parenthesized name
  let body ← block
  return { name := n, params, body }

/-! ## Programs -/

/-- The items of a program. -/
inductive ItemKind where
  | function
  | statement
deriving DecidableEq, Repr

/-- The word for the kind of an item. -/
def ItemKind.word : ItemKind → String
  | function => "function"
  | statement => "statement"

/-- Why a text is not a program: an item of some kind could not be read beyond a certain
place. -/
structure Failure where
  /-- The kind of the item. -/
  kind : ItemKind
  /-- The text from the place on. -/
  rest : List Char
deriving DecidableEq, Repr

/-- The words for a failure, with the text near its place. -/
def Failure.message (f : Failure) : String :=
  f.kind.word ++ " parse error: Parsing Error: ContextError \x7b context: [], cause: None \x7d near "
    ++ String.ofList (quoted (f.rest.take 24))

/-- Whether a text goes on with a function or with a statement. -/
def kindAhead (s : Source) : ItemKind :=
  if "function".toList.isPrefixOf s.chars then .function else .statement

/-- Reads one item and adds it to the program of the items after it. -/
def item (s : Source) : Except Failure ((Program → Program) × Source) :=
  match kindAhead s with
  | .function =>
    match function s with
    | .ok f r => .ok (fun p => { p with functions := f :: p.functions }, r)
    | .error _ r => .error ⟨.function, r.chars⟩
  | .statement =>
    match statement s with
    | .ok st r => .ok (fun p => { p with entry := st :: p.entry }, r)
    | .error _ r => .error ⟨.statement, r.chars⟩

/-- Reads items up to the end of the text. -/
def items (s : Source) : Except Failure Program :=
  if s.skipBlanks.isEmpty then .ok {}
  else
    match item s.skipBlanks with
    | .error e => .error e
    | .ok (add, r) =>
      if r.left < s.left then (items r).map add
      else .error ⟨kindAhead s.skipBlanks, r.chars⟩
termination_by s.left

end Grammar

/-- The program that a text says. -/
def Program.read (text : String) : Except Grammar.Failure Program :=
  Grammar.items (.of text.toList)

/-! ## Small facts about the rules -/

namespace Grammar

open FlowSketch.Text (Source isNameStart isNameRest)
open FlowSketch.Text.Rule

/-- A name ends where no further character can belong to it. -/
theorem name_append {c : Char} {cs r : List Char} (hc : isNameStart c = true)
    (hcs : ∀ d ∈ cs, isNameRest d = true) (hr : ∀ d ∈ r.head?, isNameRest d = false) :
    name (.of (c :: cs ++ r)) = .ok (String.ofList (c :: cs)) (.of r) := by
  simp only [name, bind, EStateM.bind, List.cons_append, one_of_cons hc, many_append hcs hr]
  rfl

/-- Nothing but blanks is the empty program. -/
theorem items_of_blank {s : List Char} (h : Text.trimStart s = []) :
    items (.of s) = .ok {} := by
  rw [items]
  simp [h, Source.isEmpty]

end Grammar

end FlowSketch
