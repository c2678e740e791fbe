/-
# Values and operators

A running program computes with numbers, texts and truth values.  A text that reads as a
number counts as that number where one is asked for, and a truth value counts as 1 or 0.
-/
import FlowSketch.Program.Basic
import FlowSketch.Text.Quoted

namespace FlowSketch

/-- The values of a running program. -/
inductive Value where
  | number (x : Float)
  | text (s : String)
  | truth (b : Bool)
deriving DecidableEq, Repr, Inhabited

/-- Why a run stops early. -/
inductive Fault where
  /-- A name has no value. -/
  | undefinedVariable (name : String)
  /-- No function has the name that is called. -/
  | undefinedFunction (name : String)
  /-- A function is called with a wrong number of arguments. -/
  | arityMismatch (name : String) (expected found : Nat)
  /-- An arithmetical operator meets a text that is no number. -/
  | typeMismatch (op : Operator) (operand : String)
  /-- Calls are nested as deeply as is allowed. -/
  | callDepthExceeded (depth : Nat)
deriving DecidableEq, Repr

/-- The words for a fault. -/
def Fault.message : Fault → String
  | undefinedVariable name => "undefined variable '" ++ name ++ "'"
  | undefinedFunction name => "undefined function '" ++ name ++ "'"
  | arityMismatch name expected found =>
    "function '" ++ name ++ "' takes " ++ toString expected ++ " arguments, got " ++
      toString found
  | typeMismatch op operand =>
    "operator '" ++ op.symbol ++ "' cannot be applied to Str(" ++
      String.ofList (Text.quoted operand.toList) ++ ")"
  | callDepthExceeded depth => "call depth exceeded (" ++ toString depth ++ ")"

namespace Value

/-- Whether a condition with this value holds: everything does but zero, an undefined
number, the empty text and the false truth value. -/
def holds : Value → Bool
  | number x => x != 0 && !x.isNaN
  | text s => !s.isEmpty
  | truth b => b

/-- The value as a number. -/
def number? : Value → Option Float
  | number x => some x
  | text s => Decimal.read? (Text.trim s.toList)
  | truth b => some (if b then 1 else 0)

/-- The value as it is printed. -/
def display : Value → String
  | number x => Decimal.writeUnsignedZero x
  | text s => s
  | truth b => if b then "true" else "false"

/-- Whether a value is a text. -/
def isText : Value → Bool
  | text _ => true
  | _ => false

/-- The number that an operator needs.  Only a text can fail to be one. -/
def operand (op : Operator) (v : Value) : Except Fault Float :=
  match v.number? with
  | some x => .ok x
  | none => .error (.typeMismatch op v.display)

/-- Whether one value is greater than another: as numbers if both are, and otherwise as
texts in the order of code points. -/
def greater (a b : Value) : Bool :=
  match a.number?, b.number? with
  | some x, some y => x > y
  | _, _ => b.display < a.display

/-- The value of an arithmetical operator; the left operand is looked at first. -/
def arithmetic (op : Operator) (f : Float → Float → Float) (a b : Value) :
    Except Fault Value := do
  let x ← a.operand op
  let y ← b.operand op
  return number (f x y)

/-- The value of an operator between two values.  A sum with a text puts the two texts
together; "and" and "or" give one of the two operands. -/
def apply (op : Operator) (a b : Value) : Except Fault Value :=
  match op with
  | .add =>
    if a.isText || b.isText then .ok (text (a.display ++ b.display))
    else arithmetic .add (· + ·) a b
  | .sub => arithmetic .sub (· - ·) a b
  | .mul => arithmetic .mul (· * ·) a b
  | .div => arithmetic .div (· / ·) a b
  | .and => .ok (if a.holds then b else a)
  | .or => .ok (if a.holds then a else b)
  | .greater => .ok (truth (a.greater b))

theorem isText_of_number?_eq_none {v : Value} (h : v.number? = none) : v.isText = true := by
  cases v with
  | number => simp [number?] at h
  | text => rfl
  | truth => simp [number?] at h

/-- An operand that is refused is a text, and the fault names it. -/
theorem operand_eq_error_iff {op : Operator} {v : Value} {e : Fault} :
    v.operand op = .error e ↔
      ∃ s, v = text s ∧ v.number? = none ∧ e = .typeMismatch op s := by
  unfold operand
  cases h : v.number? with
  | some x => simp
  | none =>
    have := isText_of_number?_eq_none h
    cases v with
    | text s =>
      constructor
      · intro he
        cases he
        exact ⟨s, rfl, rfl, rfl⟩
      · rintro ⟨t, ht, -, rfl⟩
        cases ht
        rfl
    | number => cases this
    | truth => cases this

end Value

end FlowSketch
