/-
# Running a program

A run reads lines from a console and prints texts on it; what was printed before a fault
stays printed.  The entry statements and every call have names of their own.

Calls may be nested to a given depth and no further, so every run ends: statements are
taken apart by recursion on their form, and each call has one level of depth less at its
disposal than its caller.
-/
import FlowSketch.Execution.Value
import FlowSketch.Program.Grammar

namespace FlowSketch

/-- What a run reads and prints. -/
structure Console where
  /-- The lines that are still to be read. -/
  pending : List String
  /-- The number of lines that were asked for. -/
  reads : Nat := 0
  /-- The texts printed so far, the latest first. -/
  printed : List String := []
deriving DecidableEq, Repr

namespace Console

/-- A console with the given lines to read. -/
def ofInputs (inputs : List String) : Console := { pending := inputs }

/-- The texts printed so far, in order. -/
def output (c : Console) : List String := c.printed.reverse

/-- The next line.  When there is none it is empty, and counts as read too. -/
def read (c : Console) : String × Console :=
  (c.pending.head?.getD "", { c with pending := c.pending.tail, reads := c.reads + 1 })

/-- Prints a text. -/
def print (c : Console) (text : String) : Console := { c with printed := text :: c.printed }

@[simp] theorem output_print (c : Console) (text : String) :
    (c.print text).output = c.output ++ [text] := by
  simp [print, output]

@[simp] theorem output_read (c : Console) : c.read.2.output = c.output := rfl

@[simp] theorem reads_read (c : Console) : c.read.2.reads = c.reads + 1 := rfl

@[simp] theorem reads_print (c : Console) (text : String) : (c.print text).reads = c.reads := rfl

end Console

/-- The names that are bound in one call, the latest binding first. -/
structure Frame where
  /-- Each name with its value. -/
  bindings : List (String × Value) := []
deriving DecidableEq, Repr

namespace Frame

/-- The value of a name. -/
def lookup? (f : Frame) (name : String) : Option Value := f.bindings.lookup name

/-- The frame with a name bound to a value. -/
def bind (f : Frame) (name : String) (value : Value) : Frame :=
  ⟨(name, value) :: f.bindings⟩

/-- The frame of a call.  If a name stands for several parameters the last one counts. -/
def ofArguments (params : List String) (args : List Value) : Frame :=
  (params.zip args).foldl (fun f (name, value) => f.bind name value) {}

@[simp] theorem lookup?_empty (name : String) : ({} : Frame).lookup? name = none := rfl

theorem lookup?_bind (f : Frame) (name other : String) (value : Value) :
    (f.bind name value).lookup? other = if other = name then some value else f.lookup? other := by
  unfold bind lookup?
  by_cases h : other = name
  · subst h
    simp
  · have : (other == name) = false := by simp [h]
    simp [List.lookup_cons, this, h]

end Frame

/-- An action on the console, which may end in a fault. -/
abbrev Run (α : Type) := EStateM Fault Console α

namespace Run

/-- Reads a line. -/
def read : Run String := modifyGet Console.read

/-- Prints a text. -/
def print (text : String) : Run Unit := modify (·.print text)

/-- Goes on with a result or stops with a fault. -/
def ofExcept : Except Fault α → Run α
  | .ok a => pure a
  | .error e => throw e

end Run

/-- The value of an expression.  The left operand of an operator comes first. -/
def Expr.eval (frame : Frame) : Expr → Run Value
  | .number x => pure (.number x)
  | .text s => pure (.text s)
  | .name n =>
    match frame.lookup? n with
    | some v => pure v
    | none => throw (.undefinedVariable n)
  | .input => .text <$> Run.read
  | .binary op lhs rhs => do
    let a ← lhs.eval frame
    let b ← rhs.eval frame
    Run.ofExcept (Value.apply op a b)

/-- What a call of a function by name does. -/
abbrev CallHandler := String → List Value → Run Unit

mutual

/-- Runs a statement and gives the frame after it. -/
def Stmt.exec (call : CallHandler) (frame : Frame) : Stmt → Run Frame
  | .bind name value => do
    let v ← value.eval frame
    return frame.bind name v
  | .print value => do
    let v ← value.eval frame
    Run.print v.display
    return frame
  | .call name args => do
    let vs ← args.mapM (Expr.eval frame)
    call name vs
    return frame
  | .branch cond onTrue onFalse => do
    let v ← cond.eval frame
    if v.holds then Stmt.execAll call frame onTrue else Stmt.execAll call frame onFalse

/-- Runs statements in turn. -/
def Stmt.execAll (call : CallHandler) (frame : Frame) : List Stmt → Run Frame
  | [] => return frame
  | s :: ss => do
    let frame ← Stmt.exec call frame s
    Stmt.execAll call frame ss

end

namespace Program

/-- Calls a function of a program, with so many levels of depth left out of `limit`. -/
def callWithin (p : Program) (limit : Nat) : (left : Nat) → CallHandler
  | left, name, args =>
    match p.function? name with
    | none => throw (.undefinedFunction name)
    | some f =>
      if f.params.length ≠ args.length then
        throw (.arityMismatch name f.params.length args.length)
      else
        match left with
        | 0 => throw (.callDepthExceeded limit)
        | left + 1 => do
          let _ ← Stmt.execAll (callWithin p limit left) (Frame.ofArguments f.params args) f.body

/-- Runs a program with calls nested at most so deeply. -/
def exec (p : Program) (limit : Nat) : Run Unit := do
  let _ ← Stmt.execAll (p.callWithin limit limit) {} p.entry

end Program

/-- The outcome of a run: how it ended, and the console afterwards. -/
structure RunReport (ε : Type) where
  /-- The fault, if there was one. -/
  failure : Option ε
  /-- The texts that were printed. -/
  output : List String
  /-- The number of lines that were asked for. -/
  reads : Nat
deriving DecidableEq, Repr

namespace RunReport

/-- The report of a run that never began. -/
def notBegun {ε : Type} (e : ε) : RunReport ε := ⟨some e, [], 0⟩

/-- The same report with another account of its failure. -/
def mapError {ε δ : Type} (f : ε → δ) (r : RunReport ε) : RunReport δ :=
  ⟨r.failure.map f, r.output, r.reads⟩

end RunReport

/-- Runs a program on the given lines of input. -/
def Program.report (p : Program) (limit : Nat) (inputs : List String) : RunReport Fault :=
  match p.exec limit (Console.ofInputs inputs) with
  | .ok _ c => ⟨none, c.output, c.reads⟩
  | .error e c => ⟨some e, c.output, c.reads⟩

/-- Why a text cannot be run to its end. -/
inductive ProgramError where
  /-- It is not a program. -/
  | unreadable (failure : Grammar.Failure)
  /-- It is one, and stops early. -/
  | fault (fault : Fault)
deriving DecidableEq, Repr

/-- The words for an error. -/
def ProgramError.message : ProgramError → String
  | .unreadable failure => "parse error: " ++ failure.message
  | .fault f => f.message

/-- Reads a program and runs it. -/
def Program.runText (text : String) (limit : Nat) (inputs : List String) :
    RunReport ProgramError :=
  match Program.read text with
  | .error e => .notBegun (.unreadable e)
  | .ok p => (p.report limit inputs).mapError .fault

end FlowSketch
