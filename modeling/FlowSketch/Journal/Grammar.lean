/-
# The text form of journals

    journal = piece (";" piece)*
    piece   = "" | entry
    entry   = "Key" , code , x , y
            | "Line" , x0 , y0 , x1 , y1 , tool , ("true" | "false")

Blanks around a piece are ignored, and so are pieces of nothing but blanks; around a comma
there may be spaces and tabs.  A code is a number below 2 ^ 32 that is the number of a
character, a coordinate a number of thirty-two bits with a sign.
-/
import FlowSketch.Journal.Basic
import FlowSketch.Decimal.Text
import FlowSketch.Text.Quoted

namespace FlowSketch

/-- The character of a key code. -/
def charOfCode? (code : Nat) : Option Char :=
  if code < 0xD800 ∨ (0xDFFF < code ∧ code < 0x110000) then some (Char.ofNat code) else none

theorem charOfCode?_toNat (c : Char) : charOfCode? c.toNat = some c := by
  have hv : c.toNat < 0xD800 ∨ (0xDFFF < c.toNat ∧ c.toNat < 0x110000) := c.valid
  rw [charOfCode?, if_pos hv, Char.ofNat_toNat]

namespace Journal

open FlowSketch.Text (Rule trim)
open FlowSketch.Text.Rule

/-- Why a text is not a journal. -/
inductive Failure where
  /-- A piece is no entry. -/
  | malformed (index : Nat) (piece : String)
  /-- A key has a code that is not the number of a character. -/
  | invalidKey (code : Nat)
deriving DecidableEq, Repr

/-- The words for a failure. -/
def Failure.message : Failure → String
  | malformed index piece =>
    "malformed event record #" ++ toString index ++ ": " ++
      String.ofList (Text.quoted piece.toList)
  | invalidKey code => "key code " ++ toString code ++ " is not a character"

/-! ## Entries -/

/-- A comma, with spaces and tabs around it. -/
def comma : Rule Unit := do
  let _ ← many fun c => c == ' ' || c == '\t'
  char ','
  let _ ← many fun c => c == ' ' || c == '\t'

/-- A key code. -/
def keyCode : Rule Nat := do
  let n := Decimal.longValueOf (← digits)
  if n < 0x100000000 then return n else fail

/-- A coordinate. -/
def coordinate : Rule Int := do
  let minus ← attempt (char '-')
  let n : Int := Decimal.longValueOf (← digits)
  let x := if minus.isSome then -n else n
  if -0x80000000 ≤ x ∧ x < 0x80000000 then return x else fail

/-- A point, its coordinates separated by a comma. -/
def point : Rule Point := do
  let x ← coordinate
  comma
  let y ← coordinate
  return ⟨x, y⟩

/-- The name of a tool. -/
def toolName : Rule Tool := do
  let cs ← several Char.isAlphanum
  ofOption (Tool.ofName? (String.ofList cs))

/-- A truth value. -/
def truth : Rule Bool :=
  orElse (do lit "true"; return true) (do lit "false"; return false)

/-- A pressed key. -/
def keyEntry : Rule Entry := do
  lit "Key"
  comma
  let code ← keyCode
  comma
  let caret ← point
  return .key code caret

/-- A segment. -/
def lineEntry : Rule Entry := do
  lit "Line"
  comma
  let a ← point
  comma
  let b ← point
  comma
  let tool ← toolName
  comma
  let last ← truth
  return .line a b tool last

/-- The entry that a text is, if the whole text is one. -/
def entry? (s : List Char) : Option Entry :=
  match orElse keyEntry lineEntry (.of s) with
  | .ok e r => if r.isEmpty then some e else none
  | .error _ _ => none

/-! ## Journals -/

/-- Reads the piece at a place in the text: nothing if it is blank. -/
def readPiece (index : Nat) (piece : List Char) : Except Failure (Option Entry) :=
  let piece := trim piece
  if piece.isEmpty then .ok none
  else
    match entry? piece with
    | none => .error (.malformed index (String.ofList piece))
    | some (.key code caret) =>
      if (charOfCode? code).isSome then .ok (some (.key code caret))
      else .error (.invalidKey code)
    | some e => .ok (some e)

/-- Reads a journal. -/
def read (text : String) : Except Failure Journal := do
  let es ← (text.toList.splitOn ';').zipIdx.mapM fun (piece, index) => readPiece index piece
  return ⟨(es.filterMap id).toArray⟩

/-- A blank piece is no entry and no failure. -/
theorem readPiece_of_blank {index : Nat} {piece : List Char} (h : trim piece = []) :
    readPiece index piece = .ok none := by
  simp [readPiece, h]

end Journal

end FlowSketch
