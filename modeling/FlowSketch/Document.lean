/-
# Structured documents

A document is a value made of texts, whole numbers, truth values, lists and records, in the
data format that programs exchange.  It is written with one item to a line and two spaces
for each level; empty lists and records stay on their line.  The fields of a record are
written in the order in which they are given.
-/

namespace FlowSketch

/-- A document. -/
inductive Document where
  | null
  | truth (b : Bool)
  | number (n : Int)
  | text (s : String)
  | list (items : List Document)
  | record (fields : List (String × Document))
deriving Repr, Inhabited

namespace Document

/-- A document or nothing. -/
def ofOption {α : Type} (f : α → Document) : Option α → Document
  | some a => f a
  | none => null

/-- A digit of a hexadecimal number. -/
def hexDigit (n : Nat) : Char := Nat.digitChar (n % 16)

/-- One character of a quoted text.  Quotes, backslashes and the control characters of ASCII
are escaped. -/
def escape (c : Char) : List Char :=
  if c = '"' then ['\\', '"']
  else if c = '\\' then ['\\', '\\']
  else if c = '\x08' then ['\\', 'b']
  else if c = '\x0c' then ['\\', 'f']
  else if c = '\n' then ['\\', 'n']
  else if c = '\r' then ['\\', 'r']
  else if c = '\t' then ['\\', 't']
  else if c.toNat < 0x20 then ['\\', 'u', '0', '0', hexDigit (c.toNat / 16), hexDigit c.toNat]
  else [c]

/-- A quoted text. -/
def quote (s : String) : String := String.ofList ('"' :: s.toList.flatMap escape ++ ['"'])

/-- A line break and the spaces of a level. -/
def newline (level : Nat) : String := String.ofList ('\n' :: List.replicate (2 * level) ' ')

/-- Items between two brackets, each on a line of its own. -/
def enclose (level : Nat) (opening closing : String) (items : List String) : String :=
  if items.isEmpty then opening ++ closing
  else
    opening ++ newline (level + 1) ++ (("," ++ newline (level + 1)).intercalate items) ++
      newline level ++ closing

mutual

/-- A document that stands on a level. -/
def pretty (level : Nat) : Document → String
  | .null => "null"
  | .truth b => if b then "true" else "false"
  | .number n => toString n
  | .text s => quote s
  | .list items => enclose level "[" "]" (prettyItems (level + 1) items)
  | .record fields => enclose level "\x7b" "\x7d" (prettyFields (level + 1) fields)

/-- The items of a list. -/
def prettyItems (level : Nat) : List Document → List String
  | [] => []
  | d :: ds => pretty level d :: prettyItems level ds

/-- The fields of a record. -/
def prettyFields (level : Nat) : List (String × Document) → List String
  | [] => []
  | (key, d) :: fields => (quote key ++ ": " ++ pretty level d) :: prettyFields level fields

end

/-- A document on its own. -/
def render (d : Document) : String := d.pretty 0

end Document

end FlowSketch
