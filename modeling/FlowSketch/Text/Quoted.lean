/-
# Quoted text in messages

A message that repeats a piece of text shows it between double quotes, with everything
that would not be visible written as an escape.  Different texts are shown differently, and
what is shown has no line breaks.
-/
import FlowSketch.Text.Printable

namespace FlowSketch.Text

/-- The lower-case hexadecimal digits of a number, without leading zeros. -/
def hexDigits (n : Nat) : List Char := Nat.toDigits 16 n

/-- One character between the quotes of a message.  The single quote needs no escape. -/
def escape (c : Char) : List Char :=
  if c == '\x00' then ['\\', '0']
  else if c == '\t' then ['\\', 't']
  else if c == '\r' then ['\\', 'r']
  else if c == '\n' then ['\\', 'n']
  else if c == '\\' || c == '"' then ['\\', c]
  else if isPrintable c then [c]
  else ['\\', 'u', '\x7b'] ++ hexDigits c.toNat ++ ['\x7d']

/-- A text as a message shows it. -/
def quoted (s : List Char) : List Char := '"' :: s.flatMap escape ++ ['"']

end FlowSketch.Text
