/-
# Text literals

A text in a program stands between double quotes.  Double quotes, backslashes and line
breaks in it are written with a backslash in front; any other character is written as it
is.  Reading takes any escaped character for itself, except that an escaped `n` is a line
break.

Main statement: `readText_quote`, that a written text is read back whatever follows it.
-/
import FlowSketch.Text.Rule

namespace FlowSketch

namespace Literal

open FlowSketch.Text (Rule Source)

/-- One character between the quotes. -/
def escape (c : Char) : List Char :=
  if c = '"' then ['\\', '"']
  else if c = '\\' then ['\\', '\\']
  else if c = '\n' then ['\\', 'n']
  else [c]

/-- A text as it stands in a program. -/
def quote (s : List Char) : List Char := '"' :: s.flatMap escape ++ ['"']

/-- The character that a backslash and the given one stand for. -/
def unescape (c : Char) : Char := if c = 'n' then '\n' else c

/-- Reads one character of a text between quotes, or nothing at the closing quote. -/
def textItem : Rule (Option Char) := do
  let c ← Rule.one fun _ => true
  if c = '"' then return none
  else if c = '\\' then
    let d ← Rule.one fun _ => true
    return some (unescape d)
  else return some c

/-- Reads the rest of a text behind the opening quote, up to the closing one. -/
def textBody : Rule (List Char) := Rule.collect textItem

/-- Reads a text between quotes. -/
def readText : Rule (List Char) := do
  Rule.char '"'
  textBody

/-- One written character is read back. -/
theorem textItem_escape (c : Char) (t : List Char) :
    textItem (.of (escape c ++ t)) = .ok (some c) (.of t) := by
  unfold escape
  split
  · rename_i h
    subst h
    rfl
  · split
    · rename_i h
      subst h
      rfl
    · split
      · rename_i h
        subst h
        rfl
      · rename_i hq hb _
        simp only [List.cons_append, List.nil_append, textItem, bind, EStateM.bind,
          Rule.one_of_cons (p := fun _ => true) rfl, if_neg hq, if_neg hb]
        rfl

theorem length_escape_pos (c : Char) : 0 < (escape c).length := by
  unfold escape
  repeat' split
  all_goals simp

theorem textBody_flatMap (s t : List Char) :
    textBody (.of (s.flatMap escape ++ '"' :: t)) = .ok s (.of t) := by
  induction s with
  | nil => exact Rule.collect_of_none rfl
  | cons c s ih =>
    rw [List.flatMap_cons, List.append_assoc, textBody,
      Rule.collect_of_some (textItem_escape c _)]
    · rw [← textBody, ih]
    · simp only [Source.left_of, List.length_append]
      have := length_escape_pos c
      omega

/-- **A written text is read back, whatever follows it.** -/
theorem readText_quote (s t : List Char) : readText (.of (quote s ++ t)) = .ok s (.of t) := by
  have : quote s ++ t = '"' :: (s.flatMap escape ++ '"' :: t) := by simp [quote]
  rw [this]
  simp only [readText, bind, EStateM.bind, Rule.char_cons_self]
  exact textBody_flatMap s t

end Literal

end FlowSketch
