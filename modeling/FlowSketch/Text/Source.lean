/-
# Texts being read

A source is what is still to be read of a text, with its length at hand.  Whether a reader
has moved on is then seen at once, however much is left, and reading ends because what is
left gets shorter.  A source is determined by its characters.
-/
import FlowSketch.Text.Blank

namespace FlowSketch.Text

/-- What is still to be read of a text. -/
structure Source where
  /-- The characters. -/
  chars : List Char
  /-- The number of characters. -/
  left : Nat
  /-- The characters are counted right. -/
  left_eq : left = chars.length
deriving DecidableEq, Repr

namespace Source

/-- A text, of which nothing has been read. -/
def of (s : List Char) : Source := ⟨s, s.length, rfl⟩

/-- The source behind the given number of characters. -/
def drop (s : Source) (n : Nat) : Source :=
  ⟨s.chars.drop n, s.left - n, by rw [s.left_eq, List.length_drop]⟩

/-- The source behind the leading characters of a class. -/
def dropWhile (s : Source) (p : Char → Bool) : Source :=
  ⟨s.chars.dropWhile p, s.left - (s.chars.takeWhile p).length, by
    have h := congrArg List.length (List.takeWhile_append_dropWhile (p := p) (l := s.chars))
    rw [List.length_append] at h
    have := s.left_eq
    omega⟩

/-- The source behind the leading blanks. -/
def skipBlanks (s : Source) : Source := s.dropWhile isBlank

/-- Whether everything has been read. -/
def isEmpty (s : Source) : Bool := s.chars.isEmpty

theorem ext_chars {s t : Source} (h : s.chars = t.chars) : s = t := by
  obtain ⟨s, m, rfl⟩ := s
  obtain ⟨t, n, rfl⟩ := t
  cases h
  rfl

@[simp] theorem chars_of (s : List Char) : (of s).chars = s := rfl

@[simp] theorem left_of (s : List Char) : (of s).left = s.length := rfl

@[simp] theorem of_chars (s : Source) : of s.chars = s := ext_chars rfl

@[simp] theorem of_inj {s t : List Char} : of s = of t ↔ s = t :=
  ⟨congrArg chars, congrArg of⟩

@[simp] theorem drop_of (s : List Char) (n : Nat) : (of s).drop n = of (s.drop n) :=
  ext_chars rfl

@[simp] theorem dropWhile_of (s : List Char) (p : Char → Bool) :
    (of s).dropWhile p = of (s.dropWhile p) :=
  ext_chars rfl

@[simp] theorem skipBlanks_of (s : List Char) : (of s).skipBlanks = of (trimStart s) :=
  ext_chars rfl

theorem left_skipBlanks_le (s : Source) : s.skipBlanks.left ≤ s.left := Nat.sub_le _ _

end Source

end FlowSketch.Text
