/-
# Grammar rules

A rule reads a value from the front of a text.  When it succeeds it hands back the text
after what it read; when it fails it hands back the text from the place where it gave up,
so that a message can point there.  Sequences, choices and repetitions of rules are rules.

Literals and character classes consume nothing when they fail.  A choice returns to its
start before it tries the next alternative, and fails where the last one fails.

Every rule is a total function.  The two ways for a rule to repeat itself, `Rule.collect`
and `Rule.nested`, only go on with a text that is shorter than before.
-/
import FlowSketch.Text.Source

namespace FlowSketch.Text

/-- A rule of a grammar: from a text, a value and the text behind it, or only the text from
the place of the failure. -/
abbrev Rule (α : Type) := EStateM Unit Source α

namespace Rule

variable {α : Type}

/-- Fails where the text begins. -/
def fail : Rule α := throw ()

/-- Whether the text begins with the given one.  Nothing is consumed. -/
def ahead (lit : String) : Rule Bool := fun s => .ok (lit.toList.isPrefixOf s.chars) s

/-- Reads the given text. -/
def lit (l : String) : Rule Unit := fun s =>
  if l.toList.isPrefixOf s.chars then .ok () (s.drop l.length) else .error () s

/-- Reads one character of a class. -/
def one (p : Char → Bool) : Rule Char := fun s =>
  match s.chars with
  | [] => .error () s
  | c :: _ => if p c then .ok c (s.drop 1) else .error () s

/-- Reads the given character. -/
def char (c : Char) : Rule Unit := do let _ ← one (· == c)

/-- Reads as many characters of a class as there are. -/
def many (p : Char → Bool) : Rule (List Char) := fun s =>
  .ok (s.chars.takeWhile p) (s.dropWhile p)

/-- Reads as many characters of a class as there are, and at least one. -/
def several (p : Char → Bool) : Rule (List Char) := do
  let c ← one p
  let cs ← many p
  return c :: cs

/-- Skips blanks. -/
def blanks : Rule Unit := fun s => .ok () s.skipBlanks

/-- Decimal digits, at least one. -/
def digits : Rule (List Char) := several Char.isDigit

/-- The value of a rule if it succeeds; otherwise nothing, and nothing is consumed. -/
def attempt (p : Rule α) : Rule (Option α) := fun s =>
  match p s with
  | .ok a r => .ok (some a) r
  | .error _ _ => .ok none s

/-- The first rule, or the second from the same place if the first fails. -/
def orElse (p q : Rule α) : Rule α := fun s =>
  match p s with
  | .ok a r => .ok a r
  | .error _ _ => q s

/-- Goes on with a value if there is one and fails here otherwise. -/
def ofOption : Option α → Rule α
  | some a => pure a
  | none => fail

/-- Collects the values of a rule until it has none to give.  A round that gives a value
without consuming anything is a failure, so that there are only finitely many. -/
def collect (p : Rule (Option α)) : Rule (List α) := fun s =>
  match p s with
  | .ok none r => .ok [] r
  | .ok (some a) r =>
    if r.left < s.left then
      match collect p r with
      | .ok as t => .ok (a :: as) t
      | .error e t => .error e t
    else .error () r
  | .error e r => .error e r
termination_by s => s.left

/-- A rule that contains itself.  The inner use fails on a text that is not shorter than
the outer one. -/
def nested (body : Rule α → Rule α) : Rule α := fun s =>
  body (fun t => if t.left < s.left then nested body t else .error () t) s
termination_by s => s.left

/-- Items with separators between them.  The list ends before the first separator that is
not followed by an item; it may be empty. -/
def separated (item : Rule α) (separator : Rule Unit) : Rule (List α) := do
  match ← attempt item with
  | none => return []
  | some a =>
    let as ← collect (attempt (do separator; item))
    return a :: as

/-! ## What single rules do -/

theorem one_of_cons {p : Char → Bool} {c : Char} (h : p c = true) (s : List Char) :
    one p (.of (c :: s)) = .ok c (.of s) := by
  simp [one, h]

theorem lit_append (l : String) (s : List Char) : lit l (.of (l.toList ++ s)) = .ok () (.of s) := by
  have h : l.toList.isPrefixOf (l.toList ++ s) = true := by
    rw [List.isPrefixOf_iff_prefix]
    exact List.prefix_append _ _
  have hl : (l.toList ++ s).drop l.length = s := by
    rw [← String.length_toList, List.drop_left]
  simp [lit, h, hl]

@[simp] theorem char_cons_self (c : Char) (s : List Char) :
    char c (.of (c :: s)) = .ok () (.of s) := by
  simp only [char, bind, EStateM.bind, one_of_cons (p := (· == c)) (beq_self_eq_true c)]
  rfl

theorem char_cons_of_ne {c d : Char} (h : d ≠ c) (s : List Char) :
    char c (.of (d :: s)) = .error () (.of (d :: s)) := by
  simp [char, bind, EStateM.bind, one, h]

theorem blanks_apply (s : List Char) : blanks (.of s) = .ok () (.of (trimStart s)) := by
  simp [blanks]

theorem many_apply (p : Char → Bool) (s : List Char) :
    many p (.of s) = .ok (s.takeWhile p) (.of (s.dropWhile p)) := by
  simp [many]

/-- The characters of a class are read up to the first that is not of the class. -/
theorem many_append {p : Char → Bool} {cs r : List Char} (hcs : ∀ c ∈ cs, p c = true)
    (hr : ∀ c ∈ r.head?, p c = false) : many p (.of (cs ++ r)) = .ok cs (.of r) := by
  have hstop : r.takeWhile p = [] ∧ r.dropWhile p = r := by
    cases r with
    | nil => exact ⟨rfl, rfl⟩
    | cons c r =>
      have : p c = false := hr c rfl
      simp [this]
  rw [many_apply, List.takeWhile_append_of_pos hcs, List.dropWhile_append_of_pos hcs, hstop.1,
    hstop.2, List.append_nil]

/-- The end of a collection. -/
theorem collect_of_none {p : Rule (Option α)} {s r : Source} (h : p s = .ok none r) :
    collect p s = .ok [] r := by
  rw [collect, h]

/-- One more item of a collection. -/
theorem collect_of_some {p : Rule (Option α)} {s r : Source} {a : α}
    (h : p s = .ok (some a) r) (hr : r.left < s.left) :
    collect p s = match collect p r with
      | .ok as t => .ok (a :: as) t
      | .error e t => .error e t := by
  rw [collect, h]
  simp [hr]

/-- A failing round is the failure of the collection. -/
theorem collect_of_error {p : Rule (Option α)} {s r : Source} (h : p s = .error () r) :
    collect p s = .error () r := by
  rw [collect, h]

end Rule

end FlowSketch.Text
