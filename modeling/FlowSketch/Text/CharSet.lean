/-
# Sets of characters given by ranges

A property of characters that no short rule describes is given by a table of closed ranges
of code points.  The tables of this library list characters beyond ASCII only; below that
every class has a rule of its own, so that reasoning about plain text never meets a table.
-/

namespace FlowSketch.Text

/-- A set of characters, as closed ranges of code points. -/
structure CharSet where
  /-- The first and the last code point of each range. -/
  ranges : Array (Nat × Nat)

namespace CharSet

/-- Whether some range of the set holds the character. -/
def contains (s : CharSet) (c : Char) : Bool :=
  s.ranges.any fun r => r.1 ≤ c.toNat && c.toNat ≤ r.2

theorem contains_eq_true_iff {s : CharSet} {c : Char} :
    s.contains c = true ↔ ∃ r ∈ s.ranges, r.1 ≤ c.toNat ∧ c.toNat ≤ r.2 := by
  simp only [contains, ← Array.any_toList, List.any_eq_true, Bool.and_eq_true,
    decide_eq_true_eq, Array.mem_toList_iff]

end CharSet

end FlowSketch.Text
