/-
# Where a text stops being a program

Reading comes to an end on every text.  If the text is no program, then it falls into two parts: the
items in front, which are a program of their own, and the item that cannot be read.  The message
names the kind of that item and quotes what stands near the place where the item was given up,
somewhere behind its beginning.

Main statement: `read_localizes`.
-/
import FlowSketch.Proofs.Program.Items

namespace FlowSketch

open FlowSketch.Text (Source trimStart quoted)
open FlowSketch.Grammar

namespace Program

/-- What it means that a text falls into items that are read and an item that is not. -/
structure StopsAt (text : String) (f : Failure) (p : Program) (a b : List Char) : Prop where
  /-- The text falls into two parts. -/
  split : text.toList = a ++ b
  /-- There is something that cannot be read. -/
  nonempty : b ≠ []
  /-- The loop over the items reads a program and comes to the second part. -/
  passed : ∃ r, ReadsItems (.of text.toList) p r ∧ r.skipBlanks = .of b
  /-- The first part is that program. -/
  before : read (String.ofList a) = .ok p
  /-- The second part begins with the item that cannot be read. -/
  fails : item (.of b) = .error f
  /-- It is taken for a function if it begins like one. -/
  kind : f.kind = .function ↔ "function".toList <+: b
  /-- It was given up somewhere behind its beginning. -/
  rest : f.rest <:+ b
  /-- The message quotes the text near that place. -/
  message : f.message = f.kind.word ++
    " parse error: Parsing Error: ContextError \x7b context: [], cause: None \x7d near " ++
      String.ofList (quoted (f.rest.take 24))

/-- **A program is read to its end, and a text that is none fails behind a program.**  No loop of
the grammar runs forever on any text. -/
theorem read_localizes (text : String) : Grammar.Halts ∧
    ((∃ p r, ReadsItems (.of text.toList) p r ∧ r.skipBlanks.isEmpty = true ∧ read text = .ok p) ∨
      ∃ f p a b, read text = .error f ∧ StopsAt text f p a b) := by
  refine ⟨halts, ?_⟩
  obtain ⟨p, r, hitems, hend⟩ := exists_readsItems (.of text.toList)
  have hread : read text = (items r).map p.append := hitems.items_eq
  obtain hempty | ⟨hne, f, hitem⟩ := hend
  · refine .inl ⟨p, r, hitems, hempty, ?_⟩
    rw [hread, items_of_isEmpty hempty]
    exact congrArg Except.ok p.append_empty
  · obtain ⟨a, k, htext, hk, -, hagain⟩ := hitems.replay
    obtain ⟨v, hv, hblank⟩ := exists_blanks k
    have hb : r.skipBlanks = .of (trimStart k) := by
      rw [hk, ← Source.skipBlanks_of, r.of_chars]
    have hbefore : items (.of (a ++ v)) = .ok p := by
      have htrim : trimStart v = [] := by
        have hnil := trimStart_append_of_blanks hblank []
        rwa [List.append_nil] at hnil
      rw [hagain v fun _ => by rw [htrim]; decide, items_of_blank htrim]
      exact congrArg Except.ok p.append_empty
    rw [hb] at hitem hne
    obtain ⟨hkind, hrest⟩ := item_eq_error hitem
    refine .inr ⟨f, p, a ++ v, trimStart k, ?_, ?_⟩
    · rw [hread, items_of_error (hb ▸ hne) (hb ▸ hitem)]
      rfl
    · exact {
        split := by rw [List.append_assoc, ← hv, ← htext, Source.chars_of]
        nonempty := by simpa [Source.isEmpty] using hne
        passed := ⟨r, hitems, hb⟩
        before := by rw [read, String.toList_ofList, hbefore]
        fails := hitem
        kind := by rw [hkind, kindAhead_eq_function, Source.chars_of]
        rest := hrest
        message := rfl }

end Program

end FlowSketch
