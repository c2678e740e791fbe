/-
# One program after another

Two programs with a line break between them are one program, whose statements and functions are
those of the first and then those of the second.  There is one way in which the second program can
become a part of the first: a branching statement at the end of the first one takes the word for a
second block to be its own.

Main statements: `read_append` and `not_read_append`.
-/
import FlowSketch.Proofs.Program.Items

namespace FlowSketch

open FlowSketch.Text (Rule Source trimStart)
open FlowSketch.Text.Rule
open FlowSketch.Grammar

namespace Program

/-- The loop over the items of a program ends with blanks. -/
lemma exists_readsItems_of_read {text : String} {p : Program} (h : read text = .ok p) :
    ∃ r, ReadsItems (.of text.toList) p r ∧ r.skipBlanks.isEmpty = true := by
  obtain ⟨p', r, hreads, hend⟩ := exists_readsItems (.of text.toList)
  rw [read, hreads.items_eq] at h
  obtain hempty | ⟨hne, f, hitem⟩ := hend
  · rw [items_of_isEmpty hempty] at h
    cases h
    exact ⟨r, p'.append_empty.symm ▸ hreads, hempty⟩
  · rw [items_of_error hne hitem] at h
    cases h

/-- **Two programs, one after the other, are one program**, unless the first one ends with a
branching statement without a second block and the second one begins with the word for one. -/
theorem read_append {a b : String} {p q : Program} (ha : read a = .ok p) (hb : read b = .ok q)
    (h : EndsOpen (.of a.toList) [] → ¬ "else".toList <+: trimStart b.toList) :
    read (a ++ "\n" ++ b) =
      .ok { entry := p.entry ++ q.entry, functions := p.functions ++ q.functions } := by
  obtain ⟨r, hreads, hempty⟩ := exists_readsItems_of_read ha
  obtain ⟨u, k, htext, hk, -, hagain⟩ := hreads.replay
  have hblank : trimStart k = [] := by
    rw [hk]
    exact List.isEmpty_iff.mp hempty
  have hskip : trimStart (k ++ '\n' :: b.toList) = trimStart b.toList := by
    have hbreak : trimStart ('\n' :: b.toList) = trimStart b.toList :=
      Text.trimStart_cons_of_blank rfl
    obtain ⟨v, hv, hall⟩ := exists_blanks k
    rw [hblank, List.append_nil] at hv
    rw [hv, trimStart_append_of_blanks hall, hbreak]
  have hchars : (a ++ "\n" ++ b).toList = u ++ (k ++ '\n' :: b.toList) := by
    rw [String.toList_append, String.toList_append, show a.toList = u ++ k from htext]
    simp
  have hsecond : items (.of (k ++ '\n' :: b.toList)) = .ok q := by
    rw [← hb]
    exact items_eq_of_skipBlanks (by rw [Source.skipBlanks_of, Source.skipBlanks_of, hskip])
  have hopen : EndsOpen (.of a.toList) k → EndsOpen (.of a.toList) [] := by
    rintro ⟨p', m, b', r', hm, hr, hend⟩
    exact ⟨p', m, b', r', hm, hr, hend.trans hblank⟩
  rw [read, hchars, hagain _ fun hk => hskip ▸ h (hopen hk), hsecond]
  rfl

/-! ## A statement that the first program takes -/

section Taken

variable {t : List Char}

/-- A block without statements. -/
lemma block_empty : block (.of ('\x7b' :: '\x7d' :: t)) = .ok [] (.of t) := by
  have hclose : blockItem (statementWith block) (.of ('\x7d' :: t)) = .ok none (.of t) := rfl
  rw [block_eq, blockWith, bind_of_ok _ (blanks_apply _), Text.trimStart_cons_of_not_blank rfl,
    bind_of_ok _ (char_cons_self _ _)]
  exact collect_of_none hclose

/-- A branching statement on a line of input, up to the end of its first block. -/
lemma opening_input :
    opening block (.of ("if(input())\x7b\x7d".toList ++ t)) = .ok (.input, []) (.of t) := by
  have hhead : (do lit "if"; blanks; char '('; blanks; let c ← expr; blanks; char ')'; return c)
      (.of ("if(input())\x7b\x7d".toList ++ t)) = .ok .input (.of ('\x7b' :: '\x7d' :: t)) := rfl
  have hparts : opening block =
      (do lit "if"; blanks; char '('; blanks; let c ← expr; blanks; char ')'; return c) >>=
        fun c => block >>= fun b => pure (c, b) := by
    simp only [opening, bind_assoc, pure_bind]
  rw [hparts, bind_of_ok _ hhead, bind_of_ok _ block_empty]
  rfl

lemma item_input (h : ¬ "else".toList <+: trimStart t) :
    item (.of ("if(input())\x7b\x7d".toList ++ t)) =
      .ok (fun p => { p with entry := .branch .input [] [] :: p.entry }, .of (trimStart t)) := by
  refine item_eq_ok.mpr (.inr ⟨rfl, .branch .input [] [], ?_, rfl⟩)
  have hbranching : statementAhead ("if(input())\x7b\x7d".toList ++ t) = branching block := rfl
  rw [statement_eq, Source.chars_of, hbranching, branching_eq, bind_of_ok _ opening_input,
    bind_of_ok _ (otherwise_of_not_starts h)]
  rfl

lemma item_call : item (.of "else ();".toList) =
    .ok (fun p => { p with entry := .call "else" [] :: p.entry }, .of []) := by
  have hcall : call (.of "else ();".toList) = .ok (.call "else" []) (.of []) := rfl
  refine item_eq_ok.mpr (.inr ⟨rfl, .call "else" [], ?_, rfl⟩)
  rw [statement_eq]
  exact hcall

lemma items_of_trimmed {s : List Char} {m : Source} {add : Program → Program} (hne : s ≠ [])
    (htrim : trimStart s = s) (h : item (.of s) = .ok (add, m)) :
    items (.of s) = (items m).map add := by
  have hskip : (Source.of s).skipBlanks = .of s := by rw [Source.skipBlanks_of, htrim]
  exact items_of_item (by rw [hskip]; simpa [Source.isEmpty] using hne) (by rw [hskip, h])

/-- A branching statement without a second block. -/
lemma read_input : read "if(input())\x7b\x7d" = .ok { entry := [.branch .input [] []] } := by
  have hitem := item_input (t := []) (by decide)
  rw [List.append_nil] at hitem
  rw [read, items_of_trimmed (by decide) rfl hitem, items_of_blank rfl]
  rfl

/-- The word for a second block may be the name of a function. -/
lemma read_call : read "else ();" = .ok { entry := [.call "else" []] } := by
  rw [read, items_of_trimmed (by decide) rfl item_call, items_of_blank rfl]
  rfl

/-- The branching statement takes the call to be its second block, which it is not. -/
lemma read_taken : read ("if(input())\x7b\x7d" ++ "\n" ++ "else ();") =
    .error ⟨.statement, "();".toList⟩ := by
  have hchars : ("if(input())\x7b\x7d" ++ "\n" ++ "else ();").toList =
      "if(input())\x7b\x7d".toList ++ "\nelse ();".toList := rfl
  have hblock : block (.of " ();".toList) = .error () (.of "();".toList) := by
    rw [block_eq, blockWith, bind_of_ok _ (blanks_apply _)]
    exact bind_of_error _ (char_cons_of_ne (by decide) "();".toList.tail)
  have hother : otherwise block (.of "\nelse ();".toList) = .error () (.of "();".toList) := by
    rw [otherwise_of_starts (by decide)]
    exact hblock
  have hstatement : statement (.of ("if(input())\x7b\x7d".toList ++ "\nelse ();".toList)) =
      .error () (.of "();".toList) := by
    have hbranching : statementAhead ("if(input())\x7b\x7d".toList ++ "\nelse ();".toList) =
        branching block := rfl
    rw [statement_eq, Source.chars_of, hbranching, branching_eq, bind_of_ok _ opening_input,
      bind_of_error _ hother]
  have hitem : item (.of ("if(input())\x7b\x7d".toList ++ "\nelse ();".toList)) =
      .error ⟨.statement, "();".toList⟩ := by
    rw [item, hstatement]
    rfl
  rw [read, hchars]
  exact items_of_error rfl hitem

end Taken

/-- Not any two programs, one after the other, are one program. -/
theorem not_read_append : ¬ ∀ (a b : String) (p q : Program), read a = .ok p → read b = .ok q →
    read (a ++ "\n" ++ b) =
      .ok { entry := p.entry ++ q.entry, functions := p.functions ++ q.functions } := by
  intro h
  have hboth := h _ _ _ _ read_input read_call
  rw [read_taken] at hboth
  cases hboth

/-- A function without parameters and statements. -/
lemma read_function : read "function f()\x7b\x7d" =
    .ok { functions := [{ name := "f", params := [], body := [] }] } := by
  have hhead : (do
        lit "function"
        let _ ← several fun c => c == ' ' || c == '\t'
        let n ← name
        let params ← parenthesized name
        return (n, params))
      (.of "function f()\x7b\x7d".toList) = .ok ("f", []) (.of ['\x7b', '\x7d']) := rfl
  have hparts : function = (do
        lit "function"
        let _ ← several fun c => c == ' ' || c == '\t'
        let n ← name
        let params ← parenthesized name
        return (n, params)) >>=
      fun head => block >>= fun body => pure { name := head.1, params := head.2, body } := by
    simp only [function, bind_assoc, pure_bind]
  have hfunction : function (.of "function f()\x7b\x7d".toList) =
      .ok { name := "f", params := [], body := [] } (.of []) := by
    rw [hparts, bind_of_ok _ hhead, bind_of_ok _ block_empty]
    rfl
  have hitem := item_eq_ok.mpr (.inl ⟨rfl, _, hfunction, rfl⟩)
  rw [read, items_of_trimmed (by decide) rfl hitem, items_of_blank rfl]
  rfl

/-- A function behind a branching statement without a second block. -/
theorem read_append_function :
    read ("if(input())\x7b\x7d" ++ "\n" ++ "function f()\x7b\x7d") =
      .ok { entry := [.branch .input [] []],
            functions := [{ name := "f", params := [], body := [] }] } :=
  read_append read_input read_function fun _ => by decide

end Program

end FlowSketch
