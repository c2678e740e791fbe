/-
# Texts are kept

What is written on a variable stands for a text if it is no finite number and is quoted at both
ends or mentions no connective.  The program of the graph then binds the variable to this text,
and to nothing else but lines of input.  The binding is read back with the text as it was, however
many quotes, backslashes and line breaks are in it, and the variable is printed as that text.

Main statement: `keeps_text`.
-/
import FlowSketch.Execution.Run
import FlowSketch.Proofs.Compile.Listing

namespace FlowSketch

open FlowSketch.Text (Source trim)

/-! ## What is written on a variable -/

namespace Compile

variable {g : Graph} {id : NodeId} {node : Node} {written s : String}

lemma occursIn_iff {l s : List Char} : occursIn l s = true ↔ l <:+: s := by
  induction s with
  | nil => simp [occursIn]
  | cons c s ih =>
    rw [occursIn, Bool.or_eq_true, List.isPrefixOf_iff_prefix, ih, List.infix_cons_iff]

lemma mentionsOperator_eq_false_iff {s : List Char} : mentionsOperator s = false ↔
    ∀ op ∈ Operator.connectives, ¬ op.symbol.toList <:+: s := by
  simp only [mentionsOperator, List.any_eq_false, occursIn_iff]

lemma betweenQuotes?_eq_some_iff {s inner : List Char} :
    betweenQuotes? s = some inner ↔ s = '"' :: inner ++ ['"'] := by
  refine ⟨fun h => ?_, fun h => by rw [h, betweenQuotes?_quoted]⟩
  unfold betweenQuotes? at h
  split at h
  · rename_i s
    obtain ⟨hlast, hinner⟩ := Option.ite_none_right_eq_some.mp h
    rw [← Option.some.inj hinner, List.cons_append, List.dropLast_append_getLast? _ hlast]
  · cases h

/-- A text on a variable stands for what is between the quotes at its ends, with blanks around
them left out.  If there are no such quotes and no connective is in it, it stands for itself, with
all its blanks. -/
inductive StandsFor (written : String) : String → Prop
  | quoted {s : String} : trim written.toList = '"' :: s.toList ++ ['"'] → StandsFor written s
  | plain : (∀ s, trim written.toList ≠ '"' :: s ++ ['"']) →
    (∀ op ∈ Operator.connectives, ¬ op.symbol.toList <:+: written.toList) →
    StandsFor written written

lemma textValue_of_standsFor
    (hnumber : ∀ x, Decimal.read? (trim written.toList) = some x → x.isFinite = false)
    (hs : StandsFor written s) : textValue g id node written = .ok (.text s) := by
  have hnone : finiteNumber? (trim written.toList) = none :=
    Option.filter_eq_none_iff.mpr fun x hx => by simp [hnumber x hx]
  unfold textValue
  dsimp only
  rw [hnone]
  cases hs with
  | quoted h =>
    dsimp only
    rw [betweenQuotes?_eq_some_iff.mpr h]
    exact congrArg _ (congrArg _ String.ofList_toList)
  | plain hquotes hconnectives =>
    have hq : betweenQuotes? (trim written.toList) = none :=
      Option.eq_none_iff_forall_ne_some.mpr fun u hu => hquotes u (betweenQuotes?_eq_some_iff.mp hu)
    dsimp only
    rw [hq, mentionsOperator_eq_false_iff.mpr hconnectives]
    rfl

end Compile

/-! ## The bindings of a program -/

namespace Listing

/-- Somewhere in the steps a node is bound to a value. -/
inductive Assigns (id : NodeId) (v : Value) : List Step → Prop
  | here (ss : List Step) : Assigns id v (.bind id v :: ss)
  | later {ss : List Step} (st : Step) : Assigns id v ss → Assigns id v (st :: ss)
  | onTrue {yes : List Step} (left right : NodeId) (no ss : List Step) :
    Assigns id v yes → Assigns id v (.branch left right yes no :: ss)
  | onFalse {no : List Step} (left right : NodeId) (yes ss : List Step) :
    Assigns id v no → Assigns id v (.branch left right yes no :: ss)

variable {id : NodeId} {v : Value} {ss rs : List Step}

lemma not_assigns_nil : ¬ Assigns id v [] := nofun

lemma Assigns.of_append (h : Assigns id v (ss ++ rs)) : Assigns id v ss ∨ Assigns id v rs := by
  induction ss with
  | nil => exact .inr h
  | cons st ss ih =>
    cases h with
    | here => exact .inl (.here ss)
    | later _ h => exact (ih h).imp_left (.later st)
    | onTrue left right no _ h => exact .inl (.onTrue left right no ss h)
    | onFalse left right yes _ h => exact .inl (.onFalse left right yes ss h)

end Listing

namespace Compile

open FlowSketch.Listing (Assigns)

variable {g : Graph} {id : NodeId} {v : Listing.Value} {known known' : List NodeId}
  {ss : List Listing.Step}

/-- A variable is bound to a line of input or to what is written on it. -/
def Assignable (g : Graph) (id : NodeId) (v : Listing.Value) : Prop :=
  v = .input ∨ ∃ node, g.node? id = some node ∧ binding g id node = .ok [.bind id v]

lemma assignable_of_binding {a : NodeId} {node : Node} (hn : g.node? a = some node)
    (hown : binding g a node = .ok ss) (h : Assigns id v ss) : Assignable g id v := by
  rcases binding_eq_ok hown with ⟨rfl, -⟩ | ⟨_, _, w, -, -, -, -, rfl⟩
  · exact absurd h Listing.not_assigns_nil
  · cases h with
    | here => exact .inr ⟨node, hn, hown⟩
    | later _ h => exact absurd h Listing.not_assigns_nil

lemma Demands.assignable {ids : List NodeId} (hd : Demands g ids known ss known')
    (h : Assigns id v ss) : Assignable g id v := by
  induction hd with
  | nil => exact absurd h Listing.not_assigns_nil
  | known _ _ ih => exact ih h
  | bind _ hn _ hown _ ihBefore ihRest =>
    rcases h.of_append with h | h
    · rcases h.of_append with h | h
      · exact ihBefore h
      · exact assignable_of_binding hn hown h
    · exact ihRest h

lemma Visits.assignable {previous : Option NodeId} {a : NodeId} {node : Node}
    (hv : Visits g previous known a node ss known') (h : Assigns id v ss) : Assignable g id v := by
  cases hv with
  | var _ hdemand => exact hdemand.assignable h
  | skip => exact absurd h Listing.not_assigns_nil
  | call _ _ hdemand =>
    rcases h.of_append with h | h
    · exact hdemand.assignable h
    · cases h with
      | later _ h => exact absurd h Listing.not_assigns_nil
  | input =>
    cases h with
    | here => exact .inl rfl
    | later _ h => exact absurd h Listing.not_assigns_nil
  | output _ _ _ hdemand =>
    rcases h.of_append with h | h
    · exact hdemand.assignable h
    · cases h with
      | later _ h => exact absurd h Listing.not_assigns_nil

/-- Every binding that a walk writes is to a line of input or to what is written on the
variable. -/
lemma Walks.assignable {previous start : Option NodeId}
    (hw : Walks g previous known start ss known') (h : Assigns id v ss) : Assignable g id v := by
  induction hw with
  | stop => exact absurd h Listing.not_assigns_nil
  | visit _ hvisit _ ih => exact h.of_append.elim hvisit.assignable ih
  | compare _ _ _ _ _ hfirst hsecond _ _ _ ihYes ihNo ihAfter =>
    rcases h.of_append with h | h
    · rcases h.of_append with h | h
      · exact h.of_append.elim hfirst.assignable hsecond.assignable
      · cases h with
        | later _ h => exact absurd h Listing.not_assigns_nil
        | onTrue _ _ _ _ h => exact ihYes h
        | onFalse _ _ _ _ h => exact ihNo h
    · exact ihAfter h

end Compile

/-- Every binding in the listing of a graph is to a line of input or to what is written on the
variable. -/
lemma Graph.assignable_of_listing {g : Graph} {l : Listing} (hl : g.listing = .ok l)
    {r : Listing.Routine} (hr : r ∈ l.routines) {id : NodeId} {v : Listing.Value}
    (h : Listing.Assigns id v r.body) : Compile.Assignable g id v := by
  obtain ⟨p, -, hroutine⟩ := exists_routine_of_mem hl hr
  obtain ⟨-, -, known, hwalk⟩ := exists_walk_of_routine hroutine
  exact (Compile.walks_of_walk hwalk).assignable h

/-! ## Reading and running a statement -/

/-- A statement is read back from its line, whatever follows. -/
lemma Grammar.statement_chars {st : Listing.Step} (hst : st.Readable) (depth : ℕ) (t : List Char) :
    statement (Source.of (st.chars depth ++ t)).skipBlanks = .ok st.stmt (.of ('\n' :: t)) := by
  obtain ⟨c, u, hu, hblank, -⟩ := exists_cons_statementChars depth st ('\n' :: t)
  have hread : statement (.of (statementChars depth ('\n' :: t) st)) =
      .ok st.stmt (.of ('\n' :: t)) := statementWith_chars hst (readsBlocks_block _)
  rw [hu] at hread
  rw [chars_append, Source.skipBlanks_of, trimStart_indent, hu,
    Text.trimStart_cons_of_not_blank hblank]
  exact hread

/-! ## Variables that stand for texts -/

namespace Graph

open FlowSketch.Compile FlowSketch.Grammar
open FlowSketch.Listing (Assigns)

variable {g : Graph} {id : NodeId} {written s : String}

/-- What becomes of a variable that stands for a text. -/
structure Keeps (g : Graph) (id : NodeId) (s : String) : Prop where
  /-- It is bound to the text. -/
  binding : ∃ node, g.node? id = some node ∧ binding g id node = .ok [.bind id (.text s)]
  /-- The program binds it to nothing else but lines of input. -/
  assigns (l : Listing) : g.listing = .ok l →
    ∀ r ∈ l.routines, ∀ v, Assigns id v r.body → v = .input ∨ v = .text s
  /-- The binding is read back from its line, whatever follows. -/
  statement (depth : ℕ) (t : List Char) :
    statement (Source.of ((Listing.Step.bind id (.text s)).chars depth ++ t)).skipBlanks =
      .ok (.bind id.name (.text s)) (.of ('\n' :: t))
  /-- It is executed without a fault, and then the name of the variable has the text as its
  value. -/
  exec_bind (call : CallHandler) (frame : Frame) (c : Console) : ∃ frame',
    (Stmt.bind id.name (.text s)).exec call frame c = .ok frame' c ∧
      ∀ name, frame'.lookup? name = if name = id.name then some (.text s) else frame.lookup? name
  /-- While the name has this value, an output of the variable prints the text. -/
  exec_print (call : CallHandler) (frame : Frame) (c : Console) :
    frame.lookup? id.name = some (.text s) →
      (Stmt.print (.name id.name)).exec call frame c = .ok frame (c.print s)

/-- A variable has the text that was written on it as its value. -/
lemma exists_writeText (h : g.isVariable id = true) (written : String) :
    ∃ g' node v, g.writeText id written = some (.valueSet, g') ∧ g'.node? id = some node ∧
      node.kind = .var v ∧ v.atomic = true ∧ v.value = some written := by
  cases hn : g.node? id with
  | none => simp [isVariable, hn] at h
  | some n =>
    obtain ⟨i, parent, k⟩ := n
    cases k with
    | var v =>
      have hnode : (g.modifyKind id fun _ => .var (v.write written)).node? id =
          some ⟨i, parent, .var (v.write written)⟩ := by
        rw [node?_modifyKind, if_pos rfl, hn]
        rfl
      exact ⟨_, _, _, by rw [writeText, hn]; rfl, hnode, rfl, rfl, rfl⟩
    | _ => simp [isVariable, hn, Node.isVariable, Node.var?] at h

lemma keeps_of_binding {node : Node} (hn : g.node? id = some node)
    (hbinding : Compile.binding g id node = .ok [.bind id (.text s)]) : g.Keeps id s where
  binding := ⟨node, hn, hbinding⟩
  assigns l hl r hr v hv := by
    refine (assignable_of_listing hl hr hv).imp_right ?_
    rintro ⟨node', hn', hbinding'⟩
    obtain rfl := Option.some.inj (hn.symm.trans hn')
    rw [hbinding] at hbinding'
    cases hbinding'
    rfl
  statement depth t := by
    have hreadable : (Listing.Step.bind id (.text s)).Readable := trivial
    exact statement_chars hreadable depth t
  exec_bind call frame c := by
    refine ⟨frame.bind id.name (.text s), ?_, fun name => frame.lookup?_bind _ _ _⟩
    rw [Stmt.exec]
    rfl
  exec_print call frame c h := by
    rw [Stmt.exec, Expr.eval, h]
    rfl

/-- **A text on a variable is bound and printed as it is.**  If what is written is no finite
number and stands for a text, the program binds the variable to this text; the binding is read back
and executed as such, and an output of the variable prints the text.  Any text that is quoted is
read back, whatever follows it. -/
theorem keeps_text :
    (∀ (g : Graph) (id : NodeId) (written s : String), g.isVariable id = true →
      (∀ x, Decimal.read? (trim written.toList) = some x → x.isFinite = false) →
      StandsFor written s →
      ∃ g', g.writeText id written = some (.valueSet, g') ∧ g'.Keeps id s) ∧
    ∀ s t, Literal.readText (.of (Literal.quote s ++ t)) = .ok s (.of t) := by
  refine ⟨fun g id written s hvar hnumber hs => ?_, Literal.readText_quote⟩
  obtain ⟨g', node, v, hwrite, hn, hk, ha, hv⟩ := exists_writeText hvar written
  exact ⟨g', hwrite, keeps_of_binding hn
    (binding_of_textValue hk ha hv (textValue_of_standsFor hnumber hs))⟩

/-- Of a text between quotes with quotes, a connective and blanks around it, and of a text that
stands for itself with a backslash, a line break and one quote. -/
theorem keeps_text_quoted_and_plain :
    let g := drawn [.addNode NodeId.root (NodeTag.blank .var)]
    (∃ g', g.writeText ⟨1⟩ " \"say \"hi\" + 1\" " = some (.valueSet, g') ∧
      g'.Keeps ⟨1⟩ "say \"hi\" + 1") ∧
    ∃ g', g.writeText ⟨1⟩ " a\\b\n\"" = some (.valueSet, g') ∧ g'.Keeps ⟨1⟩ " a\\b\n\"" := by
  have hquoted : Decimal.read? (trim " \"say \"hi\" + 1\" ".toList) = none := by decide +kernel
  have hplain : Decimal.read? (trim " a\\b\n\"".toList) = none := by decide +kernel
  have hquotes : betweenQuotes? (trim " a\\b\n\"".toList) = none := by decide +kernel
  have hconnectives : mentionsOperator " a\\b\n\"".toList = false := by decide +kernel
  refine ⟨keeps_text.1 _ _ _ _ (by decide) ?_ (.quoted (by decide +kernel)),
    keeps_text.1 _ _ _ _ (by decide) ?_ (.plain (fun s hs => ?_)
      (mentionsOperator_eq_false_iff.mp hconnectives))⟩
  · intro x hx
    rw [hquoted] at hx
    cases hx
  · intro x hx
    rw [hplain] at hx
    cases hx
  · rw [betweenQuotes?_eq_some_iff.mpr hs] at hquotes
    cases hquotes

end Graph

end FlowSketch
