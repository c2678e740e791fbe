/-
# Atomic and composed variables

A variable is drawn without members.  Afterwards two things may happen to it, again and again: a
text is written on it, or a variable is drawn inside.  Nothing else concerns it but flows.  The
flag says which of the two happened last: written on, the variable is atomic and has this text as
its value, and with a member drawn inside it is composed.  Its members stay listed either way.

Main statement: `atomic_or_composed`.
-/
import Mathlib.Data.List.Induction
import FlowSketch.Proofs.Graph.Growing

namespace FlowSketch

/-! ## What happens to a variable -/

/-- What an edit does to a variable, apart from its flows. -/
inductive Happening where
  /-- It is drawn, and it may have a value at once. -/
  | drawn (value : Option String)
  /-- A text is written on it. -/
  | written (text : String)
  /-- A variable is drawn inside. -/
  | entered (id : NodeId)
deriving DecidableEq, Repr

namespace Happening

/-- The value that a variable is given. -/
def value? : Happening → Option String
  | drawn value => value
  | written text => some text
  | entered _ => none

/-- The member that a variable is given. -/
def member? : Happening → Option NodeId
  | entered id => some id
  | _ => none

end Happening

namespace Variable

/-- A variable without its flows. -/
def unlinked (v : Variable) : Variable := { v with links := {} }

/-- Either atomic without members, or composed of members without a value. -/
def Exclusive (v : Variable) : Prop :=
  (v.atomic = true ∧ v.members = []) ∨ (v.atomic = false ∧ v.members ≠ [] ∧ v.value = none)

/-- What things that happen in turn make of a variable. -/
inductive Becomes : List Happening → Variable → Prop
  | drawn (value : Option String) : Becomes [.drawn value] { value }
  | written {hs : List Happening} {v : Variable} (text : String) :
    Becomes hs v → Becomes (hs ++ [.written text]) (v.write text)
  | entered {hs : List Happening} {v : Variable} (id : NodeId) :
    Becomes hs v → Becomes (hs ++ [.entered id]) (v.takeIn id)

namespace Becomes

variable {hs : List Happening} {v : Variable}

/-- Members stay listed in the order in which they were drawn. -/
lemma members_eq (h : Becomes hs v) : v.members = hs.filterMap Happening.member? := by
  induction h with
  | drawn value => rfl
  | written text _ ih => simpa [write, List.filterMap_cons, Happening.member?] using ih
  | entered id _ ih => simpa [takeIn, Happening.member?] using ih

/-- The value is the one that was given last. -/
lemma value_eq (h : Becomes hs v) : v.value = (hs.filterMap Happening.value?).getLast? := by
  induction h with
  | drawn value => cases value <;> rfl
  | written text _ _ => simp [write, Happening.value?]
  | entered id _ ih => simpa [takeIn, Happening.value?] using ih

/-- The flag tells what happened last. -/
lemma flag_cases (h : Becomes hs v) :
    (v.atomic = true ∧ (v.members = [] ∨
      ∃ text, hs.getLast? = some (.written text) ∧ v.value = some text)) ∨
    (v.atomic = false ∧ v.members ≠ [] ∧ ∃ id, hs.getLast? = some (.entered id)) := by
  cases h with
  | drawn value => exact .inl ⟨rfl, .inl rfl⟩
  | written text _ => exact .inl ⟨rfl, .inr ⟨text, List.getLast?_concat, rfl⟩⟩
  | entered id _ => exact .inr ⟨rfl, List.concat_ne_nil _ _, id, List.getLast?_concat⟩

/-- A variable without members, or without a value, is atomic or composed and not both. -/
lemma exclusive (h : Becomes hs v)
    (hone : hs.filterMap Happening.member? = [] ∨ hs.filterMap Happening.value? = []) :
    v.Exclusive := by
  rcases h.flag_cases with ⟨hatomic, hmembers | ⟨text, hlast, -⟩⟩ | ⟨hcomposed, hmembers, -⟩
  · exact .inl ⟨hatomic, hmembers⟩
  · rcases hone with hnil | hnil
    · exact .inl ⟨hatomic, h.members_eq.trans hnil⟩
    · have hnone := List.filterMap_eq_nil_iff.mp hnil _ (List.mem_of_getLast? hlast)
      cases hnone
  · rcases hone with hnil | hnil
    · exact absurd (h.members_eq.trans hnil) hmembers
    · exact .inr ⟨hcomposed, hmembers, by rw [h.value_eq, hnil]; rfl⟩

end Becomes

end Variable

namespace Graph

open FlowSketch.Variable (Becomes)

variable {g : Graph} {id : NodeId}

/-- A variable by number. -/
def var? (g : Graph) (id : NodeId) : Option Variable := (g.node? id).bind Node.var?

/-- What an edit does to the variable of a number. -/
def happenings (g : Graph) (id : NodeId) : Edit → List Happening
  | .addNode parent new =>
    match new.kind with
    | .var v =>
      if id = g.nextNode then [.drawn v.value]
      else if (g.var? id).isSome ∧ g.ownerFor parent = id then [.entered g.nextNode] else []
    | _ => []
  | .connect .. => []
  | .writeText target text =>
    if (g.var? id).isSome ∧ target = id then [.written text] else []

/-- What edits of a graph do to the variable of a number. -/
def historyFrom (id : NodeId) : Graph → List Edit → List Happening
  | _, [] => []
  | g, e :: es => g.happenings id e ++ historyFrom id (g.edit e) es

/-- What happened to the variable of a number in a drawn graph. -/
def history (edits : List Edit) (id : NodeId) : List Happening := historyFrom id empty edits

lemma historyFrom_concat (g : Graph) (edits : List Edit) (e : Edit) :
    historyFrom id g (edits ++ [e]) =
      historyFrom id g edits ++ (edits.foldl edit g).happenings id e := by
  induction edits generalizing g with
  | nil => simp [historyFrom]
  | cons d edits ih => simp [historyFrom, ih]

/-! ## What an edit does to the variables -/

lemma var?_eq_none_of_contains (h : g.contains id = false) : g.var? id = none := by
  rw [var?, node?_eq_none_iff.mpr h]
  rfl

/-- A new node is a variable if it was drawn as one, and a variable that owns a new variable takes
it in. -/
lemma var?_addNode (parent : NodeId) (kind : NodeKind) :
    (g.addNode parent kind).2.var? id =
      if id = g.nextNode then (⟨id, some (g.ownerFor parent), kind⟩ : Node).var?
      else (g.var? id).map fun v =>
        if g.ownerFor parent = id ∧ kind.tag = .var then v.takeIn g.nextNode else v := by
  rw [var?, node?_addNode]
  split
  · rename_i h
    rw [h]
    rfl
  · rw [var?]
    cases g.node? id with
    | none => rfl
    | some n =>
      obtain ⟨_, _, k⟩ := n
      by_cases howner : g.ownerFor parent = id <;> cases k <;> cases kind <;>
        simp [howner, Node.var?, NodeKind.adopt, NodeKind.tag]

/-- A flow changes nothing but the flows of a variable. -/
lemma var?_connect (source target : NodeId) (bounds : Rect) (origin : Point) :
    ((g.edit (.connect source target bounds origin)).var? id).map Variable.unlinked =
      (g.var? id).map Variable.unlinked := by
  rcases g.edit_connect_cases source target bounds origin with heq | ⟨f, role, drawnOn, -, hnodes⟩
  · rw [heq]
  · rw [var?, var?, hnodes]
    cases g.node? id with
    | none => rfl
    | some n =>
      obtain ⟨_, _, k⟩ := n
      by_cases hs : source = id <;> by_cases ht : target = id <;> cases k <;>
        simp [hs, ht, Node.var?, NodeKind.join, NodeKind.send, NodeKind.receive, Variable.unlinked]

/-- A text is the new value of its variable. -/
lemma var?_writeText (target : NodeId) (text : String) :
    (g.edit (.writeText target text)).var? id =
      (g.var? id).map fun v => if target = id then v.write text else v := by
  rw [edit]
  cases h : g.writeText target text with
  | none =>
    by_cases htarget : target = id
    · have hcontains : g.contains id = false := by
        rw [← htarget, ← writeText_isSome g target text, h]
        rfl
      simp [var?_eq_none_of_contains hcontains]
    · simp [htarget]
  | some res =>
    obtain ⟨effect, g'⟩ := res
    obtain ⟨t, -, -, -, hnodes⟩ := node?_writeText h
    change g'.var? id = _
    rw [var?, var?, hnodes]
    cases g.node? id with
    | none => rfl
    | some n =>
      obtain ⟨_, _, k⟩ := n
      by_cases htarget : target = id
      · cases k with
        | symbol y =>
          obtain ⟨purpose, hy⟩ := NodeKind.snd_write_symbol text y
          simp [htarget, hy, Node.var?]
        | _ => simp [htarget, Node.var?, NodeKind.write]
      · simp [htarget]

/-! ## What edits do to the variables -/

/-- A variable is what its history makes of it, apart from its flows; what is no variable has no
history. -/
def Tells (hs : List Happening) : Option Variable → Prop
  | none => hs = []
  | some v => Becomes hs v.unlinked

lemma tells_iff_of_unlinked {hs : List Happening} {v v' : Option Variable}
    (h : v.map Variable.unlinked = v'.map Variable.unlinked) : Tells hs v ↔ Tells hs v' := by
  cases v <;> cases v' <;> simp_all [Tells]

/-- A variable is drawn with nothing but a value. -/
lemma unlinked_of_blank {new : BlankKind} {v : Variable} (h : new.kind = .var v) :
    v.unlinked = { value := v.value } := by
  have hmembers := new.owned_eq .var
  have hatomic := new.atomic_eq v h
  rw [h] at hmembers
  obtain ⟨members, value, atomic, links⟩ := v
  cases hmembers
  cases hatomic
  rfl

lemma tells_addNode {hs : List Happening} (h : Tells hs (g.var? id)) (parent : NodeId)
    (new : BlankKind) : Tells (hs ++ g.happenings id (.addNode parent new))
      ((g.edit (.addNode parent new)).var? id) := by
  rw [edit, var?_addNode]
  by_cases hid : id = g.nextNode
  · -- the new node was not there before, so nothing has happened to it
    have hcontains : g.contains id = false := by
      rw [Bool.eq_false_iff]
      exact fun hid' => ne_nextNode hid' hid
    rw [var?_eq_none_of_contains hcontains] at h
    obtain rfl : hs = [] := h
    rw [if_pos hid]
    cases hk : new.kind with
    | var v =>
      simp only [happenings, hk, if_pos hid, List.nil_append, Node.var?, Tells]
      rw [unlinked_of_blank hk]
      exact .drawn v.value
    | _ => simp [happenings, hk, Tells, Node.var?]
  · rw [if_neg hid]
    cases hv : g.var? id with
    | none =>
      rw [hv] at h
      obtain rfl : hs = [] := h
      cases hk : new.kind <;> simp [happenings, hk, hid, hv, Tells]
    | some v =>
      rw [hv] at h
      by_cases howner : g.ownerFor parent = id
      · cases hk : new.kind with
        | var w =>
          have hentered : Becomes (hs ++ [.entered g.nextNode]) (v.takeIn g.nextNode).unlinked :=
            .entered g.nextNode h
          simpa [happenings, hk, hid, hv, howner, NodeKind.tag, Tells] using hentered
        | _ => simpa [happenings, hk, NodeKind.tag, Tells] using h
      · cases hk : new.kind <;> simpa [happenings, hk, hid, howner, Tells] using h

lemma tells_writeText {hs : List Happening} (h : Tells hs (g.var? id)) (target : NodeId)
    (text : String) : Tells (hs ++ g.happenings id (.writeText target text))
      ((g.edit (.writeText target text)).var? id) := by
  rw [var?_writeText]
  cases hv : g.var? id with
  | none =>
    rw [hv] at h
    simpa [happenings, hv, Tells] using h
  | some v =>
    rw [hv] at h
    by_cases htarget : target = id
    · have hwritten : Becomes (hs ++ [.written text]) (v.write text).unlinked := .written text h
      simpa [happenings, hv, htarget, Tells] using hwritten
    · simpa [happenings, htarget, Tells] using h

/-- What an edit makes of a variable is told by what it does to it. -/
lemma tells_edit {hs : List Happening} (h : Tells hs (g.var? id)) (e : Edit) :
    Tells (hs ++ g.happenings id e) ((g.edit e).var? id) := by
  cases e with
  | addNode parent new => exact tells_addNode h parent new
  | connect source target bounds origin =>
    rw [happenings, List.append_nil, tells_iff_of_unlinked (var?_connect ..)]
    exact h
  | writeText target text => exact tells_writeText h target text

/-- **A variable is what its history makes of it.** -/
lemma tells_history (edits : List Edit) (id : NodeId) :
    Tells (history edits id) ((drawn edits).var? id) := by
  -- from the end: what the latest edit does is decided by the graph before it
  induction edits using List.reverseRecOn with
  | nil =>
    have hroot : empty.var? id = none := by
      obtain ⟨_ | i⟩ := id <;> rfl
    rw [drawn, List.foldl_nil, hroot]
    rfl
  | append_singleton edits e ih =>
    rw [history, historyFrom_concat, drawn, List.foldl_append]
    exact tells_edit ih e

/-! ## Atomic or composed -/

/-- **A variable is atomic or composed, as its history tells.**  It is composed if the latest thing
that happened to it was that a member was drawn inside; otherwise it is atomic, and it has no
members or its value is the text that was written last.  Where no member was drawn inside or no
value was given, an atomic variable has no members and a composed one no value.  The members are
those that were drawn inside, in order, and the value of an atomic variable is the one that was
given last. -/
theorem atomic_or_composed (edits : List Edit) {id : NodeId} {v : Variable}
    (hv : (drawn edits).var? id = some v) :
    let hs := history edits id
    ((v.atomic = true ∧ (v.members = [] ∨
        ∃ text, hs.getLast? = some (.written text) ∧ v.value = some text)) ∨
      (v.atomic = false ∧ v.members ≠ [] ∧ ∃ m, hs.getLast? = some (.entered m))) ∧
    (hs.filterMap Happening.member? = [] ∨ hs.filterMap Happening.value? = [] → v.Exclusive) ∧
    v.members = hs.filterMap Happening.member? ∧
    (v.atomic = true → v.value = (hs.filterMap Happening.value?).getLast?) := by
  have h := tells_history edits id
  rw [hv] at h
  change Becomes (history edits id) v.unlinked at h
  exact ⟨h.flag_cases, h.exclusive, h.members_eq, fun _ => h.value_eq⟩

/-- A variable on which a text is written before another variable is drawn inside. -/
def filledLater : List Edit :=
  [.addNode NodeId.root (NodeTag.blank .var), .writeText ⟨1⟩ "3",
    .addNode ⟨1⟩ (NodeTag.blank .var)]

/-- The same the other way round. -/
def writtenLater : List Edit :=
  [.addNode NodeId.root (NodeTag.blank .var), .addNode ⟨1⟩ (NodeTag.blank .var),
    .writeText ⟨1⟩ "3"]

/-- The outer variable of `writtenLater` has the text as its value. -/
theorem atomic_or_composed_writtenLater : ∃ v, (drawn writtenLater).var? ⟨1⟩ = some v ∧
    history writtenLater ⟨1⟩ = [.drawn none, .entered ⟨2⟩, .written "3"] ∧
    v.atomic = true ∧ v.value = some "3" := by
  have hv : (drawn writtenLater).var? ⟨1⟩ = some ⟨[⟨2⟩], some "3", true, {}⟩ := by decide
  have hhistory : history writtenLater ⟨1⟩ = [.drawn none, .entered ⟨2⟩, .written "3"] := by decide
  obtain ⟨-, -, -, hvalue⟩ := atomic_or_composed writtenLater hv
  rw [hhistory] at hvalue
  exact ⟨_, hv, hhistory, rfl, hvalue rfl⟩

/-- With a text and a member a variable is not exclusively one of the two, whichever came last. -/
theorem exists_not_exclusive :
    (∃ v, (drawn writtenLater).var? ⟨1⟩ = some v ∧ v.atomic = true ∧ v.members = [⟨2⟩] ∧
      ¬ v.Exclusive) ∧
    ∃ v, (drawn filledLater).var? ⟨1⟩ = some v ∧ v.atomic = false ∧ v.value = some "3" ∧
      ¬ v.Exclusive :=
  ⟨⟨⟨[⟨2⟩], some "3", true, {}⟩, by decide, rfl, rfl, by simp [Variable.Exclusive]⟩,
    ⟨[⟨2⟩], some "3", false, {}⟩, by decide, rfl, rfl, by simp [Variable.Exclusive]⟩

end Graph

end FlowSketch
