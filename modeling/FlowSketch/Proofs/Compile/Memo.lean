/-
# The memo of bound variables is justified

While a function is written, a node is on the memo only if its value is there at this place of the
text: it is a parameter, or a statement that stands in front of the place binds it, in the current
block or in one around it.  A statement in a way of a comparison that is closed does not count.
Composite variables are on the memo too, and they have no statement.  Behind a comparison the memo
is what it was in front of the first way.

So the name of an atomic variable is bound on every path that leads to where it is read, also in a
function of which only the beginning is written.

Main statement: `Graph.memo_justified`.
-/
import FlowSketch.Proofs.Compile.Emission
import FlowSketch.Proofs.Compile.Scoping

namespace FlowSketch

open FlowSketch.Listing (stmts stmts_append)

/-! ## Kinds of variables -/

namespace Graph

/-- A variable that is composed of others. -/
def IsComposite (g : Graph) (id : NodeId) : Prop :=
  ∃ n v, g.node? id = some n ∧ n.kind = .var v ∧ v.atomic = false

/-- A variable with a text of its own. -/
def IsAtomic (g : Graph) (id : NodeId) : Prop :=
  ∃ n v, g.node? id = some n ∧ n.kind = .var v ∧ v.atomic = true

variable {g : Graph} {id : NodeId}

/-- An atomic variable has a value of its own. -/
lemma IsAtomic.not_unvalued (h : g.IsAtomic id) : ¬ g.Unvalued id := by
  obtain ⟨n, v, hn, hv, hatomic⟩ := h
  rintro (⟨hn', hv', hcomposite⟩ | ⟨hvar, -, -, -, -, -⟩)
  · cases hn.symm.trans hn'
    cases hv.symm.trans hv'
    rw [hatomic] at hcomposite
    cases hcomposite
  · rw [Compile.isVariable_of_tag hn (by rw [hv]; rfl)] at hvar
    cases hvar

end Graph

namespace Compile

variable {g : Graph} {params known known' : List NodeId} {ts ts' : List Task}

/-! ## What the tasks need -/

/-- The nodes that are bound when a task is done. -/
def Task.gives (g : Graph) : Task → List NodeId
  | .demand _ id => [id]
  | .own id => [id]
  | .operand id => if g.isVariable id then [id] else []
  | .input target => [target]
  | _ => []

/-- What a task needs, when the nodes `known` are bound before it. -/
def Task.Needs (g : Graph) (known : List NodeId) : Task → Prop
  | .demand _ id => g.isVariable id = true
  | .own id => g.isVariable id = true ∧
      ∀ node, g.node? id = some node → g.dependencies node ⊆ known
  | .operand id => g.isVariable id = false → g.Unvalued id
  | .write step => Scoped (Named g known) (stmts [step]) (Named g known)
  | .inline _ left right _ _ => Named g known left.name ∧ Named g known right.name
  | _ => True

/-- Every task has what it needs when its turn comes. -/
def Ready (g : Graph) : List NodeId → List Task → Prop
  | _, [] => True
  | known, t :: ts => t.Needs g known ∧ Ready g (t.gives g ++ known) ts

lemma Task.Needs.mono {t : Task} (h : t.Needs g known) (hsub : known ⊆ known') :
    t.Needs g known' := by
  cases t with
  | walk => trivial
  | demand => exact h
  | own id => exact ⟨h.1, fun node hn => List.Subset.trans (h.2 node hn) hsub⟩
  | operand => exact h
  | write step =>
    exact fun as has => ⟨fun name hread => ((h as has).1 name hread).mono hsub, fun name => .inl⟩
  | input => trivial
  | inline => exact ⟨h.1.mono hsub, h.2.mono hsub⟩

namespace Ready

lemma mono (h : Ready g known ts) (hsub : known ⊆ known') : Ready g known' ts := by
  induction ts generalizing known known' with
  | nil => trivial
  | cons t ts ih =>
    exact ⟨h.1.mono hsub, ih h.2 (List.append_subset.mpr ⟨List.subset_append_left _ _,
      List.Subset.trans hsub (List.subset_append_right _ _)⟩)⟩

/-- What the tasks in front give is not needed. -/
lemma append (h : Ready g known ts) (h' : Ready g known ts') : Ready g known (ts ++ ts') := by
  induction ts generalizing known with
  | nil => exact h'
  | cons t ts ih => exact ⟨h.1, ih h.2 (h'.mono (List.subset_append_right _ _))⟩

/-- Behind the demands for some nodes these are known. -/
lemma demands {opened ids : List NodeId} (hids : ∀ id ∈ ids, g.isVariable id = true)
    (h : ∀ known', known ⊆ known' → ids ⊆ known' → Ready g known' ts) :
    Ready g known (ids.map (.demand opened) ++ ts) := by
  induction ids generalizing known with
  | nil => exact h known (List.Subset.refl _) (List.nil_subset _)
  | cons id ids ih =>
    refine ⟨hids id List.mem_cons_self, ih (fun d hd => hids d (List.mem_cons_of_mem _ hd)) ?_⟩
    intro known' hknown hsub
    obtain ⟨hid, hknown⟩ := List.cons_subset.mp hknown
    exact h known' hknown (List.cons_subset.mpr ⟨hid, hsub⟩)

end Ready

/-- An operand that was demanded is known, or it has no value of its own. -/
lemma named_of_gives {id : NodeId} (h : g.isVariable id = false → g.Unvalued id)
    (hsub : (Task.operand id).gives g ⊆ known) : Named g known id.name := by
  cases hvar : g.isVariable id with
  | true =>
    rw [Task.gives, if_pos hvar] at hsub
    exact named_of_mem (hsub List.mem_cons_self)
  | false => exact ⟨id, rfl, .inr (h hvar)⟩

/-- What is to be done for a node of a walk has what it needs. -/
lemma ready_visitTasks (hg : g.Recorded) {comparing : List NodeId} {previous : Option NodeId}
    {id : NodeId} {node : Node} (hn : g.node? id = some node)
    (h : visitTasks g comparing previous id node = .ok ts) : Ready g known ts := by
  unfold visitTasks at h
  cases hk : node.kind with
  | var v =>
    simp only [hk] at h
    cases h
    exact ⟨isVariable_of_tag hn (by rw [hk]; rfl), trivial⟩
  | scope s =>
    simp only [hk] at h
    split at h
    · cases h
      trivial
    · cases h
      refine .demands (fun _ => isVariable_of_mem_parameters) fun known' _ hsub => ⟨?_, trivial⟩
      refine .call fun e he name hname => ?_
      obtain ⟨a, ha, rfl⟩ := List.mem_map.mp he
      cases List.mem_singleton.mp hname
      exact named_of_mem (hsub ha)
  | symbol k =>
    simp only [hk] at h
    split at h
    · cases h
    · split at h
      · cases h
      · cases h
        exact ⟨trivial, trivial⟩
    · split at h
      · cases h
      · rename_i value hvalue
        cases h
        refine ⟨isVariable_of_printed? hvalue, ?_, trivial⟩
        refine .print fun name hname => ?_
        cases List.mem_singleton.mp hname
        exact named_of_mem List.mem_cons_self
    · rename_i heffective
      split at h
      · rename_i left right onFalse onTrue hin hout
        split at h
        · cases h
        · cases h
          have hleft := unvalued_of_operand hg hn hk heffective (f := left) (by rw [hin]; simp)
          have hright := unvalued_of_operand hg hn hk heffective (f := right) (by rw [hin]; simp)
          refine ⟨hleft, hright, ⟨named_of_gives hleft ?_, named_of_gives hright ?_⟩, trivial⟩
          · exact List.Subset.trans (List.subset_append_left _ _) (List.subset_append_right _ _)
          · exact List.subset_append_left _ _
      · cases h

/-! ## What a step does -/

namespace Emission

variable {m m' : Emission}

/-- What one step leads to. -/
inductive Performs (g : Graph) (m : Emission) : Emission → Prop
  /-- The end of a walk. -/
  | stop {seen : List NodeId} {previous : Option NodeId} {rest : List Task} :
    m.tasks = .walk seen previous none :: rest → Performs g m { m with tasks := rest }
  | visit {seen : List NodeId} {previous : Option NodeId} {id : NodeId} {node : Node}
    {here rest : List Task} :
    m.tasks = .walk seen previous (some id) :: rest → g.node? id = some node →
    visitTasks g m.comparing previous id node = .ok here →
    Performs g m { m with tasks := here ++ .walk (id :: seen) (some id) (g.next? node) :: rest }
  /-- A node that is bound already. -/
  | known {opened : List NodeId} {id : NodeId} {rest : List Task} :
    m.tasks = .demand opened id :: rest → id ∈ m.computed → Performs g m { m with tasks := rest }
  | expand {opened : List NodeId} {id : NodeId} {node : Node} {rest : List Task} :
    m.tasks = .demand opened id :: rest → g.node? id = some node →
    Performs g m { m with
      tasks := (g.dependencies node).map (.demand (id :: opened)) ++ .own id :: rest }
  | own {id : NodeId} {node : Node} {own : List Listing.Step} {rest : List Task} :
    m.tasks = .own id :: rest → g.node? id = some node → binding g id node = .ok own →
    Performs g m { m with computed := id :: m.computed, block := m.block ++ own, tasks := rest }
  | operand {id : NodeId} {rest : List Task} :
    m.tasks = .operand id :: rest →
    Performs g m { m with tasks := if g.isVariable id then .demand [] id :: rest else rest }
  | write {statement : Listing.Step} {rest : List Task} :
    m.tasks = .write statement :: rest →
    Performs g m { m with block := m.block ++ [statement], tasks := rest }
  | input {target : NodeId} {rest : List Task} :
    m.tasks = .input target :: rest →
    Performs g m { m with
      computed := target :: m.computed, block := m.block ++ [.bind target .input], tasks := rest }
  /-- The first way of a comparison is opened. -/
  | inline {comparison left right onTrue onFalse : NodeId} {rest : List Task} :
    m.tasks = .inline comparison left right onTrue onFalse :: rest →
    Performs g m {
      computed := m.computed
      comparing := comparison :: m.comparing
      block := []
      around := ⟨m.block, left, right, none, onFalse, m.computed, rest⟩ :: m.around
      tasks := [.walk [] none (some onTrue)] }
  /-- The first way is closed and the second one opened. -/
  | turn {f : Comparison} {around : List Comparison} :
    m.tasks = [] → m.around = f :: around → f.yes = none →
    Performs g m { m with
      computed := f.before
      block := []
      around := { f with yes := some m.block } :: around
      tasks := [.walk [] none (some f.onFalse)] }
  /-- The second way is closed. -/
  | close {f : Comparison} {around : List Comparison} {yes : List Listing.Step} :
    m.tasks = [] → m.around = f :: around → f.yes = some yes →
    Performs g m {
      computed := f.before
      comparing := m.comparing.tail
      block := f.written ++ [.branch f.left f.right yes m.block]
      around
      tasks := f.rest }

lemma performs_of_perform {task : Task} (htasks : m.tasks = task :: ts)
    (h : m.perform g task ts = .ok m') : Performs g m m' := by
  cases task with
  | walk seen previous start =>
    cases start with
    | none =>
      cases h
      exact .stop htasks
    | some id =>
      simp only [perform] at h
      split at h
      · cases h
      · split at h
        · cases h
        · rename_i node hn
          obtain ⟨here, hvisit, rfl⟩ := map_eq_ok.mp h
          exact .visit htasks hn hvisit
  | demand opened id =>
    simp only [perform] at h
    split at h
    · rename_i hmem
      cases h
      exact .known htasks hmem
    · split at h
      · cases h
      · rename_i node hn
        split at h
        · cases h
        · cases h
          exact .expand htasks hn
  | own id =>
    simp only [perform] at h
    split at h
    · cases h
    · rename_i node hn
      obtain ⟨own, hown, rfl⟩ := map_eq_ok.mp h
      exact .own htasks hn hown
  | operand id =>
    simp only [perform] at h
    split at h
    · cases h
    · rename_i node hn
      cases h
      exact Graph.isVariable_of_node? hn ▸ .operand htasks
  | write statement =>
    cases h
    exact .write htasks
  | input target =>
    cases h
    exact .input htasks
  | inline comparison left right onTrue onFalse =>
    cases h
    exact .inline htasks

lemma performs_of_step (h : m.step g = some (.ok m')) : Performs g m m' := by
  unfold step at h
  split at h
  · rename_i task ts htasks
    exact performs_of_perform htasks (Option.some.inj h)
  · rename_i htasks
    split at h
    · rename_i f around haround
      cases h
      cases hyes : f.yes with
      | none => simpa [leave, hyes] using Performs.turn htasks haround hyes
      | some yes => simpa [leave, hyes] using Performs.close htasks haround hyes
    · cases h

/-! ## What is known in a block -/

/-- What is known at the beginning of a block inside some comparisons. -/
def base (params : List NodeId) : List Comparison → List NodeId
  | [] => params
  | f :: _ => f.before

/-- A block inside some comparisons, as far as it is written. -/
structure Level (g : Graph) (params : List NodeId) (around : List Comparison) (known : List NodeId)
    (block : List Listing.Step) (tasks : List Task) : Prop where
  /-- What is known is bound in front of this place. -/
  accounted : ∀ id ∈ known, g.IsComposite id ∨ id ∈ params ∨
    ∃ value, .bind id value ∈ block ++ around.flatMap Comparison.written
  /-- What remains to be done has what it needs. -/
  ready : Ready g known tasks
  /-- Only known names are read. -/
  reads : Scoped (Named g (base params around)) (stmts block) (Named g known)

namespace Level

variable {around : List Comparison} {block own : List Listing.Step}

/-- The tasks go on as those that need no more. -/
lemma goOn (h : Level g params around known block ts) (hready : Ready g known ts') :
    Level g params around known block ts' :=
  { h with ready := hready }

/-- Statements are written that bind what is known behind them. -/
lemma append (h : Level g params around known block ts)
    (hbound : ∀ id ∈ known', id ∈ known ∨ g.IsComposite id ∨ ∃ value, .bind id value ∈ own)
    (hscoped : Scoped (Named g known) (stmts own) (Named g known'))
    (hready : Ready g known' ts') : Level g params around known' (block ++ own) ts' where
  accounted id hid := by
    rcases hbound id hid with hid | hcomposite | ⟨value, hvalue⟩
    · refine (h.accounted id hid).imp_right (Or.imp_right ?_)
      rintro ⟨value, hvalue⟩
      refine ⟨value, ?_⟩
      rw [List.append_assoc]
      exact (List.mem_append.mp hvalue).elim (List.mem_append_left _) fun hvalue =>
        List.mem_append_right _ (List.mem_append_right _ hvalue)
    · exact .inl hcomposite
    · exact .inr (.inr ⟨value, List.mem_append_left _ (List.mem_append_right _ hvalue)⟩)
  ready := hready
  reads := by
    rw [stmts_append]
    exact h.reads.append hscoped

/-- A way of a comparison begins with what is known in front of it. -/
lemma enter {f : Comparison} (h : Level g params around f.before f.written ts) (start : NodeId) :
    Level g params (f :: around) f.before [] [.walk [] none (some start)] where
  accounted := h.accounted
  ready := ⟨trivial, trivial⟩
  reads := .nil fun _ => id

end Level

/-- A comparison one of whose ways is being written. -/
structure Opened (g : Graph) (params : List NodeId) (around : List Comparison) (f : Comparison) :
    Prop where
  level : Level g params around f.before f.written f.rest
  left : Named g f.before f.left.name
  right : Named g f.before f.right.name
  /-- The first way reads only what is known in front of it. -/
  yes : ∀ yes, f.yes = some yes →
    ∃ known, Scoped (Named g f.before) (stmts yes) (Named g known)

/-- The comparisons around a block. -/
def Enclosed (g : Graph) (params : List NodeId) : List Comparison → Prop
  | [] => True
  | f :: around => Opened g params around f ∧ Enclosed g params around

/-- What holds of every state on the way. -/
structure Sound (g : Graph) (params : List NodeId) (m : Emission) : Prop where
  level : Level g params m.around m.computed m.block m.tasks
  enclosed : Enclosed g params m.around

lemma sound_start (g : Graph) (id : NodeId) (s : Scope) :
    Sound g (g.routineParams id s) (start g id s) where
  level := {
    accounted := fun _ hid => .inr (.inl hid)
    ready := ⟨trivial, trivial⟩
    reads := .nil fun _ h => h }
  enclosed := trivial

lemma Sound.next (hg : g.Recorded) (h : Sound g params m) (hstep : Performs g m m') :
    Sound g params m' := by
  obtain ⟨hlevel, henclosed⟩ := h
  have hready := hlevel.ready
  cases hstep with
  | stop htasks =>
    rw [htasks] at hready
    exact ⟨hlevel.goOn hready.2, henclosed⟩
  | visit htasks hn hvisit =>
    rw [htasks] at hready
    exact ⟨hlevel.goOn ((ready_visitTasks hg hn hvisit).append hready), henclosed⟩
  | known htasks hmem =>
    rw [htasks] at hready
    refine ⟨hlevel.goOn (hready.2.mono ?_), henclosed⟩
    exact List.cons_subset.mpr ⟨hmem, List.Subset.refl _⟩
  | @expand _ id _ _ htasks hn =>
    rw [htasks] at hready
    -- when the turn of the node comes, everything on which it depends was demanded
    refine ⟨hlevel.goOn (.demands (fun _ => isVariable_of_mem_dependencies hg hn) ?_), henclosed⟩
    intro known' hknown hsub
    refine ⟨⟨hready.1, fun node hnode => ?_⟩, hready.2.mono ?_⟩
    · cases hn.symm.trans hnode
      exact hsub
    · exact List.cons_subset_cons id hknown
  | @own id _ _ _ htasks hn hown =>
    rw [htasks] at hready
    refine ⟨hlevel.append ?_ (scoped_binding hn hready.1.1 hown (hready.1.2 _ hn)) hready.2,
      henclosed⟩
    intro a ha
    rcases List.mem_cons.mp ha with rfl | ha
    · -- a variable without a statement is composite
      rcases binding_eq_ok hown with ⟨-, hcomposite⟩ | ⟨_, _, value, -, -, -, -, rfl⟩
      · obtain ⟨v, hv⟩ := kind_of_isVariable hn hready.1.1
        exact .inr (.inl ⟨_, v, hn, hv, hcomposite v hv⟩)
      · exact .inr (.inr ⟨value, List.mem_cons_self⟩)
    · exact .inl ha
  | @operand id _ htasks =>
    rw [htasks] at hready
    refine ⟨hlevel.goOn ?_, henclosed⟩
    obtain ⟨-, hready⟩ := hready
    rw [Task.gives] at hready
    cases hvar : g.isVariable id with
    | true =>
      rw [if_pos hvar] at hready
      exact ⟨hvar, hready⟩
    | false => simpa [hvar] using hready
  | write htasks =>
    rw [htasks] at hready
    exact ⟨hlevel.append (fun _ => .inl) hready.1 hready.2, henclosed⟩
  | @input target _ htasks =>
    rw [htasks] at hready
    refine ⟨hlevel.append ?_ (.bind (fun _ hread => by cases hread) fun _ hname => hname.of_cons)
      hready.2, henclosed⟩
    intro a ha
    rcases List.mem_cons.mp ha with rfl | ha
    · exact .inr (.inr ⟨.input, List.mem_cons_self⟩)
    · exact .inl ha
  | @inline _ left right onTrue onFalse rest htasks =>
    rw [htasks] at hready
    have hopened : Opened g params m.around
        ⟨m.block, left, right, none, onFalse, m.computed, rest⟩ :=
      ⟨hlevel.goOn hready.2, hready.1.1, hready.1.2, fun _ h => by cases h⟩
    exact ⟨hopened.level.enter onTrue, hopened, henclosed⟩
  | @turn f around htasks haround hyes =>
    rw [haround] at hlevel henclosed
    -- of the first way the invariant keeps what it reads, and not what it binds
    have hopened : Opened g params around { f with yes := some m.block } :=
      { henclosed.1 with yes := fun _ h => Option.some.inj h ▸ ⟨m.computed, hlevel.reads⟩ }
    exact ⟨hopened.level.enter f.onFalse, hopened, henclosed.2⟩
  | @close f around yes htasks haround hyes =>
    rw [haround] at hlevel henclosed
    obtain ⟨hopened, henclosed⟩ := henclosed
    obtain ⟨_, hfirst⟩ := hopened.yes yes hyes
    refine ⟨hopened.level.append (fun _ => .inl) ?_ hopened.level.ready, henclosed⟩
    exact scoped_comparison hopened.left hopened.right hfirst hlevel.reads

lemma sound_of_reaches (hg : g.Recorded) {id : NodeId} {s : Scope}
    (h : Reaches g (start g id s) m) : Sound g (g.routineParams id s) m := by
  induction h with
  | refl => exact sound_start g id s
  | tail _ hstep ih => exact ih.next hg (performs_of_step hstep)

/-! ## The text that is written -/

/-- What is written in front of the current place in its block and in those around it. -/
def visible (m : Emission) : List Listing.Step := m.block ++ m.around.flatMap Comparison.written

/-- A block with the comparisons around it, which are closed at once. -/
def enclose : List Comparison → List Listing.Step → List Listing.Step
  | [], block => block
  | f :: around, block => enclose around (f.written ++ [
    match f.yes with
    | none => .branch f.left f.right block []
    | some yes => .branch f.left f.right yes block])

/-- Everything that is written. -/
def written (m : Emission) : List Listing.Step := enclose m.around m.block

lemma Enclosed.scoped {around : List Comparison} (h : Enclosed g params around)
    {block : List Listing.Step}
    (hblock : Scoped (Named g (base params around)) (stmts block) (Named g known)) :
    ∃ known', Scoped (Named g params) (stmts (enclose around block)) (Named g known') := by
  induction around generalizing block known with
  | nil => exact ⟨known, hblock⟩
  | cons f around ih =>
    obtain ⟨hopened, henclosed⟩ := h
    refine @ih f.before henclosed _ ?_
    rw [stmts_append]
    refine hopened.level.reads.append ?_
    cases hyes : f.yes with
    | none => exact scoped_comparison hopened.left hopened.right hblock (.nil fun _ => id)
    | some yes =>
      obtain ⟨_, hfirst⟩ := hopened.yes yes hyes
      exact scoped_comparison hopened.left hopened.right hfirst hblock

/-- An atomic variable that is read was bound before on the path that leads there. -/
lemma Sound.bound_of_read (h : Sound g params m) {as : List Access}
    (has : ControlPath (stmts m.written) as) {before after : List Access} {id : NodeId}
    (hatomic : g.IsAtomic id) (hsplit : as = before ++ .read id.name :: after) :
    id ∈ params ∨ .bind id.name ∈ before := by
  by_cases hbind : .bind id.name ∈ before
  · exact .inr hbind
  · obtain ⟨_, hscoped⟩ := h.enclosed.scoped h.level.reads
    obtain ⟨a, hname, ha⟩ := (hscoped as has).1 id.name ⟨before, after, hsplit, hbind⟩
    cases NodeId.name_injective hname
    exact .inl (ha.resolve_right hatomic.not_unvalued)

/-! ## Behind a comparison -/

/-- A run from `m` that does what stands in front of `ts` in the current block, and nothing that
stands behind. -/
inductive Doing (g : Graph) (m : Emission) (ts : List Task) : Emission → Prop
  | refl : Doing g m ts m
  | next {a b : Emission} : Doing g m ts a →
    ¬ (a.around.length = m.around.length ∧ a.tasks = ts) → a.step g = some (.ok b) →
    Doing g m ts b

/-- What stands in front of `ts` in the current block is done, and `ts` is next. -/
def Does (g : Graph) (m : Emission) (ts : List Task) (m' : Emission) : Prop :=
  Doing g m ts m' ∧ m'.around.length = m.around.length ∧ m'.tasks = ts

/-- A step stays in the block, or it opens, turns or closes a comparison. -/
lemma Performs.cases_block {a b : Emission} (h : Performs g a b) :
    (∃ task rest here, a.tasks = task :: rest ∧ b.tasks = here ++ rest ∧
      b.around = a.around ∧ b.comparing = a.comparing) ∨
    (∃ comparison left right onTrue onFalse rest,
      a.tasks = .inline comparison left right onTrue onFalse :: rest ∧
      b.around = ⟨a.block, left, right, none, onFalse, a.computed, rest⟩ :: a.around ∧
      b.comparing = comparison :: a.comparing) ∨
    ∃ f around, a.tasks = [] ∧ a.around = f :: around ∧
      ((∃ yes, b.around = { f with yes } :: around ∧ b.comparing = a.comparing) ∨
        ∃ yes, b = ⟨f.before, a.comparing.tail,
          f.written ++ [.branch f.left f.right yes a.block], around, f.rest⟩) := by
  cases h with
  | stop htasks => exact .inl ⟨_, _, [], htasks, rfl, rfl, rfl⟩
  | @visit seen _ id node here _ htasks =>
    refine .inl ⟨_, _, here ++ [.walk (id :: seen) (some id) (g.next? node)], htasks, ?_, rfl, rfl⟩
    simp
  | known htasks => exact .inl ⟨_, _, [], htasks, rfl, rfl, rfl⟩
  | @expand opened id node _ htasks =>
    refine .inl ⟨_, _, (g.dependencies node).map (.demand (id :: opened)) ++ [.own id], htasks, ?_,
      rfl, rfl⟩
    simp
  | own htasks => exact .inl ⟨_, _, [], htasks, rfl, rfl, rfl⟩
  | @operand id _ htasks =>
    refine .inl ⟨_, _, if g.isVariable id then [.demand [] id] else [], htasks, ?_, rfl, rfl⟩
    split <;> rfl
  | write htasks => exact .inl ⟨_, _, [], htasks, rfl, rfl, rfl⟩
  | input htasks => exact .inl ⟨_, _, [], htasks, rfl, rfl, rfl⟩
  | inline htasks => exact .inr (.inl ⟨_, _, _, _, _, _, htasks, rfl, rfl⟩)
  | turn htasks haround _ =>
    exact .inr (.inr ⟨_, _, htasks, haround, .inl ⟨_, rfl, rfl⟩⟩)
  | close htasks haround _ =>
    exact .inr (.inr ⟨_, _, htasks, haround, .inr ⟨_, rfl⟩⟩)

/-- The state `a` is in a way of the comparison `f`, which was opened in the block of `m`. -/
inductive Inside (m : Emission) (f : Comparison) (a : Emission) : Prop
  | intro (inner : List Comparison) (yes : Option (List Listing.Step)) (comparison : NodeId)
    (others : List NodeId) : a.around = inner ++ { f with yes } :: m.around →
    a.comparing = others ++ comparison :: m.comparing → others.length = inner.length →
    Inside m f a

variable {a b : Emission} {f : Comparison}

lemma Inside.length_lt (h : Inside m f a) : m.around.length < a.around.length := by
  obtain ⟨inner, yes, -, -, haround, -, -⟩ := h
  rw [haround]
  simp
  omega

/-- From inside a comparison a step stays inside, or it leads behind the comparison. -/
lemma Inside.next (h : Inside m f a) (hstep : Performs g a b) : Inside m f b ∨
    ∃ yes no, b = ⟨f.before, m.comparing, f.written ++ [.branch f.left f.right yes no], m.around,
      f.rest⟩ := by
  obtain ⟨inner, yes, comparison, others, haround, hcomparing, hlength⟩ := h
  rcases hstep.cases_block with ⟨_, _, _, -, -, hsame, hsame'⟩ |
    ⟨other, left, right, _, onFalse, rest, -, hopen, hopen'⟩ | ⟨_, _, -, hinner, hturn | hclose⟩
  · exact .inl ⟨inner, yes, comparison, others, hsame.trans haround, hsame'.trans hcomparing,
      hlength⟩
  · refine .inl ⟨⟨a.block, left, right, none, onFalse, a.computed, rest⟩ :: inner, yes, comparison,
      other :: others, ?_, ?_, congrArg (· + 1) hlength⟩
    · rw [hopen, haround, List.cons_append]
    · rw [hopen', hcomparing, List.cons_append]
  · obtain ⟨yes', hturn, hsame⟩ := hturn
    rw [haround] at hinner
    cases inner with
    | nil =>
      cases hinner
      exact .inl ⟨[], yes', comparison, others, hturn, hsame.trans hcomparing, hlength⟩
    | cons e inner =>
      cases hinner
      exact .inl ⟨_ :: inner, yes, comparison, others, hturn, hsame.trans hcomparing, hlength⟩
  · obtain ⟨yes', rfl⟩ := hclose
    rw [haround] at hinner
    cases inner with
    | nil =>
      cases hinner
      cases List.length_eq_zero_iff.mp hlength
      exact .inr ⟨yes', a.block, by rw [hcomparing]; rfl⟩
    | cons e inner =>
      cases hinner
      cases others with
      | nil => cases hlength
      | cons other others =>
        refine .inl ⟨inner, yes, comparison, others, rfl, ?_, Nat.succ.inj hlength⟩
        rw [hcomparing]
        rfl

/-- A run that does what stands in front of `ts` is in the block where it began, or inside of a
comparison that was opened there. -/
lemma Doing.cases_block (h : Doing g m ts a) {work : List Task} (hm : m.tasks = work ++ ts) :
    (a.around = m.around ∧ a.comparing = m.comparing ∧ ∃ left, a.tasks = left ++ ts) ∨
    ∃ f left, Inside m f a ∧ f.rest = left ++ ts := by
  induction h with
  | refl => exact .inl ⟨rfl, rfl, work, hm⟩
  | @next a b _ hguard hstep ih =>
    have hperforms := performs_of_step hstep
    rcases ih with ⟨haround, hcomparing, left, htasks⟩ | ⟨f, left, hinside, hrest⟩
    · -- something stands in front of `ts` yet, and the step does the first of it
      cases left with
      | nil => exact absurd ⟨congrArg List.length haround, htasks⟩ hguard
      | cons task left =>
        rw [List.cons_append] at htasks
        rcases hperforms.cases_block with ⟨_, rest, here, htask, hb, hsame, hsame'⟩ |
          ⟨comparison, first, second, _, onFalse, rest, htask, hopen, hopen'⟩ | ⟨_, _, hnil, -⟩
        · cases htasks.symm.trans htask
          refine .inl ⟨hsame.trans haround, hsame'.trans hcomparing, here ++ left, ?_⟩
          rw [hb, List.append_assoc]
        · cases htasks.symm.trans htask
          rw [haround] at hopen
          rw [hcomparing] at hopen'
          exact .inr ⟨⟨a.block, first, second, none, onFalse, a.computed, left ++ ts⟩, left,
            ⟨[], none, comparison, [], hopen, hopen', rfl⟩, rfl⟩
        · cases htasks.symm.trans hnil
    · rcases hinside.next hperforms with hinside | ⟨yes, no, rfl⟩
      · exact .inr ⟨f, left, hinside, hrest⟩
      · exact .inl ⟨rfl, rfl, left, hrest⟩

/-- What is done in a block leaves the comparisons around it as they were. -/
lemma Does.comparing_eq (h : Does g m ts m') {work : List Task} (hm : m.tasks = work ++ ts) :
    m'.comparing = m.comparing := by
  rcases h.1.cases_block hm with ⟨-, hcomparing, -⟩ | ⟨f, -, hinside, -⟩
  · exact hcomparing
  · exact absurd h.2.1 hinside.length_lt.ne'

/-- Behind both ways of a comparison there is the state in front of them, with one statement
more. -/
lemma Does.eq_of_inline {comparison left right onTrue onFalse : NodeId}
    (h : Does g m ts m') (hm : m.tasks = .inline comparison left right onTrue onFalse :: ts) :
    ∃ yes no, m' = ⟨m.computed, m.comparing, m.block ++ [.branch left right yes no], m.around,
      ts⟩ := by
  obtain ⟨hdoing, hlength, htasks⟩ := h
  have key : m' = m ∨ Inside m ⟨m.block, left, right, none, onFalse, m.computed, ts⟩ m' ∨
      ∃ yes no, m' = ⟨m.computed, m.comparing, m.block ++ [.branch left right yes no], m.around,
        ts⟩ := by
    clear hlength htasks
    induction hdoing with
    | refl => exact .inl rfl
    | next _ hguard hstep ih =>
      rcases ih with rfl | hinside | ⟨yes, no, rfl⟩
      · simp only [step, hm, perform] at hstep
        cases hstep
        exact .inr (.inl ⟨[], none, comparison, [], rfl, rfl, rfl⟩)
      · exact .inr (hinside.next (performs_of_step hstep))
      · exact absurd ⟨rfl, rfl⟩ hguard
  rcases key with rfl | hinside | hbehind
  · cases hm.symm.trans htasks
  · exact absurd hlength hinside.length_lt.ne'
  · exact hbehind

/-! ## The main statement -/

/-- What the memo of a state stands for, when `params` are the parameters of the function. -/
structure Justified (g : Graph) (params : List NodeId) (m : Emission) : Prop where
  /-- Apart from the composite variables, what is on the memo is a parameter or bound in front of
  this place, in the current block or in one around it. -/
  memo : ∀ id ∈ m.computed, g.IsComposite id ∨ id ∈ params ∨ ∃ value, .bind id value ∈ m.visible
  /-- What is done in a block, such as a comparison with its operands, leaves the list of
  comparisons as it was. -/
  comparing : ∀ work ts m', m.tasks = work ++ ts → Does g m ts m' → m'.comparing = m.comparing
  /-- Behind the two ways of a comparison the memo is what it was in front of them. -/
  restored : ∀ comparison left right onTrue onFalse ts m',
    m.tasks = .inline comparison left right onTrue onFalse :: ts → Does g m ts m' →
      m'.computed = m.computed ∧ ∃ yes no, m'.block = m.block ++ [.branch left right yes no]
  /-- Where the name of an atomic variable is read, it is bound on every path that leads there. -/
  reads : ∀ as, ControlPath (stmts m.written) as → ∀ before id after, g.IsAtomic id →
    as = before ++ .read id.name :: after → id ∈ params ∨ .bind id.name ∈ before

end Emission

end Compile

namespace Graph

open FlowSketch.Compile

/-- **The memo of bound variables is justified at every time.**  The machine writes the function of
the compiler or stops with its problem, and whatever state it is in on the way, what is on the memo
is bound at this place of the text. -/
theorem memo_justified (edits : List Edit) (id : NodeId) (s : Scope) :
    let g := drawn edits
    ((∀ r, g.routine id s = .ok r ↔ ∃ m, Emission.Reaches g (Emission.start g id s) m ∧
        m.step g = none ∧ r = ⟨id, g.routineParams id s, m.block⟩) ∧
      ∀ e, g.routine id s = .error e ↔ ∃ m, Emission.Reaches g (Emission.start g id s) m ∧
        m.step g = some (.error e)) ∧
    ∀ m, Emission.Reaches g (Emission.start g id s) m →
      Emission.Justified g (g.routineParams id s) m := by
  intro g
  refine ⟨Emission.routine_eq g id s, fun m hm => ?_⟩
  have hsound := Emission.sound_of_reaches (recorded_drawn edits) hm
  constructor
  · exact hsound.level.accounted
  · exact fun work ts m' htasks hdoes => hdoes.comparing_eq htasks
  · intro comparison left right onTrue onFalse ts m' htasks hdoes
    obtain ⟨yes, no, rfl⟩ := hdoes.eq_of_inline htasks
    exact ⟨rfl, yes, no, rfl⟩
  · exact fun as has before id after hatomic hsplit => hsound.bound_of_read has hatomic hsplit

end Graph

end FlowSketch
