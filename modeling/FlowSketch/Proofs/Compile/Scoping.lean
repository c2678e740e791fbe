/-
# Names are bound before they are read

The compiler keeps a list of the nodes that it takes for bound, and it writes the name of a node
only where the node is on this list or where it is compared.  Two kinds of nodes have no value
of their own.  A composite variable is put on the list after its members and gets no statement,
and a node that is compared need not be a variable.  Every other name that is read on a path
through a function is a parameter or was bound before on this path, whatever the branches did on
the way: what is bound inside a branch is off the list behind it.

Main statement: `unvalued_of_compile`.
-/
import FlowSketch.Proofs.Compile.Calls

namespace FlowSketch

open FlowSketch.Listing (stmts stmts_append)

/-! ## Names in expressions -/

namespace Chain

lemma flatMap_reads_contractFrom (degree : ℕ) (lhs : Expr) (rest : List (Operator × Expr)) :
    (contractFrom degree lhs rest).operands.flatMap Expr.reads =
      lhs.reads ++ rest.flatMap (·.2.reads) := by
  induction rest generalizing lhs with
  | nil => simp [contractFrom, operands]
  | cons r rest ih =>
    obtain ⟨op, rhs⟩ := r
    rw [contractFrom]
    split
    · rw [ih, Expr.reads, List.flatMap_cons, List.append_assoc]
    · rw [List.flatMap_cons, ← ih rhs]
      simp [operands]

/-- The expression of a chain reads what its operands read. -/
lemma exists_of_mem_reads {c : Chain Expr} {a : Access} (h : a ∈ c.expr.reads) :
    ∃ e ∈ c.operands, a ∈ e.reads := by
  have hcontract : ∀ (degree : ℕ) (c : Chain Expr),
      (c.contract degree).operands.flatMap Expr.reads = c.operands.flatMap Expr.reads := by
    intro degree c
    rw [contract, flatMap_reads_contractFrom, operands, List.flatMap_cons, List.flatMap_map]
  have hfirst : ∀ c : Chain Expr, a ∈ c.first.reads → a ∈ c.operands.flatMap Expr.reads :=
    fun c ha => List.mem_flatMap.mpr ⟨c.first, List.mem_cons_self, ha⟩
  have hmem := hfirst _ h
  simp only [List.foldl_cons, List.foldl_nil, hcontract] at hmem
  exact List.mem_flatMap.mp hmem

end Chain

lemma Listing.Value.exists_of_read {value : Value} {name : String}
    (h : .read name ∈ value.expr.reads) :
    ∃ c, value = .chain c ∧ ∃ id ∈ c.operands, name = id.name := by
  cases value with
  | number x => cases h
  | text s => cases h
  | input => cases h
  | chain c =>
    obtain ⟨e, he, h⟩ := Chain.exists_of_mem_reads h
    have hoperands : (c.map fun id => Expr.name id.name).operands =
        c.operands.map fun id => Expr.name id.name := by
      simp [Chain.map, Chain.operands]
    rw [hoperands] at he
    obtain ⟨id, hid, rfl⟩ := List.mem_map.mp he
    cases List.mem_singleton.mp h
    exact ⟨c, rfl, id, hid, rfl⟩

/-! ## Statements between two sets of names -/

variable {N N' : String → Prop}

/-- On every path through the statements, only names of the first set are read where they were
not bound before, and names of the second set are of the first or are bound on the way. -/
def Scoped (N : String → Prop) (ss : List Stmt) (N' : String → Prop) : Prop :=
  ∀ as, ControlPath ss as → (∀ name, ReadUnbound name as → N name) ∧
    ∀ name, N' name → N name ∨ .bind name ∈ as

namespace Scoped

variable {ss rs : List Stmt}

lemma nil (h : ∀ name, N' name → N name) : Scoped N [] N' := by
  intro as has
  cases has
  exact ⟨fun name hread => absurd hread (not_readUnbound_nil name), fun name hn => .inl (h name hn)⟩

lemma append {N'' : String → Prop} (hss : Scoped N ss N') (hrs : Scoped N' rs N'') :
    Scoped N (ss ++ rs) N'' := by
  intro as has
  obtain ⟨bs, cs, hbs, hcs, rfl⟩ := path_append.mp has
  constructor
  · -- what the second part reads unbound was promised by the first part, which did not bind it
    intro name hread
    rcases readUnbound_append.mp hread with hread | ⟨hnew, hread⟩
    · exact (hss bs hbs).1 name hread
    · exact ((hss bs hbs).2 name ((hrs cs hcs).1 name hread)).resolve_right hnew
  · intro name hn
    rcases (hrs cs hcs).2 name hn with hn | hbind
    · exact ((hss bs hbs).2 name hn).imp_right (List.mem_append_left cs)
    · exact .inr (List.mem_append_right bs hbind)

lemma of_reads {as : List Access} (hreads : ∀ name, .read name ∈ as → N name) (name : String)
    (h : ReadUnbound name as) : N name :=
  hreads name (mem_of_readUnbound h)

lemma bind {name : String} {value : Expr} (hreads : ∀ n, .read n ∈ value.reads → N n)
    (hname : ∀ n, N' n → N n ∨ n = name) : Scoped N [.bind name value] N' := by
  intro as has
  cases has with
  | bind hstop =>
    cases hstop
    refine ⟨of_reads fun n hn => hreads n (by simpa using hn), fun n hn => ?_⟩
    rcases hname n hn with hn | rfl
    · exact .inl hn
    · exact .inr (List.mem_append_right _ List.mem_cons_self)

lemma print {value : Expr} (hreads : ∀ n, .read n ∈ value.reads → N n) :
    Scoped N [.print value] N := by
  intro as has
  cases has with
  | print hstop =>
    cases hstop
    exact ⟨of_reads fun n hn => hreads n (by simpa using hn), fun n hn => .inl hn⟩

lemma call {name : String} {args : List Expr}
    (hreads : ∀ e ∈ args, ∀ n, .read n ∈ e.reads → N n) : Scoped N [.call name args] N := by
  intro as has
  cases has with
  | call hstop =>
    cases hstop
    refine ⟨of_reads fun n hn => ?_, fun n hn => .inl hn⟩
    obtain ⟨e, he, hn⟩ := List.mem_flatMap.mp (by simpa using hn)
    exact hreads e he n hn

/-- Nothing that is bound on one of the two ways counts behind a branch. -/
lemma branch {cond : Expr} {yes no : List Stmt} {Y Z : String → Prop}
    (hreads : ∀ n, .read n ∈ cond.reads → N n) (hyes : Scoped N yes Y) (hno : Scoped N no Z) :
    Scoped N [.branch cond yes no] N := by
  have hway : ∀ {bs}, (∀ n, ReadUnbound n bs → N n) → ∀ n,
      ReadUnbound n (cond.reads ++ (bs ++ [])) → N n := by
    intro bs hbs n hn
    rw [List.append_nil] at hn
    rcases readUnbound_append.mp hn with hn | ⟨-, hn⟩
    · exact of_reads hreads n hn
    · exact hbs n hn
  intro as has
  cases has with
  | onTrue hpath hstop =>
    cases hstop
    exact ⟨hway (hyes _ hpath).1, fun n hn => .inl hn⟩
  | onFalse hpath hstop =>
    cases hstop
    exact ⟨hway (hno _ hpath).1, fun n hn => .inl hn⟩

end Scoped

/-! ## Nodes without a value of their own -/

/-- A node that has no value of its own, and whose name is written nevertheless. -/
inductive Graph.Unvalued (g : Graph) (id : NodeId) : Prop
  /-- A composite variable. -/
  | composite {n : Node} {v : Variable} :
    g.node? id = some n → n.kind = .var v → v.atomic = false → Unvalued g id
  /-- A node that is compared and is no variable. -/
  | compared {f : Flow} {n : Node} {k : Symbol} :
    g.isVariable id = false → f ∈ g.flows.toList → f.source = id →
    g.node? f.target = some n → n.kind = .symbol k → k.effective = .compare → Unvalued g id

namespace Compile

variable {g : Graph} {known known' : List NodeId} {ss : List Listing.Step}

/-- The names of the nodes that are bound, and of those that have no value of their own. -/
def Named (g : Graph) (known : List NodeId) (name : String) : Prop :=
  ∃ id, name = id.name ∧ (id ∈ known ∨ g.Unvalued id)

lemma named_of_mem {id : NodeId} (h : id ∈ known) : Named g known id.name := ⟨id, rfl, .inl h⟩

lemma Named.of_cons {id : NodeId} {name : String} (h : Named g (id :: known) name) :
    Named g known name ∨ name = id.name := by
  obtain ⟨a, rfl, ha | ha⟩ := h
  · rcases List.mem_cons.mp ha with rfl | ha
    · exact .inr rfl
    · exact .inl (named_of_mem ha)
  · exact .inl ⟨a, rfl, .inr ha⟩

/-! ## What a variable depends on -/

lemma isVariable_of_mem_variableFlows {links : Links} {f : Flow}
    (h : f ∈ g.variableFlows links) : g.isVariable f.source = true :=
  (List.mem_filter.mp h).2

lemma isVariable_of_tag {id : NodeId} {node : Node} (hn : g.node? id = some node)
    (ht : node.kind.tag = .var) : g.isVariable id = true := by
  rw [Graph.isVariable_of_node? hn]
  cases hk : node.kind with
  | var v => simp [Node.isVariable, Node.var?, hk]
  | scope s =>
    rw [hk] at ht
    cases ht
  | symbol k =>
    rw [hk] at ht
    cases ht

lemma kind_of_isVariable {id : NodeId} {node : Node} (hn : g.node? id = some node)
    (hvar : g.isVariable id = true) : ∃ v, node.kind = .var v := by
  rw [Graph.isVariable_of_node? hn] at hvar
  cases hk : node.kind with
  | var v => exact ⟨v, rfl⟩
  | scope s => simp [Node.isVariable, Node.var?, hk] at hvar
  | symbol k => simp [Node.isVariable, Node.var?, hk] at hvar

/-- A node depends on variables only. -/
lemma isVariable_of_mem_dependencies (hg : g.Recorded) {id d : NodeId} {node : Node}
    (hn : g.node? id = some node) (h : d ∈ g.dependencies node) : g.isVariable d = true := by
  rw [Graph.dependencies, List.mem_append] at h
  rcases h with h | h
  · obtain ⟨f, hf, rfl⟩ := List.mem_map.mp h
    exact isVariable_of_mem_variableFlows hf
  · cases hk : node.kind with
    | scope s => simp [Node.var?, hk] at h
    | symbol k => simp [Node.var?, hk] at h
    | var v =>
      have hmem : d ∈ v.members := by
        simp only [Node.var?, hk] at h
        split at h
        · cases h
        · exact h
      have howned := hg.owned id node .var hn
      rw [hk] at howned
      rw [show v.members = g.childIds id .var from howned] at hmem
      obtain ⟨m, hm, -, htag⟩ := hg.mem_childIds.mp hmem
      exact isVariable_of_tag hm htag

/-- The operands of a chain flow into the node on which the operators are written. -/
lemma ValuesTo.mem_dependencies {id : NodeId} {node : Node} {text : String} {c : Chain NodeId}
    (h : ValuesTo g id node text (.ok (.chain c))) {a : NodeId} (ha : a ∈ c.operands) :
    a ∈ g.dependencies node := by
  cases h with
  | chain _ _ hoperands hlength =>
    rw [(operators_zip hlength _).2, ← hoperands] at ha
    refine List.mem_append_left _ ?_
    exact (((byArrival_perm _).map _).mem_iff).mp ha

/-! ## The statements of a walk -/

/-- A demand makes its nodes known and forgets none. -/
lemma Demands.subset {ids : List NodeId} (h : Demands g ids known ss known') :
    known ⊆ known' ∧ ids ⊆ known' := by
  induction h with
  | nil => exact ⟨List.Subset.refl _, List.nil_subset _⟩
  | known hmem _ ih => exact ⟨ih.1, List.cons_subset.mpr ⟨ih.1 hmem, ih.2⟩⟩
  | bind _ _ _ _ _ ihBefore ihRest =>
    obtain ⟨hid, hbetween⟩ := List.cons_subset.mp ihRest.1
    exact ⟨List.Subset.trans ihBefore.1 hbetween, List.cons_subset.mpr ⟨hid, ihRest.2⟩⟩

/-- The statement of a variable reads what it depends on, and binds it unless it is composite. -/
lemma scoped_binding {id : NodeId} {node : Node} {own : List Listing.Step}
    (hn : g.node? id = some node) (hvar : g.isVariable id = true)
    (hown : binding g id node = .ok own) (hknown : g.dependencies node ⊆ known) :
    Scoped (Named g known) (stmts own) (Named g (id :: known)) := by
  rcases binding_eq_ok hown with ⟨rfl, hcomposite⟩ | ⟨v, text, value, -, -, -, hvalue, rfl⟩
  · -- without a statement the node is composite, and its name is one of those without a value
    refine .nil fun name hname => ?_
    rcases hname.of_cons with hname | rfl
    · exact hname
    · obtain ⟨v, hv⟩ := kind_of_isVariable hn hvar
      exact ⟨id, rfl, .inr (.composite hn hv (hcomposite v hv))⟩
  · refine .bind (fun name hname => ?_) fun name hname => hname.of_cons
    obtain ⟨c, rfl, a, ha, rfl⟩ := Listing.Value.exists_of_read hname
    have hto := hvalue ▸ valuesTo_textValue g id node text
    exact named_of_mem (hknown (hto.mem_dependencies ha))

lemma Demands.scoped (hg : g.Recorded) {ids : List NodeId} (h : Demands g ids known ss known')
    (hvars : ∀ id ∈ ids, g.isVariable id = true) :
    Scoped (Named g known) (stmts ss) (Named g known') := by
  induction h with
  | nil => exact .nil fun _ => id
  | known _ _ ih => exact ih fun id hid => hvars id (List.mem_cons_of_mem _ hid)
  | bind _ hn hbefore hown _ ihBefore ihRest =>
    rw [stmts_append, stmts_append]
    refine .append (.append (ihBefore fun _ => isVariable_of_mem_dependencies hg hn) ?_)
      (ihRest fun id hid => hvars id (List.mem_cons_of_mem _ hid))
    exact scoped_binding hn (hvars _ List.mem_cons_self) hown hbefore.subset.2

lemma mem_foldl_distinct {fs : List Flow} {ps : List NodeId} {a : NodeId}
    (h : a ∈ fs.foldl
      (fun params f => if f.source ∈ params then params else params ++ [f.source]) ps) :
    a ∈ ps ∨ ∃ f ∈ fs, f.source = a := by
  induction fs generalizing ps with
  | nil => exact .inl h
  | cons f fs ih =>
    rw [List.foldl_cons] at h
    rcases ih h with h | ⟨e, he, hsource⟩
    · split at h
      · exact .inl h
      · rcases List.mem_append.mp h with h | h
        · exact .inl h
        · exact .inr ⟨f, List.mem_cons_self, (List.mem_singleton.mp h).symm⟩
    · exact .inr ⟨e, List.mem_cons_of_mem f he, hsource⟩

/-- The parameters of a scope are variables. -/
lemma isVariable_of_mem_parameters {s : Scope} {a : NodeId} (h : a ∈ g.parameters s) :
    g.isVariable a = true := by
  rcases mem_foldl_distinct h with h | ⟨f, hf, rfl⟩
  · cases h
  · exact isVariable_of_mem_variableFlows hf

/-- An output prints a variable. -/
lemma isVariable_of_printed? {previous : Option NodeId} {links : Links} {value : NodeId}
    (h : printed? g previous links = some value) : g.isVariable value = true := by
  rw [printed?, Option.or_eq_some_iff] at h
  rcases h with h | ⟨-, h⟩
  · exact (Option.filter_eq_some_iff.mp h).2
  · obtain ⟨f, hf, rfl⟩ := Option.map_eq_some_iff.mp h
    exact isVariable_of_mem_variableFlows (List.mem_of_mem_head? hf)

lemma Visits.scoped (hg : g.Recorded) {previous : Option NodeId} {id : NodeId} {node : Node}
    (hn : g.node? id = some node) (h : Visits g previous known id node ss known') :
    Scoped (Named g known) (stmts ss) (Named g known') := by
  cases h with
  | @var v _ _ hk hdemand =>
    refine hdemand.scoped hg fun a ha => ?_
    rw [List.mem_singleton.mp ha]
    exact isVariable_of_tag hn (by rw [hk]; rfl)
  | skip => exact .nil fun _ => fun h => h
  | call _ _ hdemand =>
    rw [stmts_append]
    refine (hdemand.scoped hg fun _ => isVariable_of_mem_parameters).append ?_
    refine .call fun e he name hname => ?_
    obtain ⟨a, ha, rfl⟩ := List.mem_map.mp he
    cases List.mem_singleton.mp hname
    exact named_of_mem (hdemand.subset.2 ha)
  | input => exact .bind (fun _ hread => by cases hread) fun _ hname => hname.of_cons
  | output _ _ hprinted hdemand =>
    rw [stmts_append]
    refine (hdemand.scoped hg fun a ha => ?_).append ?_
    · rw [List.mem_singleton.mp ha]
      exact isVariable_of_printed? hprinted
    · refine .print fun name hname => ?_
      cases List.mem_singleton.mp hname
      exact named_of_mem (hdemand.subset.2 List.mem_cons_self)

/-- An operand of a comparison that is no variable has no value of its own. -/
lemma unvalued_of_operand (hg : g.Recorded) {id : NodeId} {node : Node} {k : Symbol} {f : Flow}
    (hn : g.node? id = some node) (hk : node.kind = .symbol k) (heffective : k.effective = .compare)
    (hf : f ∈ byArrival (g.flowsOf k.links.incoming)) (hvar : g.isVariable f.source = false) :
    g.Unvalued f.source := by
  -- the flow of the operand is recorded in the graph, so it shows that the node is compared
  have hlinks : k.links = node.links := by rw [Node.links, hk]; rfl
  rw [(byArrival_perm _).mem_iff, hlinks, hg.flowsOf_incoming hn, List.mem_filter,
    decide_eq_true_iff] at hf
  refine .compared hvar hf.1 rfl ?_ hk heffective
  rw [hf.2, hn]

/-- An operand of a comparison is known after it was demanded, or has no value of its own. -/
lemma named_of_operand (hg : g.Recorded) {id : NodeId} {node : Node} {k : Symbol} {f : Flow}
    (hn : g.node? id = some node) (hk : node.kind = .symbol k) (heffective : k.effective = .compare)
    (hf : f ∈ byArrival (g.flowsOf k.links.incoming))
    (hdemand : Demands g (if g.isVariable f.source then [f.source] else []) known ss known') :
    Named g known' f.source.name := by
  cases hvar : g.isVariable f.source with
  | true =>
    rw [if_pos hvar] at hdemand
    exact named_of_mem (hdemand.subset.2 List.mem_cons_self)
  | false => exact ⟨f.source, rfl, .inr (unvalued_of_operand hg hn hk heffective hf hvar)⟩

lemma Named.mono {name : String} (h : Named g known name) (hsub : known ⊆ known') :
    Named g known' name := by
  obtain ⟨id, rfl, hid⟩ := h
  exact ⟨id, rfl, hid.imp_left (@hsub id)⟩

/-- A comparison reads its operands, and behind it only what was known before is known. -/
lemma scoped_comparison {left right : NodeId} {yes no : List Listing.Step} {Y Z : String → Prop}
    (hleft : Named g known left.name) (hright : Named g known right.name)
    (hyes : Scoped (Named g known) (stmts yes) Y) (hno : Scoped (Named g known) (stmts no) Z) :
    Scoped (Named g known) (stmts [.branch left right yes no]) (Named g known) := by
  refine .branch (fun name hname => ?_) hyes hno
  rcases List.mem_cons.mp hname with h | h
  · cases h
    exact hleft
  · cases List.mem_singleton.mp h
    exact hright

/-- **A walk reads the names of known nodes and of nodes without a value only.** -/
lemma Walks.scoped (hg : g.Recorded) {previous start : Option NodeId}
    (h : Walks g previous known start ss known') :
    Scoped (Named g known) (stmts ss) (Named g known') := by
  induction h with
  | stop => exact .nil fun _ => id
  | visit hn hvisit _ ih =>
    rw [stmts_append]
    exact (hvisit.scoped hg hn).append ih
  | @compare _ _ _ _ _ _ _ _ _ _ left right _ _ _ _ _ _ _ hn hk heffective hin hout hfirst
      hsecond _ _ _ ihYes ihNo ihAfter =>
    have hoperand : ∀ f : Flow, ∀ a ∈ (if g.isVariable f.source then [f.source] else []),
        g.isVariable a = true := by
      intro f a ha
      split at ha
      · rename_i hvar
        rwa [List.mem_singleton.mp ha]
      · cases ha
    have hleft := named_of_operand hg hn hk heffective (f := left) (by rw [hin]; simp) hfirst
    have hright := named_of_operand hg hn hk heffective (f := right) (by rw [hin]; simp) hsecond
    rw [stmts_append, stmts_append, stmts_append]
    -- demanding the right operand forgets nothing about the left one
    exact .append (.append (.append (hfirst.scoped hg (hoperand left))
      (hsecond.scoped hg (hoperand right)))
      (scoped_comparison (hleft.mono hsecond.subset.1) hright ihYes ihNo)) ihAfter

end Compile

namespace Graph

open FlowSketch.Compile

variable {g : Graph} {l : Listing}

/-- What the functions of a listing read without a value has none of its own. -/
lemma unvalued_of_readUnbound (hg : g.Recorded) (hl : g.listing = .ok l) {f : Function}
    (hf : f ∈ l.program.functions) {as : List Access} (has : ControlPath f.body as) {name : String}
    (hread : ReadUnbound name as) : name ∈ f.params ∨ ∃ id, name = id.name ∧ g.Unvalued id := by
  obtain ⟨r, hr, rfl⟩ := List.mem_map.mp hf
  obtain ⟨n, s, -, -, -, known, hwalk⟩ := exists_scope_of_listing hg hl hr
  obtain ⟨id, rfl, hid | hid⟩ := ((walks_of_walk hwalk).scoped hg as has).1 name hread
  · exact .inl (List.mem_map_of_mem hid)
  · exact .inr ⟨id, rfl, hid⟩

/-! ## An example -/

/-- A scope is compared with itself, and both ways lead to another scope. -/
def compared : List Edit :=
  [.addNode NodeId.root (NodeTag.blank .scope), .addNode NodeId.root (NodeTag.blank .symbol),
    .addNode NodeId.root (NodeTag.blank .scope),
    .connect NodeId.root ⟨1⟩ ⟨10, 10, 8, 8⟩ ⟨0, 0⟩,
    .connect ⟨1⟩ ⟨2⟩ ⟨30, 10, 8, 8⟩ ⟨14, 14⟩, .connect ⟨1⟩ ⟨2⟩ ⟨40, 10, 8, 8⟩ ⟨0, 0⟩,
    .connect ⟨2⟩ ⟨3⟩ ⟨60, 10, 8, 8⟩ ⟨0, 0⟩, .connect ⟨2⟩ ⟨3⟩ ⟨70, 10, 8, 8⟩ ⟨0, 0⟩]

/-- The listing of `compared`. -/
def comparedListing : Listing := ⟨[⟨NodeId.root, [], [.branch ⟨1⟩ ⟨1⟩ [] []]⟩]⟩

lemma listing_compared : (drawn compared).listing = .ok comparedListing := by
  obtain ⟨g, hg⟩ : ∃ g, g = drawn compared := exists_eq
  obtain ⟨n₁, h₁⟩ : ∃ n : Node, n = ⟨⟨1⟩, some NodeId.root,
    .scope ⟨[], [], [], none, ⟨[⟨0⟩], [⟨1⟩, ⟨2⟩], [⟨2⟩], some ⟨2⟩⟩⟩⟩ := exists_eq
  obtain ⟨n₂, h₂⟩ : ∃ n : Node, n = ⟨⟨2⟩, some NodeId.root,
    .symbol ⟨.unset, ⟨[⟨1⟩, ⟨2⟩], [⟨3⟩, ⟨4⟩], [⟨3⟩, ⟨4⟩], none⟩⟩⟩ := exists_eq
  obtain ⟨n₃, h₃⟩ : ∃ n : Node, n = ⟨⟨3⟩, some NodeId.root,
    .scope ⟨[], [], [], none, ⟨[⟨3⟩, ⟨4⟩], [], [], none⟩⟩⟩ := exists_eq
  obtain ⟨hn₁, hn₂, hn₃⟩ : g.node? ⟨1⟩ = some n₁ ∧ g.node? ⟨2⟩ = some n₂ ∧
      g.node? ⟨3⟩ = some n₃ := by
    rw [hg, h₁, h₂, h₃]
    decide +kernel
  obtain ⟨hflows, hexits⟩ : g.flowsOf [⟨1⟩, ⟨2⟩] =
        [⟨⟨1⟩, ⟨1⟩, ⟨2⟩, ⟨30, 10, 8, 8⟩, ⟨14, 14⟩, .continuation⟩,
          ⟨⟨2⟩, ⟨1⟩, ⟨2⟩, ⟨40, 10, 8, 8⟩, ⟨0, 0⟩, .branch⟩] ∧
      g.flowsOf [⟨3⟩, ⟨4⟩] = [⟨⟨3⟩, ⟨2⟩, ⟨3⟩, ⟨60, 10, 8, 8⟩, ⟨0, 0⟩, .branch⟩,
        ⟨⟨4⟩, ⟨2⟩, ⟨3⟩, ⟨70, 10, 8, 8⟩, ⟨0, 0⟩, .branch⟩] := by
    rw [hg]
    decide +kernel
  obtain ⟨r, hscopes, hentry⟩ : ∃ r, g.routineScopes = [(NodeId.root, r)] ∧
      g.entry? NodeId.root r = some ⟨1⟩ := by
    refine ⟨⟨[⟨1⟩, ⟨3⟩], [], [⟨2⟩], some ⟨1⟩, ⟨[], [⟨0⟩], [], none⟩⟩, ?_⟩
    rw [hg]
    decide +kernel
  rw [← hg]
  obtain ⟨hnext₁, hnext₂, hnext₃⟩ : g.next? n₁ = some ⟨2⟩ ∧ g.next? n₂ = none ∧
      g.next? n₃ = none := by
    rw [h₁, h₂, h₃]
    exact ⟨rfl, rfl, rfl⟩
  have hskip₁ : ∀ hid, visit g [] none [] ⟨1⟩ n₁ hid = .ok ([], []) := by
    intro hid
    rw [h₁, visit]
    rfl
  have hskip₃ : ∀ hid, visit g [⟨2⟩] none [] ⟨3⟩ n₃ hid = .ok ([], []) := by
    intro hid
    rw [h₃, visit]
    rfl
  have hway : walk g [⟨2⟩] [] none [] (some ⟨3⟩) = .ok ([], []) :=
    walk_cons (by simp) hn₃ hskip₃ hnext₃ (walk_none ..)
  have hoperand : demandOperand g ⟨1⟩ [] = .ok ([], []) := by
    rw [demandOperand, hn₁, h₁]
    rfl
  have hcompare : ∀ hid, visit g [] (some ⟨1⟩) [] ⟨2⟩ n₂ hid =
      .ok ([.branch ⟨1⟩ ⟨1⟩ [] []], []) := by
    intro hid
    have heffective : Symbol.effective
        ⟨.unset, ⟨[⟨1⟩, ⟨2⟩], [⟨3⟩, ⟨4⟩], [⟨3⟩, ⟨4⟩], none⟩⟩ = .compare := rfl
    rw [h₂, visit]
    simp only [heffective, hflows, hexits, byArrival]
    rw [List.mergeSort_of_pairwise (by decide), List.mergeSort_of_pairwise (by decide)]
    simp only [List.not_mem_nil, dif_neg, not_false_iff, hoperand, hway, bind, Except.bind]
    rfl
  have hwalk : walk g [] [] none [] (some ⟨1⟩) = .ok ([.branch ⟨1⟩ ⟨1⟩ [] []], []) :=
    walk_cons (by simp) hn₁ hskip₁ hnext₁ (walk_cons (by simp) hn₂ hcompare hnext₂ (walk_none ..))
  have hparams : g.routineParams NodeId.root r = [] := rfl
  rw [listing, hscopes, comparedListing]
  simp [routine, hparams, hentry, hwalk, bind, Except.bind, pure, Except.pure]

/-- The text of `compared`. -/
def comparedText : String :=
  "zero();\nfunction zero() \x7b\n  if (one > one) \x7b\n  \x7d else \x7b\n  \x7d\n\x7d\n"

lemma compile_compared : (drawn compared).compile = .ok comparedText :=
  compile_eq_ok.mpr ⟨_, listing_compared, by decide +kernel⟩

/-- **A compiled graph reads names of parameters and of what it has bound before**, apart from
those of composite variables and of nodes that are compared without being variables.  So a run
of its text stops at no other name. -/
theorem unvalued_of_compile (edits : List Edit) {text : String}
    (h : (drawn edits).compile = .ok text) :
    ∃ p, Program.read text = .ok p ∧
      (∀ f ∈ p.functions, ∀ as, ControlPath f.body as →
        ∀ before name after, as = before ++ .read name :: after →
          name ∈ f.params ∨ .bind name ∈ before ∨
            ∃ id, name = id.name ∧ (drawn edits).Unvalued id) ∧
      ∀ limit inputs name, (Program.runText text limit inputs).failure =
        some (.fault (.undefinedVariable name)) →
          ∃ id, name = id.name ∧ (drawn edits).Unvalued id := by
  obtain ⟨l, hl, rfl⟩ := compile_eq_ok.mp h
  have hg := recorded_drawn edits
  have hread := Listing.read_text (readable_of_listing hg hl)
  refine ⟨l.program, hread, ?_, ?_⟩
  · intro f hf as has before name after hsplit
    by_cases hbind : .bind name ∈ before
    · exact .inr (.inl hbind)
    · exact (unvalued_of_readUnbound hg hl hf has ⟨before, after, hsplit, hbind⟩).imp_right .inr
  · intro limit inputs name hfail
    rw [Program.runText, hread] at hfail
    obtain ⟨fault, hfault, hname⟩ := Option.map_eq_some_iff.mp hfail
    cases hname
    cases Program.origin_of_report hfault with
    | unbound hblock hpath hunbound hparam =>
      rcases List.mem_cons.mp hblock with rfl | hblock
      · -- the entry only calls the root
        cases hpath with
        | call hstop =>
          cases hstop
          exact absurd hunbound (not_readUnbound_nil name)
      · obtain ⟨f, hf, rfl⟩ := List.mem_map.mp hblock
        exact (unvalued_of_readUnbound hg hl hf hpath hunbound).resolve_left hparam

/-- In the text of `handed` a composite variable has no value. -/
theorem unvalued_of_compile_handed :
    ∃ p, Program.read handedText = .ok p ∧
      (∀ f ∈ p.functions, ∀ as, ControlPath f.body as →
        ∀ before name after, as = before ++ .read name :: after →
          name ∈ f.params ∨ .bind name ∈ before ∨
            ∃ id, name = id.name ∧ (drawn handed).Unvalued id) ∧
      ∀ limit inputs name, (Program.runText handedText limit inputs).failure =
        some (.fault (.undefinedVariable name)) →
          ∃ id, name = id.name ∧ (drawn handed).Unvalued id :=
  unvalued_of_compile handed compile_handed

/-- A composite variable that is passed to a scope, and a scope that is compared, are read
without a value. -/
theorem composite_and_compared_unbound :
    ((drawn handed).compile = .ok handedText ∧ Program.runText handedText 64 [] =
      ⟨some (.fault (.undefinedVariable "one")), [], 1⟩) ∧
    ((drawn compared).compile = .ok comparedText ∧ Program.runText comparedText 64 [] =
      ⟨some (.fault (.undefinedVariable "one")), [], 0⟩) := by
  have hhanded : handedText = handedListing.text := by decide +kernel
  have hcompared : comparedText = comparedListing.text := by decide +kernel
  refine ⟨⟨compile_handed, ?_⟩, compile_compared, ?_⟩
  · rw [hhanded, Program.runText,
      Listing.read_text (readable_of_listing (recorded_drawn handed) listing_handed)]
    decide +kernel
  · rw [hcompared, Program.runText,
      Listing.read_text (readable_of_listing (recorded_drawn compared) listing_compared)]
    decide +kernel

end Graph

end FlowSketch
