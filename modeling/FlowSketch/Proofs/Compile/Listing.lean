/-
# The listing of a drawn graph

A compiled graph has one function for the root and one for every scope with a start, in the
order in which they were drawn.  Every value in them can be read back: a number is finite, since
only finite numbers are read from a text, and operands are joined by connectives, since only
these are read from the words of an expression.  So the text of the graph is read as the program
of its listing.

Main statement: `read_compile`.
-/
import FlowSketch.Proofs.Compile.Derivations
import FlowSketch.Proofs.Graph.Representation
import FlowSketch.Proofs.Program.RoundTrip

namespace FlowSketch

open FlowSketch.Listing (stepsReadable stepsReadable_append)

namespace Compile

variable {g : Graph} {id : NodeId} {node : Node}

/-! ## Values -/

lemma textValue_number {text : String} {x : Float}
    (hx : finiteNumber? (Text.trim text.toList) = some x) :
    textValue g id node text = .ok (.number x) := by
  unfold textValue
  dsimp only
  rw [hx]

lemma textValue_operators {text : String} (hx : finiteNumber? (Text.trim text.toList) = none)
    (hq : betweenQuotes? (Text.trim text.toList) = none)
    (ho : mentionsOperator text.toList = true) :
    textValue g id node text = chainValue g id node text.toList := by
  unfold textValue
  dsimp only
  rw [hx]
  dsimp only
  rw [hq]
  exact if_pos ho

lemma binding_of_textValue {v : Variable} {text : String} {w : Listing.Value}
    (hk : node.kind = .var v) (ha : v.atomic = true) (hv : v.value = some text)
    (h : textValue g id node text = .ok w) : binding g id node = .ok [.bind id w] := by
  unfold binding
  rw [hk]
  dsimp only
  rw [if_pos ha, hv]
  dsimp only
  rw [h]
  rfl

lemma ValuesTo.readable {text : String} {v : Listing.Value}
    (h : ValuesTo g id node text (.ok v)) : v.Readable := by
  cases h with
  | number hx => exact (Option.filter_eq_some_iff.mp hx).2
  | quoted => trivial
  | plain => trivial
  | chain _ hoperators _ hlength =>
    intro op hop
    rw [(operators_zip hlength _).1, ← hoperators, List.mem_filterMap] at hop
    obtain ⟨token, -, htoken⟩ := hop
    exact (Operator.symbol_of_ofToken? htoken).2

lemma stepsReadable_binding {ss : List Listing.Step} (h : binding g id node = .ok ss) :
    stepsReadable ss := by
  rcases binding_eq_ok h with ⟨rfl, -⟩ | ⟨v, text, value, -, -, -, hvalue, rfl⟩
  · trivial
  · exact ⟨(hvalue ▸ valuesTo_textValue g id node text).readable, trivial⟩

/-! ## Statements -/

lemma Demands.stepsReadable {ids known known' : List NodeId} {ss : List Listing.Step}
    (h : Demands g ids known ss known') : stepsReadable ss := by
  induction h with
  | nil => trivial
  | known _ _ ih => exact ih
  | bind _ _ _ hown _ ihBefore ihRest =>
    exact stepsReadable_append.mpr
      ⟨stepsReadable_append.mpr ⟨ihBefore, stepsReadable_binding hown⟩, ihRest⟩

lemma Visits.stepsReadable {previous : Option NodeId} {known known' : List NodeId}
    {ss : List Listing.Step} (h : Visits g previous known id node ss known') :
    stepsReadable ss := by
  cases h with
  | var _ hdemand => exact hdemand.stepsReadable
  | skip => trivial
  | call _ _ hdemand => exact stepsReadable_append.mpr ⟨hdemand.stepsReadable, trivial, trivial⟩
  | input => exact ⟨trivial, trivial⟩
  | output _ _ _ hdemand => exact stepsReadable_append.mpr ⟨hdemand.stepsReadable, trivial, trivial⟩

/-- Everything that a walk writes can be read back. -/
lemma Walks.stepsReadable {previous start : Option NodeId} {known known' : List NodeId}
    {ss : List Listing.Step} (h : Walks g previous known start ss known') : stepsReadable ss := by
  induction h with
  | stop => trivial
  | visit _ hvisit _ ih => exact stepsReadable_append.mpr ⟨hvisit.stepsReadable, ih⟩
  | compare _ _ _ _ _ hfirst hsecond _ _ _ ihYes ihNo ihAfter =>
    refine stepsReadable_append.mpr ⟨stepsReadable_append.mpr ⟨?_, ?_⟩, ihAfter⟩
    · exact stepsReadable_append.mpr ⟨hfirst.stepsReadable, hsecond.stepsReadable⟩
    · exact ⟨⟨ihYes, ihNo⟩, trivial⟩

end Compile

namespace Graph

open FlowSketch.Compile

variable {g : Graph}

/-! ## Functions -/

/-- The functions of a listing are made from the scopes one by one. -/
lemma forall₂_of_mapM {ε α β : Type} {f : α → Except ε β} {as : List α} {bs : List β}
    (h : as.mapM f = .ok bs) : List.Forall₂ (fun a b => f a = .ok b) as bs := by
  induction as generalizing bs with
  | nil =>
    cases h
    exact .nil
  | cons a as ih =>
    rw [List.mapM_cons] at h
    obtain ⟨b, hb, h⟩ := Compile.bind_eq_ok.mp h
    obtain ⟨rest, hrest, h⟩ := Compile.bind_eq_ok.mp h
    cases h
    exact .cons hb (ih hrest)

lemma forall₂_of_listing {l : Listing} (h : g.listing = .ok l) :
    List.Forall₂ (fun p r => g.routine p.1 p.2 = .ok r) g.routineScopes l.routines := by
  obtain ⟨routines, hroutines, h⟩ := Compile.bind_eq_ok.mp h
  cases h
  exact forall₂_of_mapM hroutines

/-- A function is named after its scope, takes its parameters and does what the walk from its
first node writes. -/
lemma exists_walk_of_routine {id : NodeId} {s : Scope} {r : Listing.Routine}
    (h : g.routine id s = .ok r) : r.id = id ∧ r.params = g.routineParams id s ∧
      ∃ known, Compile.walk g [] [] none r.params (g.entry? id s) = .ok (r.body, known) := by
  obtain ⟨⟨body, known⟩, hbody, h⟩ := Compile.bind_eq_ok.mp h
  cases h
  exact ⟨rfl, rfl, known, hbody⟩

lemma mem_routineScopes (hg : g.Recorded) {id : NodeId} {s : Scope} :
    (id, s) ∈ g.routineScopes ↔
      ∃ n, g.node? id = some n ∧ n.kind = .scope s ∧ (id = NodeId.root ∨ s.start.isSome = true) := by
  have hscope : ∀ n : Node, ((n.scope?.bind fun s =>
      if s.isRoutine n.id then some (n.id, s) else none) = some (id, s)) ↔
      n.id = id ∧ n.kind = .scope s ∧ (id = NodeId.root ∨ s.start.isSome = true) := by
    intro n
    unfold Node.scope? Scope.isRoutine
    cases hk : n.kind with
    | scope t =>
      rw [Option.bind_some, Option.ite_none_right_eq_some, Bool.or_eq_true, NodeId.isRoot_iff]
      constructor
      · rintro ⟨hr, h⟩
        cases h
        exact ⟨rfl, rfl, hr⟩
      · rintro ⟨rfl, h, hr⟩
        cases h
        exact ⟨hr, rfl⟩
    | var v => simp
    | symbol k => simp
  rw [routineScopes, List.mem_filterMap]
  constructor
  · rintro ⟨n, hn, h⟩
    obtain ⟨hid, hk, hr⟩ := (hscope n).mp h
    obtain ⟨i, hi⟩ := Array.mem_iff_getElem?.mp (Array.mem_toList_iff.mp hn)
    have hi' : g.node? ⟨i⟩ = some n := hi
    have hn' := hg.node_id _ n hi'
    exact ⟨n, by rw [← hid, hn', hi'], hk, hr⟩
  · rintro ⟨n, hn, hk, hr⟩
    exact ⟨n, Array.mem_toList_iff.mpr (Array.mem_of_getElem? hn),
      (hscope n).mpr ⟨hg.node_id id n hn, hk, hr⟩⟩

/-- The scopes that become functions are in the order in which they were drawn. -/
lemma pairwise_routineScopes (hg : g.Recorded) :
    (g.routineScopes.map (·.1)).Pairwise (·.index < ·.index) := by
  have hids : (g.nodes.toList.map (·.id)).Pairwise (·.index < ·.index) := by
    have hbirths : g.nodes.toList.map (·.id) = g.births.map (·.id) := by
      rw [births, List.map_map]
      rfl
    rw [hbirths, hg.births_ids, List.pairwise_map]
    exact List.pairwise_lt_range
  rw [List.pairwise_map] at hids ⊢
  rw [routineScopes, List.pairwise_filterMap]
  refine hids.imp fun {n m} hlt p hp q hq => ?_
  obtain ⟨s, -, hp⟩ := Option.bind_eq_some_iff.mp hp
  obtain ⟨t, -, hq⟩ := Option.bind_eq_some_iff.mp hq
  rw [Option.ite_none_right_eq_some] at hp hq
  rw [← Option.some.inj hp.2, ← Option.some.inj hq.2]
  exact hlt

/-- The functions of a listing are those of the scopes, in the same order. -/
lemma ids_of_listing {l : Listing} (h : g.listing = .ok l) :
    l.routines.map (·.id) = g.routineScopes.map (·.1) := by
  have hsame : List.Forall₂ (fun p r => p.1 = r.id) g.routineScopes l.routines :=
    (forall₂_of_listing h).imp fun p r hr => (exists_walk_of_routine hr).1.symm
  rw [← List.forall₂_map_right_iff (f := Listing.Routine.id),
    ← List.forall₂_map_left_iff (f := Prod.fst) (R := (· = ·)), List.forall₂_eq_eq_eq] at hsame
  exact hsame.symm

/-- Each function of a listing is that of a scope. -/
lemma exists_routine_of_mem {l : Listing} (h : g.listing = .ok l) {r : Listing.Routine}
    (hr : r ∈ l.routines) : ∃ p ∈ g.routineScopes, g.routine p.1 p.2 = .ok r := by
  obtain ⟨i, rfl⟩ := List.mem_iff_get.mp hr
  have hmade := forall₂_of_listing h
  have hlt : i < g.routineScopes.length := by
    rw [hmade.length_eq]
    exact i.isLt
  exact ⟨_, List.get_mem g.routineScopes ⟨i, hlt⟩, hmade.get hlt i.isLt⟩

/-- Where a function comes from. -/
lemma exists_scope_of_listing (hg : g.Recorded) {l : Listing} (h : g.listing = .ok l)
    {r : Listing.Routine} (hr : r ∈ l.routines) :
    ∃ n s, g.node? r.id = some n ∧ n.kind = .scope s ∧ r.params = g.routineParams r.id s ∧
      ∃ known, Compile.walk g [] [] none r.params (g.entry? r.id s) = .ok (r.body, known) := by
  obtain ⟨⟨id, s⟩, hscope, hroutine⟩ := exists_routine_of_mem h hr
  obtain ⟨n, hn, hk, -⟩ := (mem_routineScopes hg).mp hscope
  obtain ⟨rfl, hparams, hwalk⟩ := exists_walk_of_routine hroutine
  exact ⟨n, s, hn, hk, hparams, hwalk⟩

/-- The function of a scope is found in the listing. -/
lemma exists_find?_routine (hg : g.Recorded) {l : Listing} (hl : g.listing = .ok l) {id : NodeId}
    {n : Node} {s : Scope} (hn : g.node? id = some n) (hk : n.kind = .scope s)
    (hr : id = NodeId.root ∨ s.start.isSome = true) :
    ∃ r, l.routines.find? (·.id == id) = some r ∧ r.params = g.routineParams id s ∧
      ∃ known, Compile.Walks g none r.params (g.entry? id s) r.body known := by
  cases hfind : l.routines.find? (·.id == id) with
  | none =>
    have hmem : id ∈ l.routines.map (·.id) := by
      rw [ids_of_listing hl, List.mem_map]
      exact ⟨(id, s), (mem_routineScopes hg).mpr ⟨n, hn, hk, hr⟩, rfl⟩
    obtain ⟨r, hr, hid⟩ := List.mem_map.mp hmem
    have hno := List.find?_eq_none.mp hfind r hr
    simp [hid] at hno
  | some r =>
    have hid : r.id = id := by simpa using List.find?_some hfind
    obtain ⟨n', s', hn', hk', hparams, known, hwalk⟩ :=
      exists_scope_of_listing hg hl (List.mem_of_find?_eq_some hfind)
    rw [hid] at hn' hparams hwalk
    obtain rfl := Option.some.inj (hn.symm.trans hn')
    obtain rfl : s = s' := by
      rw [hk] at hk'
      cases hk'
      rfl
    exact ⟨r, rfl, hparams, known, Compile.walks_of_walk hwalk⟩

/-- Everything in a compiled graph can be read back. -/
lemma readable_of_listing (hg : g.Recorded) {l : Listing} (h : g.listing = .ok l) :
    l.Readable := by
  intro r hr
  obtain ⟨n, s, -, -, -, known, hwalk⟩ := exists_scope_of_listing hg h hr
  exact (Compile.walks_of_walk hwalk).stepsReadable

/-- A graph compiles to the text of its listing. -/
lemma compile_eq_ok {text : String} :
    g.compile = .ok text ↔ ∃ l, g.listing = .ok l ∧ l.text = text := by
  unfold compile
  cases g.listing with
  | error e => simp [Except.map]
  | ok l => simp [Except.map]

/-! ## Reading the program of a graph -/

/-- A program that stands for a graph through its listing. -/
structure Transcribes (g : Graph) (l : Listing) (p : Program) : Prop where
  /-- The root is called without arguments. -/
  entry : p.entry = [.call NodeId.root.name []]
  /-- The functions are those of the listing, each with its name, its parameters and its
  statements. -/
  functions : p.functions = l.routines.map Listing.Routine.function
  /-- The root and the scopes with a start have a function each, in ascending order. -/
  scopes : g.ListsNodes (l.routines.map (·.id)) fun n =>
    ∃ s, n.kind = .scope s ∧ (n.id = NodeId.root ∨ s.start.isSome = true)
  /-- The root takes no parameters, and another scope those that flow into it.  The statements
  are what the walk from the first node of the scope writes. -/
  bodies : ∀ r ∈ l.routines, ∃ n s known, g.node? r.id = some n ∧ n.kind = .scope s ∧
    r.params = (if r.id = NodeId.root then [] else g.parameters s) ∧
    Compile.walk g [] [] none r.params (g.entry? r.id s) = .ok (r.body, known)
  /-- The expression of a number that a variable is bound to is that number. -/
  numbers : ∀ r ∈ l.routines, ∀ x, Listing.Value.number x ∈ Listing.stepsValues r.body →
    ∃ y, (Listing.Value.number x).expr = .number y ∧ (y == x) = true

lemma transcribes_of_listing (hg : g.Recorded) {l : Listing} (h : g.listing = .ok l) :
    g.Transcribes l l.program := by
  constructor
  case entry => rfl
  case functions => rfl
  case scopes =>
    rw [ids_of_listing h]
    refine ⟨pairwise_routineScopes hg, fun id => ?_⟩
    rw [List.mem_map]
    constructor
    · rintro ⟨⟨_, s⟩, hs, rfl⟩
      obtain ⟨n, hn, hk, hr⟩ := (mem_routineScopes hg).mp hs
      exact ⟨n, hn, s, hk, by rwa [hg.node_id _ n hn]⟩
    · rintro ⟨n, hn, s, hk, hr⟩
      rw [hg.node_id id n hn] at hr
      exact ⟨(id, s), (mem_routineScopes hg).mpr ⟨n, hn, hk, hr⟩, rfl⟩
  case bodies =>
    intro r hr
    obtain ⟨n, s, hn, hk, hparams, known, hwalk⟩ := exists_scope_of_listing hg h hr
    refine ⟨n, s, known, hn, hk, ?_, hwalk⟩
    rw [hparams, routineParams]
    exact if_congr NodeId.isRoot_iff rfl rfl
  case numbers =>
    intro r hr x hx
    exact Listing.Value.expr_number
      (Listing.readable_of_mem_stepsValues (readable_of_listing hg h r hr) hx)

/-! ## An example -/

/-- One divided by a zero with a sign, and an output that prints the result. -/
def reciprocal : List Edit :=
  [.addNode NodeId.root (NodeTag.blank .var), .writeText ⟨1⟩ "1",
    .addNode NodeId.root (NodeTag.blank .var), .writeText ⟨2⟩ "-0",
    .addNode NodeId.root (NodeTag.blank .var), .writeText ⟨3⟩ "/",
    .addNode NodeId.root (NodeTag.blank .symbol), .writeText ⟨4⟩ "OUT",
    .connect NodeId.root ⟨3⟩ ⟨0, 0, 5, 5⟩ ⟨30, 30⟩, .connect ⟨1⟩ ⟨3⟩ ⟨10, 0, 5, 5⟩ ⟨30, 30⟩,
    .connect ⟨2⟩ ⟨3⟩ ⟨20, 0, 5, 5⟩ ⟨30, 30⟩, .connect ⟨3⟩ ⟨4⟩ ⟨40, 0, 5, 5⟩ ⟨2, 2⟩]

/-- The statements that bind the quotient. -/
def reciprocalSteps : List Listing.Step :=
  [.bind ⟨1⟩ (.number 1), .bind ⟨2⟩ (.number (-0)), .bind ⟨3⟩ (.chain ⟨⟨1⟩, [(.div, ⟨2⟩)]⟩)]

/-- The variables of `reciprocal` are bound in the order of the flows. -/
lemma demandAll_reciprocal :
    demandAll (drawn reciprocal) [⟨3⟩] [] = .ok (reciprocalSteps, [⟨3⟩, ⟨2⟩, ⟨1⟩]) := by
  obtain ⟨g, hg⟩ : ∃ g, g = drawn reciprocal := exists_eq
  obtain ⟨n₁, h₁⟩ : ∃ n : Node, n = ⟨⟨1⟩, some NodeId.root,
    .var ⟨[], some "1", true, ⟨[], [⟨1⟩], [⟨1⟩], none⟩⟩⟩ := exists_eq
  obtain ⟨n₂, h₂⟩ : ∃ n : Node, n = ⟨⟨2⟩, some NodeId.root,
    .var ⟨[], some "-0", true, ⟨[], [⟨2⟩], [⟨2⟩], none⟩⟩⟩ := exists_eq
  obtain ⟨n₃, h₃⟩ : ∃ n : Node, n = ⟨⟨3⟩, some NodeId.root,
    .var ⟨[], some "/", true, ⟨[⟨0⟩, ⟨1⟩, ⟨2⟩], [⟨3⟩], [], some ⟨4⟩⟩⟩⟩ := exists_eq
  have hnodes : g.node? ⟨1⟩ = some n₁ ∧ g.node? ⟨2⟩ = some n₂ ∧ g.node? ⟨3⟩ = some n₃ := by
    rw [hg, h₁, h₂, h₃]
    decide +kernel
  have hdependencies : g.dependencies n₁ = [] ∧ g.dependencies n₂ = [] ∧
      g.dependencies n₃ = [⟨1⟩, ⟨2⟩] := by
    rw [hg, h₁, h₂, h₃]
    decide +kernel
  obtain ⟨hn₁, hn₂, hn₃⟩ := hnodes
  obtain ⟨hd₁, hd₂, hd₃⟩ := hdependencies
  have hb₁ : binding g ⟨1⟩ n₁ = .ok [.bind ⟨1⟩ (.number 1)] := by
    rw [h₁]
    exact binding_of_textValue rfl rfl rfl (textValue_number (by decide +kernel))
  have hb₂ : binding g ⟨2⟩ n₂ = .ok [.bind ⟨2⟩ (.number (-0))] := by
    rw [h₂]
    exact binding_of_textValue rfl rfl rfl (textValue_number (by decide +kernel))
  have hb₃ : binding g ⟨3⟩ n₃ = .ok [.bind ⟨3⟩ (.chain ⟨⟨1⟩, [(.div, ⟨2⟩)]⟩)] := by
    have hwords : Text.words "/".toList = [['/']] := by decide +kernel
    have hdiv : Operator.ofToken? ['/'] = some .div := by decide +kernel
    have hflows : g.variableFlows n₃.links = [⟨⟨1⟩, ⟨1⟩, ⟨3⟩, ⟨10, 0, 5, 5⟩, ⟨30, 30⟩, .branch⟩,
        ⟨⟨2⟩, ⟨2⟩, ⟨3⟩, ⟨20, 0, 5, 5⟩, ⟨30, 30⟩, .branch⟩] := by
      rw [hg, h₃]
      decide +kernel
    have hoperands : (byArrival (g.variableFlows n₃.links)).map (·.source) = [⟨1⟩, ⟨2⟩] := by
      rw [hflows, byArrival, List.mergeSort_of_pairwise (by decide)]
      rfl
    have htext : textValue g ⟨3⟩ n₃ "/" = .ok (.chain ⟨⟨1⟩, [(.div, ⟨2⟩)]⟩) := by
      rw [textValue_operators (by decide +kernel) (by decide +kernel) (by decide +kernel),
        chainValue, hwords, hoperands]
      simp [hdiv]
    exact binding_of_textValue (by rw [h₃]) rfl rfl htext
  have hoperands : ∀ hids, demandEach g [⟨3⟩] [⟨1⟩, ⟨2⟩] hids [] =
      .ok ([.bind ⟨1⟩ (.number 1), .bind ⟨2⟩ (.number (-0))], [⟨2⟩, ⟨1⟩]) := fun hids =>
    demandEach_cons hids (demand_of_leaf _ (by simp) hn₁ hd₁ hb₁)
      (demandEach_cons _ (demand_of_leaf _ (by simp) hn₂ hd₂ hb₂) (demandEach_nil _))
  have hquotient : ∀ hid, demand g [] ⟨3⟩ hid [] = .ok (reciprocalSteps, [⟨3⟩, ⟨2⟩, ⟨1⟩]) := by
    intro hid
    rw [demand_of_node hid (by simp) hn₃ (by simp [hd₃])]
    simp only [hd₃, hoperands, hb₃]
    rfl
  rw [← hg]
  exact demandEach_cons _ (hquotient _) (demandEach_nil _)

/-- The listing of `reciprocal`. -/
lemma listing_reciprocal : (drawn reciprocal).listing =
    .ok ⟨[⟨NodeId.root, [], reciprocalSteps ++ [.print ⟨3⟩]⟩]⟩ := by
  have hdemand := demandAll_reciprocal
  obtain ⟨g, hg⟩ : ∃ g, g = drawn reciprocal := exists_eq
  obtain ⟨n₃, h₃⟩ : ∃ n : Node, n = ⟨⟨3⟩, some NodeId.root,
    .var ⟨[], some "/", true, ⟨[⟨0⟩, ⟨1⟩, ⟨2⟩], [⟨3⟩], [], some ⟨4⟩⟩⟩⟩ := exists_eq
  obtain ⟨n₄, h₄⟩ : ∃ n : Node, n = ⟨⟨4⟩, some NodeId.root,
    .symbol ⟨.output, ⟨[⟨3⟩], [], [], none⟩⟩⟩ := exists_eq
  have hnodes : g.node? ⟨3⟩ = some n₃ ∧ g.node? ⟨4⟩ = some n₄ := by
    rw [hg, h₃, h₄]
    decide +kernel
  have hprinted : printed? g (some ⟨3⟩) ⟨[⟨3⟩], [], [], none⟩ = some ⟨3⟩ := by
    rw [hg]
    decide +kernel
  obtain ⟨s, hscopes, hentry⟩ : ∃ s, g.routineScopes = [(NodeId.root, s)] ∧
      g.entry? NodeId.root s = some ⟨3⟩ := by
    refine ⟨⟨[], [⟨1⟩, ⟨2⟩, ⟨3⟩], [⟨4⟩], some ⟨3⟩, ⟨[], [⟨0⟩], [], none⟩⟩, ?_, rfl⟩
    rw [hg]
    decide +kernel
  rw [← hg] at hdemand ⊢
  obtain ⟨hn₃, hn₄⟩ := hnodes
  have hquotient : ∀ hid, visit g [] none [] ⟨3⟩ n₃ hid = .ok (reciprocalSteps, [⟨3⟩, ⟨2⟩, ⟨1⟩]) := by
    intro hid
    rw [h₃, visit]
    exact hdemand
  have hprint : ∀ hid, visit g [] (some ⟨3⟩) [⟨3⟩, ⟨2⟩, ⟨1⟩] ⟨4⟩ n₄ hid =
      .ok ([.print ⟨3⟩], [⟨3⟩, ⟨2⟩, ⟨1⟩]) := by
    intro hid
    have hknown : demandAll g [⟨3⟩] [⟨3⟩, ⟨2⟩, ⟨1⟩] = .ok ([], [⟨3⟩, ⟨2⟩, ⟨1⟩]) :=
      demandEach_cons _ (demand_of_mem _ (by simp)) (demandEach_nil _)
    have heffective : Symbol.effective ⟨.output, ⟨[⟨3⟩], [], [], none⟩⟩ = .output := rfl
    rw [h₄, visit]
    simp only [heffective, hprinted, hknown]
    rfl
  have hnext : g.next? n₃ = some ⟨4⟩ := by
    rw [h₃]
    rfl
  have hlast : g.next? n₄ = none := by
    rw [h₄]
    rfl
  have hwalk : walk g [] [] none [] (some ⟨3⟩) =
      .ok (reciprocalSteps ++ [.print ⟨3⟩], [⟨3⟩, ⟨2⟩, ⟨1⟩]) :=
    walk_cons (by simp) hn₃ hquotient hnext (walk_cons (by simp) hn₄ hprint hlast (walk_none ..))
  rw [listing, hscopes]
  simp [routine, routineParams, hentry, hwalk, bind, Except.bind, pure, Except.pure]

/-- The text of `reciprocal`. -/
def reciprocalText : String :=
  "zero();\nfunction zero() \x7b\n  var one = 1;\n  var two = 0;\n  var three = one / two;\n" ++
    "  output(three);\n\x7d\n"

lemma compile_reciprocal : (drawn reciprocal).compile = .ok reciprocalText :=
  compile_eq_ok.mpr ⟨_, listing_reciprocal, by decide +kernel⟩

/-- **The text of a drawn graph is read as the program that was written.** -/
theorem read_compile (edits : List Edit) {text : String}
    (h : (drawn edits).compile = .ok text) :
    ∃ l p, (drawn edits).listing = .ok l ∧ l.text = text ∧ Program.read text = .ok p ∧
      (drawn edits).Transcribes l p := by
  obtain ⟨l, hl, rfl⟩ := compile_eq_ok.mp h
  have hg := recorded_drawn edits
  exact ⟨l, l.program, hl, rfl, Listing.read_text (readable_of_listing hg hl),
    transcribes_of_listing hg hl⟩

/-- The text of `reciprocal` is read as what was written. -/
theorem read_compile_reciprocal :
    ∃ l p, (drawn reciprocal).listing = .ok l ∧ l.text = reciprocalText ∧
      Program.read reciprocalText = .ok p ∧ (drawn reciprocal).Transcribes l p :=
  read_compile reciprocal compile_reciprocal

end Graph

end FlowSketch
