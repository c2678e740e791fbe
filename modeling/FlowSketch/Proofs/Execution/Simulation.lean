/-
# What the program of a graph does

A graph that compiles can be run, and its program does the same.  The statements of a function
were written in the order in which a run visits the nodes, so each node does what its statements
do: by induction on how they were written.  A call has one level of depth less at its disposal
than its caller, so calls agree by induction on that number.

Main statement: `runText_compile`.
-/
import FlowSketch.Proofs.Compile.Listing
import FlowSketch.Proofs.Execution.Walk

namespace FlowSketch

open Compile (Demands Visits Walks)
open Listing (runSteps)

/-! ## Statements as steps of a run -/

namespace Tour

/-- Goes on with any list of as many results as there are items. -/
lemma ofRun_mapM_congr {α β γ : Type} {f : α → Run β} {l : List α} {k k' : List β → Tour γ}
    (h : ∀ bs, bs.length = l.length → k bs = k' bs) :
    (ofRun (l.mapM f) >>= k) = ofRun (l.mapM f) >>= k' := by
  induction l generalizing k k' with
  | nil =>
    rw [List.mapM_nil, ofRun_pure, pure_bind, pure_bind]
    exact h [] rfl
  | cons a l ih =>
    simp only [List.mapM_cons, ofRun_bind, ofRun_pure, bind_assoc, pure_bind]
    refine bind_congr fun b => ih fun bs hbs => ?_
    exact h (b :: bs) (congrArg (· + 1) hbs)

variable (number : Float → Float) (call : NodeId → List Value → Run Unit)

/-- What statements do to the values of a call.  Which nodes are bound then is given. -/
def ofSteps (bs : Bindings) (ss : List Listing.Step) (known : List NodeId) : Tour Stage := do
  let bs ← ofRun (runSteps number call bs ss)
  return ⟨bs, known⟩

lemma ofRun_runSteps_bind {bs : Bindings} {ss rs : List Listing.Step} {known : List NodeId}
    {k : Bindings → Tour Stage} (h : ∀ bs, k bs = ofSteps number call bs rs known) :
    (ofRun (runSteps number call bs ss) >>= k) = ofSteps number call bs (ss ++ rs) known := by
  rw [funext h, ofSteps, Listing.runSteps_append, ofRun_bind, bind_assoc]
  rfl

/-- Statements in turn. -/
lemma ofSteps_bind {bs : Bindings} {ss rs : List Listing.Step} {between known : List NodeId}
    {k : Stage → Tour Stage} (h : ∀ bs, k ⟨bs, between⟩ = ofSteps number call bs rs known) :
    (ofSteps number call bs ss between >>= k) = ofSteps number call bs (ss ++ rs) known := by
  rw [ofSteps, bind_assoc]
  simp only [pure_bind]
  exact ofRun_runSteps_bind number call h

end Tour

namespace Graph

open Tour (ofRun ofSteps ofSteps_bind ofRun_runSteps_bind)

variable {number : Float → Float} {g : Graph} (call : NodeId → List Value → Run Unit)

/-! ## Variables -/

/-- A variable is given the value that its binding gives it. -/
lemma assign_of_binding {id : NodeId} {node : Node} {own : List Listing.Step}
    (h : Compile.binding g id node = .ok own) (bs : Bindings) :
    g.assign number id node bs = ofRun (runSteps number call bs own) := by
  unfold assign Node.var?
  rcases Compile.binding_eq_ok h with ⟨rfl, hplain⟩ | ⟨v, text, value, hk, ha, ht, hvalue, rfl⟩
  · cases hk : node.kind with
    | scope s => rfl
    | symbol k => rfl
    | var v =>
      dsimp only
      rw [if_neg (Bool.eq_false_iff.mp (hplain v hk))]
      rfl
  · rw [hk]
    dsimp only
    rw [if_pos ha, ht]
    dsimp only
    rw [hvalue, Listing.runSteps_single, Listing.Step.run, Tour.ofRun_bind]
    rfl

/-- Nodes are bound by the statements that bind them. -/
lemma bindAll_of_demands {ids known known' : List NodeId} {ss : List Listing.Step}
    (h : Demands g ids known ss known') (bs : Bindings) :
    g.bindAll number ids ⟨bs, known⟩ = ofSteps number call bs ss known' := by
  induction h generalizing bs with
  | nil known =>
    rw [bindAll]
    rfl
  | known hmem _ ih =>
    rw [bindAll, if_pos hmem]
    exact ih bs
  | bind hnew hn _ hown _ ihBefore ihRest =>
    rw [bindAll, if_neg hnew, hn]
    dsimp only
    rw [ihBefore, List.append_assoc]
    refine ofSteps_bind number call fun bs => ?_
    rw [assign_of_binding call hown]
    exact ofRun_runSteps_bind number call ihRest

/-! ## Nodes -/

/-- Calls of scopes do what calls of their functions do. -/
def CallsAgree (g : Graph) (enter : NodeId → List Value → Tour Unit)
    (call : NodeId → List Value → Run Unit) : Prop :=
  ∀ id n s args, g.node? id = some n → n.kind = .scope s →
    (id = NodeId.root ∨ s.start.isSome = true) → args.length = (g.routineParams id s).length →
    enter id args = ofRun (call id args)

variable {call} {enter : NodeId → List Value → Tour Unit}

/-- A scope is called by the statement that calls it. -/
lemma invoke_of_demands (hcalls : g.CallsAgree enter call) {id : NodeId} {n : Node} {s : Scope}
    (hn : g.node? id = some n) (hk : n.kind = .scope s)
    (hcalled : (id.isRoot || s.start.isNone) = false) {known known' : List NodeId}
    {before : List Listing.Step} (h : Demands g (g.parameters s) known before known')
    (bs : Bindings) : g.invoke number enter id s ⟨bs, known⟩ =
      ofSteps number call bs (before ++ [.call id (g.parameters s)]) known' := by
  obtain ⟨hroot, hstart⟩ := Bool.or_eq_false_iff.mp hcalled
  have hparams : g.routineParams id s = g.parameters s := by
    rw [routineParams, hroot]
    rfl
  rw [invoke, hcalled, if_neg Bool.false_ne_true, bindAll_of_demands call h]
  refine ofSteps_bind number call fun bs => ?_
  rw [ofSteps, Listing.runSteps_single, Listing.Step.run]
  simp only [Tour.ofRun_bind, Tour.ofRun_pure, bind_assoc, pure_bind]
  refine Tour.ofRun_mapM_congr fun args hargs => ?_
  rw [hcalls id n s args hn hk (.inr (by simpa using hstart)) (by rw [hparams, hargs])]

/-- An output prints by the statement that prints. -/
lemma printValue_of_demands {previous : Option NodeId} {links : Links} {value : NodeId}
    (hvalue : Compile.printed? g previous links = some value) {known known' : List NodeId}
    {before : List Listing.Step} (h : Demands g [value] known before known') (bs : Bindings) :
    g.printValue number previous links ⟨bs, known⟩ =
      ofSteps number call bs (before ++ [.print value]) known' := by
  rw [printValue, hvalue]
  dsimp only
  rw [bindAll_of_demands call h]
  refine ofSteps_bind number call fun bs => ?_
  rw [ofSteps, Listing.runSteps_single, Listing.Step.run]
  simp only [Tour.ofRun_bind, Tour.ofRun_pure, bind_assoc, pure_bind]

/-- An input reads by the statement that reads. -/
lemma readLine_of_target {links : Links} {target : NodeId}
    (htarget : (g.firstBranch? links).or links.next = some target) (known : List NodeId)
    (bs : Bindings) : g.readLine links ⟨bs, known⟩ =
      ofSteps number call bs [.bind target .input] (target :: known) := by
  rw [readLine, htarget, ofSteps, Listing.runSteps_single, Listing.Step.run, Listing.Value.run,
    map_eq_pure_bind]
  simp only [Tour.ofRun_bind, Tour.ofRun_pure, bind_assoc, pure_bind]

/-- A node does what the statements do that were written for it. -/
lemma act_of_visits (hcalls : g.CallsAgree enter call) {previous : Option NodeId}
    {known known' : List NodeId} {id : NodeId} {node : Node} {ss : List Listing.Step}
    (hn : g.node? id = some node) (h : Visits g previous known id node ss known') (bs : Bindings) :
    g.act number enter previous id node ⟨bs, known⟩ = ofSteps number call bs ss known' := by
  cases h with
  | var hk hdemand =>
    rw [act, hk]
    exact bindAll_of_demands call hdemand bs
  | skip hk hskip =>
    rw [act, hk]
    exact if_pos hskip
  | call hk hcalled hdemand =>
    rw [act, hk]
    exact invoke_of_demands hcalls hn hk hcalled hdemand bs
  | input hk heffective htarget =>
    rw [act, hk]
    dsimp only
    rw [heffective]
    exact readLine_of_target htarget known bs
  | output hk heffective hvalue hdemand =>
    rw [act, hk]
    dsimp only
    rw [heffective]
    exact printValue_of_demands hvalue hdemand bs

/-- A comparison does what its statement does, if the ways out of it do. -/
lemma act_of_compare {previous : Option NodeId} {known known₁ known₂ knownYes knownNo : List NodeId}
    {id : NodeId} {node : Node} {k : Symbol} {left right onFalse onTrue : Flow}
    {first second yes no : List Listing.Step} (hk : node.kind = .symbol k)
    (heffective : k.effective = .compare)
    (hin : byArrival (g.flowsOf k.links.incoming) = [left, right])
    (hout : byArrival (g.flowsOf k.links.branches) = [onFalse, onTrue])
    (hfirst : Demands g (g.ifVariable left.source) known first known₁)
    (hsecond : Demands g (g.ifVariable right.source) known₁ second known₂)
    (hyes : ∀ bs, g.follow number enter none (some onTrue.target) ⟨bs, known₂⟩ =
      ofSteps number call bs yes knownYes)
    (hno : ∀ bs, g.follow number enter none (some onFalse.target) ⟨bs, known₂⟩ =
      ofSteps number call bs no knownNo) (bs : Bindings) :
    g.act number enter previous id node ⟨bs, known⟩ = ofSteps number call bs
      (first ++ second ++ [.branch left.source right.source yes no]) known₂ := by
  rw [act, hk]
  dsimp only
  rw [heffective]
  dsimp only
  rw [hin, hout]
  dsimp only
  rw [bindAll_of_demands call hfirst, List.append_assoc]
  refine ofSteps_bind number call fun bs => ?_
  rw [bindAll_of_demands call hsecond]
  refine ofSteps_bind number call fun bs => ?_
  rw [ofSteps, Listing.runSteps_single, Listing.Step.run]
  simp only [Tour.ofRun_bind, bind_assoc]
  refine bind_congr fun x => bind_congr fun y => ?_
  by_cases hgreater : x.greater y = true
  · rw [if_pos hgreater, if_pos hgreater, hyes, ofSteps, bind_assoc]
    simp only [pure_bind]
  · rw [if_neg hgreater, if_neg hgreater, hno, ofSteps, bind_assoc]
    simp only [pure_bind]

/-- **Following the nodes does what the statements do that were written on the way.** -/
lemma follow_of_walks (hcalls : g.CallsAgree enter call) {previous start : Option NodeId}
    {known known' : List NodeId} {ss : List Listing.Step}
    (h : Walks g previous known start ss known') (bs : Bindings) :
    g.follow number enter previous start ⟨bs, known⟩ = ofSteps number call bs ss known' := by
  induction h generalizing bs with
  | stop =>
    rw [follow]
    rfl
  | visit hn hvisit _ ih =>
    rw [follow, hn]
    dsimp only
    rw [act_of_visits hcalls hn hvisit]
    exact ofSteps_bind number call ih
  | compare hn hk heffective hin hout hfirst hsecond _ _ _ ihYes ihNo ihAfter =>
    rw [follow, hn]
    dsimp only
    rw [act_of_compare hk heffective hin hout hfirst hsecond ihYes ihNo]
    exact ofSteps_bind number call ihAfter

/-! ## Calls -/

/-- Calls of scopes do what calls of their functions do. -/
lemma callsAgree_callWithin (hg : g.Recorded) {l : Listing} (hl : g.listing = .ok l)
    (limit left : ℕ) :
    g.CallsAgree (g.enter number limit left) (l.callWithin number limit left) := by
  induction left with
  | zero =>
    intro id n s args hn hk hr hargs
    obtain ⟨r, hfind, hparams, -⟩ := exists_find?_routine hg hl hn hk hr
    rw [enter, Listing.callWithin, hfind]
    dsimp only
    rw [if_neg (by rw [hparams, hargs]; simp)]
    rfl
  | succ left ih =>
    intro id n s args hn hk hr hargs
    obtain ⟨r, hfind, hparams, known, hwalk⟩ := exists_find?_routine hg hl hn hk hr
    have hscope : (g.node? id).bind Node.scope? = some s := by
      rw [hn, Option.bind_some, Node.scope?, hk]
    rw [enter, Listing.callWithin, hfind, hscope]
    dsimp only
    rw [if_neg (by rw [hparams, hargs]; simp), ← hparams, follow_of_walks ih hwalk, ofSteps,
      Tour.ofRun_bind, bind_assoc]
    simp only [pure_bind, Tour.ofRun_pure]

/-- **A graph that compiles can be run, and does what its listing does.** -/
theorem outcome?_of_listing (hg : g.Recorded) {l : Listing} (hl : g.listing = .ok l) (limit : ℕ)
    (inputs : List String) : g.outcome? number limit inputs =
      some ((l.callWithin number limit limit NodeId.root []).report inputs) := by
  obtain ⟨n, s, hn, hk⟩ := hg.exists_root
  rw [outcome?, callsAgree_callWithin hg hl limit limit NodeId.root n s [] hn hk (.inl rfl) rfl,
    Tour.report?_ofRun]

/-- The text of a listing does what the listing does in which both zeros count as one. -/
lemma runText_of_listing (hg : g.Recorded) {l : Listing} (hl : g.listing = .ok l) (limit : ℕ)
    (inputs : List String) : Program.runText l.text limit inputs =
      ((l.callWithin Decimal.unsignedZero limit limit NodeId.root []).report inputs).mapError
        .fault := by
  rw [Program.runText, Listing.read_text (readable_of_listing hg hl), ← Listing.report_program]

/-- **A drawn graph that compiles can be run, and its program text does the same**, where both
zeros that may be written on a variable count as the positive one. -/
theorem runText_compile (edits : List Edit) {text : String}
    (h : (drawn edits).compile = .ok text) (limit : ℕ) (inputs : List String) :
    ((drawn edits).outcome? Decimal.unsignedZero limit inputs).map (·.mapError .fault) =
      some (Program.runText text limit inputs) := by
  obtain ⟨l, hl, rfl⟩ := compile_eq_ok.mp h
  have hg := recorded_drawn edits
  rw [outcome?_of_listing hg hl, runText_of_listing hg hl]
  rfl

/-- The text of `reciprocal` does what the graph does. -/
theorem runText_compile_reciprocal :
    ((drawn reciprocal).outcome? Decimal.unsignedZero 64 []).map (·.mapError .fault) =
      some (Program.runText reciprocalText 64 []) :=
  runText_compile reciprocal compile_reciprocal 64 []

/-- With the sign of its zero the graph `reciprocal` prints something else than its text. -/
theorem sign_of_zero_lost :
    (drawn reciprocal).compile = .ok reciprocalText ∧
      (drawn reciprocal).outcome? id 64 [] = some ⟨none, ["-inf"], 0⟩ ∧
      Program.runText reciprocalText 64 [] = ⟨none, ["inf"], 0⟩ := by
  have hg := recorded_drawn reciprocal
  have htext : reciprocalText =
      (⟨[⟨NodeId.root, [], reciprocalSteps ++ [.print ⟨3⟩]⟩]⟩ : Listing).text := by
    decide +kernel
  refine ⟨compile_reciprocal, ?_, ?_⟩
  · rw [outcome?_of_listing hg listing_reciprocal]
    decide +kernel
  · rw [htext, runText_of_listing hg listing_reciprocal]
    decide +kernel

end Graph

end FlowSketch
