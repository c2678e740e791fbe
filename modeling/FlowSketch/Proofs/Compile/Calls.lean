/-
# Calls fit their functions

A call is written where the walk comes to a scope, and a function where the scope itself is
turned into one.  Both look at the same flows into the scope, so a call passes what its function
takes, in the same order.  A scope is only called if it has a start, and then it has a function;
the root has a function as well, which takes nothing, and it is called by the entry.

A call finds its function by name.  It finds the right one because different nodes have different
names.

Main statement: `callsFit_compile`.
-/
import FlowSketch.Proofs.Compile.Listing
import FlowSketch.Proofs.Execution.Faults

namespace FlowSketch

open FlowSketch.Listing (stmts)

/-! ## Programs whose calls fit -/

/-- Every call in a program fits one of its functions. -/
structure Program.CallsFit (p : Program) : Prop where
  /-- Different functions have different names. -/
  names : (p.functions.map (·.name)).Nodup
  /-- Different parameters of a function have different names. -/
  params : ∀ f ∈ p.functions, f.params.Nodup
  /-- A call, whether it is ever made or not, names a function and passes to it the values of the
  names of its parameters, in order. -/
  calls : ∀ block ∈ p.blocks, ∀ name args, Calls name args block.2 →
    ∃ f ∈ p.functions, f.name = name ∧ args = f.params.map Expr.name

namespace Program.CallsFit

variable {p : Program}

/-- A function is found under its name. -/
lemma function?_eq (h : p.CallsFit) {f : Function} (hf : f ∈ p.functions) :
    p.function? f.name = some f := by
  cases hfind : p.function? f.name with
  | none => simpa using List.find?_eq_none.mp hfind f hf
  | some f' =>
    have hname : f'.name = f.name := by simpa using List.find?_some hfind
    rw [List.inj_on_of_nodup_map h.names (List.mem_of_find?_eq_some hfind) hf hname]

/-- A call that fits finds a function and passes as many values as it takes. -/
lemma failure_ne (h : p.CallsFit) (limit : ℕ) (inputs : List String) (name : String) :
    (p.report limit inputs).failure ≠ some (.undefinedFunction name) ∧
      ∀ expected found, (p.report limit inputs).failure ≠
        some (.arityMismatch name expected found) := by
  have hfound : ∀ {block args}, block ∈ p.blocks → Calls name args block.2 →
      ∃ f, p.function? name = some f ∧ f.params.length = args.length := by
    -- arguments are the names of the parameters, so there are as many of both
    intro block args hblock hcall
    obtain ⟨f, hf, rfl, rfl⟩ := h.calls block hblock name args hcall
    exact ⟨f, h.function?_eq hf, (List.length_map _).symm⟩
  constructor
  · intro hfail
    cases Program.origin_of_report hfail with
    | noFunction hblock hcall hnone =>
      obtain ⟨f, hf, -⟩ := hfound hblock hcall
      rw [hnone] at hf
      cases hf
  · intro expected found hfail
    cases Program.origin_of_report hfail with
    | arity hblock hcall hf hne =>
      obtain ⟨f', hf', hlength⟩ := hfound hblock hcall
      rw [hf] at hf'
      cases hf'
      exact hne hlength

end Program.CallsFit

/-! ## The calls that are written -/

namespace Listing

lemma stmts_append (ss rs : List Step) : stmts (ss ++ rs) = stmts ss ++ stmts rs := by
  simp only [stmts_eq_map, List.map_append]

end Listing

namespace Compile

variable {g : Graph} {name : String} {args : List Expr} {known known' : List NodeId}
  {ss : List Listing.Step}

/-- A call of a scope with the parameters of its function. -/
def CallsScope (g : Graph) (name : String) (args : List Expr) : Prop :=
  ∃ id n s, g.node? id = some n ∧ n.kind = .scope s ∧ id.isRoot = false ∧ s.start.isSome = true ∧
    name = id.name ∧ args = (g.parameters s).map fun a => Expr.name a.name

/-- Binding variables calls nothing. -/
lemma Demands.not_calls {ids : List NodeId} (h : Demands g ids known ss known') :
    ¬ Calls name args (stmts ss) := by
  induction h with
  | nil => exact fun h => by cases h
  | known _ _ ih => exact ih
  | bind _ _ _ hown _ ihBefore ihRest =>
    rw [Listing.stmts_append, Listing.stmts_append, calls_append, calls_append]
    rintro ((h | h) | h)
    · exact ihBefore h
    · rcases binding_eq_ok hown with ⟨rfl, -⟩ | ⟨_, _, _, -, -, -, -, rfl⟩
      · cases h
      · cases h with
        | later h => cases h
    · exact ihRest h

lemma Visits.callsScope {previous : Option NodeId} {id : NodeId} {node : Node}
    (h : Visits g previous known id node ss known') (hn : g.node? id = some node)
    (hcall : Calls name args (stmts ss)) : CallsScope g name args := by
  cases h with
  | var _ hdemand => exact absurd hcall hdemand.not_calls
  | skip => cases hcall
  | @call s before _ hk hcalled hdemand =>
    rw [Listing.stmts_append, calls_append] at hcall
    rcases hcall with hcall | hcall
    · exact absurd hcall hdemand.not_calls
    · rw [Bool.or_eq_false_iff, Option.isNone_eq_false_iff] at hcalled
      cases hcall with
      | here => exact ⟨id, node, s, hn, hk, hcalled.1, hcalled.2, rfl, rfl⟩
      | later hcall => cases hcall
  | input =>
    cases hcall with
    | later hcall => cases hcall
  | output _ _ _ hdemand =>
    rw [Listing.stmts_append, calls_append] at hcall
    rcases hcall with hcall | hcall
    · exact absurd hcall hdemand.not_calls
    · cases hcall with
      | later hcall => cases hcall

/-- A walk writes calls of scopes only. -/
lemma Walks.callsScope {previous start : Option NodeId} (h : Walks g previous known start ss known')
    (hcall : Calls name args (stmts ss)) : CallsScope g name args := by
  induction h with
  | stop => cases hcall
  | visit hn hvisit _ ih =>
    rw [Listing.stmts_append, calls_append] at hcall
    exact hcall.elim (hvisit.callsScope hn) ih
  | compare _ _ _ _ _ hfirst hsecond _ _ _ ihYes ihNo ihAfter =>
    rw [Listing.stmts_append, Listing.stmts_append, Listing.stmts_append, calls_append,
      calls_append, calls_append] at hcall
    rcases hcall with ((hcall | hcall) | hcall) | hcall
    · exact absurd hcall hfirst.not_calls
    · exact absurd hcall hsecond.not_calls
    · cases hcall with
      | later hcall => cases hcall
      | onTrue hcall => exact ihYes hcall
      | onFalse hcall => exact ihNo hcall
    · exact ihAfter hcall

end Compile

namespace Graph

open FlowSketch.Compile

variable {g : Graph} {l : Listing}

lemma nodup_routineParams (g : Graph) (id : NodeId) (s : Scope) : (g.routineParams id s).Nodup := by
  unfold routineParams
  split
  · exact List.nodup_nil
  · exact parameters_nodup g s

/-- The function of a scope takes its parameters. -/
lemma exists_function (hg : g.Recorded) (hl : g.listing = .ok l) {id : NodeId} {n : Node}
    {s : Scope} (hn : g.node? id = some n) (hk : n.kind = .scope s)
    (hr : id = NodeId.root ∨ s.start.isSome = true) :
    ∃ f ∈ l.program.functions, f.name = id.name ∧
      f.params = (g.routineParams id s).map NodeId.name := by
  obtain ⟨r, hfind, hparams, -⟩ := exists_find?_routine hg hl hn hk hr
  have hid : r.id = id := by simpa using List.find?_some hfind
  exact ⟨r.function, List.mem_map.mpr ⟨r, List.mem_of_find?_eq_some hfind, rfl⟩,
    congrArg NodeId.name hid, congrArg (List.map NodeId.name) hparams⟩

lemma callsFit_program (hg : g.Recorded) (hl : g.listing = .ok l) : l.program.CallsFit := by
  have hfits : ∀ {name args}, CallsScope g name args →
      ∃ f ∈ l.program.functions, f.name = name ∧ args = f.params.map Expr.name := by
    rintro name args ⟨id, n, s, hn, hk, hroot, hstart, rfl, rfl⟩
    -- a scope that is called is not the root, so its function takes its parameters
    obtain ⟨f, hf, hname, hparams⟩ := exists_function hg hl hn hk (.inr hstart)
    refine ⟨f, hf, hname, ?_⟩
    rw [hparams, routineParams, hroot, List.map_map]
    rfl
  constructor
  case names =>
    have hids : (l.routines.map (·.id)).Nodup := by
      rw [ids_of_listing hl]
      -- functions are listed by growing number of their nodes
      refine (pairwise_routineScopes hg).imp fun {a b} hlt => ?_
      rintro rfl
      exact absurd hlt (Nat.lt_irrefl _)
    have hnames : l.program.functions.map (·.name) = (l.routines.map (·.id)).map NodeId.name := by
      rw [Listing.program, List.map_map, List.map_map]
      rfl
    rw [hnames]
    exact hids.map fun _ _ h => NodeId.name_injective h
  case params =>
    intro f hf
    obtain ⟨r, hr, rfl⟩ := List.mem_map.mp hf
    obtain ⟨n, s, -, -, hparams, -⟩ := exists_scope_of_listing hg hl hr
    rw [Listing.Routine.function, hparams]
    exact (nodup_routineParams g r.id s).map fun _ _ h => NodeId.name_injective h
  case calls =>
    intro block hblock name args hcall
    rcases List.mem_cons.mp hblock with rfl | hblock
    · -- the entry calls the root, which takes no parameters
      obtain ⟨n, s, hn, hk⟩ := hg.exists_root
      obtain ⟨f, hf, hname, hparams⟩ := exists_function hg hl hn hk (.inl rfl)
      cases hcall with
      | here => exact ⟨f, hf, hname, by rw [hparams]; rfl⟩
      | later hcall => cases hcall
    · obtain ⟨f, hf, rfl⟩ := List.mem_map.mp hblock
      obtain ⟨r, hr, rfl⟩ := List.mem_map.mp hf
      obtain ⟨n, s, -, -, -, known, hwalk⟩ := exists_scope_of_listing hg hl hr
      exact hfits ((walks_of_walk hwalk).callsScope hcall)

/-! ## An example -/

/-- A composite variable, and a member of it that an input fills, are both passed to a scope. -/
def handed : List Edit :=
  [.addNode NodeId.root (NodeTag.blank .var), .addNode ⟨1⟩ (NodeTag.blank .var),
    .addNode NodeId.root (NodeTag.blank .symbol), .addNode NodeId.root (NodeTag.blank .scope),
    .addNode ⟨4⟩ (NodeTag.blank .scope),
    .connect ⟨3⟩ ⟨2⟩ ⟨10, 10, 8, 8⟩ ⟨0, 0⟩, .connect ⟨2⟩ ⟨4⟩ ⟨50, 10, 8, 8⟩ ⟨14, 14⟩,
    .connect ⟨1⟩ ⟨4⟩ ⟨50, 20, 8, 8⟩ ⟨0, 0⟩, .connect ⟨4⟩ ⟨5⟩ ⟨60, 40, 8, 8⟩ ⟨0, 0⟩]

/-- The listing of `handed`. -/
def handedListing : Listing :=
  ⟨[⟨NodeId.root, [], [.bind ⟨2⟩ .input, .call ⟨4⟩ [⟨2⟩, ⟨1⟩]]⟩, ⟨⟨4⟩, [⟨2⟩, ⟨1⟩], []⟩]⟩

lemma listing_handed : (drawn handed).listing = .ok handedListing := by
  obtain ⟨g, hg⟩ : ∃ g, g = drawn handed := exists_eq
  obtain ⟨n₁, h₁⟩ : ∃ n : Node, n = ⟨⟨1⟩, some NodeId.root,
    .var ⟨[⟨2⟩], none, false, ⟨[], [⟨2⟩], [⟨2⟩], none⟩⟩⟩ := exists_eq
  obtain ⟨n₂, h₂⟩ : ∃ n : Node, n = ⟨⟨2⟩, some ⟨1⟩,
    .var ⟨[], none, true, ⟨[⟨0⟩], [⟨1⟩], [], some ⟨4⟩⟩⟩⟩ := exists_eq
  obtain ⟨n₃, h₃⟩ : ∃ n : Node, n = ⟨⟨3⟩, some NodeId.root,
    .symbol ⟨.unset, ⟨[], [⟨0⟩], [⟨0⟩], none⟩⟩⟩ := exists_eq
  obtain ⟨s, hs⟩ : ∃ s : Scope, s = ⟨[⟨5⟩], [], [], some ⟨5⟩,
    ⟨[⟨1⟩, ⟨2⟩], [⟨3⟩], [], none⟩⟩ := exists_eq
  obtain ⟨n₄, h₄⟩ : ∃ n : Node, n = ⟨⟨4⟩, some NodeId.root, .scope s⟩ := exists_eq
  obtain ⟨n₅, h₅⟩ : ∃ n : Node, n = ⟨⟨5⟩, some ⟨4⟩,
    .scope ⟨[], [], [], none, ⟨[⟨3⟩], [], [], none⟩⟩⟩ := exists_eq
  obtain ⟨hn₁, hn₂, hn₃, hn₄, hn₅⟩ : g.node? ⟨1⟩ = some n₁ ∧ g.node? ⟨2⟩ = some n₂ ∧
      g.node? ⟨3⟩ = some n₃ ∧ g.node? ⟨4⟩ = some n₄ ∧ g.node? ⟨5⟩ = some n₅ := by
    rw [hg, h₁, h₂, h₃, h₄, h₅, hs]
    decide +kernel
  obtain ⟨hd₁, hparams, hfills⟩ : g.dependencies n₁ = [⟨2⟩] ∧ g.parameters s = [⟨2⟩, ⟨1⟩] ∧
      g.firstBranch? ⟨[], [⟨0⟩], [⟨0⟩], none⟩ = some ⟨2⟩ := by
    rw [hg, h₁, hs]
    decide +kernel
  obtain ⟨r, hscopes, hentry⟩ : ∃ r, g.routineScopes = [(NodeId.root, r), (⟨4⟩, s)] ∧
      g.entry? NodeId.root r = some ⟨3⟩ := by
    refine ⟨⟨[⟨4⟩], [⟨1⟩], [⟨3⟩], none, {}⟩, ?_⟩
    rw [hg, hs]
    decide +kernel
  rw [← hg]
  -- the composite variable is known after its member, without a statement of its own
  have hcomposite : ∀ hid, demand g [] ⟨1⟩ hid [⟨2⟩] = .ok ([], [⟨1⟩, ⟨2⟩]) := by
    intro hid
    have hmembers : ∀ hids, demandEach g [⟨1⟩] [⟨2⟩] hids [⟨2⟩] = .ok ([], [⟨2⟩]) := fun hids =>
      demandEach_cons hids (demand_of_mem _ (by simp)) (demandEach_nil _)
    have hown : binding g ⟨1⟩ n₁ = .ok [] := by
      rw [h₁]
      rfl
    rw [demand_of_node hid (by simp) hn₁ (by simp [hd₁])]
    simp only [hd₁, hmembers, hown]
    rfl
  have hargs : demandAll g [⟨2⟩, ⟨1⟩] [⟨2⟩] = .ok ([], [⟨1⟩, ⟨2⟩]) :=
    demandEach_cons _ (demand_of_mem _ (by simp))
      (demandEach_cons _ (hcomposite _) (demandEach_nil _))
  have hinput : ∀ hid, visit g [] none [] ⟨3⟩ n₃ hid = .ok ([.bind ⟨2⟩ .input], [⟨2⟩]) := by
    intro hid
    have heffective : Symbol.effective ⟨.unset, ⟨[], [⟨0⟩], [⟨0⟩], none⟩⟩ = .input := rfl
    rw [h₃, visit]
    simp only [heffective, hfills]
    rfl
  have hmember : ∀ hid, visit g [] (some ⟨3⟩) [⟨2⟩] ⟨2⟩ n₂ hid = .ok ([], [⟨2⟩]) := by
    intro hid
    rw [h₂, visit]
    exact demandEach_cons _ (demand_of_mem _ (by simp)) (demandEach_nil _)
  have hcall : ∀ hid, visit g [] (some ⟨2⟩) [⟨2⟩] ⟨4⟩ n₄ hid =
      .ok ([.call ⟨4⟩ [⟨2⟩, ⟨1⟩]], [⟨1⟩, ⟨2⟩]) := by
    intro hid
    have hcalled : (NodeId.isRoot ⟨4⟩ || s.start.isNone) = false := by
      rw [hs]
      rfl
    rw [h₄, visit]
    simp only [callOf, hcalled, hparams, hargs]
    rfl
  have hskip : ∀ hid, visit g [] none [⟨2⟩, ⟨1⟩] ⟨5⟩ n₅ hid = .ok ([], [⟨2⟩, ⟨1⟩]) := by
    intro hid
    rw [h₅, visit]
    rfl
  have hnext₃ : g.next? n₃ = some ⟨2⟩ := by
    rw [h₃]
    exact hfills
  obtain ⟨hnext₂, hnext₄, hnext₅⟩ : g.next? n₂ = some ⟨4⟩ ∧ g.next? n₄ = none ∧
      g.next? n₅ = none := by
    rw [h₂, h₄, h₅, hs]
    exact ⟨rfl, rfl, rfl⟩
  have hroot : walk g [] [] none [] (some ⟨3⟩) =
      .ok ([.bind ⟨2⟩ .input, .call ⟨4⟩ [⟨2⟩, ⟨1⟩]], [⟨1⟩, ⟨2⟩]) :=
    walk_cons (by simp) hn₃ hinput hnext₃ (walk_cons (by simp) hn₂ hmember hnext₂
      (walk_cons (by simp) hn₄ hcall hnext₄ (walk_none ..)))
  have hbody : walk g [] [] none [⟨2⟩, ⟨1⟩] (some ⟨5⟩) = .ok ([], [⟨2⟩, ⟨1⟩]) :=
    walk_cons (by simp) hn₅ hskip hnext₅ (walk_none ..)
  have hparams₄ : g.routineParams ⟨4⟩ s = [⟨2⟩, ⟨1⟩] := hparams
  have hentry₄ : g.entry? ⟨4⟩ s = some ⟨5⟩ := by
    rw [hs]
    rfl
  have hparams₀ : g.routineParams NodeId.root r = [] := rfl
  rw [listing, hscopes, handedListing]
  simp [routine, hparams₀, hparams₄, hentry, hentry₄, hroot, hbody, bind, Except.bind, pure,
    Except.pure]

/-- The text of `handed`. -/
def handedText : String :=
  "zero();\nfunction zero() \x7b\n  var two = input();\n  four(two, one);\n\x7d\n" ++
    "function four(two, one) \x7b\n\x7d\n"

lemma compile_handed : (drawn handed).compile = .ok handedText :=
  compile_eq_ok.mpr ⟨_, listing_handed, by decide +kernel⟩

/-- **The calls of a compiled graph fit its functions**, so none of them is of a function that
does not exist or with a wrong number of arguments. -/
theorem callsFit_compile (edits : List Edit) {text : String} {p : Program}
    (h : (drawn edits).compile = .ok text) (hp : Program.read text = .ok p) :
    p.CallsFit ∧ ∀ limit inputs name,
      (p.report limit inputs).failure ≠ some (.undefinedFunction name) ∧
        ∀ expected found, (p.report limit inputs).failure ≠
          some (.arityMismatch name expected found) := by
  obtain ⟨l, hl, rfl⟩ := compile_eq_ok.mp h
  have hg := recorded_drawn edits
  rw [Listing.read_text (readable_of_listing hg hl)] at hp
  cases hp
  have hfit := callsFit_program hg hl
  exact ⟨hfit, hfit.failure_ne⟩

/-- In the text of `handed` a function with two parameters is called. -/
theorem callsFit_handed :
    Program.read handedText = .ok handedListing.program ∧ handedListing.program.CallsFit ∧
      ∀ limit inputs name,
        (handedListing.program.report limit inputs).failure ≠ some (.undefinedFunction name) ∧
          ∀ expected found, (handedListing.program.report limit inputs).failure ≠
            some (.arityMismatch name expected found) := by
  have htext : handedText = handedListing.text := by decide +kernel
  have hread : Program.read handedText = .ok handedListing.program := by
    rw [htext, Listing.read_text (readable_of_listing (recorded_drawn handed) listing_handed)]
  exact ⟨hread, callsFit_compile handed compile_handed hread⟩

end Graph

end FlowSketch
