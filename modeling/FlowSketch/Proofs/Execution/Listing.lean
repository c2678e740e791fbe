/-
# Running a listing

A listing can be run as it stands: a call keeps the values of nodes, and functions are called by
their scopes.  Different nodes have different names, so this is what the program of the listing
does.

A program text has only one zero.  What a number counts that was written on a node is therefore a
parameter here; the program of a listing is the case in which both zeros count as the positive
one.

Main statement: `report_program`.
-/
import FlowSketch.Execution.Run
import FlowSketch.Program.Listing
import FlowSketch.Proofs.Program.Names

namespace FlowSketch

/-! ## Chains of any operands -/

namespace Chain

variable {α β : Type}

/-- Joins the operands of every operator of one tightness, from left to right. -/
def joinFrom (join : Operator → α → α → α) (degree : ℕ) (lhs : α) :
    List (Operator × α) → Chain α
  | [] => ⟨lhs, []⟩
  | r :: rest =>
    if r.1.tightness = degree then joinFrom join degree (join r.1 lhs r.2) rest
    else
      let c := joinFrom join degree r.2 rest
      ⟨lhs, (r.1, c.first) :: c.rest⟩

/-- The operands of a chain, joined from the tightest operators to the loosest. -/
def joined (join : Operator → α → α → α) (c : Chain α) : α :=
  ([4, 3, 2, 1].foldl (fun c degree => joinFrom join degree c.first c.rest) c).first

lemma contractFrom_eq_joinFrom (degree : ℕ) (lhs : Expr) (rest : List (Operator × Expr)) :
    contractFrom degree lhs rest = joinFrom Expr.binary degree lhs rest := by
  induction rest generalizing lhs with
  | nil => rfl
  | cons r rest ih =>
    rw [contractFrom, joinFrom, ih, ih]

/-- The expression of a chain joins its operands. -/
lemma expr_eq_joined (c : Chain Expr) : c.expr = c.joined Expr.binary := by
  have hcontract : ∀ (c : Chain Expr) (degree : ℕ),
      c.contract degree = joinFrom Expr.binary degree c.first c.rest :=
    fun c degree => contractFrom_eq_joinFrom degree c.first c.rest
  simp only [expr, joined, hcontract]

section Map

variable {f : α → β} {join : Operator → α → α → α} {join' : Operator → β → β → β}

lemma map_joinFrom (h : ∀ op a b, f (join op a b) = join' op (f a) (f b)) (degree : ℕ) (lhs : α)
    (rest : List (Operator × α)) :
    (joinFrom join degree lhs rest).map f =
      joinFrom join' degree (f lhs) (rest.map fun r => (r.1, f r.2)) := by
  induction rest generalizing lhs with
  | nil => rfl
  | cons r rest ih =>
    rw [List.map_cons, joinFrom, joinFrom, ← h]
    split
    · exact ih _
    · rw [← ih]
      rfl

/-- What is done to the joined operands can be done to each of them. -/
lemma joined_map (h : ∀ op a b, f (join op a b) = join' op (f a) (f b)) (c : Chain α) :
    (c.map f).joined join' = f (c.joined join) := by
  have hstep : ∀ (degrees : List ℕ) (c : Chain α),
      degrees.foldl (fun c degree => joinFrom join' degree c.first c.rest) (c.map f) =
        (degrees.foldl (fun c degree => joinFrom join degree c.first c.rest) c).map f := by
    intro degrees
    induction degrees with
    | nil => exact fun c => rfl
    | cons degree degrees ih =>
      intro c
      rw [List.foldl_cons, List.foldl_cons, ← ih, map_joinFrom h]
      rfl
  rw [joined, hstep]
  rfl

end Map

end Chain

/-! ## The values of nodes -/

/-- The values of nodes in one call, the latest first. -/
abbrev Bindings := List (NodeId × Value)

namespace Bindings

/-- The value of a node. -/
def value (bs : Bindings) (id : NodeId) : Run Value :=
  match bs.lookup id with
  | some v => pure v
  | none => throw (.undefinedVariable id.name)

/-- The values of nodes under their names. -/
def frame (bs : Bindings) : Frame := ⟨bs.map fun b => (b.1.name, b.2)⟩

lemma lookup?_frame (bs : Bindings) (id : NodeId) : bs.frame.lookup? id.name = bs.lookup id := by
  induction bs with
  | nil => rfl
  | cons b bs ih =>
    have hcons : frame (b :: bs) = (frame bs).bind b.1.name b.2 := rfl
    rw [hcons, Frame.lookup?_bind, ih, List.lookup_cons]
    by_cases h : id = b.1
    · rw [if_pos (congrArg NodeId.name h), beq_iff_eq.mpr h]
    · rw [if_neg fun hname => h (NodeId.name_injective hname), beq_eq_false_iff_ne.mpr h]

/-- A name stands for its node. -/
lemma eval_name (bs : Bindings) (id : NodeId) : (Expr.name id.name).eval bs.frame = bs.value id := by
  rw [Expr.eval, lookup?_frame]
  rfl

/-- The arguments of a call are the latest values of its parameters. -/
lemma frame_arguments (params : List NodeId) (args : List Value) :
    Frame.ofArguments (params.map NodeId.name) args = frame (params.zip args).reverse := by
  have hfold : ∀ (bs : Bindings) (ps : Bindings),
      (ps.map fun b => (b.1.name, b.2)).foldl (fun f b => Frame.bind f b.1 b.2) bs.frame =
        frame (ps.reverse ++ bs) := by
    intro bs ps
    induction ps generalizing bs with
    | nil => rfl
    | cons b ps ih =>
      rw [List.map_cons, List.foldl_cons, List.reverse_cons, List.append_assoc]
      exact ih (b :: bs)
  have hzip : (params.map NodeId.name).zip args =
      (params.zip args).map fun b => (b.1.name, b.2) := by
    rw [List.zip_map_left]
    rfl
  rw [Frame.ofArguments, hzip]
  exact (hfold [] (params.zip args)).trans (by rw [List.append_nil])

end Bindings

/-- An operator is applied to what its operands give, the left one before the right one. -/
def Run.operate (op : Operator) (a b : Run Value) : Run Value := do
  let x ← a
  let y ← b
  Run.ofExcept (Value.apply op x y)

/-- How a run ended, and what it read and printed. -/
def Run.report (r : Run Unit) (inputs : List String) : RunReport Fault :=
  match r (Console.ofInputs inputs) with
  | .ok _ c => ⟨none, c.output, c.reads⟩
  | .error e c => ⟨some e, c.output, c.reads⟩

/-- A number with the positive zero in place of both. -/
def Decimal.unsignedZero (x : Float) : Float := if x == 0 then 0 else x

/-! ## Steps -/

namespace Listing

section Running

variable (number : Float → Float) (call : NodeId → List FlowSketch.Value → Run Unit)

/-- What the right side of a binding gives. -/
def Value.run (bs : Bindings) : Value → Run FlowSketch.Value
  | .number x => pure (.number (number x))
  | .text s => pure (.text s)
  | .chain c => (c.map bs.value).joined Run.operate
  | .input => .text <$> Run.read

mutual

/-- Runs a step. -/
def Step.run (bs : Bindings) : Step → Run Bindings
  | .bind id v => do
    let x ← v.run number bs
    return (id, x) :: bs
  | .print id => do
    let x ← bs.value id
    Run.print x.display
    return bs
  | .call id args => do
    let xs ← args.mapM bs.value
    call id xs
    return bs
  | .branch left right onTrue onFalse => do
    let x ← bs.value left
    let y ← bs.value right
    if x.greater y then runSteps bs onTrue else runSteps bs onFalse

/-- Runs steps in turn. -/
def runSteps (bs : Bindings) : List Step → Run Bindings
  | [] => return bs
  | s :: ss => do
    let bs ← Step.run bs s
    runSteps bs ss

end

lemma runSteps_append (bs : Bindings) (ss rs : List Step) :
    runSteps number call bs (ss ++ rs) =
      runSteps number call bs ss >>= fun bs => runSteps number call bs rs := by
  induction ss generalizing bs with
  | nil => rw [List.nil_append, runSteps, pure_bind]
  | cons s ss ih =>
    rw [List.cons_append, runSteps, runSteps, bind_assoc]
    exact bind_congr fun bs => ih bs

lemma runSteps_single (bs : Bindings) (s : Step) :
    runSteps number call bs [s] = Step.run number call bs s := by
  rw [runSteps]
  exact bind_pure _

end Running

/-- Calls the function of a scope, with so many levels of depth left out of `limit`. -/
def callWithin (number : Float → Float) (l : Listing) (limit : ℕ) :
    (left : ℕ) → NodeId → List FlowSketch.Value → Run Unit
  | left, id, args =>
    match l.routines.find? (·.id == id) with
    | none => throw (.undefinedFunction id.name)
    | some r =>
      if r.params.length ≠ args.length then
        throw (.arityMismatch id.name r.params.length args.length)
      else
        match left with
        | 0 => throw (.callDepthExceeded limit)
        | left + 1 => do
          let _ ← runSteps number (callWithin number l limit left) (r.params.zip args).reverse r.body

/-! ## The program of a listing -/

section Program

/-- An expression gives what the value gives that it stands for. -/
lemma eval_expr (bs : Bindings) (v : Value) : v.expr.eval bs.frame = v.run Decimal.unsignedZero bs := by
  cases v with
  | number x => rfl
  | text s => rfl
  | chain c =>
    have hname : (c.map fun id => Expr.name id.name).map (Expr.eval bs.frame) =
        c.map bs.value := by
      simp [Chain.map, Bindings.eval_name]
    have hjoin : ∀ op a b, Expr.eval bs.frame (.binary op a b) =
        Run.operate op (Expr.eval bs.frame a) (Expr.eval bs.frame b) := fun op a b => rfl
    rw [Value.expr, Value.run, Chain.expr_eq_joined, ← hname, Chain.joined_map hjoin]
  | input => rfl

variable (call : CallHandler)

mutual

/-- A statement does what its step does. -/
lemma exec_stmt (bs : Bindings) (s : Step) : s.stmt.exec call bs.frame =
    Bindings.frame <$> s.run Decimal.unsignedZero (fun id => call id.name) bs := by
  cases s with
  | bind id v =>
    rw [Step.stmt, Stmt.exec, Step.run, eval_expr]
    simp only [map_bind, map_pure]
    rfl
  | print id =>
    rw [Step.stmt, Stmt.exec, Step.run, Bindings.eval_name]
    simp only [map_bind, map_pure]
  | call id args =>
    have hargs : (args.map fun a => Expr.name a.name).mapM (Expr.eval bs.frame) =
        args.mapM bs.value := by
      rw [List.mapM_map]
      exact congrArg (args.mapM ·) (funext fun a => bs.eval_name a)
    rw [Step.stmt, Stmt.exec, Step.run, hargs]
    simp only [map_bind, map_pure]
  | branch left right onTrue onFalse =>
    rw [Step.stmt, Stmt.exec, Step.run, Expr.eval, Bindings.eval_name, Bindings.eval_name]
    simp only [map_bind, bind_assoc]
    refine bind_congr fun x => bind_congr fun y => ?_
    rw [Value.apply, Run.ofExcept, pure_bind, Value.holds]
    cases x.greater y with
    | true => exact execAll_stmts bs onTrue
    | false => exact execAll_stmts bs onFalse

/-- Statements do what their steps do. -/
lemma execAll_stmts (bs : Bindings) (ss : List Step) : Stmt.execAll call bs.frame (stmts ss) =
    Bindings.frame <$> runSteps Decimal.unsignedZero (fun id => call id.name) bs ss := by
  cases ss with
  | nil => rfl
  | cons s ss =>
    rw [stmts, Stmt.execAll, runSteps, exec_stmt, map_bind, bind_map_left]
    exact bind_congr fun bs => execAll_stmts bs ss

end

end Program

/-- A name finds the function of its scope. -/
lemma function?_program (l : Listing) (id : NodeId) :
    l.program.function? id.name = (l.routines.find? (·.id == id)).map Routine.function := by
  have hsame : ((fun f : Function => f.name == id.name) ∘ Routine.function) = (·.id == id) := by
    funext r
    rw [Bool.eq_iff_iff]
    simp only [Function.comp, Routine.function, beq_iff_eq]
    exact ⟨fun h => NodeId.name_injective h, fun h => congrArg NodeId.name h⟩
  rw [Program.function?, program, List.find?_map, hsame]

/-- A call by name does what the call of the scope does. -/
lemma callWithin_program (l : Listing) (limit left : ℕ) (id : NodeId)
    (args : List FlowSketch.Value) : l.program.callWithin limit left id.name args =
      l.callWithin Decimal.unsignedZero limit left id args := by
  induction left generalizing id args with
  | zero =>
    rw [Program.callWithin, callWithin, function?_program]
    cases l.routines.find? (·.id == id) with
    | none => rfl
    | some r => simp [Routine.function]
  | succ left ih =>
    have hcall : (fun id : NodeId => l.program.callWithin limit left id.name) =
        l.callWithin Decimal.unsignedZero limit left :=
      funext fun id => funext fun args => ih id args
    rw [Program.callWithin, callWithin, function?_program]
    cases l.routines.find? (·.id == id) with
    | none => rfl
    | some r =>
      simp only [Option.map_some, Routine.function, List.length_map]
      split
      · rfl
      · rw [Bindings.frame_arguments, execAll_stmts, bind_map_left, hcall]

/-- **The program of a listing does what the listing does in which both zeros count as one.** -/
theorem report_program (l : Listing) (limit : ℕ) (inputs : List String) :
    l.program.report limit inputs =
      (l.callWithin Decimal.unsignedZero limit limit NodeId.root []).report inputs := by
  have hexec : l.program.exec limit =
      l.callWithin Decimal.unsignedZero limit limit NodeId.root [] := by
    rw [← callWithin_program, Program.exec, program]
    simp only [Stmt.execAll, Stmt.exec, List.mapM_nil, pure_bind, bind_assoc]
    exact bind_pure _
  rw [← hexec]
  rfl

end Listing

end FlowSketch
