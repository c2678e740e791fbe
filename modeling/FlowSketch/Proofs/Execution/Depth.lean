/-
# The depth of calls

A run stops where calls are nested too deeply.  With a greater limit it does the same up to that
point, and then more.  So a limit that is not met could as well be any greater one, and what was
printed before a limit was met is printed under every greater one.

In a run every call has one level of depth less at its disposal than its caller, which is why runs
end.  The descents of this file do the same without that reason.  They count how deeply their calls
are nested: one more when a call begins, one less when it has come to an end, with a fault or
without.  There is nothing in a descent that gets smaller, and one that goes on forever has no
outcome.  There is none.

Main statement: `report_of_limit`.
-/
import FlowSketch.Proofs.Execution.Lookahead

namespace FlowSketch

/-! ## Descents -/

/-- A console, and how deeply calls are nested. -/
structure Level where
  /-- What was read and printed. -/
  console : Console
  /-- The number of calls that have begun and not come to an end. -/
  depth : ℕ

/-- A run that counts its depth.  If it goes on forever it has no outcome. -/
abbrev Descent (α : Type) := ExceptT Fault (StateT Level Option) α

namespace Descent

variable {α β : Type}

/-- An action on the console, which leaves the depth as it is. -/
def ofRun (r : Run α) : Descent α := ExceptT.mk fun l =>
  match r l.console with
  | .ok a c => some (.ok a, ⟨c, l.depth⟩)
  | .error e c => some (.error e, ⟨c, l.depth⟩)

/-- How a descent from the surface ended, and what it read and printed. -/
def report? (x : Descent Unit) (inputs : List String) : Option (RunReport Fault) :=
  match x.run.run ⟨Console.ofInputs inputs, 0⟩ with
  | none => none
  | some (.ok _, l) => some ⟨none, l.console.output, l.console.reads⟩
  | some (.error e, l) => some ⟨some e, l.console.output, l.console.reads⟩

end Descent

-- The fixpoints of this file call themselves with a pipe.  A plain call would also put its place in
-- the file into their bodies, and that is no part of what they mean.
mutual

/-- Runs a statement. -/
def Program.descend (p : Program) (limit : ℕ) (frame : Frame) (s : Stmt) : Descent Frame :=
  match s with
  | .bind name value => do
    let v ← Descent.ofRun (value.eval frame)
    return frame.bind name v
  | .print value => do
    let v ← Descent.ofRun (value.eval frame)
    Descent.ofRun (Run.print v.display)
    return frame
  | .call name args => do
    let vs ← Descent.ofRun (args.mapM (Expr.eval frame))
    p |>.descendInto limit name vs
    return frame
  | .branch cond onTrue onFalse => do
    let v ← Descent.ofRun (cond.eval frame)
    if v.holds then p |>.descendAll limit frame onTrue else p |>.descendAll limit frame onFalse
partial_fixpoint

/-- Runs statements in turn. -/
def Program.descendAll (p : Program) (limit : ℕ) (frame : Frame) (ss : List Stmt) :
    Descent Frame :=
  match ss with
  | [] => return frame
  | s :: ss => do
    let frame ← p |>.descend limit frame s
    p |>.descendAll limit frame ss
partial_fixpoint

/-- Calls a function, unless the calls that have not come to an end are as many as the limit
allows.  However the call ends, it is one of them no more. -/
def Program.descendInto (p : Program) (limit : ℕ) (name : String) (args : List Value) :
    Descent Unit :=
  match p.function? name with
  | none => throw (.undefinedFunction name)
  | some f =>
    if f.params.length ≠ args.length then
      throw (.arityMismatch name f.params.length args.length)
    else do
      let depth ← Level.depth <$> get
      if limit ≤ depth then throw (.callDepthExceeded depth)
      else (do
        modify fun l => ⟨l.console, l.depth + 1⟩
        let result ← ExceptT.run (p |>.descendAll limit (Frame.ofArguments f.params args) f.body)
        modify fun l => ⟨l.console, l.depth - 1⟩
        return result.map fun _ => () : StateT Level Option (Except Fault Unit))
partial_fixpoint

end

/-- Runs a program, and counts the depth of its calls. -/
def Program.descent (p : Program) (limit : ℕ) : Descent Unit := do
  let _ ← p.descendAll limit {} p.entry

/-! ## Descents end -/

namespace Descent

variable {α β : Type} {x : Descent α} {f : α → Descent β} {r : Run α} {g : α → Run β} {depth : ℕ}

/-- At a depth, a descent has the outcome of an action, and comes back to that depth. -/
def Does (x : Descent α) (depth : ℕ) (r : Run α) : Prop :=
  ∀ c, x ⟨c, depth⟩ = ofRun r ⟨c, depth⟩

lemma does_ofRun (r : Run α) (depth : ℕ) : (ofRun r).Does depth r := fun _ => rfl

lemma does_pure (a : α) (depth : ℕ) : (pure a : Descent α).Does depth (pure a) := fun _ => rfl

lemma does_throw (e : Fault) (depth : ℕ) : (throw e : Descent α).Does depth (throw e) :=
  fun _ => rfl

/-- Of two descents in turn, the second one begins where the first one has come to. -/
lemma bind_apply (x : Descent α) (f : α → Descent β) (l : Level) :
    (x >>= f) l = match x l with
      | some (.ok a, l) => f a l
      | some (.error e, l) => some (.error e, l)
      | none => none := by
  change Option.bind (x l) (fun q => ExceptT.bindCont f q.1 q.2) = _
  rcases x l with _ | ⟨_ | a, l⟩
  · rfl
  · rfl
  · rfl

/-- Descents in turn do what actions in turn do. -/
lemma Does.bind (hx : x.Does depth r) (hf : ∀ a, (f a).Does depth (g a)) :
    (x >>= f).Does depth (r >>= g) := by
  intro c
  rw [bind_apply, hx c]
  unfold ofRun ExceptT.mk
  dsimp only
  cases h : r c with
  | ok a d =>
    rw [Run.bind_of_ok h]
    exact hf a d
  | error e d => rw [Run.bind_of_error h]

end Descent

namespace Program

variable {p : Program} {limit depth : ℕ} {call : CallHandler}

mutual

lemma descend_does
    (hcall : ∀ name args, (p.descendInto limit name args).Does depth (call name args))
    (frame : Frame) (s : Stmt) : (p.descend limit frame s).Does depth (s.exec call frame) := by
  cases s with
  | bind name value =>
    rw [descend, Stmt.exec]
    exact (Descent.does_ofRun _ _).bind fun v => Descent.does_pure _ _
  | print value =>
    rw [descend, Stmt.exec]
    exact (Descent.does_ofRun _ _).bind fun v => (Descent.does_ofRun _ _).bind fun _ =>
      Descent.does_pure _ _
  | call name args =>
    rw [descend, Stmt.exec]
    exact (Descent.does_ofRun _ _).bind fun vs => (hcall name vs).bind fun _ =>
      Descent.does_pure _ _
  | branch cond onTrue onFalse =>
    rw [descend, Stmt.exec]
    refine (Descent.does_ofRun _ _).bind fun v => ?_
    split
    · exact descendAll_does hcall frame onTrue
    · exact descendAll_does hcall frame onFalse

/-- Statements do what they do in a run, if calls do. -/
lemma descendAll_does
    (hcall : ∀ name args, (p.descendInto limit name args).Does depth (call name args))
    (frame : Frame) (ss : List Stmt) :
    (p.descendAll limit frame ss).Does depth (Stmt.execAll call frame ss) := by
  cases ss with
  | nil =>
    rw [descendAll, Stmt.execAll]
    exact Descent.does_pure _ _
  | cons s ss =>
    rw [descendAll, Stmt.execAll]
    exact (descend_does hcall frame s).bind fun frame => descendAll_does hcall frame ss

end

/-- A call that fits its function stops at the limit, or goes one level down and comes back. -/
lemma descendInto_of_fits {name : String} {args : List Value} {f : Function}
    (hf : p.function? name = some f) (hlength : f.params.length = args.length) (c : Console) :
    p.descendInto limit name args ⟨c, depth⟩ =
      if limit ≤ depth then some (.error (.callDepthExceeded depth), ⟨c, depth⟩)
      else match p.descendAll limit (.ofArguments f.params args) f.body ⟨c, depth + 1⟩ with
        | some (result, l) => some (result.map fun _ => (), ⟨l.console, l.depth - 1⟩)
        | none => none := by
  rw [descendInto, hf]
  dsimp only
  rw [if_neg (not_not_intro hlength)]
  by_cases h : limit ≤ depth
  · rw [if_pos h]
    change (if limit ≤ depth then _ else _ : Descent Unit) ⟨c, depth⟩ = _
    rw [if_pos h]
    rfl
  · rw [if_neg h]
    change (if limit ≤ depth then _ else _ : Descent Unit) ⟨c, depth⟩ = _
    rw [if_neg h]
    change Option.bind (p.descendAll limit (.ofArguments f.params args) f.body ⟨c, depth + 1⟩)
      (fun q : Except Fault Frame × Level =>
        some (q.1.map fun _ => (), (⟨q.2.console, q.2.depth - 1⟩ : Level))) = _
    rcases p.descendAll limit (.ofArguments f.params args) f.body ⟨c, depth + 1⟩ with _ | ⟨_, _⟩
    · rfl
    · rfl

/-- A call that does not fit its function stops, whatever the limit is and however deep it is. -/
lemma exists_throw_of_unfit {name : String} {args : List Value}
    (h : ∀ f, p.function? name = some f → f.params.length ≠ args.length) :
    ∃ e, (∀ limit left, p.callWithin limit left name args = throw e) ∧
      ∀ limit, p.descendInto limit name args = throw e := by
  cases hf : p.function? name with
  | none =>
    refine ⟨.undefinedFunction name, fun limit left => ?_, fun limit => ?_⟩
    · cases left <;> rw [callWithin, hf]
    · rw [descendInto, hf]
  | some f =>
    refine ⟨.arityMismatch name f.params.length args.length, fun limit left => ?_, fun limit => ?_⟩
    · cases left <;> rw [callWithin, hf] <;> exact if_pos (h f hf)
    · rw [descendInto, hf]
      exact if_pos (h f hf)

/-- A call does what it does in a run in which the levels that it has left, and those that are
used, make up the limit. -/
lemma descendInto_does {left : ℕ} (h : depth + left = limit) (name : String) (args : List Value) :
    (p.descendInto limit name args).Does depth (p.callWithin limit left name args) := by
  induction left generalizing depth name args with
  | zero =>
    by_cases hfits : ∃ f, p.function? name = some f ∧ f.params.length = args.length
    · obtain ⟨f, hf, hlength⟩ := hfits
      intro c
      rw [descendInto_of_fits hf hlength, callWithin_of_fits hf hlength, if_pos (by omega), ← h]
      rfl
    · obtain ⟨e, hrun, hdescend⟩ := exists_throw_of_unfit (by simpa using hfits)
      rw [hrun, hdescend]
      exact Descent.does_throw e depth
  | succ left ih =>
    by_cases hfits : ∃ f, p.function? name = some f ∧ f.params.length = args.length
    · obtain ⟨f, hf, hlength⟩ := hfits
      intro c
      -- inside of the call there is one level more in use
      have hcall : ∀ name args, (p.descendInto limit name args).Does (depth + 1)
          (p.callWithin limit left name args) := ih (by omega)
      rw [descendInto_of_fits hf hlength, callWithin_of_fits hf hlength, if_neg (by omega),
        descendAll_does hcall]
      unfold Descent.ofRun ExceptT.mk
      dsimp only
      cases h : Stmt.execAll (p.callWithin limit left) (.ofArguments f.params args) f.body c with
      | ok _ d =>
        rw [Run.bind_of_ok h]
        rfl
      | error e d =>
        rw [Run.bind_of_error h]
        rfl
    · obtain ⟨e, hrun, hdescend⟩ := exists_throw_of_unfit (by simpa using hfits)
      rw [hrun, hdescend]
      exact Descent.does_throw e depth

/-- **A descent comes to an end, and it is the end of the run**, whatever functions call each
other. -/
lemma report?_descent (p : Program) (limit : ℕ) (inputs : List String) :
    (p.descent limit).report? inputs = some (p.report limit inputs) := by
  have hdoes : (p.descent limit).Does 0 (p.exec limit) :=
    (descendAll_does (descendInto_does (Nat.zero_add limit)) {} p.entry).bind fun _ =>
      Descent.does_pure _ _
  have h := hdoes (Console.ofInputs inputs)
  unfold Descent.report? ExceptT.run StateT.run report
  rw [h]
  unfold Descent.ofRun ExceptT.mk
  dsimp only
  cases p.exec limit (Console.ofInputs inputs) with
  | ok _ c => rfl
  | error e c => rfl

end Program

/-! ## Greater limits -/

/-- More was read and printed, after what was read and printed before. -/
structure Console.Grows (c c' : Console) : Prop where
  output : c.output <+: c'.output
  reads : c.reads ≤ c'.reads

namespace Console

variable {c c' c'' : Console}

@[refl] lemma Grows.refl (c : Console) : c.Grows c := ⟨List.prefix_rfl, Nat.le_refl _⟩

@[trans] lemma Grows.trans (h : c.Grows c') (h' : c'.Grows c'') : c.Grows c'' :=
  ⟨h.output.trans h'.output, Nat.le_trans h.reads h'.reads⟩

lemma grows_read (c : Console) : c.Grows c.read.2 := ⟨List.prefix_rfl, Nat.le_succ _⟩

lemma grows_print (c : Console) (text : String) : c.Grows (c.print text) :=
  ⟨by rw [output_print]; exact List.prefix_append _ _, Nat.le_refl _⟩

end Console

namespace Run

variable {α β : Type} {x y : Run α} {f g : α → Run β} {c : Console}

/-- The console after an action, whether or not it has stopped with a fault. -/
def after (x : Run α) (c : Console) : Console :=
  match x c with
  | .ok _ c => c
  | .error _ c => c

/-- An action takes back nothing, and what it does another action does as well, up to a point
where that one has met a limit. -/
structure Reveals (x y : Run α) : Prop where
  grows (c : Console) : c.Grows (x.after c)
  agrees (c : Console) : x c = y c ∨
    ∃ depth c', y c = .error (.callDepthExceeded depth) c' ∧ c'.Grows (x.after c)

/-- What stands behind an action only adds to what it has read and printed. -/
lemma grows_after_bind (x : Run α) (hf : ∀ a c, Console.Grows c ((f a).after c)) (c : Console) :
    (x.after c).Grows ((x >>= f).after c) := by
  unfold after
  cases h : x c with
  | ok a d =>
    rw [bind_of_ok h]
    exact hf a d
  | error e d => rw [bind_of_error h]

/-- A pure result reveals itself. -/
lemma reveals_pure (a : α) : (pure a : Run α).Reveals (pure a) := ⟨.refl, fun _ => .inl rfl⟩

lemma reveals_throw (e : Fault) : (throw e : Run α).Reveals (throw e) := ⟨.refl, fun _ => .inl rfl⟩

lemma reveals_read : read.Reveals read := ⟨Console.grows_read, fun _ => .inl rfl⟩

lemma reveals_print (text : String) : (print text).Reveals (print text) :=
  ⟨fun c => c.grows_print text, fun _ => .inl rfl⟩

lemma reveals_ofExcept (r : Except Fault α) : (ofExcept r).Reveals (ofExcept r) := by
  cases r with
  | ok a => exact reveals_pure a
  | error e => exact reveals_throw e

/-- If an action has met a limit, nothing behind it takes part; otherwise the two actions behind
it are compared from the same result on. -/
lemma Reveals.bind (hx : x.Reveals y) (hf : ∀ a, (f a).Reveals (g a)) :
    (x >>= f).Reveals (y >>= g) where
  grows c := (hx.grows c).trans (grows_after_bind x (fun a => (hf a).grows) c)
  agrees c := by
    rcases hx.agrees c with heq | ⟨depth, c', hstop, hgrows⟩
    · cases hy : y c with
      | ok a d =>
        rcases (hf a).agrees d with heq' | ⟨depth, c', hstop, hgrows⟩
        · exact .inl (by rw [bind_of_ok (heq.trans hy), bind_of_ok hy, heq'])
        · refine .inr ⟨depth, c', by rw [bind_of_ok hy, hstop], ?_⟩
          rwa [after, bind_of_ok (heq.trans hy)]
      | error e d => exact .inl (by rw [bind_of_error (heq.trans hy), bind_of_error hy])
    · refine .inr ⟨depth, c', bind_eq_error.mpr (.inl hstop), hgrows.trans ?_⟩
      exact grows_after_bind x (fun a => (hf a).grows) c

lemma reveals_mapM {h : α → Run β} (hh : ∀ a, (h a).Reveals (h a)) (as : List α) :
    (as.mapM h).Reveals (as.mapM h) := by
  induction as with
  | nil => exact reveals_pure []
  | cons a as ih =>
    rw [List.mapM_cons]
    exact (hh a).bind fun b => ih.bind fun bs => reveals_pure (b :: bs)

end Run

lemma Expr.reveals_eval (frame : Frame) (e : Expr) : (e.eval frame).Reveals (e.eval frame) := by
  induction e with
  | number x => exact Run.reveals_pure _
  | text s => exact Run.reveals_pure _
  | name n =>
    rw [eval]
    cases frame.lookup? n with
    | some v => exact Run.reveals_pure v
    | none => exact Run.reveals_throw _
  | input =>
    rw [eval, map_eq_pure_bind]
    exact Run.reveals_read.bind fun _ => Run.reveals_pure _
  | binary op lhs rhs ihl ihr =>
    rw [eval]
    exact ihl.bind fun a => ihr.bind fun b => Run.reveals_ofExcept _

section Statements

variable {call call' : CallHandler}

mutual

lemma Stmt.reveals_exec (hcall : ∀ name args, (call name args).Reveals (call' name args))
    (frame : Frame) (s : Stmt) : (s.exec call frame).Reveals (s.exec call' frame) := by
  cases s with
  | bind name value =>
    rw [exec, exec]
    exact (value.reveals_eval frame).bind fun v => Run.reveals_pure _
  | print value =>
    rw [exec, exec]
    exact (value.reveals_eval frame).bind fun v => (Run.reveals_print _).bind fun _ =>
      Run.reveals_pure _
  | call name args =>
    rw [exec, exec]
    exact (Run.reveals_mapM (Expr.reveals_eval frame) args).bind fun vs =>
      (hcall name vs).bind fun _ => Run.reveals_pure _
  | branch cond onTrue onFalse =>
    rw [exec, exec]
    refine (cond.reveals_eval frame).bind fun v => ?_
    split
    · exact Stmt.reveals_execAll hcall frame onTrue
    · exact Stmt.reveals_execAll hcall frame onFalse

/-- Statements reveal what they do under a smaller limit, if calls do. -/
lemma Stmt.reveals_execAll (hcall : ∀ name args, (call name args).Reveals (call' name args))
    (frame : Frame) (ss : List Stmt) :
    (Stmt.execAll call frame ss).Reveals (Stmt.execAll call' frame ss) := by
  cases ss with
  | nil =>
    rw [execAll, execAll]
    exact Run.reveals_pure frame
  | cons s ss =>
    rw [execAll, execAll]
    exact (Stmt.reveals_exec hcall frame s).bind fun frame => Stmt.reveals_execAll hcall frame ss

end

end Statements

namespace Program

variable {p : Program}

/-- If the calls inside reveal what they do with fewer levels left, so does the call. -/
lemma reveals_callWithin_succ {limit limit' left left' : ℕ}
    (hcalls : ∀ name args,
      (p.callWithin limit' left' name args).Reveals (p.callWithin limit left name args))
    (name : String) (args : List Value) :
    (p.callWithin limit' (left' + 1) name args).Reveals
      (p.callWithin limit (left + 1) name args) := by
  by_cases hfits : ∃ f, p.function? name = some f ∧ f.params.length = args.length
  · obtain ⟨f, hf, hlength⟩ := hfits
    rw [callWithin_of_fits hf hlength, callWithin_of_fits hf hlength]
    exact (Stmt.reveals_execAll hcalls _ _).bind fun _ => Run.reveals_pure ()
  · obtain ⟨e, hrun, -⟩ := exists_throw_of_unfit (by simpa using hfits)
    rw [hrun, hrun]
    exact Run.reveals_throw e

/-- A call with no level left stops at once.  What another call does instead is revealed. -/
lemma reveals_callWithin_zero {name : String} {args : List Value} {limit limit' left : ℕ}
    (hgrows : ∀ c, Console.Grows c ((p.callWithin limit' left name args).after c)) :
    (p.callWithin limit' left name args).Reveals (p.callWithin limit 0 name args) := by
  by_cases hfits : ∃ f, p.function? name = some f ∧ f.params.length = args.length
  · obtain ⟨f, hf, hlength⟩ := hfits
    refine ⟨hgrows, fun c => .inr ⟨limit, c, ?_, hgrows c⟩⟩
    rw [callWithin_of_fits hf hlength]
    rfl
  · obtain ⟨e, hrun, -⟩ := exists_throw_of_unfit (by simpa using hfits)
    rw [hrun, hrun]
    exact Run.reveals_throw e

/-- A call takes back nothing of what was read and printed. -/
lemma grows_callWithin (p : Program) (limit left : ℕ) (name : String) (args : List Value)
    (c : Console) : c.Grows ((p.callWithin limit left name args).after c) := by
  have hself : ∀ left name args,
      (p.callWithin limit left name args).Reveals (p.callWithin limit left name args) := by
    intro left
    induction left with
    | zero =>
      intro name args
      rw [callWithin]
      split
      · exact Run.reveals_throw _
      · split
        · exact Run.reveals_throw _
        · exact Run.reveals_throw _
    | succ left ih => exact reveals_callWithin_succ ih
  exact (hself left name args).grows c

/-- A call with more levels left reveals what it does with fewer. -/
lemma reveals_callWithin {limit limit' left left' : ℕ} (h : left ≤ left') (name : String)
    (args : List Value) :
    (p.callWithin limit' left' name args).Reveals (p.callWithin limit left name args) := by
  induction left generalizing left' name args with
  | zero => exact reveals_callWithin_zero (p.grows_callWithin limit' left' name args)
  | succ left ih =>
    obtain ⟨left', rfl⟩ : ∃ n, left' = n + 1 := ⟨left' - 1, by omega⟩
    exact reveals_callWithin_succ (fun name args => ih (by omega) name args) name args

/-- A run under a greater limit reveals the run under a smaller one. -/
lemma reveals_exec (p : Program) {limit limit' : ℕ} (h : limit ≤ limit') :
    (p.exec limit').Reveals (p.exec limit) :=
  (Stmt.reveals_execAll (reveals_callWithin h) {} p.entry).bind fun _ => Run.reveals_pure ()

/-- A report tells what is on the console after the run. -/
lemma report_after (p : Program) (limit : ℕ) (inputs : List String) :
    (p.report limit inputs).output = ((p.exec limit).after (.ofInputs inputs)).output ∧
      (p.report limit inputs).reads = ((p.exec limit).after (.ofInputs inputs)).reads := by
  unfold report Run.after
  cases p.exec limit (Console.ofInputs inputs) with
  | ok _ c => exact ⟨rfl, rfl⟩
  | error e c => exact ⟨rfl, rfl⟩

/-- A run that was the same on the console has the same report. -/
lemma report_congr {limit limit' : ℕ} {inputs : List String}
    (h : p.exec limit' (.ofInputs inputs) = p.exec limit (.ofInputs inputs)) :
    p.report limit' inputs = p.report limit inputs := by
  rw [report, report, h]

/-- A run that stops at nested calls has reached its limit exactly. -/
lemma depth_of_report {limit depth : ℕ} {inputs : List String}
    (h : (p.report limit inputs).failure = some (.callDepthExceeded depth)) : depth = limit := by
  cases origin_of_report h
  rfl

/-- On a list of lines, a run under a greater limit is the same, or shows more than the run that
stopped at its limit. -/
lemma report_of_greater_limit {limit limit' : ℕ} (h : limit ≤ limit') (inputs : List String) :
    ((p.report limit inputs).failure ≠ some (.callDepthExceeded limit) →
      p.report limit' inputs = p.report limit inputs) ∧
    ((p.report limit inputs).failure = some (.callDepthExceeded limit) →
      (p.report limit inputs).output <+: (p.report limit' inputs).output ∧
      (p.report limit inputs).reads ≤ (p.report limit' inputs).reads) := by
  rcases (p.reveals_exec h).agrees (.ofInputs inputs) with heq | ⟨depth, c, hstop, hgrows⟩
  · rw [report_congr heq]
    exact ⟨fun _ => rfl, fun _ => ⟨List.prefix_rfl, Nat.le_refl _⟩⟩
  · have hreport : p.report limit inputs =
        ⟨some (.callDepthExceeded depth), c.output, c.reads⟩ := by
      rw [report, hstop]
    obtain rfl : depth = limit := depth_of_report (congrArg RunReport.failure hreport)
    obtain ⟨houtput, hreads⟩ := p.report_after limit' inputs
    rw [hreport, houtput, hreads]
    exact ⟨fun hne => absurd rfl hne, fun _ => ⟨hgrows.output, hgrows.reads⟩⟩

/-- **A run comes to an end, and a greater limit only shows more of it.**  That holds of every
stream of lines, those that end among them.  If a run stops at nested calls, it has reached its
limit exactly.  If it does not, it is the same under every greater limit.  If it does, what it has
printed is printed under every greater limit, maybe with more behind it, and at least as many lines
are read. -/
theorem report_of_limit (p : Program) (limit : ℕ) :
    (∀ inputs, (p.descent limit).report? inputs = some (p.report limit inputs) ∧
      p.Reports limit (fun i => inputs.getD i "") (p.report limit inputs)) ∧
    ∀ lines, (∃ r, p.Reports limit lines r) ∧ ∀ r, p.Reports limit lines r →
      (∀ depth, r.failure = some (.callDepthExceeded depth) → depth = limit) ∧
      ∀ limit' r', limit ≤ limit' → p.Reports limit' lines r' →
        (r.failure ≠ some (.callDepthExceeded limit) → r' = r) ∧
        (r.failure = some (.callDepthExceeded limit) →
          r.output <+: r'.output ∧ r.reads ≤ r'.reads) := by
  refine ⟨fun inputs => ⟨p.report?_descent limit inputs, p.reports_of_list limit inputs⟩,
    fun lines => ⟨⟨_, p.reports_beginning limit lines⟩, ?_⟩⟩
  rintro r ⟨n, hr⟩
  refine ⟨fun depth hdepth => ?_, ?_⟩
  · rw [← hr n le_rfl] at hdepth
    exact depth_of_report hdepth
  · rintro limit' r' h ⟨n', hr'⟩
    -- both reports are those on a beginning that is long enough for both limits
    rw [← hr (max n n') (le_max_left n n'), ← hr' (max n n') (le_max_right n n')]
    exact report_of_greater_limit h _

/-- A program that prints what it reads, and calls itself. -/
def echo : Program where
  entry := [.call "again" []]
  functions := [{ name := "again", params := [], body := [.print .input, .call "again" []] }]

/-- Of a program that stops at every limit, on a stream that does not end. -/
theorem report_of_limit_echo : ∃ r r',
    echo.Reports 1 (fun _ => "on") r ∧ r.failure = some (.callDepthExceeded 1) ∧
    echo.Reports 2 (fun _ => "on") r' ∧ r.output <+: r'.output := by
  have hless := echo.reports_beginning 1 fun _ => "on"
  have hmore := echo.reports_beginning 2 fun _ => "on"
  have hstop : (echo.report 1 ((List.range (echo.asks 1)).map fun _ => "on")).failure =
      some (.callDepthExceeded 1) := by decide +kernel
  obtain ⟨-, hgreater⟩ := ((report_of_limit echo 1).2 fun _ => "on").2 _ hless
  exact ⟨_, _, hless, hstop, hmore, ((hgreater 2 _ (by decide) hmore).2 hstop).1⟩

end Program

end FlowSketch
