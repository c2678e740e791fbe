/-
# Looking ahead

An expression asks for a line as often as `input` stands in it, and a limited depth of calls
bounds how often a whole program does.  What stands behind the lines that it can ask for makes no
difference.  So the input need not be a list that comes to an end: on a stream that goes on
forever a program reports what it reports on every beginning that is long enough, and a list of
lines is a stream that goes on with empty ones.

Main statements: `report_eq_of_ahead`, `reports_beginning`, `reports_of_list`.
-/
import Mathlib.Data.List.MinMax
import FlowSketch.Proofs.Execution.Faults

namespace FlowSketch

/-- Two consoles on which the same was read and printed, and the same lines come next, up to a
number of them. -/
structure Console.AgreeAhead (n : ℕ) (c d : Console) : Prop where
  reads : c.reads = d.reads
  printed : c.printed = d.printed
  pending (i : ℕ) (h : i < n) : c.pending.getD i "" = d.pending.getD i ""

namespace Console

variable {n : ℕ} {c d : Console}

lemma AgreeAhead.mono {m : ℕ} (h : AgreeAhead n c d) (hm : m ≤ n) : AgreeAhead m c d :=
  ⟨h.reads, h.printed, fun i hi => h.pending i (by omega)⟩

lemma read_fst (c : Console) : c.read.1 = c.pending.getD 0 "" := by
  rw [read]
  cases c.pending <;> rfl

lemma pending_read (c : Console) (i : ℕ) :
    c.read.2.pending.getD i "" = c.pending.getD (i + 1) "" := by
  rw [read]
  cases c.pending <;> rfl

/-- A line that is read is no longer ahead. -/
lemma AgreeAhead.read (h : AgreeAhead (n + 1) c d) :
    c.read.1 = d.read.1 ∧ AgreeAhead n c.read.2 d.read.2 := by
  refine ⟨?_, congrArg (· + 1) h.reads, h.printed, fun i hi => ?_⟩
  · rw [read_fst, read_fst, h.pending 0 n.succ_pos]
  · rw [pending_read, pending_read, h.pending (i + 1) (by omega)]

lemma AgreeAhead.print (h : AgreeAhead n c d) (text : String) :
    AgreeAhead n (c.print text) (d.print text) :=
  ⟨h.reads, congrArg (text :: ·) h.printed, h.pending⟩

end Console

/-! ## Actions that look ahead -/

namespace Run

variable {α β : Type} {x : Run α} {f : α → Run β} {c d : Console} {m n : ℕ}

lemma bind_of_ok {a : α} (h : x c = .ok a d) (f : α → Run β) : (x >>= f) c = f a d := by
  change EStateM.bind x f c = _
  rw [EStateM.bind, h]

lemma bind_of_error {e : Fault} (h : x c = .error e d) (f : α → Run β) :
    (x >>= f) c = .error e d := by
  change EStateM.bind x f c = _
  rw [EStateM.bind, h]

/-- Two actions ended the same, on consoles that agree ahead. -/
inductive SameEnd (n : ℕ) :
    EStateM.Result Fault Console α → EStateM.Result Fault Console α → Prop
  | ok (a : α) {c d : Console} : c.AgreeAhead n d → SameEnd n (.ok a c) (.ok a d)
  | error (e : Fault) {c d : Console} : c.AgreeAhead n d → SameEnd n (.error e c) (.error e d)

/-- An action looks at the next `n` lines at most.  If more lines than these agree, those that are
left over agree behind it. -/
def LooksAhead (n : ℕ) (x : Run α) : Prop :=
  ∀ k c d, Console.AgreeAhead (n + k) c d → SameEnd k (x c) (x d)

lemma LooksAhead.mono (h : x.LooksAhead m) (hn : m ≤ n) : x.LooksAhead n :=
  fun k c d hcd => h k c d (hcd.mono (by omega))

/-- A result without an action looks at nothing. -/
lemma looksAhead_pure (a : α) : (pure a : Run α).LooksAhead n :=
  fun _ _ _ h => .ok a (h.mono (by omega))

lemma looksAhead_throw (e : Fault) : (throw e : Run α).LooksAhead n :=
  fun _ _ _ h => .error e (h.mono (by omega))

lemma looksAhead_ofExcept (r : Except Fault α) : (ofExcept r).LooksAhead n := by
  cases r with
  | ok a => exact looksAhead_pure a
  | error e => exact looksAhead_throw e

lemma looksAhead_read : read.LooksAhead 1 := by
  intro k c d h
  obtain ⟨hline, hrest⟩ := (h.mono (by omega : k + 1 ≤ 1 + k)).read
  change SameEnd k (.ok c.read.1 c.read.2) (.ok d.read.1 d.read.2)
  rw [hline]
  exact .ok d.read.1 hrest

lemma looksAhead_print (text : String) : (print text).LooksAhead 0 :=
  fun k _ _ h => .ok () ((h.mono (by omega : k ≤ 0 + k)).print text)

/-- Actions in turn look at the lines of the first one, and at those of the second one behind
them. -/
lemma LooksAhead.bind (hx : x.LooksAhead m) (hf : ∀ a, (f a).LooksAhead n) :
    (x >>= f).LooksAhead (m + n) := by
  intro k c d h
  have hends := hx (n + k) c d (h.mono (by omega))
  cases hc : x c with
  | ok a c' =>
    cases hd : x d with
    | ok b d' =>
      rw [hc, hd] at hends
      cases hends with
      | ok _ h' =>
        rw [bind_of_ok hc, bind_of_ok hd]
        exact hf a k c' d' h'
    | error e d' =>
      rw [hc, hd] at hends
      cases hends
  | error e c' =>
    cases hd : x d with
    | ok b d' =>
      rw [hc, hd] at hends
      cases hends
    | error e' d' =>
      rw [hc, hd] at hends
      cases hends with
      | error _ h' =>
        rw [bind_of_error hc, bind_of_error hd]
        exact .error e (h'.mono (by omega))

lemma looksAhead_mapM {g : α → Run β} {size : α → ℕ} (hg : ∀ a, (g a).LooksAhead (size a))
    (as : List α) : (as.mapM g).LooksAhead (as.foldr (fun a k => size a + k) 0) := by
  induction as with
  | nil => exact looksAhead_pure []
  | cons a as ih =>
    rw [List.mapM_cons, List.foldr_cons]
    exact (hg a).bind fun b => ih.bind fun bs => looksAhead_pure (n := 0) (b :: bs)

end Run

/-! ## How often a program asks for a line -/

/-- How often an expression asks for a line. -/
def Expr.asks : Expr → ℕ
  | .input => 1
  | .binary _ lhs rhs => lhs.asks + rhs.asks
  | _ => 0

mutual

/-- How often a statement asks for a line at most, if a call does so at most `inCall` times. -/
def Stmt.asks (inCall : ℕ) : Stmt → ℕ
  | .bind _ value => value.asks
  | .print value => value.asks
  | .call _ args => args.foldr (fun e n => e.asks + n) 0 + inCall
  | .branch cond onTrue onFalse =>
    cond.asks + max (Stmt.asksAll inCall onTrue) (Stmt.asksAll inCall onFalse)

/-- How often statements in turn ask for a line at most. -/
def Stmt.asksAll (inCall : ℕ) : List Stmt → ℕ
  | [] => 0
  | s :: ss => Stmt.asks inCall s + Stmt.asksAll inCall ss

end

/-- How often a call asks for a line at most, whatever function it is a call of, if there are so
many levels of depth left. -/
def Program.asksWithin (p : Program) : (left : ℕ) → ℕ
  | 0 => 0
  | left + 1 => (p.functions.map fun f => Stmt.asksAll (p.asksWithin left) f.body).foldr max 0

/-- How often a program asks for a line at most. -/
def Program.asks (p : Program) (limit : ℕ) : ℕ := Stmt.asksAll (p.asksWithin limit) p.entry

lemma Expr.looksAhead_eval (frame : Frame) (e : Expr) : (e.eval frame).LooksAhead e.asks := by
  induction e with
  | number x => exact Run.looksAhead_pure _
  | text s => exact Run.looksAhead_pure _
  | name n =>
    rw [eval]
    cases frame.lookup? n with
    | some v => exact Run.looksAhead_pure v
    | none => exact Run.looksAhead_throw _
  | input =>
    rw [eval, map_eq_pure_bind]
    exact Run.looksAhead_read.bind fun _ => Run.looksAhead_pure (n := 0) _
  | binary op lhs rhs ihl ihr =>
    rw [eval, asks]
    exact ihl.bind fun a => ihr.bind fun b => Run.looksAhead_ofExcept (n := 0) _

section Statements

variable {call : CallHandler} {inCall : ℕ}

mutual

lemma Stmt.looksAhead_exec (hcall : ∀ name args, (call name args).LooksAhead inCall)
    (frame : Frame) (s : Stmt) : (s.exec call frame).LooksAhead (s.asks inCall) := by
  cases s with
  | bind name value =>
    rw [exec, asks]
    exact (value.looksAhead_eval frame).bind fun v => Run.looksAhead_pure (n := 0) _
  | print value =>
    rw [exec, asks]
    exact (value.looksAhead_eval frame).bind fun v => (Run.looksAhead_print _).bind fun _ =>
      Run.looksAhead_pure (n := 0) _
  | call name args =>
    rw [exec, asks]
    exact (Run.looksAhead_mapM (Expr.looksAhead_eval frame) args).bind fun vs =>
      (hcall name vs).bind fun _ => Run.looksAhead_pure (n := 0) _
  | branch cond onTrue onFalse =>
    rw [exec, asks]
    refine (cond.looksAhead_eval frame).bind fun v => ?_
    split
    · exact (Stmt.looksAhead_execAll hcall frame onTrue).mono (le_max_left _ _)
    · exact (Stmt.looksAhead_execAll hcall frame onFalse).mono (le_max_right _ _)

/-- Statements look at the lines that they can ask for, if calls do. -/
lemma Stmt.looksAhead_execAll (hcall : ∀ name args, (call name args).LooksAhead inCall)
    (frame : Frame) (ss : List Stmt) :
    (Stmt.execAll call frame ss).LooksAhead (Stmt.asksAll inCall ss) := by
  cases ss with
  | nil =>
    rw [execAll, asksAll]
    exact Run.looksAhead_pure frame
  | cons s ss =>
    rw [execAll, asksAll]
    exact (Stmt.looksAhead_exec hcall frame s).bind fun frame =>
      Stmt.looksAhead_execAll hcall frame ss

end

end Statements

namespace Program

variable {p : Program} {limit : ℕ} {inputs inputs' : List String}

lemma looksAhead_callWithin (p : Program) (limit left : ℕ) (name : String) (args : List Value) :
    (p.callWithin limit left name args).LooksAhead (p.asksWithin left) := by
  induction left generalizing name args with
  | zero =>
    rw [callWithin]
    split
    · exact Run.looksAhead_throw _
    · split
      · exact Run.looksAhead_throw _
      · exact Run.looksAhead_throw _
  | succ left ih =>
    rw [callWithin]
    split
    · exact Run.looksAhead_throw _
    · next f hf =>
      split
      · exact Run.looksAhead_throw _
      · -- the function that is called is one of those that the maximum is taken of
        have hle : Stmt.asksAll (p.asksWithin left) f.body ≤ p.asksWithin (left + 1) :=
          List.le_max_of_le' 0 (List.mem_map_of_mem (List.mem_of_find?_eq_some hf)) le_rfl
        exact ((Stmt.looksAhead_execAll ih _ _).bind fun _ =>
          Run.looksAhead_pure (n := 0) ()).mono hle

lemma looksAhead_exec (p : Program) (limit : ℕ) : (p.exec limit).LooksAhead (p.asks limit) :=
  (Stmt.looksAhead_execAll (p.looksAhead_callWithin limit limit) {} p.entry).bind fun _ =>
    Run.looksAhead_pure (n := 0) ()

/-- **What is behind the lines that a program can ask for makes no difference.** -/
theorem report_eq_of_ahead
    (h : ∀ i < p.asks limit, inputs.getD i "" = inputs'.getD i "") :
    p.report limit inputs = p.report limit inputs' := by
  have hends := p.looksAhead_exec limit 0 (.ofInputs inputs) (.ofInputs inputs') ⟨rfl, rfl, h⟩
  unfold report
  generalize p.exec limit (.ofInputs inputs) = r at hends
  generalize p.exec limit (.ofInputs inputs') = r' at hends
  cases hends with
  | ok _ h' => simp only [Console.output, h'.printed, h'.reads]
  | error e h' => simp only [Console.output, h'.printed, h'.reads]

/-! ## Streams of lines -/

/-- What a program reports on a stream of lines is what it reports on every beginning of the
stream that is long enough.  If it read on forever, it would have read more on every longer
beginning, and there would be no such report. -/
def Reports (p : Program) (limit : ℕ) (lines : ℕ → String) (r : RunReport Fault) : Prop :=
  ∃ n, ∀ m, n ≤ m → p.report limit ((List.range m).map lines) = r

lemma getD_beginning {lines : ℕ → String} {i m : ℕ} (h : i < m) :
    ((List.range m).map lines).getD i "" = lines i := by
  simp [List.getD_eq_getElem?_getD, h]

/-- There is a report on every stream, and a beginning that is known to be long enough for it. -/
lemma reports_beginning (p : Program) (limit : ℕ) (lines : ℕ → String) :
    p.Reports limit lines (p.report limit ((List.range (p.asks limit)).map lines)) := by
  refine ⟨p.asks limit, fun m hm => report_eq_of_ahead fun i hi => ?_⟩
  rw [getD_beginning (by omega), getD_beginning hi]

/-- A list of lines is a stream that goes on with empty lines. -/
lemma reports_of_list (p : Program) (limit : ℕ) (inputs : List String) :
    p.Reports limit (fun i => inputs.getD i "") (p.report limit inputs) :=
  ⟨p.asks limit, fun m hm => report_eq_of_ahead fun i hi => getD_beginning (by omega)⟩

end Program

end FlowSketch
