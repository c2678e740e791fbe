/-
# Where a fault comes from

A run stops early for one of five reasons, and the program shows most of them.  A name without a
value is read on some path through the statements of a function, and on this path it was not
bound before.  A function that does not exist, or that takes another number of arguments, is
called somewhere in the program.  Apart from these there are only operands that are no numbers
and calls that are nested too deeply.

A fault inside a call is one of the function that is called, so the proof is by induction on the
levels of depth that are left.

Main statement: `origin_of_report`.
-/
import Mathlib.Tactic.Common
import FlowSketch.Execution.Run

namespace FlowSketch

/-! ## Actions in turn -/

namespace Run

variable {α β : Type} {x : Run α} {f : α → Run β} {c c' : Console}

lemma bind_eq_ok {b : β} :
    (x >>= f) c = .ok b c' ↔ ∃ a d, x c = .ok a d ∧ f a d = .ok b c' := by
  change EStateM.bind x f c = _ ↔ _
  unfold EStateM.bind
  cases x c with
  | ok a d => simp
  | error e d => simp

lemma bind_eq_error {e : Fault} :
    (x >>= f) c = .error e c' ↔
      x c = .error e c' ∨ ∃ a d, x c = .ok a d ∧ f a d = .error e c' := by
  change EStateM.bind x f c = _ ↔ _
  unfold EStateM.bind
  cases x c with
  | ok a d => simp
  | error e d => simp

lemma map_eq_error {g : α → β} {e : Fault} : (g <$> x) c = .error e c' ↔ x c = .error e c' := by
  rw [map_eq_pure_bind, bind_eq_error]
  constructor
  · rintro (h | ⟨a, d, -, h⟩)
    · exact h
    · cases h
  · exact .inl

/-- A list of actions fails in one of them. -/
lemma exists_of_mapM_eq_error {g : α → Run β} {as : List α} {e : Fault}
    (h : as.mapM g c = .error e c') : ∃ a ∈ as, ∃ d, g a d = .error e c' := by
  induction as generalizing c with
  | nil => cases h
  | cons a as ih =>
    rw [List.mapM_cons] at h
    rcases bind_eq_error.mp h with h | ⟨b, d, -, h⟩
    · exact ⟨a, List.mem_cons_self, c, h⟩
    · rcases bind_eq_error.mp h with h | ⟨bs, d', -, h⟩
      · obtain ⟨a', ha', d', h⟩ := ih h
        exact ⟨a', List.mem_cons_of_mem a ha', d', h⟩
      · cases h

lemma ofExcept_eq_error {r : Except Fault α} {e : Fault} :
    ofExcept r c = .error e c' ↔ r = .error e ∧ c = c' := by
  constructor
  · intro h
    cases r with
    | ok a => cases h
    | error d =>
      cases h
      exact ⟨rfl, rfl⟩
  · rintro ⟨rfl, rfl⟩
    rfl

lemma length_of_mapM_eq_ok {g : α → Run β} {as : List α} {bs : List β}
    (h : as.mapM g c = .ok bs c') : bs.length = as.length := by
  induction as generalizing c bs with
  | nil =>
    cases h
    rfl
  | cons a as ih =>
    rw [List.mapM_cons] at h
    obtain ⟨b, d, -, h⟩ := bind_eq_ok.mp h
    obtain ⟨rest, d', hrest, h⟩ := bind_eq_ok.mp h
    cases h
    exact congrArg (· + 1) (ih hrest)

end Run

/-! ## Paths through statements -/

/-- What statements do with a name. -/
inductive Access where
  /-- Its value is read. -/
  | read (name : String)
  /-- It is bound to a value. -/
  | bind (name : String)
deriving DecidableEq, Repr

/-- The names that an expression reads, from left to right. -/
def Expr.reads : Expr → List Access
  | .name n => [.read n]
  | .binary _ lhs rhs => lhs.reads ++ rhs.reads
  | _ => []

/-- A control path through statements, told by what it does with names.  A path goes through
one of the two ways of every branch that it meets. -/
inductive ControlPath : List Stmt → List Access → Prop
  /-- There is nothing left to do. -/
  | stop : ControlPath [] []
  | bind {name : String} {value : Expr} {ss : List Stmt} {as : List Access} :
    ControlPath ss as → ControlPath (.bind name value :: ss) (value.reads ++ .bind name :: as)
  | print {value : Expr} {ss : List Stmt} {as : List Access} :
    ControlPath ss as → ControlPath (.print value :: ss) (value.reads ++ as)
  | call {name : String} {args : List Expr} {ss : List Stmt} {as : List Access} :
    ControlPath ss as → ControlPath (.call name args :: ss) (args.flatMap Expr.reads ++ as)
  | onTrue {cond : Expr} {yes no ss : List Stmt} {bs as : List Access} :
    ControlPath yes bs → ControlPath ss as →
    ControlPath (.branch cond yes no :: ss) (cond.reads ++ (bs ++ as))
  | onFalse {cond : Expr} {yes no ss : List Stmt} {bs as : List Access} :
    ControlPath no bs → ControlPath ss as →
    ControlPath (.branch cond yes no :: ss) (cond.reads ++ (bs ++ as))

/-- A call that stands somewhere among statements, whether or not a path leads to it. -/
inductive Calls (name : String) (args : List Expr) : List Stmt → Prop
  | here {ss : List Stmt} : Calls name args (.call name args :: ss)
  | later {s : Stmt} {ss : List Stmt} : Calls name args ss → Calls name args (s :: ss)
  | onTrue {cond : Expr} {yes no ss : List Stmt} :
    Calls name args yes → Calls name args (.branch cond yes no :: ss)
  | onFalse {cond : Expr} {yes no ss : List Stmt} :
    Calls name args no → Calls name args (.branch cond yes no :: ss)

/-- Some path leads through any statements. -/
lemma exists_path : (ss : List Stmt) → ∃ as, ControlPath ss as
  | [] => ⟨_, .stop⟩
  | .bind .. :: ss => (exists_path ss).imp' _ fun _ h => .bind h
  | .print .. :: ss => (exists_path ss).imp' _ fun _ h => .print h
  | .call .. :: ss => (exists_path ss).imp' _ fun _ h => .call h
  | .branch _ yes _ :: ss => by
    obtain ⟨bs, hyes⟩ := exists_path yes
    obtain ⟨as, hrest⟩ := exists_path ss
    exact ⟨_, .onTrue hyes hrest⟩

/-- A path through statements in turn is a path through the first and one through the rest. -/
lemma path_append {ss rs : List Stmt} {as : List Access} :
    ControlPath (ss ++ rs) as ↔ ∃ bs cs, ControlPath ss bs ∧ ControlPath rs cs ∧ as = bs ++ cs := by
  constructor
  · intro h
    -- the first step of the path tells the first statement
    induction ss generalizing as with
    | nil => exact ⟨[], as, .stop, h, rfl⟩
    | cons s ss ih =>
      cases h with
      | bind h =>
        obtain ⟨bs, cs, hbs, hcs, rfl⟩ := ih h
        exact ⟨_, cs, .bind hbs, hcs, by simp⟩
      | print h =>
        obtain ⟨bs, cs, hbs, hcs, rfl⟩ := ih h
        exact ⟨_, cs, .print hbs, hcs, by simp⟩
      | call h =>
        obtain ⟨bs, cs, hbs, hcs, rfl⟩ := ih h
        exact ⟨_, cs, .call hbs, hcs, by simp⟩
      | onTrue hyes h =>
        obtain ⟨bs, cs, hbs, hcs, rfl⟩ := ih h
        exact ⟨_, cs, .onTrue hyes hbs, hcs, by simp⟩
      | onFalse hno h =>
        obtain ⟨bs, cs, hbs, hcs, rfl⟩ := ih h
        exact ⟨_, cs, .onFalse hno hbs, hcs, by simp⟩
  · rintro ⟨bs, cs, hbs, hcs, rfl⟩
    induction hbs with
    | stop => exact hcs
    | bind _ ih => simpa using ControlPath.bind ih
    | print _ ih => simpa using ControlPath.print ih
    | call _ ih => simpa using ControlPath.call ih
    | onTrue hyes _ _ ih => simpa using ControlPath.onTrue hyes ih
    | onFalse hno _ _ ih => simpa using ControlPath.onFalse hno ih

/-- A call among statements in turn is one among the first or one among the rest. -/
lemma calls_append {name : String} {args : List Expr} {ss rs : List Stmt} :
    Calls name args (ss ++ rs) ↔ Calls name args ss ∨ Calls name args rs := by
  constructor
  · intro h
    induction ss with
    | nil => exact .inr h
    | cons s ss ih =>
      cases h with
      | here => exact .inl .here
      | later h => exact (ih h).imp_left .later
      | onTrue h => exact .inl (.onTrue h)
      | onFalse h => exact .inl (.onFalse h)
  · rintro (h | h)
    · induction h with
      | here => exact .here
      | later _ ih => exact .later ih
      | onTrue h => exact .onTrue h
      | onFalse h => exact .onFalse h
    · induction ss with
      | nil => exact h
      | cons s ss ih => exact .later ih

/-! ## Names that are read before they are bound -/

/-- A name is read where it was not bound before. -/
def ReadUnbound (name : String) (as : List Access) : Prop :=
  ∃ before after, as = before ++ .read name :: after ∧ .bind name ∉ before

lemma not_readUnbound_nil (name : String) : ¬ ReadUnbound name [] := by
  rintro ⟨before, after, h, -⟩
  simp at h

lemma readUnbound_read_cons {name other : String} {as : List Access} :
    ReadUnbound name (.read other :: as) ↔ name = other ∨ ReadUnbound name as := by
  constructor
  · rintro ⟨before, after, h, hnew⟩
    cases before with
    | nil =>
      cases h
      exact .inl rfl
    | cons a before =>
      cases h
      exact .inr ⟨before, after, rfl, fun hmem => hnew (List.mem_cons_of_mem _ hmem)⟩
  · rintro (rfl | ⟨before, after, rfl, hnew⟩)
    · exact ⟨[], as, rfl, List.not_mem_nil⟩
    · exact ⟨.read other :: before, after, rfl, by simpa using hnew⟩

lemma readUnbound_bind_cons {name other : String} {as : List Access} :
    ReadUnbound name (.bind other :: as) ↔ name ≠ other ∧ ReadUnbound name as := by
  constructor
  · rintro ⟨before, after, h, hnew⟩
    cases before with
    | nil => cases h
    | cons a before =>
      cases h
      rw [List.mem_cons, not_or] at hnew
      exact ⟨fun hname => hnew.1 (congrArg _ hname), before, after, rfl, hnew.2⟩
  · rintro ⟨hne, before, after, rfl, hnew⟩
    exact ⟨.bind other :: before, after, rfl, by simpa [hne] using hnew⟩

lemma readUnbound_append {name : String} {as bs : List Access} :
    ReadUnbound name (as ++ bs) ↔
      ReadUnbound name as ∨ .bind name ∉ as ∧ ReadUnbound name bs := by
  induction as with
  | nil => simp [not_readUnbound_nil]
  | cons a as ih =>
    cases a with
    | read other =>
      rw [List.cons_append, readUnbound_read_cons, readUnbound_read_cons, ih]
      simp [or_assoc]
    | bind other =>
      rw [List.cons_append, readUnbound_bind_cons, readUnbound_bind_cons, ih]
      -- both sides ask for another name than the one that is bound
      simp only [List.mem_cons, Access.bind.injEq, not_or]
      tauto

/-- An expression binds nothing. -/
lemma bind_not_mem_reads (e : Expr) (name : String) : .bind name ∉ e.reads := by
  induction e with
  | binary op lhs rhs ihl ihr => simp [Expr.reads, ihl, ihr]
  | _ => simp [Expr.reads]

lemma bind_not_mem_flatMap_reads (es : List Expr) (name : String) :
    .bind name ∉ es.flatMap Expr.reads := by
  rw [List.mem_flatMap]
  rintro ⟨e, -, he⟩
  exact bind_not_mem_reads e name he

lemma readUnbound_of_mem {name : String} {as : List Access} (hread : .read name ∈ as)
    (hbind : .bind name ∉ as) : ReadUnbound name as := by
  obtain ⟨before, after, rfl⟩ := List.append_of_mem hread
  exact ⟨before, after, rfl, fun h => hbind (List.mem_append_left _ h)⟩

lemma mem_of_readUnbound {name : String} {as : List Access} (h : ReadUnbound name as) :
    .read name ∈ as := by
  obtain ⟨before, after, rfl, -⟩ := h
  simp

/-! ## Why statements stop -/

variable {call : CallHandler} {frame frame' : Frame} {c c' : Console} {fault : Fault}

/-- An operator stops only at an operand that is no number. -/
lemma Value.fault_of_apply {op : Operator} {a b : Value} (h : a.apply op b = .error fault) :
    ∃ op operand, fault = .typeMismatch op operand := by
  have hoperand : ∀ {op : Operator} {v : Value} {e : Fault}, v.operand op = .error e →
      ∃ op operand, e = .typeMismatch op operand := by
    intro op v e h
    obtain ⟨s, -, -, rfl⟩ := operand_eq_error_iff.mp h
    exact ⟨op, s, rfl⟩
  have harithmetic : ∀ {op : Operator} {f : Float → Float → Float},
      arithmetic op f a b = .error fault → ∃ op operand, fault = .typeMismatch op operand := by
    intro op f h
    unfold arithmetic at h
    cases ha : a.operand op with
    | error e =>
      rw [ha] at h
      cases h
      exact hoperand ha
    | ok x =>
      cases hb : b.operand op with
      | error e =>
        rw [ha, hb] at h
        cases h
        exact hoperand hb
      | ok y =>
        rw [ha, hb] at h
        cases h
  cases op with
  | add =>
    rw [apply] at h
    split at h
    · cases h
    · exact harithmetic h
  | sub => exact harithmetic h
  | mul => exact harithmetic h
  | div => exact harithmetic h
  | or => cases h
  | and => cases h
  | greater => cases h

/-- An expression stops at a name without a value or at an operand that is no number. -/
lemma fault_of_eval {e : Expr} (h : e.eval frame c = .error fault c') :
    (∃ name, fault = .undefinedVariable name ∧ .read name ∈ e.reads ∧
      frame.lookup? name = none) ∨ ∃ op operand, fault = .typeMismatch op operand := by
  induction e generalizing c with
  | number x => cases h
  | text s => cases h
  | name n =>
    rw [Expr.eval] at h
    cases hn : frame.lookup? n with
    | some v =>
      rw [hn] at h
      cases h
    | none =>
      rw [hn] at h
      cases h
      exact .inl ⟨n, rfl, List.mem_singleton_self _, hn⟩
  | input =>
    rw [Expr.eval, Run.map_eq_error] at h
    cases h
  | binary op lhs rhs ihl ihr =>
    rw [Expr.eval] at h
    rcases Run.bind_eq_error.mp h with h | ⟨a, d, -, h⟩
    · refine (ihl h).imp_left ?_
      rintro ⟨n, hfault, hmem, hn⟩
      exact ⟨n, hfault, List.mem_append_left _ hmem, hn⟩
    · rcases Run.bind_eq_error.mp h with h | ⟨b, d', -, h⟩
      · refine (ihr h).imp_left ?_
        rintro ⟨n, hfault, hmem, hn⟩
        exact ⟨n, hfault, List.mem_append_right _ hmem, hn⟩
      · exact .inr (Value.fault_of_apply (Run.ofExcept_eq_error.mp h).1)

/-- Why statements stop with a fault. -/
inductive Cause (call : CallHandler) (frame : Frame) (ss : List Stmt) : Fault → Prop
  /-- A name without a value is read on a path on which it was not bound before. -/
  | unbound {as : List Access} {name : String} : ControlPath ss as → ReadUnbound name as →
    frame.lookup? name = none → Cause call frame ss (.undefinedVariable name)
  /-- An operand is no number. -/
  | operand (op : Operator) (operand : String) : Cause call frame ss (.typeMismatch op operand)
  /-- A call stops. -/
  | call {name : String} {args : List Expr} {vs : List Value} {c c' : Console} {fault : Fault} :
    Calls name args ss → vs.length = args.length → call name vs c = .error fault c' →
    Cause call frame ss fault

/-- Some path leads through statements that do not stop, and a name that has no value afterwards
had none before and is not bound on this path. -/
def Passes (frame : Frame) (ss : List Stmt) (frame' : Frame) : Prop :=
  ∃ as, ControlPath ss as ∧
    ∀ name, frame'.lookup? name = none → frame.lookup? name = none ∧ .bind name ∉ as

lemma Passes.cons {s : Stmt} {ss : List Stmt} {frame'' : Frame} (hfirst : Passes frame [s] frame')
    (hrest : Passes frame' ss frame'') : Passes frame (s :: ss) frame'' := by
  obtain ⟨as, has, hkept⟩ := hfirst
  obtain ⟨bs, hbs, hkept'⟩ := hrest
  refine ⟨as ++ bs, path_append.mpr ⟨as, bs, has, hbs, rfl⟩, fun name hname => ?_⟩
  obtain ⟨hname, hbs⟩ := hkept' name hname
  obtain ⟨hname, has⟩ := hkept name hname
  exact ⟨hname, by simp [has, hbs]⟩

lemma passes_of_evals {s : Stmt} {as : List Access} (h : ControlPath [s] as)
    (hbind : ∀ name, .bind name ∉ as) : Passes frame [s] frame :=
  ⟨as, h, fun name hname => ⟨hname, hbind name⟩⟩

/-- What stops one statement stops all. -/
lemma Cause.head {s : Stmt} {ss : List Stmt} (h : Cause call frame [s] fault) :
    Cause call frame (s :: ss) fault := by
  cases h with
  | unbound hpath hread hname =>
    obtain ⟨as, has⟩ := exists_path ss
    exact .unbound (path_append.mpr ⟨_, as, hpath, has, rfl⟩)
      (readUnbound_append.mpr (.inl hread)) hname
  | operand op operand => exact .operand op operand
  | call hcall hlength hstop => exact .call (calls_append.mpr (.inl hcall)) hlength hstop

lemma Cause.tail {s : Stmt} {ss : List Stmt} (hfirst : Passes frame [s] frame')
    (h : Cause call frame' ss fault) : Cause call frame (s :: ss) fault := by
  obtain ⟨as, has, hkept⟩ := hfirst
  cases h with
  | unbound hpath hread hname =>
    obtain ⟨hname, hnew⟩ := hkept _ hname
    exact .unbound (path_append.mpr ⟨as, _, has, hpath, rfl⟩)
      (readUnbound_append.mpr (.inr ⟨hnew, hread⟩)) hname
  | operand op operand => exact .operand op operand
  | call hcall hlength hstop => exact .call (.later hcall) hlength hstop

/-- What stops one of the two ways stops the branch. -/
lemma Cause.onTrue {cond : Expr} {yes no : List Stmt} (h : Cause call frame yes fault) :
    Cause call frame [.branch cond yes no] fault := by
  cases h with
  | unbound hpath hread hname =>
    exact .unbound (.onTrue hpath .stop) (readUnbound_append.mpr
      (.inr ⟨bind_not_mem_reads _ _, readUnbound_append.mpr (.inl hread)⟩)) hname
  | operand op operand => exact .operand op operand
  | call hcall hlength hstop => exact .call (.onTrue hcall) hlength hstop

lemma Cause.onFalse {cond : Expr} {yes no : List Stmt} (h : Cause call frame no fault) :
    Cause call frame [.branch cond yes no] fault := by
  cases h with
  | unbound hpath hread hname =>
    exact .unbound (.onFalse hpath .stop) (readUnbound_append.mpr
      (.inr ⟨bind_not_mem_reads _ _, readUnbound_append.mpr (.inl hread)⟩)) hname
  | operand op operand => exact .operand op operand
  | call hcall hlength hstop => exact .call (.onFalse hcall) hlength hstop

lemma cause_of_eval {s : Stmt} {e : Expr} {as : List Access} (hpath : ControlPath [s] as)
    (hreads : ∀ name, .read name ∈ e.reads → ReadUnbound name as)
    (h : e.eval frame c = .error fault c') : Cause call frame [s] fault := by
  rcases fault_of_eval h with ⟨name, rfl, hread, hname⟩ | ⟨op, operand, rfl⟩
  · exact .unbound hpath (hreads name hread) hname
  · exact .operand op operand

/-- What an expression reads at the beginning of a path is read there unbound. -/
lemma readUnbound_reads {e : Expr} {as : List Access} (name : String) (h : .read name ∈ e.reads) :
    ReadUnbound name (e.reads ++ as) :=
  readUnbound_append.mpr (.inl (readUnbound_of_mem h (bind_not_mem_reads e name)))

mutual

lemma passes_of_exec {frame frame' : Frame} {c c' : Console} {s : Stmt}
    (h : s.exec call frame c = .ok frame' c') :
    Passes frame [s] frame' := by
  cases s with
  | bind name value =>
    rw [Stmt.exec] at h
    obtain ⟨v, d, -, h⟩ := Run.bind_eq_ok.mp h
    cases h
    refine ⟨_, .bind .stop, fun other hother => ?_⟩
    rw [Frame.lookup?_bind] at hother
    split at hother
    · cases hother
    · rename_i hne
      refine ⟨hother, ?_⟩
      simp [bind_not_mem_reads, hne]
  | print value =>
    rw [Stmt.exec] at h
    obtain ⟨v, d, -, h⟩ := Run.bind_eq_ok.mp h
    obtain ⟨_, d', -, h⟩ := Run.bind_eq_ok.mp h
    cases h
    exact passes_of_evals (.print .stop) (by simp [bind_not_mem_reads])
  | call name args =>
    rw [Stmt.exec] at h
    obtain ⟨vs, d, -, h⟩ := Run.bind_eq_ok.mp h
    obtain ⟨_, d', -, h⟩ := Run.bind_eq_ok.mp h
    cases h
    refine passes_of_evals (.call .stop) fun name => ?_
    rw [List.append_nil]
    exact bind_not_mem_flatMap_reads args name
  | branch cond yes no =>
    -- the path goes the way that the run went
    rw [Stmt.exec] at h
    obtain ⟨v, d, -, h⟩ := Run.bind_eq_ok.mp h
    split at h
    · obtain ⟨as, has, hkept⟩ := passes_of_execAll h
      refine ⟨_, .onTrue has .stop, fun name hname => ?_⟩
      obtain ⟨hname, hnew⟩ := hkept name hname
      exact ⟨hname, by simp [bind_not_mem_reads, hnew]⟩
    · obtain ⟨as, has, hkept⟩ := passes_of_execAll h
      refine ⟨_, .onFalse has .stop, fun name hname => ?_⟩
      obtain ⟨hname, hnew⟩ := hkept name hname
      exact ⟨hname, by simp [bind_not_mem_reads, hnew]⟩

/-- Statements that do not stop have been passed through. -/
lemma passes_of_execAll {frame frame' : Frame} {c c' : Console} {ss : List Stmt}
    (h : Stmt.execAll call frame ss c = .ok frame' c') : Passes frame ss frame' := by
  cases ss with
  | nil =>
    cases h
    exact ⟨[], .stop, fun name hname => ⟨hname, List.not_mem_nil⟩⟩
  | cons s ss =>
    rw [Stmt.execAll] at h
    obtain ⟨between, d, hfirst, hrest⟩ := Run.bind_eq_ok.mp h
    exact (passes_of_exec hfirst).cons (passes_of_execAll hrest)

end

mutual

lemma cause_of_exec {frame : Frame} {c : Console} {s : Stmt}
    (h : s.exec call frame c = .error fault c') : Cause call frame [s] fault := by
  cases s with
  | bind name value =>
    rw [Stmt.exec] at h
    rcases Run.bind_eq_error.mp h with h | ⟨v, d, -, h⟩
    · exact cause_of_eval (.bind .stop) readUnbound_reads h
    · cases h
  | print value =>
    rw [Stmt.exec] at h
    rcases Run.bind_eq_error.mp h with h | ⟨v, d, -, h⟩
    · exact cause_of_eval (.print .stop) readUnbound_reads h
    · cases h
  | call name args =>
    rw [Stmt.exec] at h
    rcases Run.bind_eq_error.mp h with h | ⟨vs, d, hargs, h⟩
    · -- an argument binds nothing, so what a later one reads is read unbound as well
      obtain ⟨arg, harg, d, h⟩ := Run.exists_of_mapM_eq_error h
      refine cause_of_eval (.call .stop) (fun other hother => ?_) h
      refine readUnbound_append.mpr (.inl (readUnbound_of_mem ?_ ?_))
      · exact List.mem_flatMap.mpr ⟨arg, harg, hother⟩
      · exact bind_not_mem_flatMap_reads args other
    · rcases Run.bind_eq_error.mp h with h | ⟨_, d', -, h⟩
      · exact .call .here (Run.length_of_mapM_eq_ok hargs) h
      · cases h
  | branch cond yes no =>
    rw [Stmt.exec] at h
    rcases Run.bind_eq_error.mp h with h | ⟨v, d, -, h⟩
    · -- the condition is read on every path, so any path through one of the ways will do
      obtain ⟨as, has⟩ := exists_path yes
      exact cause_of_eval (.onTrue has .stop) readUnbound_reads h
    · split at h
      · exact (cause_of_execAll h).onTrue
      · exact (cause_of_execAll h).onFalse

/-- Statements that stop do so for one of these reasons. -/
lemma cause_of_execAll {frame : Frame} {c : Console} {ss : List Stmt}
    (h : Stmt.execAll call frame ss c = .error fault c') : Cause call frame ss fault := by
  cases ss with
  | nil => cases h
  | cons s ss =>
    rw [Stmt.execAll] at h
    rcases Run.bind_eq_error.mp h with h | ⟨between, d, hfirst, h⟩
    · exact (cause_of_exec h).head
    · exact (cause_of_execAll h).tail (passes_of_exec hfirst)

end

/-! ## Why a run stops -/

namespace Program

/-- The names that are given at the beginning and the statements, of the entry and of each
function. -/
def blocks (p : Program) : List (List String × List Stmt) :=
  ([], p.entry) :: p.functions.map fun f => (f.params, f.body)

/-- Where in a program a fault comes from, when calls are nested at most so deeply. -/
inductive Origin (p : Program) (limit : ℕ) : Fault → Prop
  /-- A name is read that is neither a parameter nor bound before on the path. -/
  | unbound {block : List String × List Stmt} {as : List Access} {name : String} :
    block ∈ p.blocks → ControlPath block.2 as → ReadUnbound name as → name ∉ block.1 →
    Origin p limit (.undefinedVariable name)
  /-- A function is called that does not exist. -/
  | noFunction {block : List String × List Stmt} {name : String} {args : List Expr} :
    block ∈ p.blocks → Calls name args block.2 → p.function? name = none →
    Origin p limit (.undefinedFunction name)
  /-- A function is called with another number of arguments than it takes. -/
  | arity {block : List String × List Stmt} {name : String} {args : List Expr} {f : Function} :
    block ∈ p.blocks → Calls name args block.2 → p.function? name = some f →
    f.params.length ≠ args.length →
    Origin p limit (.arityMismatch name f.params.length args.length)
  /-- An operand is no number. -/
  | operand (op : Operator) (operand : String) : Origin p limit (.typeMismatch op operand)
  /-- Calls are nested too deeply. -/
  | depth : Origin p limit (.callDepthExceeded limit)

variable {p : Program} {limit left : ℕ} {name : String} {vs : List Value}

/-- A call stops because it does not fit its function, or somewhere inside. -/
def CallFault (p : Program) (limit : ℕ) (name : String) (count : ℕ) (fault : Fault) : Prop :=
  (p.function? name = none ∧ fault = .undefinedFunction name) ∨
  (∃ f, p.function? name = some f ∧ f.params.length ≠ count ∧
    fault = .arityMismatch name f.params.length count) ∨
  p.Origin limit fault

lemma origin_of_cause {block : List String × List Stmt} (hblock : block ∈ p.blocks)
    (hframe : ∀ name, frame.lookup? name = none → name ∉ block.1)
    (hcall : ∀ {name vs c c' fault}, call name vs c = .error fault c' →
      p.CallFault limit name vs.length fault)
    (h : Cause call frame block.2 fault) : p.Origin limit fault := by
  cases h with
  | unbound hpath hread hname => exact .unbound hblock hpath hread (hframe _ hname)
  | operand op operand => exact .operand op operand
  | call hmem hlength hstop =>
    rcases hcall hstop with ⟨hnone, rfl⟩ | ⟨f, hf, hne, rfl⟩ | horigin
    · exact .noFunction hblock hmem hnone
    · rw [hlength] at hne ⊢
      exact .arity hblock hmem hf hne
    · exact horigin

lemma lookup?_foldl_bind_isSome {bs : List (String × Value)} {frame : Frame}
    (h : (frame.lookup? name).isSome = true ∨ name ∈ bs.map (·.1)) :
    ((bs.foldl (fun f b => f.bind b.1 b.2) frame).lookup? name).isSome = true := by
  induction bs generalizing frame with
  | nil => simpa using h
  | cons b bs ih =>
    refine ih ?_
    rw [Frame.lookup?_bind]
    split
    · exact .inl rfl
    · rename_i hne
      simpa [hne] using h

/-- Every parameter has a value in the frame of a call. -/
lemma not_mem_of_lookup?_ofArguments {params : List String} (hlength : params.length = vs.length)
    (h : (Frame.ofArguments params vs).lookup? name = none) : name ∉ params := by
  intro hmem
  have hzip : (params.zip vs).map (·.1) = params := List.map_fst_zip (Nat.le_of_eq hlength)
  have hsome : ((Frame.ofArguments params vs).lookup? name).isSome = true :=
    lookup?_foldl_bind_isSome (.inr (hzip.symm ▸ hmem))
  rw [h] at hsome
  cases hsome

lemma mem_blocks_of_function? {f : Function} (h : p.function? name = some f) :
    (f.params, f.body) ∈ p.blocks :=
  List.mem_cons_of_mem _ (List.mem_map.mpr ⟨f, List.mem_of_find?_eq_some h, rfl⟩)

/-- A call that fits its function stops at the limit of the depth, or goes on with one level of
depth less. -/
lemma callWithin_of_fits {f : Function} (hf : p.function? name = some f)
    (hlength : f.params.length = vs.length) (limit left : ℕ) :
    p.callWithin limit left name vs = match left with
      | 0 => throw (.callDepthExceeded limit)
      | left + 1 => Stmt.execAll (p.callWithin limit left) (.ofArguments f.params vs) f.body >>=
          fun _ => pure () := by
  cases left <;> rw [callWithin, hf] <;> exact if_neg (not_not_intro hlength)

/-- A call that stops does not fit its function, unless it stops for another reason. -/
lemma callFault_of_fits
    (hfits : ∀ {f}, p.function? name = some f → f.params.length = vs.length →
      p.Origin limit fault)
    (h : p.callWithin limit left name vs c = .error fault c') :
    p.CallFault limit name vs.length fault := by
  cases hf : p.function? name with
  | none =>
    cases left <;> rw [callWithin, hf] at h <;> cases h <;> exact .inl ⟨hf, rfl⟩
  | some f =>
    by_cases hlength : f.params.length = vs.length
    · exact .inr (.inr (hfits hf hlength))
    · have hmisfit : p.callWithin limit left name vs =
          throw (.arityMismatch name f.params.length vs.length) := by
        cases left <;> rw [callWithin, hf] <;> exact if_pos hlength
      rw [hmisfit] at h
      cases h
      exact .inr (.inl ⟨f, hf, hlength, rfl⟩)

/-- What stops a call that fits its function comes from the program. -/
lemma origin_of_callWithin {f : Function} (hf : p.function? name = some f)
    (hlength : f.params.length = vs.length)
    (h : p.callWithin limit left name vs c = .error fault c') : p.Origin limit fault := by
  rw [callWithin_of_fits hf hlength] at h
  -- a call inside has one level of depth less, and may be of another function
  induction left generalizing name vs f c c' fault with
  | zero =>
    cases h
    exact .depth
  | succ left ih =>
    rcases Run.bind_eq_error.mp h with h | ⟨_, _, -, h⟩
    · refine origin_of_cause (mem_blocks_of_function? hf)
        (fun _ => not_mem_of_lookup?_ofArguments hlength) (fun {name vs c c' fault} hstop => ?_)
        (cause_of_execAll h)
      refine callFault_of_fits (fun hf hlength => ?_) hstop
      rw [callWithin_of_fits hf hlength] at hstop
      exact ih hf hlength hstop
    · cases h

/-- **A fault of a run comes from the program.** -/
theorem origin_of_report {inputs : List String}
    (h : (p.report limit inputs).failure = some fault) : p.Origin limit fault := by
  rw [report] at h
  cases hexec : p.exec limit (Console.ofInputs inputs) with
  | ok _ c =>
    rw [hexec] at h
    cases h
  | error e c =>
    rw [hexec] at h
    cases h
    rcases Run.bind_eq_error.mp hexec with h | ⟨_, _, -, h⟩
    · have hentry : ([], p.entry) ∈ p.blocks := List.mem_cons_self
      exact origin_of_cause hentry (fun _ _ => List.not_mem_nil)
        (fun hstop => callFault_of_fits (fun hf hlength => origin_of_callWithin hf hlength hstop)
          hstop)
        (cause_of_execAll h)
    · cases h

end Program

end FlowSketch
