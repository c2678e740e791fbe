/-
# How entries are spelled

An entry can be spelled in many ways: there may be spaces and tabs around every comma, and zeros
before every number.  This file says which texts spell an entry, without the rules that read them,
and shows that the rules read exactly these.

A rule reads as far as it can.  So a number is read alone only if no digit follows it, and a
separator only if neither a space nor a tab does.  In the spelling of an entry this is so at every
place: numbers and names are followed by a separator or by the end, and separators by a number or
a name.

Main statement: `entry?_eq_some_iff`.
-/
import FlowSketch.Journal.Grammar
import FlowSketch.Proofs.Text.Rule

namespace FlowSketch

/-- The coordinates of a point fit into thirty-two bits with a sign. -/
def Point.Fits (p : Point) : Prop :=
  (-0x80000000 ≤ p.x ∧ p.x < 0x80000000) ∧ -0x80000000 ≤ p.y ∧ p.y < 0x80000000

namespace Journal

open FlowSketch.Text (Rule Source)
open FlowSketch.Text.Rule

/-! ## Spellings -/

/-- A comma with spaces and tabs around it. -/
def Separates (w : List Char) : Prop :=
  ∃ u v, w = u ++ ',' :: v ∧ ∀ c ∈ u ++ v, (c == ' ' || c == '\t') = true

/-- Decimal digits, at least one, of a value. -/
structure SpellsNat (n : ℕ) (w : List Char) : Prop where
  ne_nil : w ≠ []
  isDigit : ∀ c ∈ w, c.isDigit = true
  value : Decimal.valueOf w = n

/-- Decimal digits, with a minus before them or without. -/
inductive SpellsInt : Int → List Char → Prop
  /-- There is no sign. -/
  | plain {n : ℕ} {w : List Char} : SpellsNat n w → SpellsInt n w
  /-- There is a minus. -/
  | minus {n : ℕ} {w : List Char} : SpellsNat n w → SpellsInt (-n) ('-' :: w)

/-- Two coordinates that fit, with a separator between them. -/
def SpellsPoint (p : Point) (w : List Char) : Prop :=
  p.Fits ∧ ∃ x sep y, w = x ++ (sep ++ y) ∧ SpellsInt p.x x ∧ Separates sep ∧ SpellsInt p.y y

/-- The word for a truth value. -/
def truthWord (b : Bool) : List Char := (if b then "true" else "false").toList

/-- The texts that spell an entry. -/
inductive Spells : Entry → List Char → Prop
  /-- A key has a code of thirty-two bits, and a place. -/
  | key {code : ℕ} {caret : Point} {sep₁ digits sep₂ place : List Char} :
    Separates sep₁ → SpellsNat code digits → code < 0x100000000 → Separates sep₂ →
    SpellsPoint caret place →
    Spells (.key code caret) ("Key".toList ++ (sep₁ ++ (digits ++ (sep₂ ++ place))))
  /-- A segment has two ends, the name of its tool, and a mark or none. -/
  | line {a b : Point} {tool : Tool} {last : Bool} {sep₁ start sep₂ stop sep₃ sep₄ : List Char} :
    Separates sep₁ → SpellsPoint a start → Separates sep₂ → SpellsPoint b stop →
    Separates sep₃ → Separates sep₄ →
    Spells (.line a b tool last) ("Line".toList ++ (sep₁ ++ (start ++ (sep₂ ++ (stop ++
      (sep₃ ++ (tool.name.toList ++ (sep₄ ++ truthWord last))))))))

/-! ## What may follow -/

/-- What may follow a number in an entry. -/
def Stops (t : List Char) : Prop := ∀ c ∈ t.head?, c.isDigit = false

lemma stops_nil : Stops [] := by
  intro c hc
  cases hc

/-- What may follow a separator. -/
def Tight (t : List Char) : Prop := ∀ c ∈ t.head?, (c == ' ' || c == '\t') = false

variable {w t : List Char}

lemma tight_cons {c : Char} (h : (c == ' ' || c == '\t') = false) : Tight (c :: t) := by
  intro d hd
  rwa [← Option.some.inj hd]

lemma Separates.head? (h : Separates w) (t : List Char) :
    ∀ c ∈ (w ++ t).head?, c = ' ' ∨ c = '\t' ∨ c = ',' := by
  obtain ⟨u, v, rfl, hgap⟩ := h
  intro c hc
  cases u with
  | nil => exact .inr (.inr (Option.some.inj hc).symm)
  | cons d u =>
    have hd := hgap d (by simp)
    rw [Option.some.inj hc] at hd
    simp only [Bool.or_eq_true, beq_iff_eq] at hd
    exact hd.imp_right .inl

lemma Separates.stops (h : Separates w) (t : List Char) : Stops (w ++ t) := by
  intro c hc
  rcases h.head? t c hc with rfl | rfl | rfl <;> rfl

lemma SpellsNat.tight {n : ℕ} (h : SpellsNat n w) (t : List Char) : Tight (w ++ t) := by
  obtain ⟨hne, hdigits, -⟩ := h
  cases w with
  | nil => exact absurd rfl hne
  | cons c w =>
    have hc := hdigits c (by simp)
    apply tight_cons
    rw [beq_of_class hc (by decide), beq_of_class hc (by decide)]
    rfl

lemma SpellsInt.tight {x : Int} (h : SpellsInt x w) (t : List Char) : Tight (w ++ t) := by
  cases h with
  | plain h => exact h.tight t
  | minus h => exact tight_cons rfl

lemma SpellsPoint.tight {p : Point} (h : SpellsPoint p w) (t : List Char) : Tight (w ++ t) := by
  obtain ⟨-, x, sep, y, rfl, hx, -, -⟩ := h
  rw [List.append_assoc]
  exact hx.tight _

lemma tight_name (tool : Tool) (t : List Char) : Tight (tool.name.toList ++ t) := by
  cases tool <;> exact tight_cons rfl

lemma tight_truthWord (b : Bool) : Tight (truthWord b) := by
  cases b <;> exact tight_cons rfl

/-! ## Spellings are read -/

/-- A separator is read up to what follows its last space or tab. -/
lemma comma_append (h : Separates w) (ht : Tight t) : comma (.of (w ++ t)) = .ok () (.of t) := by
  obtain ⟨u, v, rfl, hgap⟩ := h
  have hcomma : ∀ c ∈ (',' :: (v ++ t)).head?, (c == ' ' || c == '\t') = false := by
    intro c hc
    rw [← Option.some.inj hc]
    rfl
  rw [List.append_assoc, List.cons_append, comma,
    bind_of_ok _ (many_append (fun c hc => hgap c (List.mem_append_left _ hc)) hcomma),
    bind_of_ok _ (char_cons_self _ _),
    bind_of_ok _ (many_append (fun c hc => hgap c (List.mem_append_right _ hc)) ht)]
  rfl

lemma SpellsNat.read {n : ℕ} (h : SpellsNat n w) (ht : Stops t) :
    digits (.of (w ++ t)) = .ok w (.of t) :=
  several_append h.ne_nil h.isDigit ht

/-- A coordinate is read up to what follows its last digit. -/
lemma coordinate_append {x : Int} (h : SpellsInt x w) (hx : -0x80000000 ≤ x ∧ x < 0x80000000)
    (ht : Stops t) : coordinate (.of (w ++ t)) = .ok x (.of t) := by
  cases h with
  | @plain n _ h =>
    have hsign : char '-' (.of (w ++ t)) = .error () (.of (w ++ t)) := by
      apply char_of_not
      intro c hc
      cases w with
      | nil => exact absurd rfl h.ne_nil
      | cons d w => exact beq_of_class (h.isDigit c (by simp [Option.some.inj hc])) (by decide)
    rw [coordinate, bind_of_ok _ (attempt_of_error hsign), bind_of_ok _ (h.read ht)]
    simp only [Option.isSome_none, Bool.false_eq_true, if_false, Decimal.longValueOf_eq, h.value]
    rw [if_pos hx]
    rfl
  | @minus n w h =>
    rw [List.cons_append, coordinate, bind_of_ok _ (attempt_of_ok (char_cons_self _ _)),
      bind_of_ok _ (h.read ht)]
    simp only [Option.isSome_some, if_true, Decimal.longValueOf_eq, h.value]
    rw [if_pos hx]
    rfl

lemma point_append {p : Point} (h : SpellsPoint p w) (ht : Stops t) :
    point (.of (w ++ t)) = .ok p (.of t) := by
  obtain ⟨hp, x, sep, y, rfl, hx, hsep, hy⟩ := h
  rw [List.append_assoc, List.append_assoc, point,
    bind_of_ok _ (coordinate_append hx hp.1 (hsep.stops _)),
    bind_of_ok _ (comma_append hsep (hy.tight _)), bind_of_ok _ (coordinate_append hy hp.2 ht)]
  rfl

lemma toolName_append (tool : Tool) (h : Separates w) :
    toolName (.of (tool.name.toList ++ (w ++ t))) = .ok tool (.of (w ++ t)) := by
  have hne : tool.name.toList ≠ [] := by cases tool <;> decide
  have hall : tool.name.toList.all Char.isAlphanum = true := by cases tool <;> decide
  have hstop : ∀ c ∈ (w ++ t).head?, c.isAlphanum = false := by
    intro c hc
    rcases h.head? t c hc with rfl | rfl | rfl <;> decide
  rw [toolName, bind_of_ok _ (several_append hne (List.all_eq_true.mp hall) hstop),
    String.ofList_toList, Tool.ofName?_name]
  rfl

lemma truth_truthWord (b : Bool) : truth (.of (truthWord b)) = .ok b (.of []) := by
  cases b <;> rfl

/-- A spelling of an entry is read as this entry, by one of the two rules. -/
lemma read_of_spells {e : Entry} (h : Spells e w) :
    orElse keyEntry lineEntry (.of w) = .ok e (.of []) := by
  cases h with
  | @key code caret sep₁ ds sep₂ place h₁ hcode hlt h₂ hplace =>
    have hcode' : keyCode (.of (ds ++ (sep₂ ++ place))) = .ok code (.of (sep₂ ++ place)) := by
      rw [keyCode, bind_of_ok _ (hcode.read (h₂.stops _))]
      simp only [Decimal.longValueOf_eq, hcode.value]
      rw [if_pos hlt]
      rfl
    have hpoint := point_append hplace stops_nil
    have htight := hplace.tight []
    rw [List.append_nil] at hpoint htight
    apply orElse_of_ok
    rw [keyEntry, bind_of_ok _ (lit_append _ _), bind_of_ok _ (comma_append h₁ (hcode.tight _)),
      bind_of_ok _ hcode', bind_of_ok _ (comma_append h₂ htight), bind_of_ok _ hpoint]
    rfl
  | @line a b tool last sep₁ start sep₂ stop sep₃ sep₄ h₁ ha h₂ hb h₃ h₄ =>
    have hkey : ∀ u : List Char, keyEntry (.of ("Line".toList ++ u)) =
        .error () (.of ("Line".toList ++ u)) :=
      fun u => bind_of_error _ <| lit_of_not_prefix (by simp)
    rw [orElse_of_error (hkey _), lineEntry,
      bind_of_ok _ (lit_append _ _), bind_of_ok _ (comma_append h₁ (ha.tight _)),
      bind_of_ok _ (point_append ha (h₂.stops _)), bind_of_ok _ (comma_append h₂ (hb.tight _)),
      bind_of_ok _ (point_append hb (h₃.stops _)),
      bind_of_ok _ (comma_append h₃ (tight_name tool _)), bind_of_ok _ (toolName_append tool h₄),
      bind_of_ok _ (comma_append h₄ (tight_truthWord last)), bind_of_ok _ (truth_truthWord last)]
    rfl

/-! ## What is read is a spelling -/

variable {s r : Source}

lemma comma_eq_ok {u : Unit} (h : comma s = .ok u r) :
    ∃ w, Separates w ∧ s.chars = w ++ r.chars := by
  obtain ⟨before, s₁, h₁, h⟩ := bind_eq_ok.mp h
  obtain ⟨_, s₂, h₂, h⟩ := bind_eq_ok.mp h
  obtain ⟨behind, s₃, h₃, h⟩ := bind_eq_ok.mp h
  cases h
  obtain ⟨hs, hbefore⟩ := many_eq_ok h₁
  obtain ⟨hs', hbehind⟩ := many_eq_ok h₃
  refine ⟨before ++ ',' :: behind, ⟨before, behind, rfl, ?_⟩, ?_⟩
  · exact fun c hc => (List.mem_append.mp hc).elim (hbefore c) (hbehind c)
  · rw [hs, char_eq_ok h₂, hs', List.append_assoc, List.cons_append]

lemma digits_eq_ok {ds : List Char} (h : digits s = .ok ds r) :
    SpellsNat (Decimal.longValueOf ds) ds ∧ s.chars = ds ++ r.chars := by
  obtain ⟨hs, hne, hdigits⟩ := several_eq_ok h
  exact ⟨⟨hne, hdigits, (Decimal.longValueOf_eq ds).symm⟩, hs⟩

lemma coordinate_eq_ok {x : Int} (h : coordinate s = .ok x r) :
    ∃ w, SpellsInt x w ∧ (-0x80000000 ≤ x ∧ x < 0x80000000) ∧ s.chars = w ++ r.chars := by
  obtain ⟨sign, s₁, h₁, h⟩ := bind_eq_ok.mp h
  obtain ⟨ds, s₂, h₂, h⟩ := bind_eq_ok.mp h
  obtain ⟨hds, hs₂⟩ := digits_eq_ok h₂
  obtain ⟨hfits, rfl, rfl⟩ := guard_eq_ok h
  cases sign with
  | none =>
    rw [attempt_eq_none h₁]
    exact ⟨ds, .plain hds, hfits, hs₂⟩
  | some _ =>
    refine ⟨'-' :: ds, .minus hds, hfits, ?_⟩
    rw [char_eq_ok (attempt_eq_some h₁), hs₂, List.cons_append]

lemma point_eq_ok {p : Point} (h : point s = .ok p r) :
    ∃ w, SpellsPoint p w ∧ s.chars = w ++ r.chars := by
  obtain ⟨x, s₁, h₁, h⟩ := bind_eq_ok.mp h
  obtain ⟨_, s₂, h₂, h⟩ := bind_eq_ok.mp h
  obtain ⟨y, s₃, h₃, h⟩ := bind_eq_ok.mp h
  cases h
  obtain ⟨wx, hx, hxfits, hs⟩ := coordinate_eq_ok h₁
  obtain ⟨sep, hsep, hs₁⟩ := comma_eq_ok h₂
  obtain ⟨wy, hy, hyfits, hs₂⟩ := coordinate_eq_ok h₃
  refine ⟨_, ⟨⟨hxfits, hyfits⟩, wx, sep, wy, rfl, hx, hsep, hy⟩, ?_⟩
  rw [hs, hs₁, hs₂, List.append_assoc, List.append_assoc]

lemma toolName_eq_ok {tool : Tool} (h : toolName s = .ok tool r) :
    s.chars = tool.name.toList ++ r.chars := by
  obtain ⟨cs, s₁, h₁, h⟩ := bind_eq_ok.mp h
  obtain ⟨hs, -⟩ := several_eq_ok h₁
  cases ht : Tool.ofName? (String.ofList cs) with
  | none =>
    rw [ht] at h
    cases h
  | some tool' =>
    rw [ht] at h
    cases h
    rw [hs, Tool.name_of_ofName? ht, String.toList_ofList]

lemma truth_eq_ok {b : Bool} (h : truth s = .ok b r) : s.chars = truthWord b ++ r.chars := by
  rcases orElse_eq_ok h with h | h
  · obtain ⟨_, s₁, h₁, h⟩ := bind_eq_ok.mp h
    cases h
    exact lit_eq_ok h₁
  · obtain ⟨_, s₁, h₁, h⟩ := bind_eq_ok.mp h
    cases h
    exact lit_eq_ok h₁

lemma keyEntry_eq_ok {e : Entry} (h : keyEntry s = .ok e r) :
    ∃ w, Spells e w ∧ s.chars = w ++ r.chars := by
  obtain ⟨_, s₁, h₁, h⟩ := bind_eq_ok.mp h
  obtain ⟨_, s₂, h₂, h⟩ := bind_eq_ok.mp h
  obtain ⟨code, s₃, h₃, h⟩ := bind_eq_ok.mp h
  obtain ⟨_, s₄, h₄, h⟩ := bind_eq_ok.mp h
  obtain ⟨caret, s₅, h₅, h⟩ := bind_eq_ok.mp h
  cases h
  obtain ⟨sep₁, hsep₁, hs₁⟩ := comma_eq_ok h₂
  obtain ⟨ds, hds, hlt, hs₂⟩ : ∃ ds, SpellsNat code ds ∧ code < 0x100000000 ∧
      s₂.chars = ds ++ s₃.chars := by
    obtain ⟨ds, s', hds, h₃⟩ := bind_eq_ok.mp h₃
    obtain ⟨hlt, rfl, rfl⟩ := guard_eq_ok h₃
    obtain ⟨hspells, hs⟩ := digits_eq_ok hds
    exact ⟨ds, hspells, hlt, hs⟩
  obtain ⟨sep₂, hsep₂, hs₃⟩ := comma_eq_ok h₄
  obtain ⟨place, hplace, hs₄⟩ := point_eq_ok h₅
  refine ⟨_, .key hsep₁ hds hlt hsep₂ hplace, ?_⟩
  simp only [lit_eq_ok h₁, hs₁, hs₂, hs₃, hs₄, List.append_assoc]

lemma lineEntry_eq_ok {e : Entry} (h : lineEntry s = .ok e r) :
    ∃ w, Spells e w ∧ s.chars = w ++ r.chars := by
  obtain ⟨_, s₁, h₁, h⟩ := bind_eq_ok.mp h
  obtain ⟨_, s₂, h₂, h⟩ := bind_eq_ok.mp h
  obtain ⟨a, s₃, h₃, h⟩ := bind_eq_ok.mp h
  obtain ⟨_, s₄, h₄, h⟩ := bind_eq_ok.mp h
  obtain ⟨b, s₅, h₅, h⟩ := bind_eq_ok.mp h
  obtain ⟨_, s₆, h₆, h⟩ := bind_eq_ok.mp h
  obtain ⟨tool, s₇, h₇, h⟩ := bind_eq_ok.mp h
  obtain ⟨_, s₈, h₈, h⟩ := bind_eq_ok.mp h
  obtain ⟨last, s₉, h₉, h⟩ := bind_eq_ok.mp h
  cases h
  obtain ⟨sep₁, hsep₁, hs₁⟩ := comma_eq_ok h₂
  obtain ⟨start, hstart, hs₂⟩ := point_eq_ok h₃
  obtain ⟨sep₂, hsep₂, hs₃⟩ := comma_eq_ok h₄
  obtain ⟨stop, hstop, hs₄⟩ := point_eq_ok h₅
  obtain ⟨sep₃, hsep₃, hs₅⟩ := comma_eq_ok h₆
  obtain ⟨sep₄, hsep₄, hs₇⟩ := comma_eq_ok h₈
  refine ⟨_, .line hsep₁ hstart hsep₂ hstop hsep₃ hsep₄, ?_⟩
  simp only [lit_eq_ok h₁, hs₁, hs₂, hs₃, hs₄, hs₅, toolName_eq_ok h₇, hs₇, truth_eq_ok h₉,
    List.append_assoc]

/-- **A text is read as an entry exactly if it spells this entry.** -/
theorem entry?_eq_some_iff {e : Entry} : entry? w = some e ↔ Spells e w := by
  constructor
  · intro h
    unfold entry? at h
    split at h
    · rename_i e' r hread
      split at h
      · rename_i hend
        cases h
        obtain ⟨w', hspells, hw⟩ := (orElse_eq_ok hread).elim keyEntry_eq_ok lineEntry_eq_ok
        have hnil : r.chars = [] := List.isEmpty_iff.mp hend
        rw [hnil, List.append_nil] at hw
        rwa [← Source.chars_of w, hw]
      · cases h
    · cases h
  · intro h
    unfold entry?
    rw [read_of_spells h]
    rfl

/-- A text spells at most one entry. -/
lemma Spells.unique {e e' : Entry} (h : Spells e w) (h' : Spells e' w) : e = e' :=
  Option.some.inj ((entry?_eq_some_iff.mpr h).symm.trans (entry?_eq_some_iff.mpr h'))

/-- An entry is spelled with something. -/
lemma Spells.ne_nil {e : Entry} (h : Spells e w) : w ≠ [] := by
  cases h <;> simp

end Journal

end FlowSketch
