/-
# Saved journals are read back

A journal is written entry by entry, each with a semicolon and a line break behind it.  The
reader cuts the text at the semicolons, trims every piece and reads an entry from each that
is not blank.  No entry has a semicolon in it, and after the last one only a line break is
left, so it finds the same entries again.

This holds of journals that can be *stored*: their coordinates fit into thirty-two bits and
their key codes are numbers of characters.  Main statement: `read_encode`.
-/
import FlowSketch.Proofs.Journal.Spelling

namespace FlowSketch

namespace Journal

open FlowSketch.Text (isBlank trim trimStart trimEnd)

/-- An entry that can be written and read back. -/
def Entry.Storable : Entry → Prop
  | .key code caret => (charOfCode? code).isSome = true ∧ caret.Fits
  | .line a b _ _ => a.Fits ∧ b.Fits

/-! ## Numbers and points -/

/-- A whole number as text. -/
def intText (x : Int) : List Char := (toString x).toList

lemma intText_of_nonneg {x : Int} (h : 0 ≤ x) : intText x = Nat.toDigits 10 x.toNat := by
  obtain ⟨n, rfl⟩ := Int.eq_ofNat_of_zero_le h
  exact Nat.toList_repr

lemma intText_of_neg {x : Int} (h : x < 0) : intText x = '-' :: Nat.toDigits 10 (-x).toNat := by
  obtain ⟨n, rfl⟩ := Int.eq_negSucc_of_lt_zero h
  change ("-" ++ Nat.repr (n + 1)).toList = _
  rw [String.toList_append, Nat.toList_repr]
  rfl

lemma spellsNat_toDigits (n : ℕ) : SpellsNat n (Nat.toDigits 10 n) where
  ne_nil := Nat.toDigits_ne_nil
  isDigit := fun _ hc => Decimal.isDigit_of_mem_toDigits hc
  value := Decimal.valueOf_toDigits n

lemma spellsInt_intText (x : Int) : SpellsInt x (intText x) := by
  by_cases h : 0 ≤ x
  · have hspells := SpellsInt.plain (spellsNat_toDigits x.toNat)
    rwa [Int.toNat_of_nonneg h, ← intText_of_nonneg h] at hspells
  · have hspells := SpellsInt.minus (spellsNat_toDigits (-x).toNat)
    rwa [Int.toNat_of_nonneg (by omega), Int.neg_neg, ← intText_of_neg (by omega)] at hspells

lemma separates_comma : Separates [','] := ⟨[], [], rfl, by simp⟩

/-- A point as text. -/
def pointText (p : Point) : List Char := intText p.x ++ ',' :: intText p.y

lemma spellsPoint_pointText {p : Point} (hp : p.Fits) : SpellsPoint p (pointText p) :=
  ⟨hp, _, _, _, rfl, spellsInt_intText p.x, separates_comma, spellsInt_intText p.y⟩

/-! ## Entries -/

/-- An entry as text, without the semicolon behind it. -/
def Entry.body : Entry → List Char
  | .key code caret => "Key".toList ++ ',' :: (Nat.toDigits 10 code ++ ',' :: pointText caret)
  | .line a b tool last => "Line".toList ++ ',' :: (pointText a ++ ',' :: (pointText b ++
      ',' :: (tool.name.toList ++ ',' :: (if last then "true" else "false").toList)))

lemma toList_encode (e : Entry) : e.encode.toList = e.body ++ [';', '\n'] := by
  have hkey : "Key,".toList = "Key".toList ++ [','] := by decide
  have hline : "Line,".toList = "Line".toList ++ [','] := by decide
  have hcomma : ",".toList = [','] := by decide
  have hend : ";\n".toList = [';', '\n'] := by decide
  -- the numbers are generalized so that no literal is compared with the text of a number
  cases e with
  | key code caret =>
    have hcode : (toString code).toList = Nat.toDigits 10 code := Nat.toList_repr
    unfold Entry.encode Entry.body pointText intText
    simp only [String.toList_append, hcode]
    generalize Nat.toDigits 10 code = digits
    generalize (toString caret.x).toList = x
    generalize (toString caret.y).toList = y
    rw [hkey, hcomma, hend]
    simp only [List.append_assoc, List.cons_append, List.nil_append]
  | line a b tool last =>
    unfold Entry.encode Entry.body pointText intText
    simp only [String.toList_append]
    generalize (toString a.x).toList = x₀
    generalize (toString a.y).toList = y₀
    generalize (toString b.x).toList = x₁
    generalize (toString b.y).toList = y₁
    generalize tool.name.toList = name
    rw [hline, hcomma, hend]
    simp only [List.append_assoc, List.cons_append, List.nil_append]

lemma charOfCode?_lt {code : ℕ} (h : (charOfCode? code).isSome = true) : code < 0x100000000 := by
  unfold charOfCode? at h
  split at h
  · omega
  · cases h

/-- What is written spells the entry. -/
lemma spells_body {e : Entry} (h : e.Storable) : Spells e e.body := by
  cases e with
  | key code caret =>
    exact .key separates_comma (spellsNat_toDigits code) (charOfCode?_lt h.1) separates_comma
      (spellsPoint_pointText h.2)
  | line a b tool last =>
    exact .line separates_comma (spellsPoint_pointText h.1) separates_comma
      (spellsPoint_pointText h.2) separates_comma separates_comma

/-! ## Pieces -/

/-- A text between blanks is found by trimming. -/
lemma trim_append {pre s : List Char} (hpre : ∀ c ∈ pre, isBlank c = true)
    (hhead : ∀ c ∈ s.head?, isBlank c = false) (hlast : ∀ c ∈ s.getLast?, isBlank c = false) :
    trim (pre ++ s) = s := by
  have hstart : trimStart (pre ++ s) = s := by
    rw [trimStart, List.dropWhile_append_of_pos hpre]
    cases s with
    | nil => rfl
    | cons c s => exact Text.trimStart_cons_of_not_blank (hhead c rfl)
  have hend : s.reverse.dropWhile isBlank = s.reverse := by
    rw [← List.head?_reverse] at hlast
    cases hr : s.reverse with
    | nil => rfl
    | cons c t =>
      rw [hr] at hlast
      exact Text.trimStart_cons_of_not_blank (hlast c rfl)
  rw [trim, hstart, trimEnd, hend, List.reverse_reverse]

/-- The characters that an entry is written with. -/
def isPlain (c : Char) : Bool := c.isAlphanum || c == ',' || c == '-'

lemma isPlain_of_isDigit {c : Char} (h : c.isDigit = true) : isPlain c = true := by
  simp [isPlain, Char.isAlphanum, h]

lemma isPlain_of_mem_intText {x : Int} {c : Char} (h : c ∈ intText x) : isPlain c = true := by
  by_cases hx : 0 ≤ x
  · rw [intText_of_nonneg hx] at h
    exact isPlain_of_isDigit (Decimal.isDigit_of_mem_toDigits h)
  · rw [intText_of_neg (by omega), List.mem_cons] at h
    rcases h with rfl | h
    · decide
    · exact isPlain_of_isDigit (Decimal.isDigit_of_mem_toDigits h)

lemma isPlain_of_mem_body {e : Entry} {c : Char} (h : c ∈ e.body) : isPlain c = true := by
  have hcomma : isPlain ',' = true := by decide
  have hkey := List.all_eq_true.mp (show "Key".toList.all isPlain = true by decide)
  have hline := List.all_eq_true.mp (show "Line".toList.all isPlain = true by decide)
  cases e with
  | key code caret =>
    simp only [Entry.body, pointText, List.mem_append, List.mem_cons] at h
    rcases h with h | rfl | h | rfl | h | rfl | h
    · exact hkey c h
    · exact hcomma
    · exact isPlain_of_isDigit (Decimal.isDigit_of_mem_toDigits h)
    · exact hcomma
    · exact isPlain_of_mem_intText h
    · exact hcomma
    · exact isPlain_of_mem_intText h
  | line a b tool last =>
    have hname : tool.name.toList.all isPlain = true := by cases tool <;> decide
    have htruth : (if last then "true" else "false").toList.all isPlain = true := by
      cases last <;> decide
    simp only [Entry.body, pointText, List.mem_append, List.mem_cons] at h
    rcases h with h | rfl | (h | rfl | h) | rfl | (h | rfl | h) | rfl | h | rfl | h
    · exact hline c h
    · exact hcomma
    · exact isPlain_of_mem_intText h
    · exact hcomma
    · exact isPlain_of_mem_intText h
    · exact hcomma
    · exact isPlain_of_mem_intText h
    · exact hcomma
    · exact isPlain_of_mem_intText h
    · exact hcomma
    · exact List.all_eq_true.mp hname c h
    · exact hcomma
    · exact List.all_eq_true.mp htruth c h

lemma not_blank_of_isPlain {c : Char} (h : isPlain c = true) : isBlank c = false ∧ c ≠ ';' := by
  constructor
  · -- the letters and digits by their numbers
    have hplain : isPlain c = (((decide ('A'.val ≤ c.val ∧ c.val ≤ 'Z'.val) ||
        decide ('a'.val ≤ c.val) && decide (c.val ≤ 'z'.val)) ||
        decide ('0'.val ≤ c.val) && decide (c.val ≤ '9'.val)) || c == ',' || c == '-') := rfl
    by_contra hb
    simp only [Bool.not_eq_false, isBlank, Bool.or_eq_true, Bool.and_eq_true, decide_eq_true_eq,
      beq_iff_eq] at hb
    simp only [hplain, Bool.or_eq_true, Bool.and_eq_true, decide_eq_true_eq, beq_iff_eq,
      UInt32.le_iff_toNat_le, Char.toNat_val, Char.reduceToNat] at h
    rcases h with (h | rfl) | rfl
    · omega
    · exact absurd hb (by decide)
    · exact absurd hb (by decide)
  · rintro rfl
    exact absurd h (by decide)

lemma body_ne_nil (e : Entry) : e.body ≠ [] := by
  cases e <;> simp [Entry.body]

/-- A piece with an entry in it gives that entry. -/
lemma readPiece_body {e : Entry} (h : e.Storable) {pre : List Char}
    (hpre : ∀ c ∈ pre, isBlank c = true) (index : ℕ) :
    readPiece index (pre ++ e.body) = .ok (some e) := by
  have hplain : ∀ c ∈ e.body, isBlank c = false := fun c hc =>
    (not_blank_of_isPlain (isPlain_of_mem_body hc)).1
  have htrim : trim (pre ++ e.body) = e.body :=
    trim_append hpre (fun c hc => hplain c (List.mem_of_mem_head? hc))
      (fun c hc => hplain c (List.mem_of_getLast? hc))
  simp only [readPiece, htrim, entry?_eq_some_iff.mpr (spells_body h)]
  rw [if_neg (by simpa using body_ne_nil e)]
  cases e with
  | key code caret => exact if_pos h.1
  | line a b tool last => rfl

/-! ## Journals -/

/-- Entries as text. -/
def textOf (es : List Entry) : List Char := es.flatMap fun e => e.body ++ [';', '\n']

lemma toList_encode_journal (es : List Entry) :
    (Journal.encode ⟨es.toArray⟩).toList = textOf es := by
  have key : ∀ (es : List Entry) (s : String),
      (es.foldl (fun text e => text ++ e.encode) s).toList = s.toList ++ textOf es := by
    intro es
    induction es with
    | nil => simp [textOf]
    | cons e es ih =>
      intro s
      rw [List.foldl_cons, ih, String.toList_append, toList_encode, textOf, textOf,
        List.flatMap_cons, List.append_assoc]
  rw [Journal.encode, List.foldl_toArray, key]
  rfl

/-- Reads a piece with its place in the text. -/
def readPlaced (p : List Char × ℕ) : Except Failure (Option Entry) := readPiece p.2 p.1

/-- The pieces of the text give the entries in order, and nothing behind the last. -/
lemma mapM_readPiece {es : List Entry} (h : ∀ e ∈ es, e.Storable) (pre : List Char)
    (hpre : ∀ c ∈ pre, isBlank c = true) (index : ℕ) :
    ∃ os, (((pre ++ textOf es).splitOn ';').zipIdx index).mapM readPlaced = .ok os ∧
      os.filterMap id = es := by
  have hsemi : ∀ c ∈ pre, (c == ';') = false := by
    intro c hc
    have hblank := hpre c hc
    rw [beq_eq_false_iff_ne]
    rintro rfl
    exact absurd hblank (by decide)
  induction es generalizing pre index with
  | nil =>
    have hpiece : readPlaced (pre, index) = .ok none := by
      apply readPiece_of_blank
      have := trim_append (s := []) hpre (by simp) (by simp)
      rwa [List.append_nil] at this
    refine ⟨[none], ?_, rfl⟩
    rw [textOf, List.flatMap_nil, List.append_nil, List.splitOn_eq_splitOnP,
      List.splitOnP_eq_singleton hsemi, List.zipIdx_cons, List.zipIdx_nil, List.mapM_cons, hpiece]
    rfl
  | cons e es ih =>
    obtain ⟨os, hos, hes⟩ := ih (fun e' he => h e' (by simp [he])) ['\n']
      (by simp; decide) (index + 1) (by simp)
    have hpiece : readPlaced (pre ++ e.body, index) = .ok (some e) :=
      readPiece_body (h e (by simp)) hpre index
    refine ⟨some e :: os, ?_, congrArg (e :: ·) hes⟩
    have hsplit : (pre ++ textOf (e :: es)).splitOn ';' =
        (pre ++ e.body) :: (['\n'] ++ textOf es).splitOn ';' := by
      have htext : pre ++ textOf (e :: es) = (pre ++ e.body) ++ ';' :: (['\n'] ++ textOf es) := by
        simp [textOf]
      rw [htext, List.splitOn_eq_splitOnP, List.splitOnP_append_cons_of_forall_mem]
      · rfl
      · intro c hc
        rcases List.mem_append.mp hc with hc | hc
        · exact hsemi c hc
        · rw [beq_eq_false_iff_ne]
          exact (not_blank_of_isPlain (isPlain_of_mem_body hc)).2
      · rfl
    rw [hsplit, List.zipIdx_cons, List.mapM_cons, hpiece, hos]
    rfl

/-- **A journal that can be stored is read back from its text.** -/
theorem read_encode {j : Journal} (h : ∀ e ∈ j.entries.toList, e.Storable) :
    read j.encode = .ok j := by
  obtain ⟨⟨es⟩⟩ := j
  obtain ⟨os, hos, hes⟩ := mapM_readPiece h [] (by simp) 0
  rw [List.nil_append] at hos
  change (((Journal.encode ⟨es.toArray⟩).toList.splitOn ';').zipIdx.mapM readPlaced).bind
    (fun os => .ok (Journal.mk (os.filterMap id).toArray)) = _
  rw [toList_encode_journal, hos]
  exact congrArg (fun es => Except.ok (Journal.mk ⟨es⟩)) hes

end Journal

end FlowSketch
