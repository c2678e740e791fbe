/-
# Spoken names

The name of a node is its decimal digits as words.  The words are made of letters, none of
them begins another one, and none begins like a keyword; so a name is read back as a name
wherever it stands, and different nodes have different names.

Main statements: `name_nameChars`, `NodeId.name_injective` and `names_decode`.
-/
import FlowSketch.Graph.Id
import FlowSketch.Program.Grammar
import FlowSketch.Proofs.Text.Rule

namespace FlowSketch

/-! ## The words -/

/-- The words for the decimal digits. -/
def digitWords : List (List Char) :=
  ["zero".toList, "one".toList, "two".toList, "three".toList, "four".toList, "five".toList,
    "six".toList, "seven".toList, "eight".toList, "nine".toList]

lemma digitWord_mem (d : Char) : (digitWord d).toList ∈ digitWords := by
  unfold digitWord digitWords
  split <;> simp

/-- No word begins another one. -/
lemma digitWords_prefix_free {w v : List Char} (hw : w ∈ digitWords) (hv : v ∈ digitWords)
    (h : w <+: v) : w = v := by
  have key : digitWords.all (fun w => digitWords.all fun v => !w.isPrefixOf v || w == v) = true :=
    by decide
  have hcase := List.all_eq_true.mp (List.all_eq_true.mp key w hw) v hv
  rw [List.isPrefixOf_iff_prefix.mpr h] at hcase
  exact eq_of_beq hcase

/-- Different digits have different words. -/
lemma digitWord_injective {d e : Char} (hd : d.isDigit = true) (he : e.isDigit = true)
    (h : digitWord d = digitWord e) : d = e := by
  have hdigit : ∀ {c : Char}, c.isDigit = true → ∃ i : Fin 10, c = Char.ofNat (48 + i) := by
    intro c hc
    have hc' : 48 ≤ c.toNat ∧ c.toNat ≤ 57 := by
      simpa [Char.isDigit, UInt32.le_iff_toNat_le] using hc
    refine ⟨⟨c.toNat - 48, by omega⟩, ?_⟩
    rw [show 48 + (c.toNat - 48) = c.toNat by omega, Char.ofNat_toNat]
  obtain ⟨i, rfl⟩ := hdigit hd
  obtain ⟨j, rfl⟩ := hdigit he
  have key : ∀ i j : Fin 10, digitWord (Char.ofNat (48 + i)) = digitWord (Char.ofNat (48 + j)) →
      i = j := by decide
  rw [key i j h]

/-- Whether no word goes on as a text begins, told by the first two characters. -/
def avoidsWords (l : List Char) : Bool :=
  2 ≤ l.length && digitWords.all fun w => !(w.take 2 == l.take 2)

/-- Words in a row are told apart. -/
lemma digits_eq_of_words_eq {ds es : List Char} (hds : ∀ d ∈ ds, d.isDigit = true)
    (hes : ∀ e ∈ es, e.isDigit = true)
    (h : (ds.flatMap fun d => (digitWord d).toList) = es.flatMap fun e => (digitWord e).toList) :
    ds = es := by
  have hne : ∀ d : Char, (digitWord d).toList ≠ [] := fun d hnil => by
    have hmem := digitWord_mem d
    rw [hnil] at hmem
    revert hmem
    decide
  induction ds generalizing es with
  | nil =>
    cases es with
    | nil => rfl
    | cons e es =>
      rw [List.flatMap_cons, List.flatMap_nil] at h
      exact absurd (List.append_eq_nil_iff.mp h.symm).1 (hne e)
  | cons d ds ih =>
    cases es with
    | nil =>
      rw [List.flatMap_cons, List.flatMap_nil] at h
      exact absurd (List.append_eq_nil_iff.mp h).1 (hne d)
    | cons e es =>
      rw [List.flatMap_cons, List.flatMap_cons] at h
      have hword : (digitWord d).toList = (digitWord e).toList := by
        rcases List.prefix_or_prefix_of_prefix (List.prefix_append _ _)
          (h ▸ List.prefix_append _ _) with hp | hp
        · exact (digitWords_prefix_free (digitWord_mem e) (digitWord_mem d) hp).symm
        · exact digitWords_prefix_free (digitWord_mem d) (digitWord_mem e) hp
      rw [hword, List.append_cancel_left_eq] at h
      have hde : d = e := digitWord_injective (hds d (by simp)) (hes e (by simp))
        (String.toList_inj.mp hword)
      rw [hde, ih (fun c hc => hds c (by simp [hc])) (fun c hc => hes c (by simp [hc])) h]

namespace NodeId

/-! ## Names -/

/-- A name begins with a word. -/
lemma exists_word (id : NodeId) : ∃ w ∈ digitWords, w <+: id.nameChars := by
  obtain ⟨d, ds, hd⟩ := List.exists_cons_of_ne_nil (Nat.toDigits_ne_nil (n := id.index) (b := 10))
  refine ⟨_, digitWord_mem d, ?_⟩
  unfold nameChars
  rw [hd, List.flatMap_cons]
  exact List.prefix_append _ _

/-- Names are made of letters. -/
lemma isAlpha_of_mem_nameChars {id : NodeId} {c : Char} (h : c ∈ id.nameChars) :
    c.isAlpha = true := by
  obtain ⟨d, -, hc⟩ := List.mem_flatMap.mp h
  have key : digitWords.all (fun w => w.all Char.isAlpha) = true := by decide
  exact List.all_eq_true.mp (List.all_eq_true.mp key _ (digitWord_mem d)) c hc

lemma isNameStart_of_mem_nameChars {id : NodeId} {c : Char} (h : c ∈ id.nameChars) :
    Text.isNameStart c = true := by
  unfold Text.isNameStart
  rw [Text.isLetter_of_isAlpha (isAlpha_of_mem_nameChars h), Bool.true_or]

/-- A name does not begin like a text that avoids the words, whatever follows it. -/
lemma not_prefix_nameChars (id : NodeId) {l : List Char} (h : avoidsWords l = true)
    (t : List Char) : ¬ l <+: id.nameChars ++ t := by
  intro hl
  obtain ⟨w, hw, hprefix⟩ := id.exists_word
  have hw' : w <+: id.nameChars ++ t := hprefix.trans (List.prefix_append _ _)
  simp only [avoidsWords, Bool.and_eq_true, decide_eq_true_eq] at h
  obtain ⟨hlen, havoid⟩ := h
  have hlen' : 2 ≤ w.length := by
    have key : digitWords.all (fun w => 2 ≤ w.length) = true := by decide
    simpa using List.all_eq_true.mp key w hw
  have htake : w.take 2 = l.take 2 := by
    rw [List.prefix_iff_eq_take.mp hw', List.prefix_iff_eq_take.mp hl, List.take_take,
      List.take_take, Nat.min_eq_left hlen, Nat.min_eq_left hlen']
  have hne := List.all_eq_true.mp havoid w hw
  rw [htake, beq_self_eq_true] at hne
  cases hne

/-- A name has a first character, and it is a letter. -/
lemma exists_cons (id : NodeId) : ∃ c cs, id.nameChars = c :: cs ∧ c.isAlpha = true := by
  cases h : id.nameChars with
  | nil =>
    have hno := id.not_prefix_nameChars (l := ['v', 'a']) (by decide) ['v', 'a']
    rw [h] at hno
    exact absurd (List.prefix_refl _) hno
  | cons c cs => exact ⟨c, cs, rfl, isAlpha_of_mem_nameChars (show c ∈ id.nameChars by rw [h]; simp)⟩

lemma isAlpha_of_mem_head? {id : NodeId} {t : List Char} {c : Char}
    (h : c ∈ (id.nameChars ++ t).head?) : c.isAlpha = true := by
  obtain ⟨d, ds, hd, halpha⟩ := id.exists_cons
  rw [hd, List.cons_append, List.head?_cons, Option.mem_some_iff] at h
  rwa [← h]

/-- Different nodes have different names. -/
lemma name_injective {id other : NodeId} (h : id.name = other.name) : id = other := by
  have hchars : id.nameChars = other.nameChars := by
    rw [← toList_name, h, toList_name]
  have hdigits := digits_eq_of_words_eq
    (fun _ hd => Decimal.isDigit_of_mem_toDigits hd) (fun _ hd => Decimal.isDigit_of_mem_toDigits hd)
    hchars
  have hindex := congrArg Decimal.valueOf hdigits
  rw [Decimal.valueOf_toDigits, Decimal.valueOf_toDigits] at hindex
  cases id
  cases other
  exact congrArg NodeId.mk hindex

end NodeId

/-! ## Reading names -/

namespace Grammar

open FlowSketch.Text (Rule Source)
open FlowSketch.Text.Rule

/-- A name is read back, unless what follows could belong to it. -/
lemma name_nameChars (id : NodeId) {t : List Char}
    (ht : ∀ c ∈ t.head?, Text.isNameRest c = false) :
    name (.of (id.nameChars ++ t)) = .ok id.name (.of t) := by
  obtain ⟨c, cs, hcs, -⟩ := id.exists_cons
  have hmem : ∀ d ∈ c :: cs, Text.isNameStart d = true := fun d hd =>
    NodeId.isNameStart_of_mem_nameChars (show d ∈ id.nameChars from hcs ▸ hd)
  have hname : id.name = String.ofList (c :: cs) := by
    unfold NodeId.name
    rw [hcs]
  rw [hcs, hname]
  exact name_append (hmem c (by simp))
    (fun d hd => Text.isNameRest_of_isNameStart (hmem d (by simp [hd]))) ht

/-- What is left behind a name does not begin with a character that could belong to it. -/
lemma not_isNameRest_of_name {n : String} {s r : Source} (h : name s = .ok n r) :
    ∀ c ∈ r.chars.head?, Text.isNameRest c = false := by
  obtain ⟨_, t, -, h⟩ := bind_eq_ok.mp h
  obtain ⟨_, _, hmany, h⟩ := bind_eq_ok.mp h
  cases h
  cases hmany
  intro c hc
  have hfirst := List.head?_dropWhile_not Text.isNameRest t.chars
  change (t.chars.dropWhile Text.isNameRest).head? = some c at hc
  rwa [hc] at hfirst

/-! ## Names and keywords -/

/-- The words with which functions, statements, their other cases and reads of input begin. -/
def keywords : List String := ["function", "var", "if", "else", "output", "input"]

/-- A name does not begin like a keyword, whatever follows it. -/
lemma not_prefix_of_mem_keywords {word : String} (h : word ∈ keywords) (id : NodeId)
    (t : List Char) : ¬ word.toList <+: id.nameChars ++ t := by
  have hall : keywords.all (fun w => avoidsWords w.toList) = true := by decide
  exact id.not_prefix_nameChars (List.all_eq_true.mp hall word h) t

/-- An item that begins with a name is a statement. -/
lemma kindAhead_nameChars (id : NodeId) (t : List Char) :
    kindAhead (.of (id.nameChars ++ t)) = .statement :=
  if_neg fun h => id.not_prefix_nameChars (by decide) t (List.isPrefixOf_iff_prefix.mp h)

/-- A statement that begins with a name is a call. -/
lemma statementWith_nameChars (blk : Rule (List Stmt)) (id : NodeId) (t : List Char) :
    statementWith blk (.of (id.nameChars ++ t)) = call (.of (id.nameChars ++ t)) := by
  have hno : ∀ {l : String}, avoidsWords l.toList = true →
      ahead l (.of (id.nameChars ++ t)) = .ok false (.of (id.nameChars ++ t)) :=
    fun h => ahead_of_not_starts (id.not_prefix_nameChars h t)
  unfold statementWith
  rw [bind_of_ok _ (hno (by decide)), if_neg (by decide), bind_of_ok _ (hno (by decide)),
    bind_of_ok _ (hno (by decide)), if_neg (by decide), bind_of_ok _ (hno (by decide)),
    if_neg (by decide)]

/-- **Names are told apart from each other, from what follows them and from keywords.**
Different nodes have different names.  A name is read to its end and no further exactly if what
follows does not begin with a character of names.  A text that begins with a name never begins with
a keyword, and as a statement it is read as a call. -/
theorem names_decode (id : NodeId) (t : List Char) :
    (∀ other : NodeId, id.name = other.name ↔ id = other) ∧
    (name (.of (id.name.toList ++ t)) = .ok id.name (.of t) ↔
      ∀ c ∈ t.head?, Text.isNameRest c = false) ∧
    (∀ word ∈ keywords, ¬ word.toList <+: id.name.toList ++ t) ∧
    kindAhead (.of (id.name.toList ++ t)) = .statement ∧
    statement (.of (id.name.toList ++ t)) = call (.of (id.name.toList ++ t)) := by
  rw [NodeId.toList_name]
  exact ⟨fun other => ⟨NodeId.name_injective, congrArg NodeId.name⟩,
    ⟨not_isNameRest_of_name, name_nameChars id⟩,
    fun word h => not_prefix_of_mem_keywords h id t,
    kindAhead_nameChars id t, statementWith_nameChars block id t⟩

/-- Of node 12 with an empty list of arguments behind its name. -/
theorem names_decode_twelve :
    name (.of ("onetwo".toList ++ ['(', ')'])) = .ok "onetwo" (.of ['(', ')']) ∧
      "output" ∈ keywords ∧ ¬ "output".toList <+: "onetwo".toList ++ ['(', ')'] := by
  have h := names_decode ⟨12⟩ ['(', ')']
  have hends : ∀ c ∈ ['(', ')'].head?, Text.isNameRest c = false := by
    rintro c ⟨⟩
    decide
  have hword : "output" ∈ keywords := by simp [keywords]
  exact ⟨h.2.1.mpr hends, hword, h.2.2.1 "output" hword⟩

end Grammar

end FlowSketch
