/-
# Which texts are journals

A text is cut at its semicolons, and the blanks at the ends of the pieces do not count.  It is a
journal if every piece with something in it spells an entry and the code of every key is the
number of a character.  The entries are then those of these pieces, in order.

Otherwise the failure is about the first piece that is not so.  A piece that spells a key with a
code of no character is named by this code.  Any other one is malformed, and is named by its place
among all pieces, blank ones included.

So whatever the reader makes of a text, however it is spaced, is a journal that can be written down
and read back.

Main statements: `storable_of_read`, `read_iff`.
-/
import Mathlib.Data.List.Forall2
import FlowSketch.Proofs.Journal.RoundTrip

namespace FlowSketch.Journal

open FlowSketch.Text (trim)

/-! ## Pieces -/

/-- What stands between the semicolons of a text, without the blanks at both ends. -/
def pieces (text : String) : List (List Char) := (text.toList.splitOn ';').map trim

/-- The code of a key is the number of a character. -/
def Entry.Typable : Entry → Prop
  | .key code _ => code.isValidChar
  | .line .. => True

/-- A piece is an entry of a journal. -/
def IsEntry (piece : List Char) (e : Entry) : Prop := Spells e piece ∧ e.Typable

/-- What is wrong with a piece at a place in the text. -/
inductive Faulty (index : ℕ) (piece : List Char) : Failure → Prop
  /-- The piece spells no entry. -/
  | malformed : piece ≠ [] → (∀ e, ¬ Spells e piece) →
    Faulty index piece (.malformed index (String.ofList piece))
  /-- The piece spells a key, but not of a character. -/
  | invalidKey {code : ℕ} {caret : Point} : Spells (.key code caret) piece → ¬ code.isValidChar →
    Faulty index piece (.invalidKey code)

lemma isSome_charOfCode? {code : ℕ} : (charOfCode? code).isSome = true ↔ code.isValidChar := by
  unfold charOfCode? Nat.isValidChar
  split
  · exact iff_of_true rfl ‹_›
  · exact iff_of_false Bool.false_ne_true ‹_›

variable {index : ℕ} {piece : List Char} {failure : Failure}

lemma Faulty.not_isEntry (h : Faulty index piece failure) {e : Entry} : ¬ IsEntry piece e := by
  rintro ⟨hspells, htypable⟩
  cases h with
  | malformed _ hnone => exact hnone e hspells
  | invalidKey hkey hcode =>
    cases hkey.unique hspells
    exact hcode htypable

lemma Faulty.ne_nil (h : Faulty index piece failure) : piece ≠ [] := by
  cases h with
  | malformed hne => exact hne
  | invalidKey hkey => exact hkey.ne_nil

/-- Only one thing is wrong with a piece. -/
lemma Faulty.unique {failure' : Failure} (h : Faulty index piece failure)
    (h' : Faulty index piece failure') : failure = failure' := by
  cases h with
  | malformed _ hnone =>
    cases h' with
    | malformed => rfl
    | invalidKey hkey => exact absurd hkey (hnone _)
  | invalidKey hkey =>
    cases h' with
    | malformed _ hnone => exact absurd hkey (hnone _)
    | invalidKey hkey' =>
      cases hkey.unique hkey'
      rfl

lemma readPiece_of_isEntry {e : Entry} (h : IsEntry (trim piece) e) :
    readPiece index piece = .ok (some e) := by
  obtain ⟨hspells, htypable⟩ := h
  have hentry := entry?_eq_some_iff.mpr hspells
  simp only [readPiece, List.isEmpty_iff, if_neg hspells.ne_nil, hentry]
  cases e with
  | key code caret => exact if_pos (isSome_charOfCode?.mpr htypable)
  | line a b tool last => rfl

lemma readPiece_of_faulty (h : Faulty index (trim piece) failure) :
    readPiece index piece = .error failure := by
  simp only [readPiece, List.isEmpty_iff, if_neg h.ne_nil]
  cases h with
  | malformed _ hnone =>
    have hentry : entry? (trim piece) = none := by
      rw [Option.eq_none_iff_forall_ne_some]
      exact fun e he => hnone e (entry?_eq_some_iff.mp he)
    rw [hentry]
  | invalidKey hkey hcode =>
    rw [entry?_eq_some_iff.mpr hkey]
    exact if_neg fun h => hcode (isSome_charOfCode?.mp h)

/-- A piece is blank, or an entry, or something is wrong with it. -/
lemma piece_cases (index : ℕ) (piece : List Char) :
    piece = [] ∨ (∃ e, IsEntry piece e) ∨ ∃ failure, Faulty index piece failure := by
  by_cases hnil : piece = []
  · exact .inl hnil
  by_cases hspells : ∃ e, Spells e piece
  · obtain ⟨e, he⟩ := hspells
    cases e with
    | key code caret =>
      by_cases hcode : code.isValidChar
      · exact .inr (.inl ⟨_, he, hcode⟩)
      · exact .inr (.inr ⟨_, .invalidKey he hcode⟩)
    | line a b tool last => exact .inr (.inl ⟨_, he, trivial⟩)
  · exact .inr (.inr ⟨_, .malformed hnil fun e he => hspells ⟨e, he⟩⟩)

/-! ## Texts -/

/-- The entries of pieces, the first of which is at a place in the text. -/
def entriesFrom (index : ℕ) (ps : List (List Char)) : Except Failure (List Entry) :=
  ((ps.zipIdx index).mapM readPlaced).map fun os => os.filterMap id

lemma read_eq (text : String) :
    read text = (entriesFrom 0 (text.toList.splitOn ';')).map fun es => ⟨es.toArray⟩ := by
  change ((text.toList.splitOn ';').zipIdx.mapM readPlaced).bind
    (fun os => .ok (Journal.mk (os.filterMap id).toArray)) = _
  rw [entriesFrom]
  cases (text.toList.splitOn ';').zipIdx.mapM readPlaced <;> rfl

section Pieces

variable {ps : List (List Char)}

lemma entriesFrom_of_ok {o : Option Entry} (h : readPiece index piece = .ok o) :
    entriesFrom index (piece :: ps) =
      (entriesFrom (index + 1) ps).map fun es => [o].filterMap id ++ es := by
  have hplaced : readPlaced (piece, index) = .ok o := h
  rw [entriesFrom, entriesFrom, List.zipIdx_cons, List.mapM_cons, hplaced]
  cases (ps.zipIdx (index + 1)).mapM readPlaced with
  | error failure => rfl
  | ok os => exact congrArg Except.ok (List.filterMap_append (l := [o]))

/-- A blank piece adds nothing. -/
lemma entriesFrom_of_blank (h : trim piece = []) :
    entriesFrom index (piece :: ps) = entriesFrom (index + 1) ps := by
  rw [entriesFrom_of_ok (readPiece_of_blank h)]
  cases entriesFrom (index + 1) ps <;> rfl

/-- An entry comes before those of the pieces behind it. -/
lemma entriesFrom_of_isEntry {e : Entry} (h : IsEntry (trim piece) e) :
    entriesFrom index (piece :: ps) = (entriesFrom (index + 1) ps).map (e :: ·) :=
  entriesFrom_of_ok (readPiece_of_isEntry h)

/-- What is wrong with the first piece is reported, whatever the others are. -/
lemma entriesFrom_of_faulty (h : Faulty index (trim piece) failure) :
    entriesFrom index (piece :: ps) = .error failure := by
  have hplaced : readPlaced (piece, index) = .error failure := readPiece_of_faulty h
  rw [entriesFrom, List.zipIdx_cons, List.mapM_cons, hplaced]
  rfl

/-- The entries are those of the pieces with something in them. -/
lemma entriesFrom_eq_ok_iff (index : ℕ) {es : List Entry} : entriesFrom index ps = .ok es ↔
    List.Forall₂ IsEntry ((ps.map trim).filter (· ≠ [])) es := by
  induction ps generalizing index es with
  | nil =>
    rw [List.map_nil, List.filter_nil, List.forall₂_nil_left_iff]
    exact ⟨fun h => (Except.ok.inj h).symm, fun h => congrArg Except.ok h.symm⟩
  | cons p ps ih =>
    rw [List.map_cons]
    rcases piece_cases index (trim p) with hnil | ⟨e, he⟩ | ⟨failure, hfaulty⟩
    · rw [entriesFrom_of_blank hnil, List.filter_cons_of_neg (by simp [hnil]), ih]
    · rw [entriesFrom_of_isEntry he, List.filter_cons_of_pos (by simpa using he.1.ne_nil),
        List.forall₂_cons_left_iff]
      constructor
      · intro h
        cases hes : entriesFrom (index + 1) ps with
        | error failure =>
          rw [hes] at h
          cases h
        | ok es' =>
          rw [hes] at h
          cases h
          exact ⟨e, es', he, (ih _).mp hes, rfl⟩
      · rintro ⟨e', es', he', hes, rfl⟩
        cases he.1.unique he'.1
        rw [(ih _).mpr hes]
        rfl
    · rw [entriesFrom_of_faulty hfaulty, List.filter_cons_of_pos (by simpa using hfaulty.ne_nil),
        List.forall₂_cons_left_iff]
      constructor
      · intro h
        cases h
      · rintro ⟨e, es', he, -, -⟩
        exact absurd he hfaulty.not_isEntry

/-- The first of some trimmed pieces that is neither blank nor an entry has a fault. -/
def FirstFault (index : ℕ) (qs : List (List Char)) (failure : Failure) : Prop :=
  ∃ k piece, qs[k]? = some piece ∧ Faulty (index + k) piece failure ∧
    ∀ earlier ∈ qs.take k, earlier ≠ [] → ∃ e, IsEntry earlier e

lemma firstFault_cons_of_good {q : List Char} {qs : List (List Char)}
    (h : q ≠ [] → ∃ e, IsEntry q e) :
    FirstFault index (q :: qs) failure ↔ FirstFault (index + 1) qs failure := by
  constructor
  · rintro ⟨k, piece, hpiece, hfaulty, hearlier⟩
    cases k with
    | zero =>
      cases hpiece
      obtain ⟨e, he⟩ := h hfaulty.ne_nil
      exact absurd he hfaulty.not_isEntry
    | succ k =>
      rw [← Nat.add_assoc, Nat.add_right_comm] at hfaulty
      rw [List.take_succ_cons] at hearlier
      exact ⟨k, piece, hpiece, hfaulty, (List.forall_mem_cons.mp hearlier).2⟩
  · rintro ⟨k, piece, hpiece, hfaulty, hearlier⟩
    refine ⟨k + 1, piece, hpiece, ?_, ?_⟩
    · rwa [Nat.add_right_comm] at hfaulty
    · rw [List.take_succ_cons]
      exact List.forall_mem_cons.mpr ⟨h, hearlier⟩

lemma firstFault_cons_of_faulty {q : List Char} {qs : List (List Char)} {failure' : Failure}
    (h : Faulty index q failure') : FirstFault index (q :: qs) failure ↔ failure' = failure := by
  constructor
  · rintro ⟨k, piece, hpiece, hfaulty, hearlier⟩
    cases k with
    | zero =>
      cases hpiece
      exact h.unique hfaulty
    | succ k =>
      obtain ⟨e, he⟩ := hearlier q (by simp) h.ne_nil
      exact absurd he h.not_isEntry
  · rintro rfl
    exact ⟨0, q, rfl, h, by simp⟩

/-- The first piece with which something is wrong is reported. -/
lemma entriesFrom_eq_error_iff :
    entriesFrom index ps = .error failure ↔ FirstFault index (ps.map trim) failure := by
  induction ps generalizing index with
  | nil =>
    constructor
    · intro h
      cases h
    · rintro ⟨k, piece, h, -⟩
      cases h
  | cons p ps ih =>
    rw [List.map_cons]
    rcases piece_cases index (trim p) with hnil | ⟨e, he⟩ | ⟨failure', hfaulty⟩
    · rw [entriesFrom_of_blank hnil, firstFault_cons_of_good fun hne => absurd hnil hne, ih]
    · rw [entriesFrom_of_isEntry he, firstFault_cons_of_good fun _ => ⟨e, he⟩, ← ih]
      cases entriesFrom (index + 1) ps <;> simp [Except.map]
    · rw [entriesFrom_of_faulty hfaulty, firstFault_cons_of_faulty hfaulty, Except.error.injEq]

end Pieces

lemma read_eq_ok_iff {text : String} {j : Journal} : read text = .ok j ↔
    List.Forall₂ IsEntry ((pieces text).filter (· ≠ [])) j.entries.toList := by
  rw [pieces, ← entriesFrom_eq_ok_iff 0, read_eq]
  obtain ⟨⟨es⟩⟩ := j
  cases entriesFrom 0 (text.toList.splitOn ';') <;> simp [Except.map]

lemma read_eq_error_iff {text : String} :
    read text = .error failure ↔ FirstFault 0 (pieces text) failure := by
  rw [pieces, ← entriesFrom_eq_error_iff, read_eq]
  cases entriesFrom 0 (text.toList.splitOn ';') <;> simp [Except.map]

/-! ## What is read can be stored -/

/-- The points of an entry fit into thirty-two bits. -/
def Entry.Placed : Entry → Prop
  | .key _ caret => caret.Fits
  | .line a b _ _ => a.Fits ∧ b.Fits

lemma Spells.placed {e : Entry} (h : Spells e piece) : e.Placed := by
  cases h with
  | key _ _ _ _ hcaret => exact hcaret.1
  | line _ ha _ hb => exact ⟨ha.1, hb.1⟩

lemma IsEntry.storable {e : Entry} (h : IsEntry piece e) : e.Storable := by
  obtain ⟨hspells, htypable⟩ := h
  have hplaced := hspells.placed
  cases e with
  | key code caret => exact ⟨isSome_charOfCode?.mpr htypable, hplaced⟩
  | line a b tool last => exact hplaced

/-- **A journal that was read can be stored.** -/
theorem storable_of_read {text : String} {j : Journal} (h : read text = .ok j) :
    ∀ e ∈ j.entries.toList, e.Storable := by
  intro e he
  have hentries := read_eq_ok_iff.mp h
  obtain ⟨i, hi, rfl⟩ := List.getElem_of_mem he
  exact (hentries.get (hentries.length_eq ▸ hi) hi).storable

/-! ## Acceptance -/

/-- **A text is a journal exactly if every piece with something in it is an entry, and its entries
are those of these pieces in order.  Otherwise what is reported is wrong with the first piece that
is none.** -/
theorem read_iff (text : String) :
    ((∃ j, read text = .ok j) ↔ ∀ piece ∈ pieces text, piece ≠ [] → ∃ e, IsEntry piece e) ∧
    (∀ j, read text = .ok j ↔
      List.Forall₂ IsEntry ((pieces text).filter (· ≠ [])) j.entries.toList) ∧
    ∀ failure, read text = .error failure ↔ ∃ index piece, (pieces text)[index]? = some piece ∧
      Faulty index piece failure ∧
      ∀ earlier ∈ (pieces text).take index, earlier ≠ [] → ∃ e, IsEntry earlier e := by
  have hok : ∀ j, read text = .ok j ↔
      List.Forall₂ IsEntry ((pieces text).filter (· ≠ [])) j.entries.toList :=
    fun _ => read_eq_ok_iff
  have herror : ∀ failure, read text = .error failure ↔ FirstFault 0 (pieces text) failure :=
    fun _ => read_eq_error_iff
  refine ⟨⟨?_, ?_⟩, hok, fun failure => ?_⟩
  · rintro ⟨j, hj⟩ piece hpiece hne
    have hmem : piece ∈ (pieces text).filter (· ≠ []) := List.mem_filter.mpr ⟨hpiece, by simpa⟩
    obtain ⟨i, hi, rfl⟩ := List.getElem_of_mem hmem
    have hentries := (hok j).mp hj
    exact ⟨_, hentries.get hi (hentries.length_eq ▸ hi)⟩
  · intro hgood
    cases hread : read text with
    | ok j => exact ⟨j, rfl⟩
    | error failure =>
      obtain ⟨k, piece, hpiece, hfaulty, -⟩ := (herror failure).mp hread
      obtain ⟨e, he⟩ := hgood piece (List.mem_of_getElem? hpiece) hfaulty.ne_nil
      exact absurd he hfaulty.not_isEntry
  · simpa only [FirstFault, Nat.zero_add] using herror failure

/-- The blank piece counts, and the code of no character is behind the first fault. -/
example : read "Key, 65 ,1,2 ;;Mouse,1,2;Key,55296,0,0;" = .error (.malformed 2 "Mouse,1,2") := by
  decide +kernel

end FlowSketch.Journal
