/-
# Journals

A journal keeps what happened in a session: the keys that were typed and the straight
segments of the strokes, in order.  The last segment of a finished stroke is marked.  Two
key codes have a meaning of their own: one says that the typed text is finished, the other
that an open stroke is given up.  All other keys are typed characters.

Main statements: `dropTyped_removed` and `dropTyped_untyped`, on how many typed characters
are forgotten and what is left alone.
-/
import FlowSketch.Raster.Geometry
import FlowSketch.Sketch.Tool

namespace FlowSketch

/-- The key code that finishes a text. -/
def commitKey : Nat := 13

/-- The key code that gives up an open stroke. -/
def cancelKey : Nat := 27

namespace Journal

/-- Something that happened. -/
inductive Entry where
  /-- A key was pressed with the caret at a place. -/
  | key (code : Nat) (caret : Point)
  /-- A segment of a stroke was drawn; `last` marks the last one of a finished stroke. -/
  | line (a b : Point) (tool : Tool) (last : Bool)
deriving DecidableEq, Repr, Inhabited

namespace Entry

/-- Whether an entry is a typed character. -/
def isTyped : Entry → Bool
  | key code _ => code != commitKey && code != cancelKey
  | line .. => false

/-- An entry as a line of text. -/
def encode : Entry → String
  | key code caret =>
    "Key," ++ toString code ++ "," ++ toString caret.x ++ "," ++ toString caret.y ++ ";\n"
  | line a b tool last =>
    "Line," ++ toString a.x ++ "," ++ toString a.y ++ "," ++ toString b.x ++ "," ++
      toString b.y ++ "," ++ tool.name ++ "," ++ (if last then "true" else "false") ++ ";\n"

end Entry

end Journal

/-- A journal. -/
structure Journal where
  /-- What happened, oldest first. -/
  entries : Array Journal.Entry := #[]
deriving DecidableEq, Repr, Inhabited

namespace Journal

/-- The number of entries. -/
def size (j : Journal) : Nat := j.entries.size

/-- Whether nothing happened. -/
def isEmpty (j : Journal) : Bool := j.entries.isEmpty

/-- Something else happens. -/
def push (j : Journal) (e : Entry) : Journal := ⟨j.entries.push e⟩

/-- Marks the latest entry as the last segment of its stroke.  Only a segment without a mark
can get one. -/
def closeLine (j : Journal) : Bool × Journal :=
  match j.entries.back? with
  | some (.line a b tool false) => (true, ⟨j.entries.pop.push (.line a b tool true)⟩)
  | _ => (false, j)

/-- Drops typed characters, at most so many, from entries that begin with the latest: the
entries that stay, and the number of those that go. -/
def dropTyped : Nat → List Entry → List Entry × Nat
  | 0, es => (es, 0)
  | _ + 1, [] => ([], 0)
  | n + 1, e :: es =>
    if e.isTyped then
      let (kept, removed) := dropTyped n es
      (kept, removed + 1)
    else
      let (kept, removed) := dropTyped (n + 1) es
      (e :: kept, removed)

/-- Forgets the latest typed characters, at most so many.  Commits, cancels and segments
stay. -/
def forgetTyped (j : Journal) (count : Nat) : Nat × Journal :=
  let (kept, removed) := dropTyped count j.entries.toList.reverse
  (removed, ⟨kept.reverse.toArray⟩)

/-- A journal as text, one entry on a line. -/
def encode (j : Journal) : String := j.entries.foldl (fun text e => text ++ e.encode) ""

/-! ## Small facts -/

@[simp] theorem toList_entries_push (j : Journal) (e : Entry) :
    (j.push e).entries.toList = j.entries.toList ++ [e] := by
  simp [push]

@[simp] theorem encode_push (j : Journal) (e : Entry) :
    (j.push e).encode = j.encode ++ e.encode := by
  simp [push, encode]

/-- A journal that ends with an open segment ends with that segment closed. -/
theorem closeLine_push_line (j : Journal) (a b : Point) (tool : Tool) :
    (j.push (.line a b tool false)).closeLine = (true, j.push (.line a b tool true)) := by
  simp [closeLine, push]

/-- As many characters go as there are, and no more than asked for. -/
theorem dropTyped_removed (n : Nat) (es : List Entry) :
    (dropTyped n es).2 = min n (es.countP (·.isTyped)) := by
  induction es generalizing n with
  | nil => cases n <;> simp [dropTyped]
  | cons e es ih =>
    cases n with
    | zero => simp [dropTyped]
    | succ n =>
      unfold dropTyped
      split
      · rename_i h
        simp only [ih, List.countP_cons, h, if_true]
        omega
      · rename_i h
        simp only [ih, List.countP_cons, h]
        simp

/-- What is no typed character stays, in its order. -/
theorem dropTyped_untyped (n : Nat) (es : List Entry) :
    (dropTyped n es).1.filter (!·.isTyped) = es.filter (!·.isTyped) := by
  induction es generalizing n with
  | nil => cases n <;> rfl
  | cons e es ih =>
    cases n with
    | zero => rfl
    | succ n =>
      unfold dropTyped
      split
      · rename_i h
        simp [ih, h]
      · rename_i h
        simp [ih, h]

end Journal

end FlowSketch
