/-
# Identifiers of nodes and flows

Nodes and flows are numbered in the order in which they come into being.  Number 0 is the
root scope, which every graph has from the start.

A node has a spoken name, its decimal digits written out as words, so that the name can
stand in a program text: letters only, and never the beginning of a keyword.
-/

namespace FlowSketch

/-- A node of a graph, by the order of creation. -/
structure NodeId where
  /-- How many nodes are older. -/
  index : Nat
deriving DecidableEq, Repr, Hashable, Inhabited

/-- A flow of a graph, by the order of registration. -/
structure FlowId where
  /-- How many flows are older. -/
  index : Nat
deriving DecidableEq, Repr, Hashable, Inhabited

/-- The English word for a decimal digit. -/
def digitWord (d : Char) : String :=
  match d with
  | '0' => "zero"
  | '1' => "one"
  | '2' => "two"
  | '3' => "three"
  | '4' => "four"
  | '5' => "five"
  | '6' => "six"
  | '7' => "seven"
  | '8' => "eight"
  | _ => "nine"

namespace NodeId

/-- The root scope. -/
def root : NodeId := ⟨0⟩

/-- Whether a node is the root scope. -/
def isRoot (id : NodeId) : Bool := id == root

/-- The characters of the spoken name: the words for the decimal digits in turn. -/
def nameChars (id : NodeId) : List Char :=
  (Nat.toDigits 10 id.index).flatMap fun d => (digitWord d).toList

/-- The spoken name of a node (`12` is `onetwo`). -/
def name (id : NodeId) : String := String.ofList id.nameChars

/-- A node as messages number it. -/
def numbered (id : NodeId) : String := "#" ++ toString id.index

@[simp] theorem toList_name (id : NodeId) : id.name.toList = id.nameChars := by
  simp [name]

@[simp] theorem isRoot_root : isRoot root = true := rfl

theorem isRoot_iff {id : NodeId} : id.isRoot = true ↔ id = root := by
  simp [isRoot]

end NodeId

end FlowSketch
