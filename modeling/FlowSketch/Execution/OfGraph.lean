/-
# Running the program of a graph

A graph is run by compiling it, reading its program text back and running that program.
-/
import FlowSketch.Compile.Listing
import FlowSketch.Execution.Run

namespace FlowSketch

/-- Why the program of a graph does not run to its end. -/
inductive SketchError where
  /-- There is no program. -/
  | problem (problem : Problem)
  /-- There is one, and its text stops early. -/
  | program (error : ProgramError)
deriving DecidableEq, Repr

/-- The words for an error. -/
def SketchError.message : SketchError → String
  | .problem p => p.message
  | .program e => e.message

/-- Compiles a graph and runs its program. -/
def Graph.run (g : Graph) (limit : Nat) (inputs : List String) : RunReport SketchError :=
  match g.compile with
  | .error p => .notBegun (.problem p)
  | .ok text => (Program.runText text limit inputs).mapError .program

end FlowSketch
